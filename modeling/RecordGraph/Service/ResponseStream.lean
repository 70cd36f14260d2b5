import RecordGraph.Hub.FieldStream
import RecordGraph.Service.Basic
/-!
Answers to subscriptions. Every field of a subscription listens to its own channel, and every
message becomes a response. Fields take turns: one that gave a response comes last next time, and
one that has nothing to give is asked again after something happened on its channel. Any other
request is answered by one response.
-/

namespace RecordGraph

/-- A field of a subscription. -/
structure SubscribedField where
  key : String
  field : WireField
  arguments : List (String × Literal)
  plans : List Plan

/-- Where a field of a subscription stands. -/
inductive FieldPhase where
  /-- Not asked yet. -/
  | fresh
  | live (stream : FieldStream)
  /-- A failure was given; the field ends when it is asked again. -/
  | failed (stream : Option FieldStream)

/-- A field of a subscription and where it stands. -/
structure Track where
  subscribed : SubscribedField
  phase : FieldPhase := .fresh

/-- The fields of one subscription: those to be asked, in order, and those that wait. -/
structure Turns where
  ready : List Track := []
  waiting : List Track := []

/-- A stream of responses. -/
inductive ResponseStream where
  /-- Not asked yet. -/
  | fresh (request : Request)
  | live (request : Request) (prepared : Prepared) (turns : Turns)
  | over

namespace FieldPhase

/-- The channel that a field listens to. -/
def channel? : FieldPhase → Option String
  | .live f | .failed (some f) => some f.subscription.channel
  | _ => none

/-- Gives up a field. -/
def drop (h : Hub) : FieldPhase → Hub
  | .live f | .failed (some f) => f.drop h
  | _ => h

end FieldPhase

namespace Plan

/-- The fields that are subscribed to: those of the root itself, not those in groups. -/
def subscribed (m : Model) (root : String) : Plan → Option SubscribedField
  | .field key name arguments below =>
    (m.field? root name).map fun field => ⟨key, field, arguments, below⟩
  | .group _ _ => none

end Plan

namespace Service

/-- What handlers of messages are told. -/
def messageInfo (s : Service σ) (r : Request) (f : WireField) : FieldInfo :=
  { fieldName := f.hostName, wireName := f.name, parentType := s.rootName .subscription
    operation := .subscription, context := r.context }

/-- The response to a failure of a subscribed field. -/
def failedResponse (f : SubscribedField) (error : FieldError) : Response :=
  { errors := [⟨.field error, [.key f.key]⟩] }

/-- The response to a message, and whether it is the last one. Errors below the field itself are
not told. -/
def messageResponse (s : Service σ) (r : Request) (p : Prepared) (f : SubscribedField)
    (message : Value) : StateM σ (Response × Bool) := do
  match s.model.encode f.field.type message with
  | .error error => return (failedResponse f error, true)
  | .ok output =>
    let below := (s.execution r p).below f.plans
    let outcome ← s.model.complete below f.field.type output [.key f.key]
    match outcome.result with
    | some value => return ({ data := .object [(f.key, value)] }, false)
    | none => return ({ errors := outcome.errors.getLast?.toList }, true)

/-- Asks a field that listens. -/
def pollStream (s : Service σ) (r : Request) (p : Prepared) (f : SubscribedField) (h : Hub)
    (stream : FieldStream) : StateM σ (Hub × FieldPhase × Poll Response) := do
  match ← stream.poll s.host h with
  | (h, stream, .item (.ok message)) =>
    let (response, last) ← s.messageResponse r p f message
    return (h, if last then .failed (some stream) else .live stream, .item response)
  | (h, stream, .item (.error error)) =>
    return (h, .failed (some stream), .item (failedResponse f error))
  | (h, stream, .pending) => return (h, .live stream, .pending)
  | (h, stream, .ended) => return (h, .live stream, .ended)

/-- Asks a field of a subscription. -/
def pollTrack (s : Service σ) (r : Request) (p : Prepared) (h : Hub) (t : Track) :
    StateM σ (Hub × Track × Poll Response) := do
  let f := t.subscribed
  match t.phase with
  | .fresh =>
    match Literal.fieldValues p.lookUp f.arguments with
    | .error missing =>
      return (h, ⟨f, .failed none⟩, .item { errors := [⟨.noVariable missing, []⟩] })
    | .ok _ =>
      let (h, stream) := FieldStream.start h (s.rootValue r .subscription) (s.messageInfo r f.field)
      let (h, phase, poll) ← s.pollStream r p f h stream
      return (h, ⟨f, phase⟩, poll)
  | .live stream =>
    let (h, phase, poll) ← s.pollStream r p f h stream
    return (h, ⟨f, phase⟩, poll)
  | .failed _ => return (t.phase.drop h, t, .ended)

/-- Asks the fields of a subscription in turn, up to the first response. -/
def pollTurns (s : Service σ) (r : Request) (p : Prepared) (h : Hub) (waiting : List Track) :
    List Track → StateM σ (Hub × Turns × Poll Response)
  | [] => return (h, ⟨[], waiting⟩, if waiting.isEmpty then .ended else .pending)
  | t :: rest => do
    match ← s.pollTrack r p h t with
    | (h, t, .item response) => return (h, ⟨rest ++ [t], waiting⟩, .item response)
    | (h, t, .pending) => s.pollTurns r p h (waiting ++ [t]) rest
    | (h, _, .ended) => s.pollTurns r p h waiting rest

/-- The fields of a prepared subscription. -/
def turns (s : Service σ) (p : Prepared) : Turns :=
  { ready := (p.plans.filterMap (Plan.subscribed s.model (s.rootName .subscription))).map
      fun f => { subscribed := f } }

/-- Asks a live stream. -/
def pollLive (s : Service σ) (r : Request) (p : Prepared) (turns : Turns) (h : Hub) :
    StateM σ (Hub × ResponseStream × Poll Response) := do
  let (h, turns, poll) ← s.pollTurns r p h turns.waiting turns.ready
  match poll with
  | .ended => return (h, .over, .ended)
  | poll => return (h, .live r p turns, poll)

/-- Asks a stream for the next response. -/
def poll (s : Service σ) (h : Hub) : ResponseStream →
    StateM σ (Hub × ResponseStream × Poll Response)
  | .over => return (h, .over, .ended)
  | .live r p turns => s.pollLive r p turns h
  | .fresh r =>
    if s.model.subscription.isNone then return (h, .over, .item (.rejected .noSubscriptions))
    else
      match s.prepare r with
      | .error cause => return (h, .over, .item (.rejected cause))
      | .ok p =>
        if p.kind = .subscription then s.pollLive r p (s.turns p) h
        else do
          let response ← s.respond r p
          return (h, .over, .item response)

end Service

namespace ResponseStream

/-- What happened on a channel gives another turn to the fields that wait for it. -/
def wake (channel : String) : ResponseStream → ResponseStream
  | .live r p turns =>
    let (woken, asleep) := turns.waiting.partition fun t => t.phase.channel? == some channel
    .live r p ⟨turns.ready ++ woken, asleep⟩
  | stream => stream

/-- Gives up a stream. -/
def drop (h : Hub) : ResponseStream → Hub
  | .live _ _ turns => (turns.ready ++ turns.waiting).foldl (fun h t => t.phase.drop h) h
  | _ => h

end ResponseStream

end RecordGraph
