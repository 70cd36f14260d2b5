import RecordGraph.Service.ResponseStream
/-!
A schema in service together with its hub and the streams of its subscribers, as one machine that
takes a step at a time. Whatever the host keeps lasts from step to step.
-/

namespace RecordGraph

/-- The streams of a service. -/
structure Session where
  hub : Hub
  streams : Entries ResponseStream := []

/-- One step of a session. -/
inductive SessionStep where
  | run (request : Request)
  /-- Opens a stream and asks it for the first time. -/
  | subscribe (id : String) (request : Request)
  | next (id : String)
  | drop (id : String)
  | publish (channel : String) (message : Value)
  | close (channel : String)
  /-- Counts the subscriptions of a channel and all channels. -/
  | count (channel : String)

/-- What a step answers. -/
inductive SessionResult where
  | response (response : Response)
  | poll (poll : Poll Response)
  | missing
  | done (changed : Bool)
  | reached (count : Nat)
  | counts (subscribers channels : Nat)

namespace Session

/-- Tells all streams that something happened on a channel. -/
def wake (x : Session) (channel : String) : Session :=
  { x with streams := x.streams.map fun (id, stream) => (id, stream.wake channel) }

/-- Installs a stream under a name, and drops the one that had it. -/
def install (x : Session) (id : String) (stream : ResponseStream) : Session :=
  let hub := match Entries.get? x.streams id with
    | some old => old.drop x.hub
    | none => x.hub
  { hub := hub, streams := Entries.insert x.streams id stream }

/-- Drops all streams. -/
def dropAll (x : Session) : Session :=
  { hub := x.streams.foldl (fun h (_, stream) => stream.drop h) x.hub }

/-- Takes a step. -/
def step (s : Service σ) (x : Session) : SessionStep → StateM σ (Session × SessionResult)
  | .run request => do
    let response ← s.run request
    return (x, .response response)
  | .subscribe id request => do
    let (hub, stream, poll) ← s.poll x.hub (.fresh request)
    return (install { x with hub := hub } id stream, .poll poll)
  | .next id => do
    match Entries.get? x.streams id with
    | none => return (x, .missing)
    | some stream =>
      let (hub, stream, poll) ← s.poll x.hub stream
      return ({ hub := hub, streams := Entries.insert x.streams id stream }, .poll poll)
  | .drop id =>
    match Entries.get? x.streams id with
    | none => return (x, .done false)
    | some stream =>
      return ({ hub := stream.drop x.hub, streams := Entries.erase x.streams id }, .done true)
  | .publish channel message =>
    let (hub, count) := x.hub.publish channel message
    return (wake { x with hub := hub } channel, .reached count)
  | .close channel =>
    let (hub, closed) := x.hub.close channel
    return (wake { x with hub := hub } channel, .done closed)
  | .count channel =>
    return (x, .counts (x.hub.subscriberCount channel) x.hub.channelCount)

end Session

end RecordGraph
