import RecordGraph.Hub.Channels
import RecordGraph.Resolve.Handler
/-!
The messages of a subscription field. The channel of a field is its host name; each message goes
through the message handler that the root value has for the field. A handler that fails ends the
stream after its failure was delivered.
-/

namespace RecordGraph

/-- Where a field stream stands. -/
inductive StreamPhase where
  | live
  /-- A failure was delivered, the subscription is not dropped yet. -/
  | failed
  /-- Ended, and the subscription is dropped. -/
  | over
  deriving DecidableEq, Repr

/-- The messages of one field for one subscriber. -/
structure FieldStream where
  root : Value
  info : FieldInfo
  subscription : Subscription
  phase : StreamPhase := .live

namespace FieldStream

/-- Subscribes to the channel of a field. -/
def start (h : Hub) (root : Value) (info : FieldInfo) : Hub × FieldStream :=
  let (h, s) := h.subscribe info.fieldName
  (h, { root := root, info := info, subscription := s })

/-- What a subscriber receives for a message. -/
def shape (host : Host σ) (f : FieldStream) (message : Value) : Hosted σ Value :=
  match f.root.messageHandler? f.info.fieldName with
  | some handler => handler.value host f.info [("message", message)]
  | none => return message

/-- Ends a stream and drops its subscription. -/
def finish (h : Hub) (f : FieldStream) : Hub × FieldStream :=
  (h.drop f.subscription, { f with phase := .over })

/-- Drops a stream. -/
def drop (h : Hub) (f : FieldStream) : Hub :=
  match f.phase with
  | .over => h
  | _ => h.drop f.subscription

/-- Asks for the next item of a stream. -/
def poll (host : Host σ) (h : Hub) (f : FieldStream) :
    StateM σ (Hub × FieldStream × Poll (Except FieldError Value)) := do
  match f.phase with
  | .over => return (h, f, .ended)
  | .failed =>
    let (h, f) := f.finish h
    return (h, f, .ended)
  | .live =>
    match h.poll f.subscription with
    | (s, .item message) =>
      let item ← (f.shape host message).run
      let phase := match item with
        | .ok _ => StreamPhase.live
        | .error _ => .failed
      return (h, { f with subscription := s, phase := phase }, .item item)
    | (s, .pending) => return (h, { f with subscription := s }, .pending)
    | (s, .ended) =>
      let (h, f) := finish h { f with subscription := s }
      return (h, f, .ended)

end FieldStream

end RecordGraph
