import RecordGraph.Hub.FieldStream
/-!
A hub together with the subscriptions made on it, as one machine that takes a step at a time. A
subscription made under a name in use takes its place before the old one is dropped.
-/

namespace RecordGraph

/-- A subscription that someone holds. -/
inductive Listener where
  /-- To the messages of a channel as they are. -/
  | channel (subscription : Subscription)
  /-- To the messages of a subscription field. -/
  | field (stream : FieldStream)

/-- A hub and its listeners by name. -/
structure Exchange where
  hub : Hub
  listeners : Entries Listener := []

/-- One step of an exchange. -/
inductive ExchangeStep where
  | subscribe (id channel : String)
  | subscribeField (id : String) (root : Value) (info : FieldInfo)
  | publish (channel : String) (message : Value)
  | next (id : String)
  | drop (id : String)
  | close (channel : String)
  | count (channel : String)

/-- What a step answers. -/
inductive ExchangeResult where
  | subscribed (channel : String)
  | fieldSubscribed
  | reached (count : Nat)
  | message (poll : Poll Value)
  | fieldItem (poll : Poll (Except FieldError Value))
  | missing
  | done (changed : Bool)

namespace Listener

/-- Gives up a listener. -/
def drop (h : Hub) : Listener → Hub
  | .channel s => h.drop s
  | .field f => f.drop h

end Listener

namespace Exchange

/-- Installs a listener under a name, and drops the one that had it. -/
def install (x : Exchange) (id : String) (l : Listener) : Exchange :=
  let hub := match Entries.get? x.listeners id with
    | some old => old.drop x.hub
    | none => x.hub
  { hub := hub, listeners := Entries.insert x.listeners id l }

/-- Takes a step. -/
def step (host : Host σ) (x : Exchange) : ExchangeStep → StateM σ (Exchange × ExchangeResult)
  | .subscribe id channel =>
    let (hub, s) := x.hub.subscribe channel
    return (install { x with hub := hub } id (.channel s), .subscribed s.channel)
  | .subscribeField id root info =>
    let (hub, f) := FieldStream.start x.hub root info
    return (install { x with hub := hub } id (.field f), .fieldSubscribed)
  | .publish channel message =>
    let (hub, count) := x.hub.publish channel message
    return ({ x with hub := hub }, .reached count)
  | .next id => do
    match Entries.get? x.listeners id with
    | none => return (x, .missing)
    | some (.channel s) =>
      let (s, poll) := x.hub.poll s
      return ({ x with listeners := Entries.insert x.listeners id (.channel s) }, .message poll)
    | some (.field f) =>
      let (hub, f, poll) ← f.poll host x.hub
      return ({ hub := hub, listeners := Entries.insert x.listeners id (.field f) },
        .fieldItem poll)
  | .drop id =>
    match Entries.get? x.listeners id with
    | none => return (x, .done false)
    | some l =>
      return ({ hub := l.drop x.hub, listeners := Entries.erase x.listeners id }, .done true)
  | .close channel =>
    let (hub, closed) := x.hub.close channel
    return ({ x with hub := hub }, .done closed)
  | .count channel => return (x, .reached (x.hub.subscriberCount channel))

end Exchange

end RecordGraph
