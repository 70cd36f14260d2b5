import RecordGraph.Value.Host
/-!
Publishing and subscribing over named channels. A channel is open while someone is subscribed to it;
opening it starts a topic of its own, so a channel that was closed and opened again carries none of
the old messages. A subscriber that falls behind by more than a topic keeps goes on with the oldest
message kept.
-/

namespace RecordGraph

/-- What was published since a channel was opened, and how many subscriptions are alive. -/
structure Topic where
  log : List Value := []
  subscribers : Nat := 0

/-- The topics opened so far, by number, and the topics of the open channels. -/
structure Hub where
  capacity : Nat
  topics : List Topic := []
  channels : Entries Nat := []

/-- One subscriber's place in a topic. -/
structure Subscription where
  channel : String
  topic : Nat
  /-- The number of the next message to read. -/
  position : Nat
  deriving DecidableEq, Repr

/-- What a subscriber finds when it asks for the next message. -/
inductive Poll (α : Type u) where
  | item (value : α)
  | pending
  | ended

namespace Hub

/-- How many messages a topic keeps: the capacity, at least one, rounded up to a power of two. -/
def kept (h : Hub) : Nat := (max 1 h.capacity).nextPowerOfTwo

/-- A topic by number. -/
def topic (h : Hub) (n : Nat) : Topic := h.topics.getD n {}

/-- Changes a topic. -/
def modifyTopic (h : Hub) (n : Nat) (f : Topic → Topic) : Hub :=
  { h with topics := h.topics.modify n f }

/-- The topic of a channel, which is opened unless it is open. -/
def openChannel (h : Hub) (channel : String) : Hub × Nat :=
  match Entries.get? h.channels channel with
  | some n => (h, n)
  | none =>
    let n := h.topics.length
    ({ h with topics := h.topics ++ [{}], channels := Entries.insert h.channels channel n }, n)

/-- Subscribes to a channel, from the next message on. -/
def subscribe (h : Hub) (channel : String) : Hub × Subscription :=
  let (h, n) := h.openChannel channel
  (h.modifyTopic n fun t => { t with subscribers := t.subscribers + 1 },
    ⟨channel, n, (h.topic n).log.length⟩)

/-- Publishes a message and answers how many subscribers it reaches. Without subscribers it is
lost. -/
def publish (h : Hub) (channel : String) (message : Value) : Hub × Nat :=
  match Entries.get? h.channels channel with
  | none => (h, 0)
  | some n =>
    let reached := (h.topic n).subscribers
    if reached = 0 then (h, 0)
    else (h.modifyTopic n fun t => { t with log := t.log ++ [message] }, reached)

/-- Closes a channel; its subscribers still get what was published before. -/
def close (h : Hub) (channel : String) : Hub × Bool :=
  ({ h with channels := Entries.erase h.channels channel }, Entries.contains h.channels channel)

/-- Whether the channel of a subscription is still open with the same topic. -/
def isOpen (h : Hub) (s : Subscription) : Bool := Entries.get? h.channels s.channel == some s.topic

/-- Asks for the next message of a subscription. -/
def poll (h : Hub) (s : Subscription) : Subscription × Poll Value :=
  let log := (h.topic s.topic).log
  let position := max s.position (log.length - h.kept)
  match log[position]? with
  | some message => ({ s with position := position + 1 }, .item message)
  | none => (s, if h.isOpen s then .pending else .ended)

/-- First half of dropping a subscription: the channel is closed if this is its last one. -/
def withdraw (h : Hub) (s : Subscription) : Hub :=
  if h.isOpen s ∧ (h.topic s.topic).subscribers ≤ 1 then
    { h with channels := Entries.erase h.channels s.channel }
  else h

/-- Second half of dropping a subscription: it is no longer counted. -/
def release (h : Hub) (s : Subscription) : Hub :=
  h.modifyTopic s.topic fun t => { t with subscribers := t.subscribers - 1 }

/-- Drops a subscription. -/
def drop (h : Hub) (s : Subscription) : Hub := (h.withdraw s).release s

/-- How many channels are open. -/
def channelCount (h : Hub) : Nat := h.channels.length

/-- How many subscriptions of an open channel are alive. -/
def subscriberCount (h : Hub) (channel : String) : Nat :=
  match Entries.get? h.channels channel with
  | some n => (h.topic n).subscribers
  | none => 0

end Hub

end RecordGraph
