import RecordGraph.Proofs.Hub.Reading
/-! Runs of an exchange, and the mailboxes of its listeners. A run takes steps one after the other and writes
down what each answered; from that alone it follows what every listener is owed. Main statement: after any
run the listeners stand to their mailboxes as readers of their topics, and the hub counts exactly those that
are alive. One lemma a step, then the run by induction. -/

namespace RecordGraph

/-- A step of an exchange and what it answered. -/
abbrev ExchangeEvent := ExchangeStep × ExchangeResult

namespace Exchange

/-- Takes one more step and writes down what it answered. -/
def record (host : Host σ) (soFar : Exchange × List ExchangeEvent) (s : ExchangeStep) :
    StateM σ (Exchange × List ExchangeEvent) := do
  let (x, answer) ← soFar.1.step host s
  return (x, soFar.2 ++ [(s, answer)])

/-- Takes steps one after the other, from an empty hub on. -/
def run (host : Host σ) (capacity : Nat) (steps : List ExchangeStep) :
    StateM σ (Exchange × List ExchangeEvent) :=
  steps.foldlM (record host) ({ hub := { capacity := capacity } }, [])

end Exchange

/-- The mailboxes of listeners, by name. -/
abbrev Ledger := Entries Mailbox

namespace Ledger

/-- What an event changes in the mailboxes. -/
def see (kept : Nat) (l : Ledger) : ExchangeEvent → Ledger
  | (.subscribe id channel, _) => Entries.insert l id { channel := channel }
  | (.subscribeField id root info, _) =>
    Entries.insert l id { channel := info.fieldName, reader := .stream root info }
  | (.publish channel message, _) => Entries.each (Mailbox.receive channel message) l
  | (.next id, answer) =>
    match Entries.get? l id with
    | some b => Entries.insert l id (b.answered kept answer)
    | none => l
  | (.drop id, _) => Entries.erase l id
  | (.close channel, _) => Entries.each (Mailbox.shut channel) l
  | (.count _, _) => l

/-- The mailboxes after some events. -/
def ofEvents (kept : Nat) (events : List ExchangeEvent) : Ledger := events.foldl (see kept) []

end Ledger

namespace Listener

/-- The subscription that a listener was made with. -/
def subscription : Listener → Subscription
  | .channel s => s
  | .field f => f.subscription

/-- Where a listener stands; a plain one never ends by itself. -/
def phase : Listener → StreamPhase
  | .channel _ => .live
  | .field f => f.phase

/-- How a listener takes its messages. -/
def reader : Listener → Reader
  | .channel _ => .plain
  | .field f => .stream f.root f.info

/-- The subscription of a listener, unless it was dropped already. -/
def alive? (l : Listener) : Option Subscription :=
  if l.phase = .over then none else some l.subscription

theorem alive?_of_ne {l : Listener} (h : l.phase ≠ .over) : l.alive? = some l.subscription := if_neg h

theorem alive?_of_over {l : Listener} (h : l.phase = .over) : l.alive? = none := if_pos h

/-- Giving up a listener drops its subscription if it is alive. -/
theorem drop_eq (h : Hub) (l : Listener) : l.drop h = h.without l.alive? := by
  cases l with
  | channel s => rfl
  | field f =>
    obtain ⟨root, info, s, phase⟩ := f
    cases phase <;> rfl

end Listener

namespace Mailbox

/-- What a mailbox shows of the phase of its stream. A stream that is over without a failure has delivered
everything, and its channel is closed. -/
def InPhase (kept : Nat) (b : Mailbox) : StreamPhase → Prop
  | .live => b.finished = false ∧ b.failed = false
  | .failed => b.finished = false ∧ b.failed = true
  | .over => b.finished = true ∧ (b.failed = false → b.closed = true ∧ b.next? kept = none)

/-- What a plain subscriber was given are the messages with the numbers given. -/
def Received (b : Mailbox) : Prop :=
  b.reader = .plain → b.received.map some = b.given.map fun n => b.sent[n]?

end Mailbox

/-- A listener of a hub and what it is owed. -/
structure Listener.Mirrors (h : Hub) (l : Listener) (b : Mailbox) : Prop where
  orderly : b.Orderly h.kept
  received : b.Received
  reader : l.reader = b.reader
  phase : b.InPhase h.kept l.phase
  reads : l.phase ≠ .over → h.Reads l.subscription b

namespace Exchange

/-- The subscriptions alive. -/
def live (listeners : Entries Listener) : List Subscription := listeners.filterMap fun entry => entry.2.alive?

/-- The listeners of an exchange stand to their mailboxes as they should, and the hub counts them. -/
structure Mirrors (x : Exchange) (l : Ledger) : Prop where
  distinct : (x.listeners.map Prod.fst).Nodup
  ledger_distinct : (l.map Prod.fst).Nodup
  counts : x.hub.Counts (live x.listeners)
  listeners : Entries.Agree (Listener.Mirrors x.hub) x.listeners l

section
variable {listeners : Entries Listener} {id : String} {a : Listener}

theorem live_cons (id : String) (a : Listener) (rest : Entries Listener) :
    live ((id, a) :: rest) = a.alive?.toList ++ live rest := by
  rw [live, List.filterMap_cons]
  cases a.alive? <;> rfl

theorem live_perm (hn : (listeners.map Prod.fst).Nodup) (id : String) : (live listeners).Perm
    (((Entries.get? listeners id).bind Listener.alive?).toList ++ live (Entries.erase listeners id)) := by
  cases h : Entries.get? listeners id with
  | none => rw [Entries.erase_of_get?_eq_none h, Option.bind_none, Option.toList_none, List.nil_append]
  | some a =>
    rw [Option.bind_some, ← live_cons id]
    exact (Entries.perm_erase hn h).filterMap _

theorem live_insert_perm (hn : (listeners.map Prod.fst).Nodup) (id : String) (a : Listener) :
    (live (Entries.insert listeners id a)).Perm (a.alive?.toList ++ live (Entries.erase listeners id)) := by
  rw [← live_cons id]
  exact (Entries.insert_perm hn id a).filterMap _

theorem mem_live (h : Entries.get? listeners id = some a) (ha : a.phase ≠ .over) :
    a.subscription ∈ live listeners :=
  List.mem_filterMap.mpr ⟨_, Entries.mem_of_get? h, Listener.alive?_of_ne ha⟩

/-- What is installed under a name takes the place of what was there. -/
theorem install_eq (x : Exchange) (id : String) (a : Listener) : x.install id a =
    { hub := x.hub.without ((Entries.get? x.listeners id).bind Listener.alive?)
      listeners := Entries.insert x.listeners id a } := by
  rw [install]
  cases Entries.get? x.listeners id with
  | none => rfl
  | some old => rw [Option.bind_some, ← Listener.drop_eq]

end

namespace Mirrors

variable {x : Exchange} {l : Ledger} {h : Hub} {id : String} {a : Listener} {b : Mailbox}

/-- A listener and its mailbox take a place; nothing that is done to the hub disturbs the others. -/
theorem put (hx : x.Mirrors l) (hc : h.Counts (a.alive?.toList ++ live (Entries.erase x.listeners id)))
    (hothers : ∀ {c : Listener} {m : Mailbox},
      (c.phase ≠ .over → c.subscription ∈ live (Entries.erase x.listeners id)) →
      c.Mirrors x.hub m → c.Mirrors h m) (ha : a.Mirrors h b) :
    Mirrors { hub := h, listeners := Entries.insert x.listeners id a } (Entries.insert l id b) where
  distinct := Entries.nodup_insert hx.distinct
  ledger_distinct := Entries.nodup_insert hx.ledger_distinct
  counts := hc.perm (live_insert_perm hx.distinct id a).symm
  listeners := hx.listeners.insert
    (fun hne hget hm => hothers (fun hp => mem_live (by rw [Entries.get?_erase, if_neg hne, hget]) hp) hm) ha

/-- A listener and its mailbox go. -/
theorem remove (hx : x.Mirrors l) (hc : h.Counts (live (Entries.erase x.listeners id)))
    (hothers : ∀ {c : Listener} {m : Mailbox},
      (c.phase ≠ .over → c.subscription ∈ live (Entries.erase x.listeners id)) →
      c.Mirrors x.hub m → c.Mirrors h m) :
    Mirrors { hub := h, listeners := Entries.erase x.listeners id } (Entries.erase l id) where
  distinct := Entries.nodup_erase hx.distinct id
  ledger_distinct := Entries.nodup_erase hx.ledger_distinct id
  counts := hc
  listeners := hx.listeners.erase fun hne hget hm =>
    hothers (fun hp => mem_live (by rw [Entries.get?_erase, if_neg hne, hget]) hp) hm

/-- All mailboxes change together. -/
theorem everyone {f : Mailbox → Mailbox} (hx : x.Mirrors l) (hc : h.Counts (live x.listeners))
    (hall : ∀ {c : Listener} {m : Mailbox}, (c.phase ≠ .over → c.subscription ∈ live x.listeners) →
      c.Mirrors x.hub m → c.Mirrors h (f m)) :
    Mirrors { hub := h, listeners := x.listeners } (Entries.each f l) where
  distinct := hx.distinct
  ledger_distinct := by
    rw [Entries.map_fst_each]
    exact hx.ledger_distinct
  counts := hc
  listeners := hx.listeners.each fun hget hm => hall (fun hp => mem_live hget hp) hm

end Mirrors

end Exchange

namespace FieldStream

/-! What a stream answers, by its phase. -/

variable {host : Host σ} {h : Hub} {f : FieldStream} {message : Value}

theorem poll_of_over (hf : f.phase = .over) : f.poll host h = pure (h, f, .ended) := by
  rw [poll, hf]

theorem poll_of_failed (hf : f.phase = .failed) :
    f.poll host h = pure (h.drop f.subscription, { f with phase := .over }, .ended) := by
  rw [poll, hf]
  rfl

theorem poll_of_item (hf : f.phase = .live) (hp : (h.poll f.subscription).2 = .item message) :
    f.poll host h = (fun item => (h, { f with
        subscription := (h.poll f.subscription).1
        phase := match item with | .ok _ => .live | .error _ => .failed }, .item item)) <$>
      (f.shape host message).run := by
  rcases hs : h.poll f.subscription with ⟨s, p⟩
  rw [hs] at hp
  cases hp
  simp only [poll, hf, hs]
  rfl

theorem poll_of_pending (hf : f.phase = .live) (hp : (h.poll f.subscription).2 = .pending) :
    f.poll host h = pure (h, { f with subscription := (h.poll f.subscription).1 }, .pending) := by
  rcases hs : h.poll f.subscription with ⟨s, p⟩
  rw [hs] at hp
  cases hp
  simp only [poll, hf, hs]

theorem poll_of_ended (hf : f.phase = .live) (hp : (h.poll f.subscription).2 = .ended) : f.poll host h =
    pure (h.drop (h.poll f.subscription).1,
      { f with subscription := (h.poll f.subscription).1, phase := .over }, .ended) := by
  rcases hs : h.poll f.subscription with ⟨s, p⟩
  rw [hs] at hp
  cases hp
  simp only [poll, hf, hs]
  rfl

end FieldStream

end RecordGraph
