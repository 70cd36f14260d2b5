import RecordGraph.Proofs.Hub.Run
/-! Delivery. Every subscriber of a channel is given the messages of its own mailbox, whatever the others
do: the oldest that waits whenever it asks, in the order in which they were published and each at most once.
Messages are lost to those alone who fall behind by more than the capacity of the hub. -/

namespace RecordGraph

/-- How a subscriber with a mailbox is answered when it asks for the next message, and what it was given up to
then, on a hub of some capacity. -/
structure Mailbox.Delivers (capacity : Nat) (b : Mailbox) (answer : Poll Value) : Prop where
  item_iff : ∀ message, answer = .item message ↔
    ∃ n, b.sent[n]? = some message ∧ b.Oldest (max 1 capacity).nextPowerOfTwo n
  pending_iff : answer = .pending ↔ (∀ n, ¬ b.Waiting (max 1 capacity).nextPowerOfTwo n) ∧ b.closed = false
  ended_iff : answer = .ended ↔ (∀ n, ¬ b.Waiting (max 1 capacity).nextPowerOfTwo n) ∧ b.closed = true
  ordered : b.given.Pairwise (· < ·)
  received : b.received.map some = b.given.map fun n => b.sent[n]?
  lossless : b.lag ≤ max 1 capacity → b.received <+: b.sent ∧
    ∀ n < b.sent.length, n ∈ b.given ∨ b.Waiting (max 1 capacity).nextPowerOfTwo n

namespace Exchange

variable {host : Host σ} {x : Exchange} {l : Ledger} {id : String} {b : Mailbox}

/-- The listener of a plain mailbox is a subscription, and asking on its behalf changes nothing else. -/
theorem Mirrors.next_of_plain (hx : x.Mirrors l) (hb : Entries.get? l id = some b) (hplain : b.reader = .plain)
    (host : Host σ) (state : σ) : ∃ y,
      (x.step host (.next id)).run state = ((y, .message (b.answer x.hub.kept)), state) := by
  obtain ⟨a, ha, hm⟩ := hx.listeners.exists_of_some' hb
  cases a with
  | field f => exact absurd (hm.reader.trans hplain) nofun
  | channel s =>
    have hpoll := ((hm.reads nofun).poll hm.orderly).1
    refine ⟨{ x with listeners := Entries.insert x.listeners id (.channel (x.hub.poll s).1) }, ?_⟩
    simp only [Exchange.step, ha]
    rw [← hpoll]
    rfl

/-- Whatever was done before, a subscriber that asks for the next message is answered from its mailbox. -/
theorem next_delivers {capacity : Nat} {steps : List ExchangeStep} {events : List ExchangeEvent}
    {start state : σ} (hrun : (run host capacity steps).run start = ((x, events), state))
    (hb : Entries.get? (Ledger.ofEvents (max 1 capacity).nextPowerOfTwo events) id = some b)
    (hplain : b.reader = .plain) : ∃ y answer,
      (x.step host (.next id)).run state = ((y, .message answer), state) ∧ b.Delivers capacity answer := by
  obtain ⟨hkept, hx⟩ := mirrors_run hrun
  rw [← hkept] at hb
  obtain ⟨y, hnext⟩ := hx.next_of_plain hb hplain host state
  obtain ⟨a, -, hm⟩ := hx.listeners.exists_of_some' hb
  have hroom : max 1 capacity ≤ x.hub.kept := hkept ▸ Hub.le_kept { capacity := capacity }
  have horderly := hm.orderly
  have hreceived := hm.received hplain
  refine ⟨y, _, hnext, ?_⟩
  rw [hkept] at horderly hroom ⊢
  refine ⟨fun message => ?_, ?_, ?_, horderly.ascending, hreceived, fun hlag => ⟨?_, fun n hn => ?_⟩⟩
  · rw [Mailbox.answer_eq_item]
    exact exists_congr fun n => by rw [Mailbox.next?_eq_some, and_comm]
  · rw [Mailbox.answer_eq_pending, Mailbox.next?_eq_none]
  · rw [Mailbox.answer_eq_ended, Mailbox.next?_eq_none]
  · exact horderly.received_prefix (Nat.le_trans hlag hroom) hreceived
  · exact horderly.given_or_waiting (Nat.le_trans hlag hroom) hn

/-- Two messages for a subscriber who does not ask. -/
def twoForOne : List ExchangeStep :=
  [.subscribe "reader" "news", .publish "news" (.string "one"), .publish "news" (.string "two")]

/-- On a hub that keeps one message, the second is what it gets. -/
theorem next_twoForOne : ∃ y, (((run .plain 1 twoForOne).run ()).1.1.step .plain (.next "reader")).run () =
    ((y, .message (.item (.string "two"))), ()) := by
  have hb : Entries.get? (Ledger.ofEvents (max 1 1).nextPowerOfTwo ((run .plain 1 twoForOne).run ()).1.2)
      "reader" = some { channel := "news", sent := [.string "one", .string "two"], lag := 2 } := rfl
  have hrun : (run .plain 1 twoForOne).run () = (((run .plain 1 twoForOne).run ()).1, ()) := rfl
  obtain ⟨y, answer, hnext, hd⟩ := next_delivers hrun hb rfl
  have hanswer : answer = .item (.string "two") := by
    rw [hd.item_iff]
    refine ⟨1, rfl, ?_⟩
    have hone : (max 1 1).nextPowerOfTwo = 1 := by decide +kernel
    rw [hone]
    exact ⟨by decide, by decide⟩
  exact ⟨y, hanswer ▸ hnext⟩

end Exchange

end RecordGraph
