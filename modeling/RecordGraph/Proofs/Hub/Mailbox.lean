import Mathlib.Data.List.Pairwise
import RecordGraph.Hub.Exchange
import RecordGraph.Proofs.Dictionary
/-! What a hub owes each of its subscribers, apart from how it keeps messages: every subscriber has a
mailbox of its own, to which go the messages published to its channel. The messages of a mailbox are
numbered in order; those that wait are the ones that were not given yet and are among the last that a
channel keeps. Main statements: the messages waiting are an interval of numbers, so the oldest of them is
found from two ends; and none is ever missed by a subscriber that never falls behind further than that. -/

namespace RecordGraph

/-- Who takes the messages of a mailbox. -/
inductive Reader where
  /-- A subscriber of a channel, who takes them as they are. -/
  | plain
  /-- The stream of a field, which shapes them with the handlers of the root value. -/
  | stream (root : Value) (info : FieldInfo)

/-- What one subscriber is owed. -/
structure Mailbox where
  channel : String
  reader : Reader := .plain
  /-- The messages published to the channel since the subscription, until the channel was closed. -/
  sent : List Value := []
  /-- The numbers of the messages that it was given, in the order given. -/
  given : List Nat := []
  /-- What it was given, when it takes messages as they are. -/
  received : List Value := []
  /-- Whether the channel was closed since the subscription. -/
  closed : Bool := false
  /-- Whether a failure was among what it was given. -/
  failed : Bool := false
  /-- Whether the subscription was dropped at the end of its stream. -/
  finished : Bool := false
  /-- The most messages that it was ever behind. -/
  lag : Nat := 0

namespace Mailbox

/-- The number after the last message given. -/
def place (b : Mailbox) : Nat := (b.given.getLast?.map (· + 1)).getD 0

/-- How many messages follow the last one given. -/
def behind (b : Mailbox) : Nat := b.sent.length - b.place

/-- A message waits if it was not given and is among the last ones kept. -/
def Waiting (kept : Nat) (b : Mailbox) (n : Nat) : Prop :=
  n < b.sent.length ∧ n ∉ b.given ∧ b.sent.length ≤ n + kept

instance (kept : Nat) (b : Mailbox) (n : Nat) : Decidable (b.Waiting kept n) :=
  inferInstanceAs (Decidable (_ ∧ _))

/-- The number of the oldest message that waits. -/
def next? (kept : Nat) (b : Mailbox) : Option Nat :=
  (List.range b.sent.length).find? fun n => b.Waiting kept n

/-- A message is the oldest that waits. -/
def Oldest (kept : Nat) (b : Mailbox) (n : Nat) : Prop :=
  b.Waiting kept n ∧ ∀ m < n, ¬ b.Waiting kept m

/-- A message is published to a channel. -/
def receive (channel : String) (message : Value) (b : Mailbox) : Mailbox :=
  if b.channel = channel ∧ b.closed = false then
    { b with sent := b.sent ++ [message], lag := max b.lag (b.behind + 1) }
  else b

/-- A channel is closed. -/
def shut (channel : String) (b : Mailbox) : Mailbox :=
  if b.channel = channel then { b with closed := true } else b

/-- The oldest message that waits is given. -/
def give (kept : Nat) (b : Mailbox) : Mailbox := { b with given := b.given ++ (b.next? kept).toList }

/-- What the subscriber is to be answered when it asks for the next message. -/
def answer (kept : Nat) (b : Mailbox) : Poll Value :=
  match (b.next? kept).bind fun n => b.sent[n]? with
  | some message => .item message
  | none => if b.closed then .ended else .pending

/-- The subscriber asked for the next message, and was answered. -/
def answered (kept : Nat) (b : Mailbox) : ExchangeResult → Mailbox
  | .message (.item message) => { b.give kept with received := b.received ++ [message] }
  | .fieldItem (.item (.ok _)) => b.give kept
  | .fieldItem (.item (.error _)) => { b.give kept with failed := true }
  | .fieldItem .ended => { b with finished := true }
  | _ => b

/-- Messages are given in order, and those passed over are no longer kept. -/
structure Orderly (kept : Nat) (b : Mailbox) : Prop where
  ascending : b.given.Pairwise (· < ·)
  known : ∀ n ∈ b.given, n < b.sent.length
  missed : ∀ n < b.place, n ∈ b.given ∨ n + kept < b.sent.length
  behind : b.behind ≤ b.lag
  complete : b.lag ≤ kept → b.given = List.range b.place

section
variable {kept : Nat} {b : Mailbox}

theorem place_le_of_forall {n : Nat} (h : ∀ m ∈ b.given, m < n) : b.place ≤ n := by
  unfold place
  cases hlast : b.given.getLast? with
  | none => exact Nat.zero_le _
  | some m => exact h m (List.mem_of_getLast? hlast)

theorem lt_place_of_mem (h : b.given.Pairwise (· < ·)) {n : Nat} (hn : n ∈ b.given) : n < b.place := by
  obtain ⟨before, last, hgiven⟩ := (List.eq_nil_or_concat' b.given).resolve_left (List.ne_nil_of_mem hn)
  rw [hgiven, List.pairwise_append] at h
  have hplace : b.place = last + 1 := by simp [place, hgiven]
  rw [hgiven, List.mem_append, List.mem_singleton] at hn
  rw [hplace]
  rcases hn with hbefore | rfl
  · exact Nat.lt_succ_of_lt (h.2.2 n hbefore last (List.mem_singleton_self last))
  · exact Nat.lt_succ_self n

theorem next?_eq_some {n : Nat} : b.next? kept = some n ↔ b.Oldest kept n := by
  rw [next?, List.find?_range_eq_some, Oldest]
  simp only [decide_eq_true_eq, Bool.not_eq_true', decide_eq_false_iff_not, List.mem_range]
  exact ⟨fun h => ⟨h.1, h.2.2⟩, fun h => ⟨h.1, h.1.1, h.2⟩⟩

theorem next?_eq_none : b.next? kept = none ↔ ∀ n, ¬ b.Waiting kept n := by
  rw [next?, List.find?_range_eq_none]
  simp only [Bool.not_eq_true', decide_eq_false_iff_not]
  exact ⟨fun h n hn => h n hn.1 hn, fun h n _ => h n⟩

theorem lt_of_next? {n : Nat} (h : b.next? kept = some n) : n < b.sent.length :=
  List.mem_range.mp (List.mem_of_find?_eq_some h)

theorem exists_answer {n : Nat} (h : b.next? kept = some n) :
    ∃ message, b.sent[n]? = some message ∧ b.answer kept = .item message := by
  have hm := List.getElem?_eq_getElem (lt_of_next? h)
  exact ⟨_, hm, by simp only [answer, h, Option.bind_some, hm]⟩

theorem answer_of_none (h : b.next? kept = none) : b.answer kept = if b.closed then .ended else .pending := by
  simp only [answer, h, Option.bind_none]

theorem answer_eq_item {message : Value} :
    b.answer kept = .item message ↔ ∃ n, b.next? kept = some n ∧ b.sent[n]? = some message := by
  cases hn : b.next? kept with
  | none =>
    rw [answer_of_none hn]
    cases b.closed <;> simp
  | some n =>
    obtain ⟨first, hfirst, hanswer⟩ := exists_answer hn
    simp [hanswer, hfirst]

theorem answer_eq_pending : b.answer kept = .pending ↔ b.next? kept = none ∧ b.closed = false := by
  cases hn : b.next? kept with
  | none =>
    rw [answer_of_none hn]
    cases b.closed <;> simp
  | some n =>
    obtain ⟨first, -, hanswer⟩ := exists_answer hn
    simp [hanswer]

theorem answer_eq_ended : b.answer kept = .ended ↔ b.next? kept = none ∧ b.closed = true := by
  cases hn : b.next? kept with
  | none =>
    rw [answer_of_none hn]
    cases b.closed <;> simp
  | some n =>
    obtain ⟨first, -, hanswer⟩ := exists_answer hn
    simp [hanswer]

/-- What is given leaves the rest of the mailbox as it was. -/
theorem give_of_some {n : Nat} (h : b.next? kept = some n) :
    b.give kept = { b with given := b.given ++ [n] } := by
  rw [give, h]
  rfl

theorem give_of_none (h : b.next? kept = none) : b.give kept = b := by
  rw [give, h, Option.toList_none, List.append_nil]

/-- Who is answered that nothing waits keeps waiting. -/
theorem answered_of_none (h : b.next? kept = none) : b.answered kept (.message (b.answer kept)) = b := by
  rw [answer_of_none h]
  split <;> rfl

theorem place_give {n : Nat} (h : b.next? kept = some n) : (b.give kept).place = n + 1 := by
  simp [place, give, h]

namespace Orderly

variable (h : b.Orderly kept)
include h

theorem place_le : b.place ≤ b.sent.length := place_le_of_forall h.known

/-- The messages that wait are those from the place on that are still kept. -/
theorem waiting_iff {n : Nat} :
    b.Waiting kept n ↔ b.place ≤ n ∧ n < b.sent.length ∧ b.sent.length ≤ n + kept := by
  constructor
  · rintro ⟨hlt, hnew, hkept⟩
    refine ⟨?_, hlt, hkept⟩
    by_contra hplace
    rcases h.missed n (Nat.lt_of_not_le hplace) with hgiven | hgone
    · exact hnew hgiven
    · omega
  · rintro ⟨hplace, hlt, hkept⟩
    exact ⟨hlt, fun hgiven => Nat.not_lt.mpr hplace (lt_place_of_mem h.ascending hgiven), hkept⟩

theorem next?_eq : b.next? kept =
    if max b.place (b.sent.length - kept) < b.sent.length then some (max b.place (b.sent.length - kept))
    else none := by
  split
  · rename_i hlt
    rw [next?_eq_some]
    refine ⟨h.waiting_iff.mpr ?_, fun n hn hw => ?_⟩
    · omega
    · have := h.waiting_iff.mp hw
      omega
  · rename_i hge
    rw [next?_eq_none]
    intro n hw
    have := h.waiting_iff.mp hw
    omega

theorem receive (channel : String) (message : Value) : (b.receive channel message).Orderly kept := by
  unfold Mailbox.receive
  split
  · have hplace := h.place_le
    have hlength : (b.sent ++ [message]).length = b.sent.length + 1 := by simp
    refine ⟨h.ascending, fun n hn => ?_, fun n hn => ?_, ?_, fun hlag => ?_⟩
    · rw [hlength]
      exact Nat.lt_succ_of_lt (h.known n hn)
    · rw [hlength]
      exact (h.missed n hn).imp_right Nat.lt_succ_of_lt
    · change (b.sent ++ [message]).length - b.place ≤ max b.lag (b.behind + 1)
      rw [hlength, Mailbox.behind]
      omega
    · exact h.complete (Nat.le_trans (Nat.le_max_left _ _) hlag)
  · exact h

theorem shut (channel : String) : (b.shut channel).Orderly kept := by
  unfold Mailbox.shut
  split
  · exact ⟨h.ascending, h.known, h.missed, h.behind, h.complete⟩
  · exact h

theorem give : (b.give kept).Orderly kept := by
  have hnext := h.next?_eq
  split at hnext
  · rename_i hlt
    set n := max b.place (b.sent.length - kept) with hn
    have hplace : (b.give kept).place = n + 1 := place_give hnext
    have hgiven : (b.give kept).given = b.given ++ [n] := by rw [give_of_some hnext]
    refine ⟨?_, ?_, ?_, ?_, ?_⟩
    · rw [hgiven, List.pairwise_append]
      refine ⟨h.ascending, List.pairwise_singleton _ _, fun m hm k hk => ?_⟩
      rw [List.mem_singleton.mp hk]
      exact Nat.lt_of_lt_of_le (lt_place_of_mem h.ascending hm) (Nat.le_max_left _ _)
    · rw [hgiven, List.forall_mem_append, List.forall_mem_singleton]
      exact ⟨h.known, hlt⟩
    · intro m hm
      rw [hplace] at hm
      rw [hgiven, List.mem_append, List.mem_singleton]
      change (m ∈ b.given ∨ m = n) ∨ m + kept < b.sent.length
      by_cases hearlier : m < b.place
      · exact (h.missed m hearlier).imp_left .inl
      · -- between the place and the message given lie only messages that are no longer kept
        omega
    · change b.sent.length - (b.give kept).place ≤ b.lag
      have := h.behind
      rw [Mailbox.behind] at this
      omega
    · intro hlag
      have hbehind : b.sent.length - b.place ≤ kept := Nat.le_trans h.behind hlag
      have hnplace : n = b.place := by omega
      rw [hgiven, hplace, h.complete hlag, hnplace, List.range_succ]
  · rw [give_of_none hnext]
    exact h

theorem answered (answer : ExchangeResult) : (b.answered kept answer).Orderly kept := by
  have hgive := h.give
  unfold Mailbox.answered
  split
  · exact ⟨hgive.ascending, hgive.known, hgive.missed, hgive.behind, hgive.complete⟩
  · exact hgive
  · exact ⟨hgive.ascending, hgive.known, hgive.missed, hgive.behind, hgive.complete⟩
  · exact ⟨h.ascending, h.known, h.missed, h.behind, h.complete⟩
  · exact h

/-- A subscriber that was never further behind than messages are kept misses none. -/
theorem given_or_waiting (hlag : b.lag ≤ kept) {n : Nat} (hn : n < b.sent.length) :
    n ∈ b.given ∨ b.Waiting kept n := by
  rw [h.waiting_iff, h.complete hlag, List.mem_range]
  have hbehind : b.sent.length - b.place ≤ kept := Nat.le_trans h.behind hlag
  omega

/-- What it was given is then the beginning of what was sent. -/
theorem received_prefix (hlag : b.lag ≤ kept)
    (hr : b.received.map some = b.given.map fun n => b.sent[n]?) : b.received <+: b.sent := by
  suffices htake : b.received = b.sent.take b.place by
    rw [htake]
    exact List.take_prefix _ _
  apply List.map_injective_iff.mpr fun _ _ => Option.some.inj
  rw [hr, h.complete hlag]
  have hplace := h.place_le
  apply List.ext_getElem
  · simp [hplace]
  · intro n hn hn'
    rw [List.length_map, List.length_range] at hn
    simp [List.getElem?_eq_getElem (Nat.lt_of_lt_of_le hn hplace)]

end Orderly

theorem orderly_new (channel : String) (reader : Reader) :
    Orderly kept { channel := channel, reader := reader } where
  ascending := .nil
  known _ hn := absurd hn List.not_mem_nil
  missed _ hn := absurd hn (Nat.not_lt_zero _)
  behind := Nat.le_refl _
  complete _ := rfl

end

end Mailbox

end RecordGraph
