import RecordGraph.Proofs.Hub.Run
/-! What the stream of a field delivers. A stream owes its reader one item for each message of the mailbox,
whatever becomes of it in the handler, and an end only when the channel is closed and nothing waits. It keeps
to this until an item is a failure: then it ends, also while its channel is open and messages wait. -/

namespace RecordGraph

namespace Mailbox

/-- What becomes of a message. -/
def item (host : Host σ) (b : Mailbox) (message : Value) : Hosted σ Value :=
  match b.reader with
  | .plain => return message
  | .stream root info =>
    match root.messageHandler? info.fieldName with
    | some handler => handler.value host info [("message", message)]
    | none => return message

/-- What the reader of a stream is owed when it asks for the next item. -/
def reply (host : Host σ) (kept : Nat) (b : Mailbox) : StateM σ (Poll (Except FieldError Value)) :=
  match b.answer kept with
  | .item message => .item <$> (b.item host message).run
  | .pending => return .pending
  | .ended => return .ended

/-- Nothing but the end of its stream is owed any more. -/
def Done (kept : Nat) (b : Mailbox) : Prop := b.closed = true ∧ ∀ n, ¬ b.Waiting kept n

variable {host : Host σ} {kept : Nat} {b : Mailbox}

theorem reply_of_done (h : b.Done kept) : b.reply host kept = pure .ended := by
  rw [reply, answer_eq_ended.mpr ⟨next?_eq_none.mpr h.2, h.1⟩]

/-- Only then is it owed the end. -/
theorem done_of_reply {state state' : σ} (h : (b.reply host kept).run state = (.ended, state')) :
    b.Done kept := by
  unfold reply at h
  split at h
  · cases h
  · cases h
  · rename_i hanswer
    rw [answer_eq_ended, next?_eq_none] at hanswer
    exact hanswer.symm

end Mailbox

/-- A stream gives its mailbox's item or end, unless it delivered a failure before. -/
theorem FieldStream.poll_answer {h : Hub} {f : FieldStream} {b : Mailbox} (hm : (Listener.field f).Mirrors h b)
    (host : Host σ) :
    (fun r => r.2.2) <$> f.poll host h = if b.failed = true then pure .ended else b.reply host h.kept := by
  match hf : f.phase with
  | .over =>
    have hphase : b.InPhase h.kept .over := hf ▸ hm.phase
    rw [poll_of_over hf, map_pure]
    cases hfailed : b.failed with
    | true => rfl
    | false =>
      obtain ⟨hclosed, hnone⟩ := hphase.2 hfailed
      rw [Mailbox.reply_of_done ⟨hclosed, Mailbox.next?_eq_none.mp hnone⟩]
      rfl
  | .failed =>
    have hphase : b.InPhase h.kept .failed := hf ▸ hm.phase
    rw [poll_of_failed hf, map_pure, if_pos hphase.2]
  | .live =>
    have hphase : b.InPhase h.kept .live := hf ▸ hm.phase
    have hne : f.phase ≠ .over := hf ▸ nofun
    have hanswer := ((hm.reads hne).poll hm.orderly).1
    change (h.poll f.subscription).2 = _ at hanswer
    rw [if_neg (by rw [hphase.2]; exact nofun), Mailbox.reply, ← hanswer]
    cases hp : (h.poll f.subscription).2 with
    | item message =>
      have hitem : f.shape host message = b.item host message := by
        rw [Mailbox.item, ← hm.reader]
        rfl
      rw [poll_of_item hf hp, Functor.map_map, hitem]
    | pending => rw [poll_of_pending hf hp, map_pure]
    | ended => rw [poll_of_ended hf hp, map_pure]

namespace Exchange

variable {host : Host σ} {x : Exchange} {l : Ledger} {id : String} {b : Mailbox} {root : Value} {info : FieldInfo}

/-- The listener of a mailbox of a field is a stream. -/
theorem Mirrors.next_of_stream (hx : x.Mirrors l) (hb : Entries.get? l id = some b)
    (hstream : b.reader = .stream root info) (host : Host σ) (state : σ) : ∃ y p state',
      (x.step host (.next id)).run state = ((y, .fieldItem p), state') ∧
      (if b.failed = true then pure .ended else b.reply host x.hub.kept).run state = (p, state') := by
  obtain ⟨a, ha, hm⟩ := hx.listeners.exists_of_some' hb
  cases a with
  | channel s => exact absurd (hm.reader.trans hstream) nofun
  | field f =>
    rw [← FieldStream.poll_answer hm host, StateT.run_map]
    rcases hpoll : (f.poll host x.hub).run state with ⟨⟨h, f', p⟩, state'⟩
    refine ⟨{ hub := h, listeners := Entries.insert x.listeners id (.field f') }, p, state', ?_, rfl⟩
    simp only [Exchange.step, ha, StateT.run_bind]
    rw [hpoll]
    rfl

/-- Whatever was done before, the reader of a stream gets what it is owed exactly if no failure was delivered
before, or there is nothing left to deliver. -/
theorem next_replies_iff {capacity : Nat} {steps : List ExchangeStep} {events : List ExchangeEvent}
    {start state : σ} (hrun : (run host capacity steps).run start = ((x, events), state))
    (hb : Entries.get? (Ledger.ofEvents (max 1 capacity).nextPowerOfTwo events) id = some b)
    (hstream : b.reader = .stream root info) : ∃ y p state',
      (x.step host (.next id)).run state = ((y, .fieldItem p), state') ∧
      ((b.reply host (max 1 capacity).nextPowerOfTwo).run state = (p, state') ↔
        (b.failed = true → b.Done (max 1 capacity).nextPowerOfTwo)) ∧
      (b.lag ≤ max 1 capacity → b.given = List.range b.given.length) := by
  obtain ⟨hkept, hx⟩ := mirrors_run hrun
  rw [← hkept] at hb ⊢
  obtain ⟨y, p, state', hnext, hp⟩ := hx.next_of_stream hb hstream host state
  obtain ⟨a, -, hm⟩ := hx.listeners.exists_of_some' hb
  refine ⟨y, p, state', hnext, ?_, fun hlag => ?_⟩
  · split at hp
    · rename_i hfailed
      cases hp
      refine ⟨fun h _ => Mailbox.done_of_reply h, fun h => ?_⟩
      rw [Mailbox.reply_of_done (h hfailed)]
      rfl
    · rename_i hfailed
      exact iff_of_true hp fun h => absurd h hfailed
  · have hroom : max 1 capacity ≤ x.hub.kept := hkept ▸ Hub.le_kept { capacity := capacity }
    have hgiven := hm.orderly.complete (Nat.le_trans hlag hroom)
    have hlength := congrArg List.length hgiven
    rw [List.length_range] at hlength
    rw [hlength, ← hgiven]

/-- The field of a shop that announces books. -/
def booksAdded : FieldInfo where
  fieldName := "books_added"
  wireName := "booksAdded"
  parentType := "Subscription"
  operation := .subscription
  context := none

/-- Two books are announced to a reader, who has taken the first. -/
def announceTwo (handler : Handler) : List ExchangeStep :=
  [.subscribeField "reader" (.source (.mk "Shop" [] [] [] [("books_added", handler)])) booksAdded,
    .publish "books_added" (.string "one"), .publish "books_added" (.string "two"), .next "reader"]

/-- The mailbox of the reader then. -/
def readerOfTwo (handler : Handler) (failed : Bool) : Mailbox where
  channel := "books_added"
  reader := .stream (.source (.mk "Shop" [] [] [] [("books_added", handler)])) booksAdded
  sent := [.string "one", .string "two"]
  given := [0]
  failed := failed
  lag := 2

/-- If announcing does not fail, the reader goes on with the second book. -/
theorem next_announceTwo : ∃ y,
    (((run .plain 2 (announceTwo (.argument .text "message"))).run ()).1.1.step .plain (.next "reader")).run () =
      ((y, .fieldItem (.item (.ok (.string "two")))), ()) := by
  have hrun : (run .plain 2 (announceTwo (.argument .text "message"))).run () =
    (((run .plain 2 (announceTwo (.argument .text "message"))).run ()).1, ()) := rfl
  have hb : Entries.get? (Ledger.ofEvents (max 1 2).nextPowerOfTwo
      ((run .plain 2 (announceTwo (.argument .text "message"))).run ()).1.2) "reader" =
    some (readerOfTwo (.argument .text "message") false) := by with_unfolding_all rfl
  obtain ⟨y, p, state', hnext, hreply, -⟩ := next_replies_iff hrun hb rfl
  have hp := hreply.mpr nofun
  have howed : ((readerOfTwo (.argument .text "message") false).reply .plain (max 1 2).nextPowerOfTwo).run () =
    (.item (.ok (.string "two")), ()) := by with_unfolding_all rfl
  rw [howed] at hp
  cases hp
  exact ⟨y, hnext⟩

/-- If it fails, the stream ends after the first failure: the channel is open, the second book waits, and the
reader was never behind by more than the hub keeps. -/
theorem silent_announceTwo :
    Entries.get? (Ledger.ofEvents (max 1 2).nextPowerOfTwo
      ((run .plain 2 (announceTwo (.fail "bad"))).run ()).1.2) "reader" = some (readerOfTwo (.fail "bad") true) ∧
    ((readerOfTwo (.fail "bad") true).reply .plain (max 1 2).nextPowerOfTwo).run () =
      (.item (.error (.resolver "bad")), ()) ∧
    ((((run .plain 2 (announceTwo (.fail "bad"))).run ()).1.1.step .plain (.next "reader")).run ()).1.2 =
      .fieldItem .ended := by
  refine ⟨?_, ?_, ?_⟩ <;> with_unfolding_all rfl

end Exchange

end RecordGraph
