import Mathlib.Data.List.Induction
import RecordGraph.Proofs.Hub.Ledger
/-! Taking steps. Whatever is done at an exchange, its listeners keep standing to their mailboxes as they
should: a new one starts with an empty mailbox, one that asks is given the oldest message that waits, and
what becomes of one listener leaves the others alone. By induction the same holds after any run. -/

namespace RecordGraph

namespace Mailbox

variable {kept : Nat} {b : Mailbox}

theorem Received.receive (h : b.Received) (hk : ∀ n ∈ b.given, n < b.sent.length) (channel : String)
    (message : Value) : (b.receive channel message).Received := by
  unfold Mailbox.receive
  split
  · intro hplain
    refine (h hplain).trans (List.map_congr_left fun n hn => ?_)
    exact (List.getElem?_append_left (hk n hn)).symm
  · exact h

theorem Received.shut (h : b.Received) (channel : String) : (b.shut channel).Received := by
  unfold Mailbox.shut
  split <;> exact h

theorem Received.give {n : Nat} {message : Value} (h : b.Received) (hn : b.next? kept = some n)
    (hm : b.sent[n]? = some message) :
    Received { b.give kept with received := b.received ++ [message] } := by
  intro hplain
  change (b.received ++ [message]).map some = (b.give kept).given.map fun n => b.sent[n]?
  rw [give_of_some hn, List.map_append, List.map_append, h hplain, List.map_singleton, List.map_singleton, hm]

theorem InPhase.receive {p : StreamPhase} (h : b.InPhase kept p) (channel : String) (message : Value) :
    (b.receive channel message).InPhase kept p := by
  unfold Mailbox.receive
  split
  · rename_i hopen
    match p, h with
    | .live, h => exact h
    | .failed, h => exact h
    | .over, h =>
      refine ⟨h.1, fun hfailed => ?_⟩
      rw [(h.2 hfailed).1] at hopen
      exact absurd hopen.2 nofun
  · exact h

theorem InPhase.shut {p : StreamPhase} (h : b.InPhase kept p) (channel : String) :
    (b.shut channel).InPhase kept p := by
  unfold Mailbox.shut
  split
  · match p, h with
    | .live, h => exact h
    | .failed, h => exact h
    | .over, h => exact ⟨h.1, fun hfailed => ⟨rfl, (h.2 hfailed).2⟩⟩
  · exact h

theorem InPhase.finished_eq {p : StreamPhase} (h : b.InPhase kept p) (hp : p ≠ .over) : b.finished = false :=
  match p, h with
  | .live, h => h.1
  | .failed, h => h.1
  | .over, _ => absurd rfl hp

theorem reader_receive (b : Mailbox) (channel : String) (message : Value) :
    (b.receive channel message).reader = b.reader := by
  unfold receive
  split <;> rfl

theorem reader_shut (b : Mailbox) (channel : String) : (b.shut channel).reader = b.reader := by
  unfold shut
  split <;> rfl

end Mailbox

namespace Listener

variable {h h' : Hub} {a : Listener} {b : Mailbox} {live : List Subscription}

/-- A listener takes no notice of what leaves its own messages alone. -/
theorem Mirrors.imp (hm : a.Mirrors h b) (hk : h'.kept = h.kept)
    (hr : a.phase ≠ .over → h.Reads a.subscription b → h'.Reads a.subscription b) : a.Mirrors h' b where
  orderly := hk ▸ hm.orderly
  received := hm.received
  reader := hm.reader
  phase := hk ▸ hm.phase
  reads ha := hr ha (hm.reads ha)

theorem Mirrors.publish (hm : a.Mirrors h b) (hc : h.Counts live)
    (ha : a.phase ≠ .over → a.subscription ∈ live) (channel : String) (message : Value) :
    a.Mirrors (h.publish channel message).1 (b.receive channel message) where
  orderly := Hub.publish_kept h channel message ▸ hm.orderly.receive channel message
  received := hm.received.receive hm.orderly.known channel message
  reader := hm.reader.trans (b.reader_receive channel message).symm
  phase := Hub.publish_kept h channel message ▸ hm.phase.receive channel message
  reads hp := (hm.reads hp).publish hc (ha hp) channel message

theorem Mirrors.close (hm : a.Mirrors h b) (channel : String) :
    a.Mirrors (h.close channel).1 (b.shut channel) where
  orderly := hm.orderly.shut channel
  received := hm.received.shut channel
  reader := hm.reader.trans (b.reader_shut channel).symm
  phase := hm.phase.shut channel
  reads hp := (hm.reads hp).close channel

/-- A new listener starts with an empty mailbox. -/
theorem mirrors_new {s : Subscription} {channel : String} (hlive : a.phase = .live)
    (hs : a.subscription = s) (hr : h.Reads s { channel := channel, reader := a.reader }) :
    a.Mirrors h { channel := channel, reader := a.reader } where
  orderly := Mailbox.orderly_new channel a.reader
  received _ := rfl
  reader := rfl
  phase := by
    rw [hlive]
    exact ⟨rfl, rfl⟩
  reads _ := hs ▸ hr

/-- A plain listener is answered what it is owed. -/
theorem Mirrors.message {s : Subscription} (hm : (Listener.channel s).Mirrors h b) :
    (Listener.channel (h.poll s).1).Mirrors h (b.answered h.kept (.message (h.poll s).2)) := by
  obtain ⟨hpoll, hreads⟩ := (hm.reads nofun).poll hm.orderly
  change (h.poll s).2 = _ at hpoll
  have horderly := hm.orderly.answered (.message (h.poll s).2)
  rw [hpoll] at horderly ⊢
  cases hn : b.next? h.kept with
  | some n =>
    obtain ⟨message, hsent, hanswer⟩ := Mailbox.exists_answer hn
    rw [hanswer] at horderly ⊢
    exact ⟨horderly, hm.received.give hn hsent, hm.reader, hm.phase,
      fun _ => ⟨hreads.channel, hreads.isOpen, hreads.log⟩⟩
  | none =>
    rw [Mailbox.give_of_none hn] at hreads
    rw [Mailbox.answered_of_none hn]
    exact ⟨hm.orderly, hm.received, hm.reader, hm.phase, fun _ => hreads⟩

/-- A stream that delivers an item has taken the oldest message that waits, and stands where the item puts
it. -/
theorem Mirrors.item {f : FieldStream} (hm : (Listener.field f).Mirrors h b) (hlive : f.phase = .live)
    (item : Except FieldError Value) :
    (Listener.field { f with
      subscription := (h.poll f.subscription).1
      phase := match item with | .ok _ => .live | .error _ => .failed }).Mirrors h
      (b.answered h.kept (.fieldItem (.item item))) := by
  have hne : f.phase ≠ .over := hlive ▸ nofun
  obtain ⟨-, hreads⟩ := (hm.reads hne).poll hm.orderly
  have hphase : b.InPhase h.kept .live := hlive ▸ hm.phase
  have hreader := hm.reader
  have horderly := hm.orderly.answered (.fieldItem (.item item))
  cases item with
  | ok value =>
    exact ⟨horderly, fun hplain => absurd (hreader.trans hplain) nofun, hreader, hphase, fun _ => hreads⟩
  | error e =>
    exact ⟨horderly, fun hplain => absurd (hreader.trans hplain) nofun, hreader, ⟨hphase.1, rfl⟩,
      fun _ => ⟨hreads.channel, hreads.isOpen, hreads.log⟩⟩

/-- A stream that has ended is owed nothing more. -/
theorem Mirrors.ended {h' : Hub} (hm : a.Mirrors h b) {f : FieldStream} (hk : h'.kept = h.kept)
    (hreader : (Listener.field f).reader = b.reader) (hover : f.phase = .over)
    (hend : b.failed = false → b.closed = true ∧ b.next? h.kept = none) :
    (Listener.field f).Mirrors h' (b.answered h.kept (.fieldItem .ended)) where
  orderly := hk ▸ hm.orderly.answered (.fieldItem .ended)
  received := hm.received
  reader := hreader
  phase := by
    rw [Listener.phase, hover, hk]
    exact ⟨rfl, hend⟩
  reads hne := absurd hover hne

end Listener

namespace Exchange

variable {host : Host σ} {x : Exchange} {l : Ledger} {id : String} {a : Listener} {b : Mailbox}

namespace Mirrors

/-- A listener to a channel is installed under a name. -/
theorem install (hx : x.Mirrors l) {channel : String} (hlive : a.phase = .live)
    (hs : a.subscription = (x.hub.subscribe channel).2) :
    (Exchange.install { x with hub := (x.hub.subscribe channel).1 } id a).Mirrors
      (Entries.insert l id { channel := channel, reader := a.reader }) := by
  set rest := live (Entries.erase x.listeners id)
  set old := (Entries.get? x.listeners id).bind Listener.alive?
  have hperm : (live x.listeners).Perm (old.toList ++ rest) := live_perm hx.distinct id
  have hc : (x.hub.subscribe channel).1.Counts (old.toList ++ (x.hub.subscribe channel).2 :: rest) :=
    (hx.counts.subscribe channel).perm ((hperm.cons _).trans List.perm_middle.symm)
  have halive : a.alive? = some (x.hub.subscribe channel).2 := by
    rw [← hs, Listener.alive?_of_ne]
    rw [hlive]
    exact nofun
  rw [install_eq]
  refine hx.put ?_ (fun hp hm => ?_) ?_
  · rw [halive]
    exact hc.without
  · refine hm.imp (by simp) fun hne hr => ?_
    have hmem := hperm.mem_iff.mpr (List.mem_append_right _ (hp hne))
    exact (hr.subscribe hx.counts hmem channel).without hc (List.mem_cons_of_mem _ (hp hne))
  · refine Listener.mirrors_new hlive hs ?_
    exact (Hub.reads_subscribe hx.counts.inRange channel a.reader).without hc List.mem_cons_self

theorem kept_install (channel : String) :
    (Exchange.install { x with hub := (x.hub.subscribe channel).1 } id a).hub.kept = x.hub.kept := by
  rw [install_eq, Hub.without_kept, Hub.subscribe_kept]

/-- The hub counts a listener, if it is alive, beside all others. -/
theorem counts_of_get? (hx : x.Mirrors l) (ha : Entries.get? x.listeners id = some a) :
    x.hub.Counts (a.alive?.toList ++ live (Entries.erase x.listeners id)) := by
  have hperm := live_perm hx.distinct id
  rw [ha, Option.bind_some] at hperm
  exact hx.counts.perm hperm

theorem drop (hx : x.Mirrors l) (ha : Entries.get? x.listeners id = some a) :
    Mirrors { hub := a.drop x.hub, listeners := Entries.erase x.listeners id } (Entries.erase l id) := by
  have hc := hx.counts_of_get? ha
  rw [Listener.drop_eq]
  refine hx.remove hc.without fun hp hm => hm.imp (by simp) fun hne hr => ?_
  exact hr.without hc (hp hne)

theorem publish (hx : x.Mirrors l) (channel : String) (message : Value) :
    Mirrors { x with hub := (x.hub.publish channel message).1 }
      (Entries.each (Mailbox.receive channel message) l) :=
  hx.everyone (hx.counts.publish channel message) fun hp hm => hm.publish hx.counts hp channel message

theorem close (hx : x.Mirrors l) (channel : String) :
    Mirrors { x with hub := (x.hub.close channel).1 } (Entries.each (Mailbox.shut channel) l) :=
  hx.everyone (hx.counts.close channel) fun _ hm => hm.close channel

/-- A listener goes on with its subscription, wherever it has read to. -/
theorem goOn (hx : x.Mirrors l) (ha : Entries.get? x.listeners id = some a) {a' : Listener}
    (halive : a.phase ≠ .over) (halive' : a'.phase ≠ .over)
    (htopic : a'.subscription.topic = a.subscription.topic)
    (hchannel : a'.subscription.channel = a.subscription.channel) (hm : a'.Mirrors x.hub b) :
    Mirrors { x with listeners := Entries.insert x.listeners id a' } (Entries.insert l id b) := by
  have hc := hx.counts_of_get? ha
  rw [Listener.alive?_of_ne halive] at hc
  refine hx.put ?_ (fun _ hm => hm) hm
  rw [Listener.alive?_of_ne halive']
  exact hc.reposition htopic hchannel

/-- A stream that is over is not counted any more. -/
theorem finish (hx : x.Mirrors l) (ha : Entries.get? x.listeners id = some a) {a' : Listener}
    {s : Subscription} (halive : a.phase ≠ .over) (hover : a'.phase = .over)
    (htopic : s.topic = a.subscription.topic) (hchannel : s.channel = a.subscription.channel)
    (hm : a'.Mirrors (x.hub.drop s) b) :
    Mirrors { hub := x.hub.drop s, listeners := Entries.insert x.listeners id a' } (Entries.insert l id b) := by
  have hc := hx.counts_of_get? ha
  rw [Listener.alive?_of_ne halive] at hc
  replace hc := hc.reposition htopic hchannel
  refine hx.put ?_ (fun hp hm => hm.imp (by simp) fun hne hr => hr.drop hc (hp hne)) hm
  rw [Listener.alive?_of_over hover]
  exact hc.drop

/-- A stream that asks goes on with the oldest message that waits, or ends. -/
theorem nextItem (hx : x.Mirrors l) {f f' : FieldStream} {h : Hub} {p : Poll (Except FieldError Value)}
    {state state' : σ} (ha : Entries.get? x.listeners id = some (.field f)) (hb : Entries.get? l id = some b)
    (hpoll : (f.poll host x.hub).run state = ((h, f', p), state')) :
    Mirrors { hub := h, listeners := Entries.insert x.listeners id (.field f') }
      (Entries.insert l id (b.answered x.hub.kept (.fieldItem p))) ∧ h.kept = x.hub.kept := by
  have hm := hx.listeners.rel ha hb
  match hf : f.phase with
  | .over =>
    rw [FieldStream.poll_of_over hf] at hpoll
    cases hpoll
    have hphase : b.InPhase x.hub.kept .over := hf ▸ hm.phase
    exact ⟨hx.put (hx.counts_of_get? ha) (fun _ hm => hm) (hm.ended rfl hm.reader hf hphase.2), rfl⟩
  | .failed =>
    rw [FieldStream.poll_of_failed hf] at hpoll
    cases hpoll
    have hphase : b.InPhase x.hub.kept .failed := hf ▸ hm.phase
    have hne : f.phase ≠ .over := hf ▸ nofun
    have hkept := Hub.drop_kept x.hub f.subscription
    refine ⟨hx.finish ha hne rfl rfl rfl (hm.ended hkept hm.reader rfl fun hfailed => ?_), hkept⟩
    rw [hphase.2] at hfailed
    cases hfailed
  | .live =>
    have hne : f.phase ≠ .over := hf ▸ nofun
    obtain ⟨hanswer, hreads⟩ := (hm.reads hne).poll hm.orderly
    change (x.hub.poll f.subscription).2 = _ at hanswer
    have htopic := Hub.poll_topic x.hub f.subscription
    have hchannel := Hub.poll_channel x.hub f.subscription
    cases hp : (x.hub.poll f.subscription).2 with
    | item message =>
      rw [FieldStream.poll_of_item hf hp, StateT.run_map] at hpoll
      rcases hitem : (f.shape host message).run.run state with ⟨item, state₁⟩
      rw [hitem] at hpoll
      cases hpoll
      refine ⟨hx.goOn ha hne ?_ htopic hchannel (hm.item hf item), rfl⟩
      cases item <;> exact nofun
    | pending =>
      rw [FieldStream.poll_of_pending hf hp] at hpoll
      cases hpoll
      rw [hp, eq_comm, Mailbox.answer_eq_pending] at hanswer
      rw [Mailbox.give_of_none hanswer.1] at hreads
      exact ⟨hx.goOn ha hne hne htopic hchannel
        ⟨hm.orderly, hm.received, hm.reader, hm.phase, fun _ => hreads⟩, rfl⟩
    | ended =>
      rw [FieldStream.poll_of_ended hf hp] at hpoll
      cases hpoll
      rw [hp, eq_comm, Mailbox.answer_eq_ended] at hanswer
      have hkept := Hub.drop_kept x.hub (x.hub.poll f.subscription).1
      exact ⟨hx.finish ha hne rfl htopic hchannel (hm.ended hkept hm.reader rfl fun _ => hanswer.symm), hkept⟩

/-- Whatever step is taken, the listeners keep standing to their mailboxes. -/
theorem step (hx : x.Mirrors l) {s : ExchangeStep} {x' : Exchange} {answer : ExchangeResult}
    {state state' : σ} (h : (x.step host s).run state = ((x', answer), state')) :
    x'.Mirrors (l.see x.hub.kept (s, answer)) ∧ x'.hub.kept = x.hub.kept := by
  cases s with
  | subscribe id channel =>
    cases h
    exact ⟨hx.install rfl rfl, kept_install channel⟩
  | subscribeField id root info =>
    cases h
    exact ⟨hx.install rfl rfl, kept_install info.fieldName⟩
  | publish channel message =>
    cases h
    exact ⟨hx.publish channel message, Hub.publish_kept ..⟩
  | next id =>
    cases ha : Entries.get? x.listeners id with
    | none =>
      have hb := (hx.listeners.none_iff id).mp ha
      simp only [Exchange.step, ha] at h
      cases h
      refine ⟨?_, rfl⟩
      simp only [Ledger.see, hb]
      exact hx
    | some a =>
      obtain ⟨b, hb, hm⟩ := hx.listeners.exists_of_some ha
      cases a with
      | channel s =>
        simp only [Exchange.step, ha] at h
        cases h
        refine ⟨?_, rfl⟩
        simp only [Ledger.see, hb]
        exact hx.goOn ha nofun nofun (Hub.poll_topic ..) (Hub.poll_channel ..) hm.message
      | field f =>
        simp only [Exchange.step, ha, StateT.run_bind] at h
        rcases hpoll : (f.poll host x.hub).run state with ⟨⟨h₁, f₁, p⟩, state₁⟩
        rw [hpoll] at h
        cases h
        simp only [Ledger.see, hb]
        exact hx.nextItem ha hb hpoll
  | drop id =>
    cases ha : Entries.get? x.listeners id with
    | none =>
      have hb := (hx.listeners.none_iff id).mp ha
      simp only [Exchange.step, ha] at h
      cases h
      rw [Ledger.see, Entries.erase_of_get?_eq_none hb]
      exact ⟨hx, rfl⟩
    | some a =>
      simp only [Exchange.step, ha] at h
      cases h
      refine ⟨hx.drop ha, ?_⟩
      rw [Listener.drop_eq, Hub.without_kept]
  | close channel =>
    cases h
    exact ⟨hx.close channel, rfl⟩
  | count channel =>
    cases h
    exact ⟨hx, rfl⟩

end Mirrors

/-- A longer run is one more step. -/
theorem run_snoc (host : Host σ) (capacity : Nat) (steps : List ExchangeStep) (s : ExchangeStep) :
    run host capacity (steps ++ [s]) = run host capacity steps >>= fun soFar => record host soFar s := by
  rw [run, run, List.foldlM_append]
  simp only [List.foldlM_cons, List.foldlM_nil, bind_pure]

theorem mirrors_start (capacity : Nat) : ({ hub := { capacity := capacity } } : Exchange).Mirrors [] :=
  ⟨.nil, .nil, Hub.Counts.start capacity, fun _ => iff_of_true rfl rfl, nofun⟩

/-- After any run, listeners stand to their mailboxes as they should. -/
theorem mirrors_run {capacity : Nat} {steps : List ExchangeStep} {x : Exchange} {events : List ExchangeEvent}
    {start state : σ} (h : (run host capacity steps).run start = ((x, events), state)) :
    x.hub.kept = (max 1 capacity).nextPowerOfTwo ∧ x.Mirrors (Ledger.ofEvents x.hub.kept events) := by
  induction steps using List.reverseRecOn generalizing x events state with
  | nil =>
    cases h
    exact ⟨rfl, mirrors_start capacity⟩
  | append_singleton steps s ih =>
    rw [run_snoc, StateT.run_bind] at h
    rcases hrun : (run host capacity steps).run start with ⟨⟨y, past⟩, state₁⟩
    rw [hrun] at h
    obtain ⟨hkept, hy⟩ := ih hrun
    rcases hstep : (y.step host s).run state₁ with ⟨⟨z, answer⟩, state₂⟩
    change ((record host (y, past) s).run state₁) = _ at h
    rw [record, StateT.run_bind, hstep] at h
    cases h
    obtain ⟨hx, hsame⟩ := hy.step hstep
    refine ⟨hsame.trans hkept, ?_⟩
    rw [hsame, Ledger.ofEvents, List.foldl_append]
    exact hx

end Exchange

end RecordGraph
