import RecordGraph.Proofs.Hub.Census
import RecordGraph.Proofs.Hub.Delivery
import RecordGraph.Proofs.Hub.Stream
/-! Channels do not hear of each other. Whatever is done on one hub, a step that concerns a channel is answered
as if all steps that concern other channels alone had never been taken. The hub answers by its mailboxes, so
two hubs whose listeners on the channel have the same mailboxes answer alike, whatever else they hold and
whichever topics they have opened. What handlers do to the state of their host is no business of the hub:
each step is taken in a state of the host that is given with it. -/

namespace RecordGraph

/-- The channels that listeners have subscribed to, by name of the listener. -/
abbrev Roster := Entries String

namespace Roster

/-- What a step changes of who listens where. -/
def see (r : Roster) : ExchangeStep → Roster
  | .subscribe id channel => Entries.insert r id channel
  | .subscribeField id _ info => Entries.insert r id info.fieldName
  | .drop id => Entries.erase r id
  | _ => r

/-- Whether a step concerns a channel: it names the channel, or a listener of it. A subscription that takes the
place of another one concerns the channels of both. -/
def concerns (r : Roster) (channel : String) : ExchangeStep → Bool
  | .subscribe id other => other == channel || Entries.get? r id == some channel
  | .subscribeField id _ info => info.fieldName == channel || Entries.get? r id == some channel
  | .publish other _ | .close other | .count other => other == channel
  | .next id | .drop id => Entries.get? r id == some channel

end Roster

/-- A step that was taken: the state of the host before and after it, and its answer. -/
structure Turn (σ : Type) where
  step : ExchangeStep
  before : σ
  answer : ExchangeResult
  after : σ

namespace Turn

/-- What was to be done. -/
def move (t : Turn σ) : ExchangeStep × σ := (t.step, t.before)

/-- What can be seen of it. -/
def event (t : Turn σ) : ExchangeEvent := (t.step, t.answer)

/-- The turns that concern a channel. -/
def about (channel : String) : Roster → List (Turn σ) → List (Turn σ)
  | _, [] => []
  | r, t :: rest =>
    if r.concerns channel t.step then t :: about channel (r.see t.step) rest
    else about channel (r.see t.step) rest

end Turn

namespace Exchange

/-- Takes steps one after the other, each in a given state of the host. -/
def turns (host : Host σ) : Exchange → List (ExchangeStep × σ) → List (Turn σ)
  | _, [] => []
  | x, (s, state) :: rest =>
    let ((y, answer), after) := (x.step host s).run state
    ⟨s, state, answer, after⟩ :: turns host y rest

/-- A run takes each step in the state of the host that the step before has left. -/
theorem exists_turns (host : Host σ) (x : Exchange) (past : List ExchangeEvent) (steps : List ExchangeStep)
    (start : σ) : ∃ moves : List (ExchangeStep × σ), moves.map Prod.fst = steps ∧
      ((steps.foldlM (record host) (x, past)).run start).1.2 =
        past ++ (x.turns host moves).map Turn.event := by
  induction steps generalizing x past start with
  | nil => exact ⟨[], rfl, (List.append_nil past).symm⟩
  | cons s rest ih =>
    rcases hstep : (x.step host s).run start with ⟨⟨y, answer⟩, after⟩
    obtain ⟨moves, hsteps, hevents⟩ := ih y (past ++ [(s, answer)]) after
    refine ⟨(s, start) :: moves, by rw [List.map_cons, hsteps], ?_⟩
    have hrecord : (record host (x, past) s).run start = ((y, past ++ [(s, answer)]), after) := by
      rw [record, StateT.run_bind, hstep]
      rfl
    rw [List.foldlM_cons, StateT.run_bind, hrecord]
    refine hevents.trans ?_
    simp only [turns, hstep, List.map_cons, List.append_assoc, List.singleton_append, Turn.event]

end Exchange

namespace Mailbox

variable {b : Mailbox}

@[simp] theorem channel_receive (channel : String) (message : Value) :
    (b.receive channel message).channel = b.channel := by
  unfold receive
  split <;> rfl

@[simp] theorem channel_shut (channel : String) : (b.shut channel).channel = b.channel := by
  unfold shut
  split <;> rfl

@[simp] theorem channel_answered (kept : Nat) (answer : ExchangeResult) :
    (b.answered kept answer).channel = b.channel := by
  unfold answered
  split <;> rfl

end Mailbox

namespace Ledger

variable {l l' : Ledger} {r : Roster} {channel id : String} {kept : Nat} {e : ExchangeEvent}

/-- The mailbox under a name, if it is one of a channel. -/
def on (l : Ledger) (channel id : String) : Option Mailbox :=
  (Entries.get? l id).filter fun b => b.channel = channel

/-- Two ledgers have the same mailboxes of a channel. -/
def Same (channel : String) (l l' : Ledger) : Prop := ∀ id, l.on channel id = l'.on channel id

/-- A roster has the channels of the mailboxes. -/
def Follows (l : Ledger) (r : Roster) : Prop :=
  ∀ id, Entries.get? r id = (Entries.get? l id).map Mailbox.channel

theorem on_eq_some {b : Mailbox} :
    l.on channel id = some b ↔ Entries.get? l id = some b ∧ b.channel = channel := by
  simp [on, Option.filter_eq_some_iff]

theorem filter_map_of_channel (channel : String) {f : Mailbox → Mailbox}
    (hf : ∀ b, (f b).channel = b.channel) (o : Option Mailbox) : (o.map f).filter (fun b => b.channel = channel) =
      (o.filter fun b => b.channel = channel).map f := by
  cases o with
  | none => rfl
  | some b => by_cases hb : b.channel = channel <;> simp [Option.filter, hf, hb]

/-- What an event makes of the mailbox under a name, if that is one of a channel. -/
def seen (kept : Nat) (channel id : String) : ExchangeEvent → Option Mailbox → Option Mailbox
  | (.subscribe name other, _), b =>
    if name = id then (some { channel := other }).filter fun b => b.channel = channel else b
  | (.subscribeField name root info, _), b =>
    if name = id then
      (some { channel := info.fieldName, reader := .stream root info }).filter fun b => b.channel = channel
    else b
  | (.publish other message, _), b => b.map (Mailbox.receive other message)
  | (.next name, answer), b => if name = id then b.map (fun b => b.answered kept answer) else b
  | (.drop name, _), b => if name = id then none else b
  | (.close other, _), b => b.map (Mailbox.shut other)
  | (.count _, _), b => b

/-- Mailboxes of other channels have no part in it. -/
theorem on_see (l : Ledger) (channel id : String) (e : ExchangeEvent) :
    (l.see kept e).on channel id = seen kept channel id e (l.on channel id) := by
  obtain ⟨s, answer⟩ := e
  cases s with
  | subscribe name other | subscribeField name root info =>
    simp only [on, see, seen, Entries.get?_insert]
    split <;> rfl
  | publish other message =>
    simp only [on, see, seen, Entries.get?_each]
    exact filter_map_of_channel channel (fun _ => Mailbox.channel_receive ..) _
  | close other =>
    simp only [on, see, seen, Entries.get?_each]
    exact filter_map_of_channel channel (fun _ => Mailbox.channel_shut ..) _
  | next name =>
    simp only [seen]
    split
    · rename_i hname
      subst hname
      have hmap := filter_map_of_channel channel (fun _ => Mailbox.channel_answered kept answer)
        (Entries.get? l name)
      refine Eq.trans (congrArg (Option.filter _) ?_) hmap
      simp only [see]
      cases h : Entries.get? l name with
      | none => exact h
      | some b => rw [Entries.get?_insert, if_pos rfl, Option.map_some]
    · rename_i hname
      simp only [on, see]
      cases Entries.get? l name with
      | none => rfl
      | some b => simp only [Entries.get?_insert, if_neg hname]
  | drop name =>
    simp only [on, see, seen, Entries.get?_erase]
    split <;> rfl
  | count other => rfl

theorem Same.see (h : Same channel l l') (e : ExchangeEvent) :
    Same channel (l.see kept e) (l'.see kept e) := fun id => by
  rw [on_see, on_see, h id]

theorem Follows.see (hr : l.Follows r) (s : ExchangeStep) (answer : ExchangeResult) :
    (l.see kept (s, answer)).Follows (r.see s) := by
  intro id
  cases s with
  | subscribe name other | subscribeField name root info =>
    simp only [Roster.see, Ledger.see, Entries.get?_insert, hr id]
    split <;> rfl
  | publish other message | close other =>
    simp only [Roster.see, Ledger.see, Entries.get?_each, Option.map_map, hr id]
    exact Option.map_congr fun b _ => by simp
  | next name =>
    simp only [Roster.see, Ledger.see]
    cases h : Entries.get? l name with
    | none => exact hr id
    | some b =>
      rw [Entries.get?_insert]
      split
      · rename_i hname
        rw [hr id, ← hname, h, Option.map_some, Option.map_some, Mailbox.channel_answered]
      · exact hr id
  | drop name =>
    simp only [Roster.see, Ledger.see, Entries.get?_erase, hr id]
    split <;> rfl
  | count other => exact hr id

/-- A step that does not concern a channel leaves the mailboxes of the channel as they are. -/
theorem Follows.same_see (hr : l.Follows r) {s : ExchangeStep} (hs : r.concerns channel s = false)
    (answer : ExchangeResult) : Same channel (l.see kept (s, answer)) l := by
  have hon {name : String} (hname : (Entries.get? r name == some channel) = false) :
      l.on channel name = none := by
    rw [beq_eq_false_iff_ne, hr name] at hname
    cases h : l.on channel name with
    | none => rfl
    | some b =>
      obtain ⟨hb, hchannel⟩ := on_eq_some.mp h
      rw [hb, Option.map_some, hchannel] at hname
      exact absurd rfl hname
  intro id
  rw [on_see]
  cases s with
  | subscribe name other | subscribeField name root info =>
    rw [Roster.concerns, Bool.or_eq_false_iff, beq_eq_false_iff_ne] at hs
    simp only [seen]
    split
    · rename_i hname
      rw [← hname, hon hs.2]
      exact if_neg (by simpa using hs.1)
    · rfl
  | publish other message | close other =>
    simp only [seen]
    cases h : l.on channel id with
    | none => rfl
    | some b =>
      have hne : b.channel ≠ other := by
        rw [(on_eq_some.mp h).2]
        exact Ne.symm (beq_eq_false_iff_ne.mp hs)
      simp [Mailbox.receive, Mailbox.shut, hne]
  | next name =>
    simp only [seen]
    split
    · rename_i hname
      rw [← hname, hon hs, Option.map_none]
    · rfl
  | drop name =>
    simp only [seen]
    split
    · rename_i hname
      rw [← hname, hon hs]
    · rfl
  | count other => rfl

/-- Ledgers with the same mailboxes of a channel count the same subscribers of it. -/
theorem Same.census_eq (h : Same channel l l') (hn : (l.map Prod.fst).Nodup) (hn' : (l'.map Prod.fst).Nodup) :
    l.census channel = l'.census channel := by
  have hmem {l : Ledger} (hn : (l.map Prod.fst).Nodup) (entry : String × Mailbox) :
      entry ∈ l.filter (fun entry => entry.2.Current channel) ↔
        l.on channel entry.1 = some entry.2 ∧ entry.2.Current channel := by
    rw [List.mem_filter, decide_eq_true_eq, on_eq_some]
    constructor
    · rintro ⟨hentry, hcurrent⟩
      exact ⟨⟨Entries.get?_of_mem hn hentry, hcurrent.1⟩, hcurrent⟩
    · rintro ⟨⟨hget, -⟩, hcurrent⟩
      exact ⟨Entries.mem_of_get? hget, hcurrent⟩
  rw [census, census, List.countP_eq_length_filter, List.countP_eq_length_filter]
  refine List.Perm.length_eq ?_
  refine (List.perm_ext_iff_of_nodup (hn.of_map _ |>.filter _) (hn'.of_map _ |>.filter _)).mpr fun entry => ?_
  rw [hmem hn, hmem hn', h]

end Ledger

namespace Exchange

variable {x y : Exchange} {l l' : Ledger} {r : Roster} {channel : String}

/-- A step that concerns a channel is answered by the mailboxes of the channel. -/
theorem Mirrors.step_same (hx : x.Mirrors l) (hy : y.Mirrors l') (hkept : x.hub.kept = y.hub.kept)
    (hr : l.Follows r) (hsame : Ledger.Same channel l l') {s : ExchangeStep} (hs : r.concerns channel s = true)
    {host : Host σ} {x' : Exchange} {answer : ExchangeResult} {before after : σ}
    (h : (x.step host s).run before = ((x', answer), after)) :
    ∃ y', (y.step host s).run before = ((y', answer), after) := by
  have hcensus := hsame.census_eq hx.ledger_distinct hy.ledger_distinct
  have hcount : x.hub.subscriberCount channel = y.hub.subscriberCount channel := by
    rw [hx.subscriberCount_eq, hy.subscriberCount_eq, hcensus]
  have hmailbox {name : String} (hname : (Entries.get? r name == some channel) = true) :
      ∃ b, Entries.get? l name = some b ∧ Entries.get? l' name = some b := by
    rw [beq_iff_eq, hr name] at hname
    obtain ⟨b, hb, hchannel⟩ := Option.map_eq_some_iff.mp hname
    have hon := hsame name
    rw [Ledger.on_eq_some.mpr ⟨hb, hchannel⟩] at hon
    exact ⟨b, hb, (Ledger.on_eq_some.mp hon.symm).1⟩
  cases s with
  | subscribe name other | subscribeField name root info =>
    cases h
    exact ⟨_, rfl⟩
  | publish _ message =>
    cases beq_iff_eq.mp hs
    have hreached : (x.hub.publish channel message).2 = (y.hub.publish channel message).2 := by
      rw [Hub.publish_snd, Hub.publish_snd, hcount]
    have hanswer : .reached (x.hub.publish channel message).2 = answer := congrArg (fun z => z.1.2) h
    have hafter : before = after := congrArg Prod.snd h
    rw [← hanswer, ← hafter, hreached]
    exact ⟨_, rfl⟩
  | close _ =>
    cases beq_iff_eq.mp hs
    have hopen : Entries.contains x.hub.channels channel = Entries.contains y.hub.channels channel := by
      rw [Bool.eq_iff_iff, hx.counts.contains_iff, hy.counts.contains_iff, hcount]
    have hanswer : .done (Entries.contains x.hub.channels channel) = answer := congrArg (fun z => z.1.2) h
    have hafter : before = after := congrArg Prod.snd h
    rw [← hanswer, ← hafter, hopen]
    exact ⟨_, rfl⟩
  | count _ =>
    cases beq_iff_eq.mp hs
    have hanswer : .reached (x.hub.subscriberCount channel) = answer := congrArg (fun z => z.1.2) h
    have hafter : before = after := congrArg Prod.snd h
    rw [← hanswer, ← hafter, hcount]
    exact ⟨_, rfl⟩
  | next name =>
    obtain ⟨b, hb, hb'⟩ := hmailbox hs
    cases hreader : b.reader with
    | plain =>
      obtain ⟨z, hz⟩ := hx.next_of_plain hb hreader host before
      obtain ⟨y', hy'⟩ := hy.next_of_plain hb' hreader host before
      rw [hz] at h
      cases h
      exact ⟨y', by rw [hy', hkept]⟩
    | stream root info =>
      obtain ⟨z, p, state, hz, hp⟩ := hx.next_of_stream hb hreader host before
      obtain ⟨y', p', state', hy', hp'⟩ := hy.next_of_stream hb' hreader host before
      rw [hz] at h
      cases h
      rw [← hkept, hp] at hp'
      cases hp'
      exact ⟨y', hy'⟩
  | drop name =>
    obtain ⟨b, hb, hb'⟩ := hmailbox hs
    obtain ⟨a, ha, -⟩ := hx.listeners.exists_of_some' hb
    obtain ⟨a', ha', -⟩ := hy.listeners.exists_of_some' hb'
    simp only [Exchange.step, ha] at h
    cases h
    refine ⟨{ hub := a'.drop y.hub, listeners := Entries.erase y.listeners name }, ?_⟩
    simp only [Exchange.step, ha']
    rfl

/-- The turns that concern a channel are taken alike where the others are not taken. -/
theorem Mirrors.turns_about {host : Host σ} (hx : x.Mirrors l) (hy : y.Mirrors l')
    (hkept : x.hub.kept = y.hub.kept) (hr : l.Follows r) (hsame : Ledger.Same channel l l')
    (moves : List (ExchangeStep × σ)) :
    y.turns host ((Turn.about channel r (x.turns host moves)).map Turn.move) =
      Turn.about channel r (x.turns host moves) := by
  induction moves generalizing x y l l' r with
  | nil => rfl
  | cons move rest ih =>
    obtain ⟨s, before⟩ := move
    rcases hstep : (x.step host s).run before with ⟨⟨x', answer⟩, after⟩
    obtain ⟨hx', hkept'⟩ := hx.step hstep
    simp only [turns, hstep, Turn.about]
    split
    · rename_i hs
      obtain ⟨y', hstep'⟩ := hx.step_same hy hkept hr hsame hs hstep
      obtain ⟨hy', hkept''⟩ := hy.step hstep'
      rw [← hkept] at hy'
      simp only [List.map_cons, Turn.move, turns, hstep']
      exact congrArg _ (ih hx' hy' (hkept'.trans (hkept.trans hkept''.symm)) (hr.see s answer)
        (hsame.see (s, answer)))
    · rename_i hs
      exact ih hx' hy (hkept'.trans hkept) (hr.see s answer) fun id =>
        (hr.same_see (Bool.eq_false_iff.mpr hs) answer id).trans (hsame id)

/-- Channels do not interfere. Without the steps that concern other channels alone, those that concern a channel
are answered as they were, and leave the state of the host as they did; and each run is made of such steps. -/
theorem turns_without_others (host : Host σ) (capacity : Nat) (channel : String) :
    (∀ moves : List (ExchangeStep × σ),
      let mine := Turn.about channel [] (turns host { hub := { capacity := capacity } } moves)
      turns host { hub := { capacity := capacity } } (mine.map Turn.move) = mine) ∧
    ∀ (steps : List ExchangeStep) (start : σ), ∃ moves : List (ExchangeStep × σ),
      moves.map Prod.fst = steps ∧ ((run host capacity steps).run start).1.2 =
        (turns host { hub := { capacity := capacity } } moves).map Turn.event :=
  ⟨fun moves => (mirrors_start capacity).turns_about (mirrors_start capacity) rfl (fun _ => rfl)
      (fun _ => rfl) moves,
    fun steps start => exists_turns host { hub := { capacity := capacity } } [] steps start⟩

end Exchange

end RecordGraph
