import Mathlib.Data.List.Induction
import RecordGraph.Proofs.Hub.Channels
/-! Drops that overlap. Dropping a subscription takes two steps, and between them others may subscribe, publish,
close channels and drop subscriptions of their own. The first step closes the channel if the topic counts no
other subscription, but one that has taken its own first step is counted until it has taken the second. When
the last subscription held begins its drop while another drop from the topic is under way, neither closes the
channel. Where no drop is under way, these are exactly the channels open with nobody left to close them. -/

namespace RecordGraph

/-- How far the drop of a subscription has come: it has not begun, its first half is done, or both are. -/
inductive Stage where
  | held
  | leaving
  | gone
  deriving DecidableEq, Repr

/-- A subscription that was handed out. -/
structure Ticket where
  subscription : Subscription
  stage : Stage := .held
  deriving DecidableEq, Repr

/-- A hub and all subscriptions that it has handed out. -/
structure Crowd where
  hub : Hub
  tickets : List Ticket := []

/-- What is done to a hub, the two halves of a drop being steps of their own. Tickets go by number. -/
inductive CrowdStep where
  | subscribe (channel : String)
  | publish (channel : String) (message : Value)
  | close (channel : String)
  | withdraw (number : Nat)
  | release (number : Nat)

namespace Crowd

/-- Takes a ticket on to its next stage. -/
def advance (c : Crowd) (number : Nat) (t : Ticket) (stage : Stage) (hub : Hub) : Crowd where
  hub := hub
  tickets := c.tickets.set number { t with stage := stage }

/-- One step. A half of a drop that is not due does nothing. -/
def step (c : Crowd) : CrowdStep → Crowd
  | .subscribe channel =>
    let (hub, s) := c.hub.subscribe channel
    { hub, tickets := c.tickets ++ [{ subscription := s }] }
  | .publish channel message => { c with hub := (c.hub.publish channel message).1 }
  | .close channel => { c with hub := (c.hub.close channel).1 }
  | .withdraw number =>
    match c.tickets[number]? with
    | some t => if t.stage = .held then c.advance number t .leaving (c.hub.withdraw t.subscription) else c
    | none => c
  | .release number =>
    match c.tickets[number]? with
    | some t => if t.stage = .leaving then c.advance number t .gone (c.hub.release t.subscription) else c
    | none => c

/-- The steps of any number of callers on a new hub, in the order they were taken. -/
def run (capacity : Nat) (steps : List CrowdStep) : Crowd := steps.foldl step { hub := { capacity } }

/-- How many subscriptions to a topic are at a stage. -/
def count (c : Crowd) (n : Nat) (stage : Stage) : Nat :=
  c.tickets.countP fun t => t.subscription.topic = n ∧ t.stage = stage

/-- No drop is under way. -/
def Settled (c : Crowd) : Prop := ∀ t ∈ c.tickets, t.stage ≠ .leaving

instance (c : Crowd) : Decidable c.Settled := inferInstanceAs (Decidable (∀ t ∈ c.tickets, t.stage ≠ .leaving))

/-- A channel is open and counts nobody. -/
def Stranded (c : Crowd) (channel : String) : Prop :=
  Entries.contains c.hub.channels channel = true ∧ c.hub.subscriberCount channel = 0

instance (c : Crowd) (channel : String) : Decidable (c.Stranded channel) :=
  inferInstanceAs (Decidable (_ ∧ _))

/-- Of the subscriptions to a topic, the last one held began its drop while another drop was under way. -/
def Overlapped (capacity : Nat) (steps : List CrowdStep) (n : Nat) : Prop :=
  ∃ before number after, steps = before ++ .withdraw number :: after ∧
    0 < (run capacity before).count n .leaving ∧ 0 < (run capacity before).count n .held ∧
      ∀ since, since <+: after → (run capacity (before ++ .withdraw number :: since)).count n .held = 0

variable {c : Crowd} {t : Ticket} {capacity n number : Nat} {channel : String} {steps : List CrowdStep}
  {s : CrowdStep} {stage : Stage}

theorem run_snoc (capacity : Nat) (steps : List CrowdStep) (s : CrowdStep) :
    run capacity (steps ++ [s]) = (run capacity steps).step s := List.foldl_concat ..

/-! What a step does. -/

theorem step_withdraw (hget : c.tickets[number]? = some t) (ht : t.stage = .held) :
    c.step (.withdraw number) = c.advance number t .leaving (c.hub.withdraw t.subscription) := by
  rw [step, hget]
  exact if_pos ht

theorem step_release (hget : c.tickets[number]? = some t) (ht : t.stage = .leaving) :
    c.step (.release number) = c.advance number t .gone (c.hub.release t.subscription) := by
  rw [step, hget]
  exact if_pos ht

theorem step_withdraw_cases (c : Crowd) (number : Nat) : c.step (.withdraw number) = c ∨
    ∃ t, c.tickets[number]? = some t ∧ t.stage = .held ∧
      c.step (.withdraw number) = c.advance number t .leaving (c.hub.withdraw t.subscription) := by
  cases hget : c.tickets[number]? with
  | none => exact .inl (by rw [step, hget])
  | some t =>
    by_cases ht : t.stage = .held
    · exact .inr ⟨t, rfl, ht, step_withdraw hget ht⟩
    · refine .inl ?_
      rw [step, hget]
      exact if_neg ht

theorem step_release_cases (c : Crowd) (number : Nat) : c.step (.release number) = c ∨
    ∃ t, c.tickets[number]? = some t ∧ t.stage = .leaving ∧
      c.step (.release number) = c.advance number t .gone (c.hub.release t.subscription) := by
  cases hget : c.tickets[number]? with
  | none => exact .inl (by rw [step, hget])
  | some t =>
    by_cases ht : t.stage = .leaving
    · exact .inr ⟨t, rfl, ht, step_release hget ht⟩
    · refine .inl ?_
      rw [step, hget]
      exact if_neg ht

/-- The two halves of a drop, one right after the other, are the drop. -/
theorem hub_release_withdraw (hget : c.tickets[number]? = some t) (ht : t.stage = .held) :
    ((c.step (.withdraw number)).step (.release number)).hub = c.hub.drop t.subscription := by
  have hnext : (c.advance number t .leaving (c.hub.withdraw t.subscription)).tickets[number]? =
      some { t with stage := .leaving } := List.getElem?_set_self (List.getElem?_eq_some_iff.mp hget).1
  rw [step_withdraw hget ht, step_release hnext rfl]
  rfl

theorem count_subscribe (c : Crowd) (channel : String) (n : Nat) (stage : Stage) :
    (c.step (.subscribe channel)).count n stage = c.count n stage +
      if (c.hub.subscribe channel).2.topic = n ∧ stage = .held then 1 else 0 := by
  simp only [step, count, List.countP_append, List.countP_singleton, eq_comm (a := stage), decide_eq_true_eq]

/-- A ticket that is taken on is counted at its new stage and no longer at its old one. -/
theorem count_advance (hget : c.tickets[number]? = some t) (next : Stage) (hub : Hub) (n : Nat)
    (stage : Stage) : (c.advance number t next hub).count n stage = c.count n stage -
      (if t.subscription.topic = n ∧ t.stage = stage then 1 else 0) +
      if t.subscription.topic = n ∧ next = stage then 1 else 0 := by
  obtain ⟨hlt, rfl⟩ := List.getElem?_eq_some_iff.mp hget
  simp only [advance, count, List.countP_set hlt, decide_eq_true_eq]

theorem subscriptions_advance (hget : c.tickets[number]? = some t) (next : Stage) (hub : Hub) :
    (c.advance number t next hub).tickets.map Ticket.subscription = c.tickets.map Ticket.subscription := by
  obtain ⟨hlt, rfl⟩ := List.getElem?_eq_some_iff.mp hget
  rw [advance, List.map_set]
  exact (congrArg _ (List.getElem_map Ticket.subscription).symm).trans (List.set_getElem_self (by simpa using hlt))

theorem count_pos_of_getElem? (hget : c.tickets[number]? = some t) :
    0 < c.count t.subscription.topic t.stage :=
  List.countP_pos_iff.mpr ⟨t, List.mem_of_getElem? hget, by simp⟩

/-- A step that takes the last ticket held is the first half of a drop. -/
theorem exists_withdraw (hheld : 0 < c.count n .held) (hnone : (c.step s).count n .held = 0) :
    ∃ number t, s = .withdraw number ∧ c.tickets[number]? = some t ∧ t.stage = .held ∧
      t.subscription.topic = n ∧ c.count n .held = 1 := by
  cases s with
  | subscribe channel =>
    rw [count_subscribe] at hnone
    omega
  | publish channel message => exact absurd hnone (Nat.ne_of_gt hheld)
  | close channel => exact absurd hnone (Nat.ne_of_gt hheld)
  | withdraw number =>
    rcases c.step_withdraw_cases number with hstep | ⟨t, hget, ht, hstep⟩
    · rw [hstep] at hnone
      omega
    · rw [hstep, count_advance hget, ht] at hnone
      by_cases htopic : t.subscription.topic = n
      · rw [if_pos ⟨htopic, rfl⟩] at hnone
        exact ⟨number, t, rfl, hget, ht, htopic, by omega⟩
      · rw [if_neg fun h => htopic h.1] at hnone
        omega
  | release number =>
    rcases c.step_release_cases number with hstep | ⟨t, hget, ht, hstep⟩
    · rw [hstep] at hnone
      omega
    · rw [hstep, count_advance hget, ht, if_neg (by simp)] at hnone
      omega

/-! What every run keeps. -/

/-- The channels belong to subscriptions handed out, and a topic counts those that are not gone. -/
structure Kept (c : Crowd) : Prop where
  owns : c.hub.Owns (c.tickets.map Ticket.subscription)
  counted : ∀ n, (c.hub.topic n).subscribers = c.count n .held + c.count n .leaving

namespace Kept

theorem start (capacity : Nat) : Kept { hub := { capacity } } := ⟨.start capacity, fun _ => rfl⟩

theorem withdraw (hk : c.Kept) (hget : c.tickets[number]? = some t) (ht : t.stage = .held) :
    (c.advance number t .leaving (c.hub.withdraw t.subscription)).Kept := by
  refine ⟨?_, fun n => ?_⟩
  · rw [subscriptions_advance hget]
    exact hk.owns.withdraw t.subscription
  · have hpos := count_pos_of_getElem? hget
    have hcounted := hk.counted n
    rw [count_advance hget, count_advance hget]
    change ((c.hub.withdraw t.subscription).topic n).subscribers = _
    rw [Hub.topic_withdraw]
    by_cases htopic : t.subscription.topic = n
    · rw [htopic, ht] at hpos
      simp [htopic, ht]
      omega
    · simp [htopic, hcounted]

theorem release (hk : c.Kept) (hget : c.tickets[number]? = some t) (ht : t.stage = .leaving) :
    (c.advance number t .gone (c.hub.release t.subscription)).Kept := by
  refine ⟨?_, fun n => ?_⟩
  · rw [subscriptions_advance hget]
    exact hk.owns.release t.subscription
  · have hpos := count_pos_of_getElem? hget
    have hcounted := hk.counted n
    rw [count_advance hget, count_advance hget]
    change ((c.hub.release t.subscription).topic n).subscribers = _
    rw [Hub.topic_release]
    by_cases htopic : t.subscription.topic = n
    · rw [htopic, ht] at hpos
      simp [htopic, ht]
      omega
    · simp [htopic, hcounted]

theorem step (hk : c.Kept) (s : CrowdStep) : (c.step s).Kept := by
  cases s with
  | subscribe channel =>
    refine ⟨?_, fun n => ?_⟩
    · simp only [Crowd.step, List.map_append]
      exact (hk.owns.subscribe channel).perm (List.perm_append_singleton ..).symm
    · rw [count_subscribe, count_subscribe]
      change ((c.hub.subscribe channel).1.topic n).subscribers = _
      rw [Hub.topic_subscribe hk.owns.inRange]
      have hcounted := hk.counted n
      by_cases htopic : (c.hub.subscribe channel).2.topic = n
      · simp [htopic]
        omega
      · simp [htopic, hcounted]
  | publish channel message =>
    refine ⟨hk.owns.publish channel message, fun n => ?_⟩
    refine Eq.trans ?_ (hk.counted n)
    change ((c.hub.publish channel message).1.topic n).subscribers = _
    rw [Hub.topic_publish hk.owns.inRange]
    split <;> rfl
  | close channel => exact ⟨hk.owns.close channel, hk.counted⟩
  | withdraw number =>
    rcases c.step_withdraw_cases number with hstep | ⟨t, hget, ht, hstep⟩
    · rwa [hstep]
    · rw [hstep]
      exact hk.withdraw hget ht
  | release number =>
    rcases c.step_release_cases number with hstep | ⟨t, hget, ht, hstep⟩
    · rwa [hstep]
    · rw [hstep]
      exact hk.release hget ht

theorem run (capacity : Nat) (steps : List CrowdStep) : (run capacity steps).Kept := by
  induction steps using List.reverseRecOn with
  | nil => exact start capacity
  | append_singleton steps s ih =>
    rw [run_snoc]
    exact ih.step s

/-- The first half of a drop that leaves the channel open leaves someone else to close it. -/
theorem leaving_of_withdraw (hk : c.Kept) (hget : c.tickets[number]? = some t)
    (hlast : c.count t.subscription.topic .held = 1)
    (hn : Entries.get? (c.hub.withdraw t.subscription).channels channel = some t.subscription.topic) :
    0 < c.count t.subscription.topic .leaving := by
  have hmem : t.subscription ∈ c.tickets.map Ticket.subscription :=
    List.mem_map_of_mem (List.mem_of_getElem? hget)
  have hchannel := (hk.owns.withdraw t.subscription).owned hn _ hmem rfl
  rw [Hub.get?_channels_withdraw] at hn
  split at hn
  · cases hn
  · rename_i hmore
    have hopen : c.hub.isOpen t.subscription = true := by rw [Hub.isOpen_iff, hchannel, hn]
    have hcounted := hk.counted t.subscription.topic
    by_contra hnone
    exact hmore ⟨hchannel, hopen, by omega⟩

end Kept

/-- A channel that was open before a step is open with the same topic after it, or the step opened it. -/
theorem channel_of_step (hn : Entries.get? (c.step s).hub.channels channel = some n) :
    Entries.get? c.hub.channels channel = some n ∨ 0 < (c.step s).count n .held := by
  cases s with
  | subscribe other =>
    rw [count_subscribe]
    change Entries.get? (c.hub.subscribe other).1.channels channel = some n at hn
    rw [Hub.get?_channels_subscribe] at hn
    split at hn
    · cases hn
      exact .inr (by simp)
    · exact .inl hn
  | publish other message => exact .inl (Hub.publish_channels c.hub other message ▸ hn)
  | close other =>
    change Entries.get? (c.hub.close other).1.channels channel = some n at hn
    rw [Hub.get?_channels_close] at hn
    split at hn
    · cases hn
    · exact .inl hn
  | withdraw number =>
    rcases c.step_withdraw_cases number with hstep | ⟨t, -, -, hstep⟩
    · exact .inl (hstep ▸ hn)
    · rw [hstep] at hn
      change Entries.get? (c.hub.withdraw t.subscription).channels channel = some n at hn
      rw [Hub.get?_channels_withdraw] at hn
      split at hn
      · cases hn
      · exact .inl hn
  | release number =>
    rcases c.step_release_cases number with hstep | ⟨t, -, -, hstep⟩
    · exact .inl (hstep ▸ hn)
    · rw [hstep] at hn
      exact .inl hn

namespace Overlapped

theorem count_held (ho : Overlapped capacity steps n) : (run capacity steps).count n .held = 0 := by
  obtain ⟨before, number, after, rfl, -, -, hnone⟩ := ho
  exact hnone after List.prefix_rfl

theorem snoc (ho : Overlapped capacity steps n) (hnone : (run capacity (steps ++ [s])).count n .held = 0) :
    Overlapped capacity (steps ++ [s]) n := by
  obtain ⟨before, number, after, rfl, hleaving, hheld, hsince⟩ := ho
  refine ⟨before, number, after ++ [s], by simp, hleaving, hheld, fun since hprefix => ?_⟩
  rcases List.prefix_concat_iff.mp hprefix with rfl | hprefix
  · simpa using hnone
  · exact hsince since hprefix

theorem of_last (hleaving : 0 < (run capacity steps).count n .leaving)
    (hheld : 0 < (run capacity steps).count n .held)
    (hnone : (run capacity (steps ++ [.withdraw number])).count n .held = 0) :
    Overlapped capacity (steps ++ [.withdraw number]) n := by
  refine ⟨steps, number, [], rfl, hleaving, hheld, fun since hprefix => ?_⟩
  rw [List.prefix_nil.mp hprefix]
  exact hnone

end Overlapped

/-- A channel is open because its topic is held, or because its last drops overlapped. -/
theorem held_or_overlapped (hn : Entries.get? (run capacity steps).hub.channels channel = some n) :
    0 < (run capacity steps).count n .held ∨ Overlapped capacity steps n := by
  induction steps using List.reverseRecOn with
  | nil => cases hn
  | append_singleton steps s ih =>
    rw [Nat.pos_iff_ne_zero, ← imp_iff_not_or]
    intro hnone
    have hstep := hnone
    rw [run_snoc] at hn hstep
    have hbefore := (channel_of_step hn).resolve_right (by omega)
    rcases ih hbefore with hheld | ho
    · obtain ⟨number, t, rfl, hget, ht, rfl, hlast⟩ := exists_withdraw hheld hstep
      have hk := Kept.run capacity steps
      rw [step_withdraw hget ht] at hn
      exact .of_last (hk.leaving_of_withdraw hget hlast hn) hheld hnone
    · exact ho.snoc hnone

theorem Settled.count_leaving (h : c.Settled) (n : Nat) : c.count n .leaving = 0 :=
  List.countP_eq_zero.mpr fun t ht => by simpa using fun _ => h t ht

/-- Where no drop is under way, the channels open with nobody to close them are those whose last drops overlapped;
when all subscriptions are gone, no channel is open exactly if there are none of these. -/
theorem stranded_iff (h : (run capacity steps).Settled) :
    (∀ channel, (run capacity steps).Stranded channel ↔
      ∃ n, Entries.get? (run capacity steps).hub.channels channel = some n ∧ Overlapped capacity steps n) ∧
    ((∀ t ∈ (run capacity steps).tickets, t.stage = .gone) → ((run capacity steps).hub.channelCount = 0 ↔
      ∀ channel n, Entries.get? (run capacity steps).hub.channels channel = some n →
        ¬ Overlapped capacity steps n)) := by
  have hk := Kept.run capacity steps
  refine ⟨fun channel => ?_, fun hgone => ?_⟩
  · rw [Stranded, Entries.contains_iff]
    constructor
    · rintro ⟨⟨n, hn⟩, hzero⟩
      rw [Hub.subscriberCount_of_some hn, hk.counted] at hzero
      exact ⟨n, hn, (held_or_overlapped hn).resolve_left (by omega)⟩
    · rintro ⟨n, hn, ho⟩
      rw [Hub.subscriberCount_of_some hn, hk.counted, ho.count_held, h.count_leaving]
      exact ⟨⟨n, hn⟩, rfl⟩
  · have hnone (n : Nat) : (run capacity steps).count n .held = 0 :=
      List.countP_eq_zero.mpr fun t ht => by simp [hgone t ht]
    rw [Hub.channelCount, List.length_eq_zero_iff]
    constructor
    · intro hempty channel n hn
      rw [hempty] at hn
      cases hn
    · intro hnever
      refine List.eq_nil_iff_forall_not_mem.mpr fun entry hentry => ?_
      obtain ⟨n, hn⟩ := Entries.contains_iff.mp (List.any_eq_true.mpr ⟨entry, hentry, beq_self_eq_true _⟩)
      exact hnever entry.1 n hn ((held_or_overlapped hn).resolve_left (by rw [hnone]; omega))

/-- Two subscriptions to one channel, the drop of the second begun before that of the first is done. -/
def bothLeaving : List CrowdStep :=
  [.subscribe "news", .subscribe "news", .withdraw 0, .withdraw 1, .release 0, .release 1]

theorem bothLeaving_overlapped : (run 8 bothLeaving).Settled ∧
    ∃ n, Entries.get? (run 8 bothLeaving).hub.channels "news" = some n ∧ Overlapped 8 bothLeaving n := by
  have hsettled : (run 8 bothLeaving).Settled := by decide +kernel
  exact ⟨hsettled, ((stranded_iff hsettled).1 "news").mp (by decide +kernel)⟩

/-- All drops are done, and yet a channel without a receiver is left. -/
theorem bothLeaving_stranded : (run 8 bothLeaving).Settled ∧
    (∀ t ∈ (run 8 bothLeaving).tickets, t.stage = .gone) ∧ (run 8 bothLeaving).Stranded "news" ∧
      (run 8 bothLeaving).hub.channelCount ≠ 0 := by
  decide +kernel

end Crowd

end RecordGraph
