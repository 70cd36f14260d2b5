import Mathlib.Data.List.Perm.Basic
import RecordGraph.Hub.Channels
import RecordGraph.Proofs.Dictionary
/-! The channels of a hub and the subscriptions alive on it. A channel is open exactly while a subscription
to its present topic is alive, and a topic counts the subscriptions alive that it has, whether its channel
is still open or not. Each operation is first told by what it changes of the topics and of the open
channels; that it keeps the counts then follows without looking at how topics are stored. -/

namespace RecordGraph

open private Nat.nextPowerOfTwo.go from Init.Data.Nat.Power2.Basic

namespace Hub

variable {h : Hub} {s t : Subscription} {channel other : String} {message : Value} {n : Nat}

/-! What the operations change. -/

theorem topic_eq (h : Hub) (n : Nat) : h.topic n = (h.topics[n]?).getD {} := List.getD_eq_getElem?_getD ..

/-- No topic has a subscriber or a message before it is opened. -/
theorem topic_of_length_le (hn : h.topics.length ≤ n) : h.topic n = {} := by
  rw [topic_eq, List.getElem?_eq_none hn]
  rfl

theorem topic_modifyTopic {f : Topic → Topic} (hf : n < h.topics.length ∨ f {} = {}) (k : Nat) :
    (h.modifyTopic n f).topic k = if n = k then f (h.topic n) else h.topic k := by
  rw [topic_eq, topic_eq, topic_eq, modifyTopic, List.getElem?_modify]
  by_cases hk : n = k
  · subst hk
    rw [if_pos rfl]
    cases hget : h.topics[n]? with
    | some topic => simp
    | none =>
      have hlen : ¬ n < h.topics.length := Nat.not_lt.mpr (List.getElem?_eq_none_iff.mp hget)
      simp [hf.resolve_left hlen]
  · simp [hk]

theorem openChannel_of_some (hn : Entries.get? h.channels channel = some n) :
    h.openChannel channel = (h, n) := by
  rw [openChannel, hn]

theorem openChannel_of_none (hn : Entries.get? h.channels channel = none) :
    h.openChannel channel = ({ h with
      topics := h.topics ++ [{}]
      channels := Entries.insert h.channels channel h.topics.length }, h.topics.length) := by
  rw [openChannel, hn]

/-- A subscription has the present topic of its channel, which is a new one if the channel is not open. -/
theorem subscribe_topic (h : Hub) (channel : String) : (h.subscribe channel).2.topic =
    (Entries.get? h.channels channel).getD h.topics.length := by
  cases hn : Entries.get? h.channels channel with
  | some n => simp [subscribe, openChannel_of_some hn]
  | none => simp [subscribe, openChannel_of_none hn]

@[simp] theorem subscribe_channel (h : Hub) (channel : String) :
    (h.subscribe channel).2.channel = channel := rfl

@[simp] theorem subscribe_capacity (h : Hub) (channel : String) :
    (h.subscribe channel).1.capacity = h.capacity := by
  cases hn : Entries.get? h.channels channel with
  | some n => simp [subscribe, openChannel_of_some hn, modifyTopic]
  | none => simp [subscribe, openChannel_of_none hn, modifyTopic]

theorem get?_channels_subscribe (h : Hub) (channel other : String) :
    Entries.get? (h.subscribe channel).1.channels other =
      if channel = other then some (h.subscribe channel).2.topic else Entries.get? h.channels other := by
  rw [subscribe_topic]
  cases hn : Entries.get? h.channels channel with
  | some n =>
    simp only [subscribe, openChannel_of_some hn, modifyTopic, Option.getD_some]
    split
    · rename_i ho
      rw [← ho, hn]
    · rfl
  | none =>
    simp only [subscribe, openChannel_of_none hn, modifyTopic, Option.getD_none]
    exact Entries.get?_insert ..

theorem length_topics_subscribe (h : Hub) (channel : String) :
    h.topics.length ≤ (h.subscribe channel).1.topics.length := by
  cases hn : Entries.get? h.channels channel with
  | some n => simp [subscribe, openChannel_of_some hn, modifyTopic]
  | none => simp [subscribe, openChannel_of_none hn, modifyTopic]

/-- Channels lead to topics that were opened. -/
def InRange (h : Hub) : Prop :=
  ∀ {channel n}, Entries.get? h.channels channel = some n → n < h.topics.length

theorem subscribe_topic_lt (hr : h.InRange) (channel : String) :
    (h.subscribe channel).2.topic < (h.subscribe channel).1.topics.length := by
  rw [subscribe_topic]
  cases hn : Entries.get? h.channels channel with
  | some n => simpa [subscribe, openChannel_of_some hn, modifyTopic] using hr hn
  | none => simp [subscribe, openChannel_of_none hn, modifyTopic]

theorem topic_subscribe (hr : h.InRange) (channel : String) (n : Nat) : (h.subscribe channel).1.topic n =
    if (h.subscribe channel).2.topic = n then { h.topic n with subscribers := (h.topic n).subscribers + 1 }
    else h.topic n := by
  rw [subscribe_topic]
  cases hn : Entries.get? h.channels channel with
  | some k =>
    simp only [subscribe, openChannel_of_some hn, Option.getD_some]
    rw [topic_modifyTopic (.inl (hr hn))]
    split
    · rename_i hk
      rw [hk]
    · rfl
  | none =>
    simp only [subscribe, openChannel_of_none hn, Option.getD_none]
    rw [topic_modifyTopic (.inl (by simp))]
    have hopened (k : Nat) : ({ h with
        topics := h.topics ++ [{}]
        channels := Entries.insert h.channels channel h.topics.length } : Hub).topic k = h.topic k := by
      rw [topic_eq, topic_eq, List.getElem?_append]
      split
      · rfl
      · rename_i hk
        rw [List.getElem?_eq_none (Nat.not_lt.mp hk)]
        cases k - h.topics.length <;> rfl
    rw [hopened, hopened]
    split
    · rename_i hk
      rw [hk]
    · rfl

/-- It starts with the next message. -/
theorem subscribe_position (h : Hub) (channel : String) :
    (h.subscribe channel).2.position = (h.topic (h.subscribe channel).2.topic).log.length := by
  rw [subscribe_topic]
  cases hn : Entries.get? h.channels channel with
  | some k => simp [subscribe, openChannel_of_some hn]
  | none =>
    rw [Option.getD_none, topic_of_length_le (Nat.le_refl _)]
    simp [subscribe, openChannel_of_none hn, topic_eq]

theorem isOpen_iff : h.isOpen s = true ↔ Entries.get? h.channels s.channel = some s.topic := by
  simp [isOpen]

@[simp] theorem topics_withdraw (h : Hub) (s : Subscription) : (h.withdraw s).topics = h.topics := by
  unfold withdraw
  split <;> rfl

theorem topic_withdraw (h : Hub) (s : Subscription) (n : Nat) : (h.withdraw s).topic n = h.topic n := by
  rw [topic_eq, topics_withdraw, ← topic_eq]

@[simp] theorem channels_release (h : Hub) (s : Subscription) : (h.release s).channels = h.channels := rfl

@[simp] theorem length_topics_release (h : Hub) (s : Subscription) :
    (h.release s).topics.length = h.topics.length := List.length_modify ..

theorem topic_release (h : Hub) (s : Subscription) (n : Nat) : (h.release s).topic n =
    if s.topic = n then { h.topic n with subscribers := (h.topic n).subscribers - 1 } else h.topic n := by
  rw [release, topic_modifyTopic (.inr rfl)]
  split
  · rename_i hn
    rw [hn]
  · rfl

@[simp] theorem drop_capacity (h : Hub) (s : Subscription) : (h.drop s).capacity = h.capacity := by
  simp only [drop, release, modifyTopic, withdraw]
  split <;> rfl

@[simp] theorem length_topics_drop (h : Hub) (s : Subscription) :
    (h.drop s).topics.length = h.topics.length := by
  rw [drop, length_topics_release, topics_withdraw]

theorem topic_drop (h : Hub) (s : Subscription) (n : Nat) : (h.drop s).topic n =
    if s.topic = n then { h.topic n with subscribers := (h.topic n).subscribers - 1 } else h.topic n := by
  rw [drop, topic_release, topic_withdraw]

/-- Dropping the last subscription to the present topic of a channel closes the channel, and does so in the
first half. -/
theorem get?_channels_withdraw (h : Hub) (s : Subscription) (channel : String) :
    Entries.get? (h.withdraw s).channels channel =
      if s.channel = channel ∧ h.isOpen s = true ∧ (h.topic s.topic).subscribers ≤ 1 then none
      else Entries.get? h.channels channel := by
  unfold withdraw
  by_cases hlast : h.isOpen s = true ∧ (h.topic s.topic).subscribers ≤ 1
  · rw [if_pos hlast]
    simp only [hlast, and_true]
    exact Entries.get?_erase ..
  · rw [if_neg hlast, if_neg fun hc => hlast hc.2]

theorem get?_channels_drop (h : Hub) (s : Subscription) (channel : String) :
    Entries.get? (h.drop s).channels channel =
      if s.channel = channel ∧ h.isOpen s = true ∧ (h.topic s.topic).subscribers ≤ 1 then none
      else Entries.get? h.channels channel := get?_channels_withdraw h s channel

theorem drop_channels_of_closed (hs : h.isOpen s = false) : (h.drop s).channels = h.channels := by
  change (h.withdraw s).channels = _
  simp [withdraw, hs]

theorem subscriberCount_of_some (hn : Entries.get? h.channels channel = some n) :
    h.subscriberCount channel = (h.topic n).subscribers := by
  rw [subscriberCount, hn]

theorem publish_cases (h : Hub) (channel : String) (message : Value) :
    h.subscriberCount channel = 0 ∧ h.publish channel message = (h, 0) ∨
      ∃ n, Entries.get? h.channels channel = some n ∧ (h.topic n).subscribers ≠ 0 ∧
        h.publish channel message =
          (h.modifyTopic n fun t => { t with log := t.log ++ [message] }, (h.topic n).subscribers) := by
  cases hn : Entries.get? h.channels channel with
  | none =>
    refine .inl ⟨?_, ?_⟩
    · rw [subscriberCount, hn]
    · rw [publish, hn]
  | some n =>
    by_cases hzero : (h.topic n).subscribers = 0
    · exact .inl ⟨(subscriberCount_of_some hn).trans hzero, by simp only [publish, hn, if_pos hzero]⟩
    · exact .inr ⟨n, rfl, hzero, by simp only [publish, hn, if_neg hzero]⟩

/-- A message reaches the subscribers that the channel counts. -/
theorem publish_snd (h : Hub) (channel : String) (message : Value) :
    (h.publish channel message).2 = h.subscriberCount channel := by
  rcases h.publish_cases channel message with ⟨hzero, hp⟩ | ⟨n, hn, -, hp⟩
  · rw [hp, hzero]
  · rw [hp, subscriberCount_of_some hn]

@[simp] theorem publish_channels (h : Hub) (channel : String) (message : Value) :
    (h.publish channel message).1.channels = h.channels := by
  rcases h.publish_cases channel message with ⟨-, hp⟩ | ⟨n, -, -, hp⟩
  · rw [hp]
  · rw [hp]
    rfl

@[simp] theorem publish_capacity (h : Hub) (channel : String) (message : Value) :
    (h.publish channel message).1.capacity = h.capacity := by
  rcases h.publish_cases channel message with ⟨-, hp⟩ | ⟨n, -, -, hp⟩
  · rw [hp]
  · rw [hp]
    rfl

@[simp] theorem length_topics_publish (h : Hub) (channel : String) (message : Value) :
    (h.publish channel message).1.topics.length = h.topics.length := by
  rcases h.publish_cases channel message with ⟨-, hp⟩ | ⟨n, -, -, hp⟩
  · rw [hp]
  · rw [hp]
    exact List.length_modify ..

/-- A message goes to the present topic of its channel, if someone is subscribed to it. -/
theorem topic_publish (hr : h.InRange) (channel : String) (message : Value) (n : Nat) :
    (h.publish channel message).1.topic n =
      if Entries.get? h.channels channel = some n ∧ (h.topic n).subscribers ≠ 0 then
        { h.topic n with log := (h.topic n).log ++ [message] }
      else h.topic n := by
  rcases h.publish_cases channel message with ⟨hzero, hp⟩ | ⟨k, hk, hsome, hp⟩
  · rw [hp, if_neg]
    rintro ⟨hn, hsome⟩
    exact hsome ((subscriberCount_of_some hn).symm.trans hzero)
  · rw [hp, topic_modifyTopic (.inl (hr hk)), hk]
    by_cases hn : k = n
    · subst hn
      rw [if_pos rfl, if_pos ⟨rfl, hsome⟩]
    · rw [if_neg hn, if_neg fun hc => hn (Option.some.inj hc.1)]

theorem get?_channels_close (h : Hub) (channel other : String) :
    Entries.get? (h.close channel).1.channels other =
      if channel = other then none else Entries.get? h.channels other := Entries.get?_erase ..

/-- The hub when a subscription, if there is one, has been dropped. -/
def without (h : Hub) (s : Option Subscription) : Hub := s.elim h h.drop

/-! How many messages are kept is fixed. -/

theorem le_nextPowerOfTwo_go (n power : Nat) (hpos : power > 0) :
    n ≤ Nat.nextPowerOfTwo.go n power hpos := by
  fun_induction Nat.nextPowerOfTwo.go n power hpos
  · assumption
  · omega

/-- No fewer messages are kept than the capacity. -/
theorem le_kept (h : Hub) : max 1 h.capacity ≤ h.kept := le_nextPowerOfTwo_go ..

@[simp] theorem subscribe_kept (h : Hub) (channel : String) : (h.subscribe channel).1.kept = h.kept := by
  rw [kept, subscribe_capacity, kept]

@[simp] theorem drop_kept (h : Hub) (s : Subscription) : (h.drop s).kept = h.kept := by
  rw [kept, drop_capacity, kept]

@[simp] theorem without_kept (h : Hub) (s : Option Subscription) : (h.without s).kept = h.kept := by
  cases s with
  | none => rfl
  | some s => exact drop_kept h s

@[simp] theorem publish_kept (h : Hub) (channel : String) (message : Value) :
    (h.publish channel message).1.kept = h.kept := by
  rw [kept, publish_capacity, kept]

/-! Owners. -/

/-- Each open channel leads to a topic that was opened for it, and that one of these subscriptions has. -/
structure Owns (h : Hub) (subs : List Subscription) : Prop where
  inRange : h.InRange
  known : ∀ s ∈ subs, s.topic < h.topics.length
  /-- A topic has one channel. -/
  owned : ∀ {channel n}, Entries.get? h.channels channel = some n →
    ∀ s ∈ subs, s.topic = n → s.channel = channel
  held : ∀ {channel n}, Entries.get? h.channels channel = some n → ∃ s ∈ subs, s.topic = n

namespace Owns

variable {subs : List Subscription}

theorem start (capacity : Nat) : ({ capacity := capacity } : Hub).Owns [] where
  inRange hn := by cases hn
  known _ hs := absurd hs List.not_mem_nil
  owned hn := by cases hn
  held hn := by cases hn

theorem perm {rest : List Subscription} (ho : h.Owns subs) (hp : subs.Perm rest) : h.Owns rest where
  inRange := ho.inRange
  known s hs := ho.known s (hp.mem_iff.mpr hs)
  owned hn s hs := ho.owned hn s (hp.mem_iff.mpr hs)
  held hn :=
    have ⟨s, hs, hst⟩ := ho.held hn
    ⟨s, hp.mem_iff.mp hs, hst⟩

/-- The topic of a new subscription belongs to no other channel. -/
theorem ne_topic_subscribe (ho : h.Owns subs) (hne : channel ≠ other)
    (hn : Entries.get? h.channels other = some n) : (h.subscribe channel).2.topic ≠ n := by
  rw [subscribe_topic]
  cases hk : Entries.get? h.channels channel with
  | none => exact Nat.ne_of_gt (ho.inRange hn)
  | some k =>
    rintro rfl
    obtain ⟨s, hs, htopic⟩ := ho.held hk
    exact hne ((ho.owned hk s hs htopic).symm.trans (ho.owned hn s hs htopic))

theorem channel_of_topic_subscribe (ho : h.Owns subs) (hs : s ∈ subs)
    (htopic : s.topic = (h.subscribe channel).2.topic) : s.channel = channel := by
  rw [subscribe_topic] at htopic
  cases hk : Entries.get? h.channels channel with
  | none =>
    rw [hk] at htopic
    exact absurd htopic (Nat.ne_of_lt (ho.known s hs))
  | some k =>
    rw [hk] at htopic
    exact ho.owned hk s hs htopic

theorem subscribe (ho : h.Owns subs) (channel : String) :
    (h.subscribe channel).1.Owns ((h.subscribe channel).2 :: subs) where
  inRange {other n} hn := by
    rw [get?_channels_subscribe] at hn
    split at hn
    · cases hn
      exact subscribe_topic_lt ho.inRange channel
    · exact Nat.lt_of_lt_of_le (ho.inRange hn) (length_topics_subscribe h channel)
  known := List.forall_mem_cons.mpr ⟨subscribe_topic_lt ho.inRange channel, fun s hs =>
    Nat.lt_of_lt_of_le (ho.known s hs) (length_topics_subscribe h channel)⟩
  owned {other n} hn := by
    rw [get?_channels_subscribe] at hn
    split at hn
    · rename_i heq
      cases hn
      exact List.forall_mem_cons.mpr ⟨fun _ => heq, fun s hs htopic =>
        (ho.channel_of_topic_subscribe hs htopic).trans heq⟩
    · rename_i hne
      exact List.forall_mem_cons.mpr ⟨fun htopic => absurd htopic (ho.ne_topic_subscribe hne hn),
        ho.owned hn⟩
  held {other n} hn := by
    rw [get?_channels_subscribe] at hn
    split at hn
    · cases hn
      exact ⟨_, List.mem_cons_self, rfl⟩
    · obtain ⟨s, hs, htopic⟩ := ho.held hn
      exact ⟨s, List.mem_cons_of_mem _ hs, htopic⟩

/-- Closing channels takes no topic from its owner. -/
theorem shrink {g : Hub} (ho : h.Owns subs) (hlen : g.topics.length = h.topics.length)
    (hkeeps : ∀ {channel n}, Entries.get? g.channels channel = some n →
      Entries.get? h.channels channel = some n) : g.Owns subs where
  inRange hn := hlen ▸ ho.inRange (hkeeps hn)
  known s hs := hlen ▸ ho.known s hs
  owned hn := ho.owned (hkeeps hn)
  held hn := ho.held (hkeeps hn)

theorem publish (ho : h.Owns subs) (channel : String) (message : Value) :
    (h.publish channel message).1.Owns subs :=
  ho.shrink (length_topics_publish ..) fun hn => publish_channels h channel message ▸ hn

theorem close (ho : h.Owns subs) (channel : String) : (h.close channel).1.Owns subs :=
  ho.shrink rfl fun {other n} hn => by
    rw [get?_channels_close] at hn
    split at hn
    · cases hn
    · exact hn

theorem withdraw (ho : h.Owns subs) (s : Subscription) : (h.withdraw s).Owns subs :=
  ho.shrink (by rw [topics_withdraw]) fun {other n} hn => by
    rw [get?_channels_withdraw] at hn
    split at hn
    · cases hn
    · exact hn

theorem release (ho : h.Owns subs) (s : Subscription) : (h.release s).Owns subs :=
  ho.shrink (length_topics_release ..) id

end Owns

/-! Counts. -/

/-- The open channels and the counts of a hub are those of the subscriptions alive. -/
structure Counts (h : Hub) (live : List Subscription) : Prop where
  inRange : h.InRange
  known : ∀ s ∈ live, s.topic < h.topics.length
  counted : ∀ n, (h.topic n).subscribers = live.countP fun s => s.topic = n
  /-- A topic has one channel. -/
  owned : ∀ {channel n}, Entries.get? h.channels channel = some n →
    ∀ s ∈ live, s.topic = n → s.channel = channel
  held : ∀ {channel n}, Entries.get? h.channels channel = some n → ∃ s ∈ live, s.topic = n

namespace Counts

variable {live rest : List Subscription}

theorem isOpen_iff_of_mem (hc : h.Counts live) (hs : s ∈ live) :
    h.isOpen s = true ↔ ∃ channel, Entries.get? h.channels channel = some s.topic := by
  rw [isOpen_iff]
  refine ⟨fun hopen => ⟨_, hopen⟩, fun ⟨channel, hchannel⟩ => ?_⟩
  rw [hc.owned hchannel s hs rfl, hchannel]

theorem owns (hc : h.Counts live) : h.Owns live := ⟨hc.inRange, hc.known, hc.owned, hc.held⟩

theorem of_owns (ho : h.Owns live) (hcounted : ∀ n, (h.topic n).subscribers =
    live.countP fun s => s.topic = n) : h.Counts live := ⟨ho.inRange, ho.known, hcounted, ho.owned, ho.held⟩

theorem start (capacity : Nat) : ({ capacity := capacity } : Hub).Counts [] :=
  of_owns (.start capacity) fun _ => rfl

theorem perm (hc : h.Counts live) (hp : live.Perm rest) : h.Counts rest :=
  of_owns (hc.owns.perm hp) fun n => (hc.counted n).trans (hp.countP_eq _)

theorem subscribe (hc : h.Counts live) (channel : String) :
    (h.subscribe channel).1.Counts ((h.subscribe channel).2 :: live) :=
  of_owns (hc.owns.subscribe channel) fun n => by
    rw [topic_subscribe hc.inRange, List.countP_cons, ← hc.counted]
    by_cases hn : (h.subscribe channel).2.topic = n <;> simp [hn]

theorem drop (hc : h.Counts (s :: live)) : (h.drop s).Counts live := by
  have ho : (h.drop s).Owns (s :: live) := (hc.owns.withdraw s).release s
  refine ⟨ho.inRange, fun t ht => ho.known t (List.mem_cons_of_mem _ ht), fun n => ?_,
    fun hn t ht => ho.owned hn t (List.mem_cons_of_mem _ ht), fun {channel n} hn => ?_⟩
  · have hcount := hc.counted n
    rw [List.countP_cons] at hcount
    rw [topic_drop]
    by_cases hn : s.topic = n <;> simp_all
  · by_cases htopic : s.topic = n
    · -- the channel stays open, so its topic has another subscription
      have hchannel := ho.owned hn s List.mem_cons_self htopic
      rw [get?_channels_drop] at hn
      split at hn
      · cases hn
      · rename_i hlast
        have hopen : h.isOpen s = true := by rw [isOpen_iff, hchannel, htopic, hn]
        have hmore : 1 < (h.topic s.topic).subscribers := by
          by_contra hle
          exact hlast ⟨hchannel, hopen, Nat.not_lt.mp hle⟩
        rw [hc.counted, List.countP_cons, htopic, if_pos (by simp)] at hmore
        obtain ⟨t, ht, htn⟩ := List.countP_pos_iff.mp (Nat.lt_of_succ_lt_succ hmore)
        exact ⟨t, ht, of_decide_eq_true htn⟩
    · obtain ⟨t, ht, htn⟩ := ho.held hn
      rcases List.mem_cons.mp ht with rfl | ht
      · exact absurd htn htopic
      · exact ⟨t, ht, htn⟩

theorem without {s : Option Subscription} (hc : h.Counts (s.toList ++ live)) : (h.without s).Counts live := by
  cases s with
  | none => exact hc
  | some s => exact hc.drop

theorem publish (hc : h.Counts live) (channel : String) (message : Value) :
    (h.publish channel message).1.Counts live :=
  of_owns (hc.owns.publish channel message) fun n => by
    rw [topic_publish hc.inRange, ← hc.counted]
    split <;> rfl

theorem close (hc : h.Counts live) (channel : String) : (h.close channel).1.Counts live :=
  of_owns (hc.owns.close channel) hc.counted

/-- What is read of a subscription does not matter to the counts. -/
theorem reposition (hc : h.Counts (s :: live)) (htopic : t.topic = s.topic) (hchannel : t.channel = s.channel) :
    h.Counts (t :: live) where
  inRange := hc.inRange
  known := List.forall_mem_cons.mpr ⟨htopic ▸ hc.known s List.mem_cons_self, fun u hu =>
    hc.known u (List.mem_cons_of_mem _ hu)⟩
  counted n := by rw [hc.counted, List.countP_cons, List.countP_cons, htopic]
  owned hn := List.forall_mem_cons.mpr ⟨fun ht => hchannel.trans
    (hc.owned hn s List.mem_cons_self (htopic.symm.trans ht)), fun u hu =>
      hc.owned hn u (List.mem_cons_of_mem _ hu)⟩
  held hn := by
    obtain ⟨u, hu, hun⟩ := hc.held hn
    rcases List.mem_cons.mp hu with rfl | hu
    · exact ⟨t, List.mem_cons_self, htopic.trans hun⟩
    · exact ⟨u, List.mem_cons_of_mem _ hu, hun⟩

/-- A channel counts the subscriptions alive that still have it open. -/
theorem subscriberCount_eq (hc : h.Counts live) (channel : String) : h.subscriberCount channel =
    live.countP fun s => s.channel = channel ∧ h.isOpen s = true := by
  cases hn : Entries.get? h.channels channel with
  | none =>
    rw [subscriberCount, hn, eq_comm, List.countP_eq_zero]
    intro s hs
    rw [decide_eq_true_eq, isOpen_iff]
    rintro ⟨rfl, hopen⟩
    rw [hn] at hopen
    cases hopen
  | some n =>
    rw [subscriberCount_of_some hn, hc.counted]
    refine List.countP_congr fun s hs => ?_
    rw [decide_eq_true_eq, decide_eq_true_eq, isOpen_iff]
    constructor
    · intro htopic
      have hchannel := hc.owned hn s hs htopic
      exact ⟨hchannel, by rw [hchannel, htopic, hn]⟩
    · rintro ⟨rfl, hopen⟩
      exact Option.some.inj (hopen.symm.trans hn)

/-- A channel is open exactly while it counts someone. -/
theorem contains_iff (hc : h.Counts live) (channel : String) :
    Entries.contains h.channels channel = true ↔ 0 < h.subscriberCount channel := by
  rw [Entries.contains_iff]
  constructor
  · rintro ⟨n, hn⟩
    obtain ⟨s, hs, htopic⟩ := hc.held hn
    rw [subscriberCount_of_some hn, hc.counted]
    exact List.countP_pos_iff.mpr ⟨s, hs, decide_eq_true htopic⟩
  · intro hpos
    cases hn : Entries.get? h.channels channel with
    | none => simp [subscriberCount, hn] at hpos
    | some n => exact ⟨n, rfl⟩

/-- Dropping a subscription whose channel was closed changes no count, also if the channel was opened again. -/
theorem subscriberCount_drop_of_closed (hc : h.Counts live) (hs : s ∈ live) (hclosed : h.isOpen s = false)
    (channel : String) : (h.drop s).subscriberCount channel = h.subscriberCount channel := by
  cases hn : Entries.get? h.channels channel with
  | none => rw [subscriberCount, subscriberCount, drop_channels_of_closed hclosed, hn]
  | some n =>
    have htopic : s.topic ≠ n := by
      rintro rfl
      rw [(hc.isOpen_iff_of_mem hs).mpr ⟨channel, hn⟩] at hclosed
      cases hclosed
    have hn' : Entries.get? (h.drop s).channels channel = some n := drop_channels_of_closed hclosed ▸ hn
    rw [subscriberCount_of_some hn', subscriberCount_of_some hn, topic_drop, if_neg htopic]

end Counts

end Hub

end RecordGraph
