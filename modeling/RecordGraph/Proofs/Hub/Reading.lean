import RecordGraph.Proofs.Hub.Channels
import RecordGraph.Proofs.Hub.Mailbox
/-! Reading a topic as a mailbox of one's own. What was sent to a subscriber is the end of the log of its
topic, and its position is its place in the mailbox behind the messages from before its time. No operation
of a hub disturbs this for another subscription alive, and asking for the next message gives the oldest
message that waits in the mailbox. -/

namespace RecordGraph

/-- A subscription reads its topic as if the messages were in a mailbox of its own. -/
structure Hub.Reads (h : Hub) (s : Subscription) (b : Mailbox) : Prop where
  channel : s.channel = b.channel
  isOpen : h.isOpen s = !b.closed
  log : ∃ before, (h.topic s.topic).log = before ++ b.sent ∧ s.position = before.length + b.place

namespace Hub

variable {h : Hub} {s t : Subscription} {b : Mailbox} {live : List Subscription}

/-! Whether the channel of a subscription is still open. -/

theorem isOpen_subscribe (hs : s.topic < h.topics.length) (channel : String) :
    (h.subscribe channel).1.isOpen s = h.isOpen s := by
  rw [Bool.eq_iff_iff, isOpen_iff, isOpen_iff, get?_channels_subscribe]
  split
  · rename_i hchannel
    rw [subscribe_topic, hchannel]
    cases Entries.get? h.channels s.channel with
    | some n => rfl
    | none =>
      refine iff_of_false (fun heq => ?_) nofun
      exact Nat.ne_of_gt hs (Option.some.inj heq)
  · rfl

theorem isOpen_drop (hc : h.Counts (t :: live)) (hs : s ∈ live) : (h.drop t).isOpen s = h.isOpen s := by
  rw [Bool.eq_iff_iff, isOpen_iff, isOpen_iff, get?_channels_drop]
  split
  · rename_i hlast
    obtain ⟨hchannel, hopen, hone⟩ := hlast
    refine iff_of_false nofun fun hsopen => ?_
    -- both would be counted by the present topic of their channel
    have htopic : t.topic = s.topic := by
      rw [isOpen_iff, hchannel, hsopen] at hopen
      exact (Option.some.inj hopen).symm
    have hsome : 0 < live.countP fun u => u.topic = t.topic :=
      List.countP_pos_iff.mpr ⟨s, hs, decide_eq_true htopic.symm⟩
    rw [hc.counted, List.countP_cons, if_pos (decide_eq_true rfl)] at hone
    omega
  · rfl

theorem isOpen_publish (channel : String) (message : Value) :
    (h.publish channel message).1.isOpen s = h.isOpen s := by
  rw [isOpen, publish_channels, isOpen]

theorem isOpen_close (channel : String) :
    (h.close channel).1.isOpen s = (h.isOpen s && s.channel != channel) := by
  rw [Bool.eq_iff_iff, Bool.and_eq_true, isOpen_iff, isOpen_iff, get?_channels_close]
  by_cases hc : channel = s.channel
  · simp [hc]
  · simp [hc, Ne.symm hc]

/-! Operations of others. -/

theorem reads_subscribe (hr : h.InRange) (channel : String) (reader : Reader) :
    (h.subscribe channel).1.Reads (h.subscribe channel).2 { channel := channel, reader := reader } where
  channel := rfl
  isOpen := by
    rw [Bool.not_false, isOpen_iff, get?_channels_subscribe, subscribe_channel, if_pos rfl]
  log := by
    refine ⟨(h.topic (h.subscribe channel).2.topic).log, ?_, ?_⟩
    · rw [topic_subscribe hr, if_pos rfl, List.append_nil]
    · rw [subscribe_position]
      rfl

namespace Reads

theorem subscribe (hrd : h.Reads s b) (hc : h.Counts live) (hs : s ∈ live) (channel : String) :
    (h.subscribe channel).1.Reads s b where
  channel := hrd.channel
  isOpen := (isOpen_subscribe (hc.known s hs) channel).trans hrd.isOpen
  log := by
    rw [topic_subscribe hc.inRange]
    split <;> exact hrd.log

theorem drop (hrd : h.Reads s b) (hc : h.Counts (t :: live)) (hs : s ∈ live) : (h.drop t).Reads s b where
  channel := hrd.channel
  isOpen := (isOpen_drop hc hs).trans hrd.isOpen
  log := by
    rw [topic_drop]
    split <;> exact hrd.log

theorem without {t : Option Subscription} (hrd : h.Reads s b) (hc : h.Counts (t.toList ++ live))
    (hs : s ∈ live) : (h.without t).Reads s b := by
  cases t with
  | none => exact hrd
  | some t => exact hrd.drop hc hs

theorem publish (hrd : h.Reads s b) (hc : h.Counts live) (hs : s ∈ live) (channel : String)
    (message : Value) : (h.publish channel message).1.Reads s (b.receive channel message) := by
  have hopen : Entries.get? h.channels channel = some s.topic ↔ b.channel = channel ∧ b.closed = false := by
    have hisOpen : h.isOpen s = true ↔ b.closed = false := by rw [hrd.isOpen, Bool.not_eq_true']
    rw [← hisOpen, isOpen_iff, ← hrd.channel]
    constructor
    · intro hn
      have hchannel := hc.owned hn s hs rfl
      exact ⟨hchannel, hchannel ▸ hn⟩
    · rintro ⟨rfl, hn⟩
      exact hn
  have hcounted : (h.topic s.topic).subscribers ≠ 0 := by
    rw [hc.counted]
    exact Nat.ne_of_gt (List.countP_pos_iff.mpr ⟨s, hs, decide_eq_true rfl⟩)
  unfold Mailbox.receive
  split
  · rename_i hreach
    refine ⟨hrd.channel, (isOpen_publish channel message).trans hrd.isOpen, ?_⟩
    obtain ⟨before, hlog, hposition⟩ := hrd.log
    rw [topic_publish hc.inRange, if_pos ⟨hopen.mpr hreach, hcounted⟩]
    refine ⟨before, ?_, hposition⟩
    rw [hlog, List.append_assoc]
  · rename_i hreach
    refine ⟨hrd.channel, (isOpen_publish channel message).trans hrd.isOpen, ?_⟩
    rw [topic_publish hc.inRange, if_neg fun hn => hreach (hopen.mp hn.1)]
    exact hrd.log

theorem close (hrd : h.Reads s b) (channel : String) : (h.close channel).1.Reads s (b.shut channel) := by
  unfold Mailbox.shut
  split
  · rename_i hchannel
    refine ⟨hrd.channel, ?_, hrd.log⟩
    rw [isOpen_close, hrd.channel, hchannel]
    simp
  · rename_i hchannel
    refine ⟨hrd.channel, ?_, hrd.log⟩
    rw [isOpen_close, hrd.isOpen, hrd.channel]
    simp [hchannel]

end Reads

/-! Asking for the next message. -/

@[simp] theorem poll_topic (h : Hub) (s : Subscription) : (h.poll s).1.topic = s.topic := by
  unfold poll
  simp only
  split <;> rfl

@[simp] theorem poll_channel (h : Hub) (s : Subscription) : (h.poll s).1.channel = s.channel := by
  unfold poll
  simp only
  split <;> rfl

/-- The next message is the oldest that waits in the mailbox, which it leaves. -/
theorem Reads.poll (hrd : h.Reads s b) (ho : b.Orderly h.kept) :
    (h.poll s).2 = b.answer h.kept ∧ h.Reads (h.poll s).1 (b.give h.kept) := by
  obtain ⟨before, hlog, hposition⟩ := hrd.log
  have hnext := ho.next?_eq
  split at hnext
  · rename_i hlt
    set n := max b.place (b.sent.length - h.kept)
    have hat : max s.position ((h.topic s.topic).log.length - h.kept) = before.length + n := by
      rw [hposition, hlog, List.length_append]
      omega
    have hread : (h.topic s.topic).log[before.length + n]? = some b.sent[n] := by
      rw [hlog, List.getElem?_append_right (Nat.le_add_right _ _), Nat.add_sub_cancel_left,
        List.getElem?_eq_getElem hlt]
    have hpoll : h.poll s = ({ s with position := before.length + n + 1 }, .item b.sent[n]) := by
      simp only [Hub.poll, hat, hread]
    rw [hpoll, Mailbox.answer_eq_item.mpr ⟨n, hnext, List.getElem?_eq_getElem hlt⟩]
    refine ⟨rfl, hrd.channel, hrd.isOpen, before, hlog, ?_⟩
    rw [Mailbox.place_give hnext, Nat.add_assoc]
  · rename_i hge
    have hread : (h.topic s.topic).log[max s.position ((h.topic s.topic).log.length - h.kept)]? = none := by
      rw [List.getElem?_eq_none_iff, hposition, hlog, List.length_append]
      omega
    have hpoll : h.poll s = (s, if h.isOpen s then .pending else .ended) := by
      simp only [Hub.poll, hread]
    rw [hpoll, Mailbox.answer_of_none hnext, Mailbox.give_of_none hnext, hrd.isOpen]
    refine ⟨?_, hrd⟩
    cases b.closed <;> rfl

end Hub

end RecordGraph
