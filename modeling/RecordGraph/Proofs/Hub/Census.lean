import RecordGraph.Proofs.Hub.Run
/-! Which channels are open, and how many subscribers they count. A channel is open exactly while a
subscription made since it was opened is alive, and it counts those; a subscription from before the channel
was closed counts for nothing, whether the channel was opened again or not. -/

namespace RecordGraph

/-- A mailbox takes part in a channel as it was last opened. -/
def Mailbox.Current (channel : String) (b : Mailbox) : Prop :=
  b.channel = channel ∧ b.closed = false ∧ b.finished = false

instance (channel : String) (b : Mailbox) : Decidable (b.Current channel) :=
  inferInstanceAs (Decidable (_ ∧ _))

namespace Ledger

/-- How many mailboxes take part in a channel. -/
def census (l : Ledger) (channel : String) : Nat := l.countP fun entry => entry.2.Current channel

end Ledger

/-- The channels of an exchange are those that someone takes part in, with as many subscribers. -/
structure Exchange.Accounted (x : Exchange) (l : Ledger) : Prop where
  registered_iff : ∀ channel, Entries.contains x.hub.channels channel = true ↔
    ∃ id b, Entries.get? l id = some b ∧ b.Current channel
  counted : ∀ channel, x.hub.subscriberCount channel = l.census channel
  reached : ∀ channel message, (x.hub.publish channel message).2 = l.census channel
  /-- Who drops a subscription from before its channel was closed takes nothing away. -/
  dropped : ∀ id b, Entries.get? l id = some b → b.closed = true →
    ∃ a, Entries.get? x.listeners id = some a ∧ (a.drop x.hub).channels = x.hub.channels ∧
      ∀ channel, (a.drop x.hub).subscriberCount channel = x.hub.subscriberCount channel
  silent : (∀ id b, Entries.get? l id = some b → b.closed = true ∨ b.finished = true) →
    x.hub.channelCount = 0

namespace Exchange

variable {x : Exchange} {l : Ledger}

/-- A listener is counted for a channel if its mailbox takes part in it. -/
theorem alive_current {h : Hub} {a : Listener} {b : Mailbox} (hm : a.Mirrors h b) (channel : String) :
    ((a.alive?.map fun s => decide (s.channel = channel ∧ h.isOpen s = true)).getD false) =
      decide (b.Current channel) := by
  have hphase := hm.phase
  by_cases hover : a.phase = .over
  · rw [hover] at hphase
    simp [Listener.alive?_of_over hover, Mailbox.Current, hphase.1]
  · have hr := hm.reads hover
    have hfinished := Mailbox.InPhase.finished_eq hphase hover
    simp [Listener.alive?_of_ne hover, Mailbox.Current, hfinished, hr.channel, hr.isOpen]

theorem Mirrors.subscriberCount_eq (hx : x.Mirrors l) (channel : String) :
    x.hub.subscriberCount channel = l.census channel := by
  rw [hx.counts.subscriberCount_eq, live, List.countP_filterMap, Ledger.census]
  exact hx.listeners.countP_eq hx.distinct hx.ledger_distinct fun hm => alive_current hm channel

theorem Mirrors.accounted (hx : x.Mirrors l) : x.Accounted l := by
  have hregistered (channel : String) : Entries.contains x.hub.channels channel = true ↔
      ∃ id b, Entries.get? l id = some b ∧ b.Current channel := by
    rw [hx.counts.contains_iff, hx.subscriberCount_eq, Ledger.census, List.countP_pos_iff]
    constructor
    · rintro ⟨⟨id, b⟩, hmem, hcurrent⟩
      exact ⟨id, b, Entries.get?_of_mem hx.ledger_distinct hmem, of_decide_eq_true hcurrent⟩
    · rintro ⟨id, b, hb, hcurrent⟩
      exact ⟨(id, b), Entries.mem_of_get? hb, decide_eq_true hcurrent⟩
  refine ⟨hregistered, hx.subscriberCount_eq, fun channel message => ?_, fun id b hb hclosed => ?_,
    fun hnone => ?_⟩
  · rw [Hub.publish_snd, hx.subscriberCount_eq]
  · obtain ⟨a, ha, hm⟩ := hx.listeners.exists_of_some' hb
    refine ⟨a, ha, ?_⟩
    rw [Listener.drop_eq]
    by_cases hover : a.phase = .over
    · rw [Listener.alive?_of_over hover]
      exact ⟨rfl, fun _ => rfl⟩
    · have hopen : x.hub.isOpen a.subscription = false := by rw [(hm.reads hover).isOpen, hclosed]; rfl
      rw [Listener.alive?_of_ne hover]
      exact ⟨Hub.drop_channels_of_closed hopen,
        hx.counts.subscriberCount_drop_of_closed (mem_live ha hover) hopen⟩
  · rw [Hub.channelCount, List.length_eq_zero_iff, List.eq_nil_iff_forall_not_mem]
    rintro ⟨channel, n⟩ hmem
    have hopen : Entries.contains x.hub.channels channel = true :=
      List.any_eq_true.mpr ⟨_, hmem, by simp⟩
    obtain ⟨id, b, hb, -, hclosed, hover⟩ := (hregistered channel).mp hopen
    rcases hnone id b hb with h | h <;> simp_all

/-- After any run, the open channels and their counts are those of the mailboxes. -/
theorem run_accounted (host : Host σ) (capacity : Nat) (steps : List ExchangeStep) (start : σ) :
    ((run host capacity steps).run start).1.1.Accounted
      (Ledger.ofEvents (max 1 capacity).nextPowerOfTwo ((run host capacity steps).run start).1.2) := by
  obtain ⟨hkept, hx⟩ := mirrors_run (rfl : (run host capacity steps).run start = _)
  rw [hkept] at hx
  exact hx.accounted

/-- A subscription from before its channel was closed goes, and the one made since stays counted. -/
example : ((run .plain 2 [.subscribe "old" "news", .close "news", .subscribe "new" "news",
    .drop "old"]).run ()).1.1.hub.subscriberCount "news" = 1 := by decide

end Exchange

end RecordGraph
