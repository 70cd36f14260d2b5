import Mathlib.Data.List.Induction
import RecordGraph.Proofs.Decode.Ending
import RecordGraph.Proofs.Decode.Keys
import RecordGraph.Proofs.Except
/-! Decoded values and arguments of built models. Decoding a value answers exactly what has the shape of its
type, and the arguments of a field are decoded one for each that is declared and given, under its host name;
which fails only if one of those given has no value of its type. -/

namespace RecordGraph

namespace Model

variable {m : Model} {type : TypeRef} {w : WireValue} {v : Value} {request : Entries WireValue}
  {declared : List WireArgument} {before after arguments : Arguments} {a : WireArgument}

/-- What decoding answers within some steps it answers within those that it is given. -/
theorem decode_of_decodeWithin {steps : Nat} (h : (m.decodeWithin steps type w).run = some (.ok v)) :
    m.decode type w = .ok v := by
  have hends : (m.decodeWithin steps type w).run.isSome := by rw [h]; rfl
  have hback : ¬ m.LeadsBack (type, w) := fun hb => not_ends_of_leadsBack hb hends
  obtain ⟨outcome, hrun⟩ := Option.isSome_iff_exists.mp (ends_within_decodeSteps hback)
  have hsame : outcome = .ok v := by
    rcases Nat.le_total steps (m.decodeSteps type w) with hle | hle
    · have := le_decodeWithin hle type w _ h
      rw [hrun] at this
      exact Option.some.inj this
    · have := le_decodeWithin hle type w _ hrun
      rw [h] at this
      exact (Option.some.inj this).symm
  simp only [decode, hrun, hsame]

theorem decode_eq_ok (hm : m.Distinct) : m.decode type w = .ok v ↔ m.Shaped type w v := by
  constructor
  · intro h
    unfold decode at h
    split at h
    · rename_i outcome hrun
      rw [h] at hrun
      exact ((decodes_iff_conforms hm).mp ⟨_, hrun⟩).shaped
    · cases h
  · intro h
    obtain ⟨steps, hv⟩ := (decodes_iff_conforms hm).mpr h.conforms
    exact decode_of_decodeWithin hv

/-! Arguments. -/

/-- Decodes one more argument, if the request has it. -/
def decodeArgument (m : Model) (request : Entries WireValue) (decoded : Arguments) (a : WireArgument) :
    Except FieldError Arguments :=
  match Entries.get? request a.name with
  | some w => do
    let v ← m.decode a.type w
    return Entries.insert decoded a.hostName v
  | none => return decoded

theorem decodeArgument_eq_ok : m.decodeArgument request before a = .ok after ↔
    Entries.get? request a.name = none ∧ before = after ∨
      ∃ w, Entries.get? request a.name = some w ∧
        ∃ v, m.decode a.type w = .ok v ∧ Entries.insert before a.hostName v = after := by
  unfold decodeArgument
  cases Entries.get? request a.name with
  | none => simp [pure, Except.pure]
  | some w => simp [bind_eq_ok, pure, Except.pure]

/-- One entry for each host name of a declared argument that the request has, with a value of its type. -/
structure ShapedArguments (m : Model) (request : Entries WireValue) (declared : List WireArgument)
    (arguments : Arguments) : Prop where
  distinct : (arguments.map Prod.fst).Nodup
  present_iff : ∀ name, (∃ v, Entries.get? arguments name = some v) ↔
    ∃ a ∈ declared, a.hostName = name ∧ ∃ w, Entries.get? request a.name = some w
  shaped : ∀ {name v}, Entries.get? arguments name = some v →
    ∃ a ∈ declared, a.hostName = name ∧ ∃ w, Entries.get? request a.name = some w ∧ m.Shaped a.type w v

/-- One more argument adds its entry, or takes the place of one with its host name. -/
theorem ShapedArguments.add (hm : m.Distinct) (h : m.ShapedArguments request declared before)
    (ha : m.decodeArgument request before a = .ok after) :
    m.ShapedArguments request (declared ++ [a]) after := by
  obtain ⟨hw, rfl⟩ | ⟨w, hw, v, hv, rfl⟩ := decodeArgument_eq_ok.mp ha
  · refine ⟨h.distinct, fun name => ?_, fun hget => ?_⟩
    · rw [h.present_iff]
      simp [or_and_right, exists_or, hw]
    · obtain ⟨b, hb, hshaped⟩ := h.shaped hget
      exact ⟨b, List.mem_append_left _ hb, hshaped⟩
  · refine ⟨Entries.nodup_insert h.distinct, fun name => ?_, fun {name v'} hget => ?_⟩
    · rw [Entries.get?_insert]
      simp only [List.mem_append, List.mem_singleton, or_and_right, exists_or, exists_eq_left]
      rw [← h.present_iff]
      split
      · rename_i hname
        exact iff_of_true ⟨v, rfl⟩ (.inr ⟨hname, w, hw⟩)
      · rename_i hname
        exact (or_iff_left fun hc => hname hc.1).symm
    · rw [Entries.get?_insert] at hget
      split at hget
      · rename_i hname
        cases hget
        exact ⟨a, List.mem_append_right _ (List.mem_singleton_self a), hname, w, hw, (decode_eq_ok hm).mp hv⟩
      · obtain ⟨b, hb, hshaped⟩ := h.shaped hget
        exact ⟨b, List.mem_append_left _ hb, hshaped⟩

theorem shaped_of_decodeArguments (hm : m.Distinct)
    (h : declared.foldlM (m.decodeArgument request) [] = .ok arguments) :
    m.ShapedArguments request declared arguments := by
  induction declared using List.reverseRecOn generalizing arguments with
  | nil =>
    cases h
    exact ⟨.nil, fun name => by simp, nofun⟩
  | append_singleton declared a ih =>
    simp only [List.foldlM_append, List.foldlM_cons, List.foldlM_nil, bind_pure] at h
    obtain ⟨before, hbefore, ha⟩ := bind_eq_ok.mp h
    exact (ih hbefore).add hm ha

/-- Arguments are decoded if each of those given has a value of its type. -/
theorem exists_decodeArguments_iff (hm : m.Distinct) :
    (∃ arguments, declared.foldlM (m.decodeArgument request) before = .ok arguments) ↔
      ∀ a ∈ declared, ∀ w, Entries.get? request a.name = some w → ∃ v, m.Shaped a.type w v := by
  induction declared generalizing before with
  | nil => exact iff_of_true ⟨before, rfl⟩ (List.forall_mem_nil _)
  | cons a declared ih =>
    simp only [List.foldlM_cons, bind_eq_ok, List.forall_mem_cons]
    constructor
    · rintro ⟨arguments, next, ha, hrest⟩
      refine ⟨fun w hw => ?_, ih.mp ⟨arguments, hrest⟩⟩
      obtain ⟨hnone, -⟩ | ⟨w', hw', v, hv, -⟩ := decodeArgument_eq_ok.mp ha
      · rw [hnone] at hw
        cases hw
      · rw [hw'] at hw
        cases hw
        exact ⟨v, (decode_eq_ok hm).mp hv⟩
    · rintro ⟨ha, hrest⟩
      have hnext : ∃ next, m.decodeArgument request before a = .ok next := by
        cases hw : Entries.get? request a.name with
        | none => exact ⟨before, decodeArgument_eq_ok.mpr (.inl ⟨hw, rfl⟩)⟩
        | some w =>
          obtain ⟨v, hv⟩ := ha w hw
          exact ⟨_, decodeArgument_eq_ok.mpr (.inr ⟨w, hw, v, (decode_eq_ok hm).mpr hv, rfl⟩)⟩
      obtain ⟨next, hnext⟩ := hnext
      obtain ⟨arguments, harguments⟩ := ih.mpr hrest
      exact ⟨arguments, next, hnext, harguments⟩

/-- A built model decodes exactly the values that have the shape of their type, at every depth. The arguments
of a field are decoded if those given are, one for each that is declared and given. Of the scalars that every
schema knows, only dictionaries bring keys of their own. -/
theorem decode_shaped {s : Setting} {roots : RootRecords} (h : build s roots = .ok m) :
    (∀ {type w v}, m.decode type w = .ok v ↔ m.Shaped type w v) ∧
    (∀ {field request arguments}, m.decodeArguments field request = .ok arguments →
      m.ShapedArguments request field.arguments arguments) ∧
    (∀ {field request}, (∃ arguments, m.decodeArguments field request = .ok arguments) ↔
      ∀ a ∈ field.arguments, ∀ w, Entries.get? request a.name = some w → ∃ v, m.Shaped a.type w v) ∧
    ∀ t ∈ defaultScalars, t.ReadsMappings → t.wireName = "Dictionary" :=
  ⟨decode_eq_ok (distinct_of_build h), shaped_of_decodeArguments (distinct_of_build h),
    exists_decodeArguments_iff (distinct_of_build h), fun _ => dictionary_of_readsMappings⟩

/-- Orders of books, with notes of any kind. -/
def orderRecord : Record :=
  { name := "Order"
    fields := [{ name := "book_title", type := .scalar "String" },
      { name := "copy_count", type := .scalar "i64", default := some (.int 1) },
      { name := "gift_notes", type := .optional (.scalar "Dictionary") }] }

/-- A schema that takes orders. -/
def orderSetting : Setting :=
  { catalogue := { records := [("Order", orderRecord)] }, options := { mutationTypes := [orderRecord] } }

/-- Roots that answer how many there are. -/
def orderRoots : RootRecords :=
  { query := { name := "Query", fields := [{ name := "order_count", type := .scalar "i64" }] } }

/-- A single order, where a list of them is asked for. -/
def oneOrder : WireValue :=
  .object [("bookTitle", .string "Solo"), ("giftNotes", .object [("wrapIn", .string "paper")])]

/-- What is decoded from it: the notes alone keep a key of the wire. -/
def oneOrderDecoded : Value :=
  .list [.mapping [("book_title", .string "Solo"), ("copy_count", .int 1),
    ("gift_notes", .mapping [("wrapIn", .string "paper")])]]

theorem shaped_oneOrder : ∃ m, build orderSetting orderRoots = .ok m ∧
    m.decode (.list (.named "OrderInput")) oneOrder = .ok oneOrderDecoded ∧
    m.Shaped (.list (.named "OrderInput")) oneOrder oneOrderDecoded := by
  obtain ⟨m, hm, hd⟩ : ∃ m, build orderSetting orderRoots = .ok m ∧
    m.decode (.list (.named "OrderInput")) oneOrder = .ok oneOrderDecoded := ⟨_, rfl, rfl⟩
  exact ⟨m, hm, hd, (decode_shaped hm).1.mp hd⟩

end Model

end RecordGraph
