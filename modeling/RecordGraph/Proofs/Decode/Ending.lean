import Mathlib.Data.Finset.Card
import Mathlib.Logic.Relation
import RecordGraph.Build.Schema
import RecordGraph.Proofs.Decode.Run
import RecordGraph.Proofs.Registry
/-! When decoding ends. A decoding calls for others: on the way down a value these are decodings of its
parts, and a field that is absent calls for its default. Defaults are finitely many, so a decoding that
never ends comes to one of them twice, and one that comes to a default which leads back to itself never
ends. Hence the exact condition, and a number of steps that suffice under it: the depth of the value and
the defaults yet to be opened, each as deep as the deepest, count down. -/

namespace RecordGraph

namespace Model

variable {m : Model} {steps : Nat} {c c' : Decoding}

/-- The decoding gives a value. -/
def Decodes (m : Model) (c : Decoding) : Prop := ∃ steps v, (m.within steps c).run = some (.ok v)

/-- The first decoding comes to the second: it calls for it after others that give values. -/
def Calls (m : Model) (c c' : Decoding) : Prop :=
  ∃ before rest, m.callsOf c.1 c.2 = before ++ c' :: rest ∧ ∀ b ∈ before, m.Decodes b

/-- The declared defaults of all input fields, to be decoded by the types of their fields. -/
def defaultDecodings (m : Model) : List Decoding :=
  m.inputFields.filterMap fun f => f.default.map fun v => (f.type, v)

/-- The decoding comes to a default that leads back to itself. -/
def LeadsBack (m : Model) (c : Decoding) : Prop :=
  ∃ x ∈ m.defaultDecodings, Relation.ReflTransGen m.Calls c x ∧ Relation.TransGen m.Calls x x

/-! One step. -/

/-- A decoding that gives a value some time gives one whenever it ends. -/
theorem ok_of_decodes (hd : m.Decodes c) (h : (m.within steps c).run.isSome) :
    ∃ v, (m.within steps c).run = some (.ok v) := by
  obtain ⟨more, v, hv⟩ := hd
  obtain ⟨r, hr⟩ := Option.isSome_iff_exists.mp h
  refine ⟨v, ?_⟩
  rcases Nat.le_total steps more with hle | hle
  · have := le_decodeWithin hle c.1 c.2 r hr
    rw [within] at hv
    rw [hr, ← this, hv]
  · exact le_decodeWithin hle c.1 c.2 _ hv

theorem inTurn_iff {cs : List Decoding} : Bounded.InTurn (m.within steps) cs ↔
    ∀ before c rest, cs = before ++ c :: rest → (∀ b ∈ before, m.Decodes b) →
      (m.within steps c).run.isSome := by
  induction cs with
  | nil =>
    refine iff_of_true trivial fun before c rest h => ?_
    simp at h
  | cons a cs ih =>
    rw [Bounded.InTurn]
    constructor
    · rintro ⟨ha, hcs⟩ before c rest h hb
      cases before with
      | nil =>
        cases h
        exact ha
      | cons b before =>
        cases h
        rw [List.forall_mem_cons] at hb
        obtain ⟨v, hv⟩ := ok_of_decodes hb.1 ha
        exact ih.mp (hcs v hv) before c rest rfl hb.2
    · intro h
      refine ⟨h [] a cs rfl (List.forall_mem_nil _), fun v hv => ih.mpr fun before c rest he hb => ?_⟩
      refine h (a :: before) c rest (by rw [he]; rfl) ?_
      exact List.forall_mem_cons.mpr ⟨⟨steps, v, hv⟩, hb⟩

/-- A decoding ends with one more step exactly if all that it comes to end. -/
theorem ends_succ_iff : (m.within (steps + 1) c).run.isSome ↔
    ∀ c', m.Calls c c' → (m.within steps c').run.isSome := by
  rw [isSome_within_succ, inTurn_iff]
  constructor
  · rintro h c' ⟨before, rest, he, hb⟩
    exact h before c' rest he hb
  · intro h before c' rest he hb
    exact h c' ⟨before, rest, he, hb⟩

/-! Decodings that never end. -/

theorem ends_of_calls (h : m.Calls c c') (hc : (m.within steps c).run.isSome) :
    ∃ fewer < steps, (m.within fewer c').run.isSome := by
  cases steps with
  | zero => cases hc
  | succ steps => exact ⟨steps, Nat.lt_succ_self _, ends_succ_iff.mp hc c' h⟩

theorem ends_of_transGen (h : Relation.TransGen m.Calls c c') (hc : (m.within steps c).run.isSome) :
    ∃ fewer < steps, (m.within fewer c').run.isSome := by
  induction h with
  | single h => exact ends_of_calls h hc
  | tail _ h ih =>
    obtain ⟨fewer, hlt, hb⟩ := ih
    obtain ⟨still, hlt', hc'⟩ := ends_of_calls h hb
    exact ⟨still, Nat.lt_trans hlt' hlt, hc'⟩

/-- A decoding that leads back to itself would end with fewer steps than it ends with. -/
theorem not_ends_of_cycle (h : Relation.TransGen m.Calls c c) : ¬ (m.within steps c).run.isSome := by
  induction steps using Nat.strong_induction_on with
  | _ steps ih =>
    intro hc
    obtain ⟨fewer, hlt, hc'⟩ := ends_of_transGen h hc
    exact ih fewer hlt hc'

theorem not_ends_of_leadsBack (h : m.LeadsBack c) : ¬ (m.within steps c).run.isSome := by
  obtain ⟨x, -, hreach, hcycle⟩ := h
  intro hc
  rcases Relation.reflTransGen_iff_eq_or_transGen.mp hreach with rfl | hreach
  · exact not_ends_of_cycle hcycle hc
  · obtain ⟨fewer, -, hx⟩ := ends_of_transGen hreach hc
    exact not_ends_of_cycle hcycle hx

end Model

/-! Depths. -/

namespace TypeRef

theorem depth_pos (t : TypeRef) : 0 < t.depth := by
  cases t <;> simp [depth]

end TypeRef

namespace WireValue

theorem depth_pos (v : WireValue) : 0 < v.depth := by
  cases v <;> simp [depth]

theorem depth_le_of_mem_items {items : List WireValue} {v : WireValue} (h : v ∈ items) :
    v.depth ≤ depthOfItems items := by
  induction items with
  | nil => exact absurd h List.not_mem_nil
  | cons item items ih =>
    rw [depthOfItems]
    rcases List.mem_cons.mp h with rfl | h
    · exact Nat.le_max_left _ _
    · exact Nat.le_trans (ih h) (Nat.le_max_right _ _)

theorem depth_le_of_mem_fields {fields : List (String × WireValue)} {name : String} {v : WireValue}
    (h : (name, v) ∈ fields) : v.depth ≤ depthOfFields fields := by
  induction fields with
  | nil => exact absurd h List.not_mem_nil
  | cons field fields ih =>
    obtain ⟨other, w⟩ := field
    rw [depthOfFields]
    rcases List.mem_cons.mp h with he | h
    · cases he
      exact Nat.le_max_left _ _
    · exact Nat.le_trans (ih h) (Nat.le_max_right _ _)

end WireValue

namespace Model

variable {m : Model} {c c' : Decoding} {layers deepest : Nat}

theorem mem_inputFields {name : String} {t : InputObjectType} (ht : m.type? name = some (.inputObject t))
    {f : InputField} (hf : f ∈ t.fields) : f ∈ m.inputFields :=
  List.mem_flatMap.mpr ⟨_, Registry.mem_values_of_get? ht, hf⟩

/-- What a decoding calls for: the same value by a smaller type, a part of the value, or a default. -/
theorem cases_of_mem_callsOf (hL : ∀ f ∈ m.inputFields, f.type.depth ≤ layers) (hc : c.1.depth ≤ layers)
    (h : c' ∈ m.callsOf c.1 c.2) : c'.1.depth ≤ layers ∧
      (c'.2 = c.2 ∧ c'.1.depth < c.1.depth ∨ c'.2.depth < c.2.depth ∨ c' ∈ m.defaultDecodings) := by
  obtain ⟨type, value⟩ := c
  cases type with
  | nonNull inner =>
    obtain rfl := List.mem_singleton.mp h
    exact ⟨Nat.le_of_succ_le hc, .inl ⟨rfl, Nat.lt_succ_self _⟩⟩
  | list inner =>
    cases value with
    | null => exact absurd h List.not_mem_nil
    | list items =>
      obtain ⟨item, hitem, rfl⟩ := List.mem_map.mp h
      refine ⟨Nat.le_of_succ_le hc, .inr (.inl ?_)⟩
      exact Nat.lt_succ_of_le (WireValue.depth_le_of_mem_items hitem)
    | _ =>
      obtain rfl := List.mem_singleton.mp h
      exact ⟨Nat.le_of_succ_le hc, .inl ⟨rfl, Nat.lt_succ_self _⟩⟩
  | named name =>
    cases value with
    | object entries =>
      change c' ∈ m.objectCalls name entries at h
      unfold objectCalls at h
      split at h
      · rename_i t ht
        obtain ⟨f, hf, hcall⟩ := List.mem_filterMap.mp h
        obtain ⟨v, hv, rfl⟩ := Option.map_eq_some_iff.mp hcall
        have hmem := mem_inputFields ht hf
        refine ⟨hL f hmem, .inr ?_⟩
        rcases Option.or_eq_some_iff.mp hv with hgiven | ⟨-, hdefault⟩
        · have := WireValue.depth_le_of_mem_fields (Entries.mem_of_get? hgiven)
          exact .inl (Nat.lt_succ_of_le this)
        · exact .inr (List.mem_filterMap.mpr ⟨f, hmem, by rw [hdefault]; rfl⟩)
      · exact absurd h List.not_mem_nil
    | _ => exact absurd h List.not_mem_nil

/-- The defaults that a decoding comes to below itself. -/
noncomputable def defaultsBelow (m : Model) (c : Decoding) : Finset Decoding :=
  open Classical in m.defaultDecodings.toFinset.filter fun x => Relation.TransGen m.Calls c x

theorem mem_defaultsBelow {x : Decoding} :
    x ∈ m.defaultsBelow c ↔ x ∈ m.defaultDecodings ∧ Relation.TransGen m.Calls c x := by
  simp [defaultsBelow]

theorem defaultsBelow_subset (h : m.Calls c c') : m.defaultsBelow c' ⊆ m.defaultsBelow c := by
  intro x hx
  rw [mem_defaultsBelow] at hx ⊢
  exact ⟨hx.1, .head h hx.2⟩

/-- Opening a default leaves one less to be opened. -/
theorem card_defaultsBelow_lt (hback : ¬ m.LeadsBack c) (h : m.Calls c c')
    (hdefault : c' ∈ m.defaultDecodings) : (m.defaultsBelow c').card < (m.defaultsBelow c).card := by
  refine Finset.card_lt_card ⟨defaultsBelow_subset h, fun hsub => ?_⟩
  have hself : c' ∈ m.defaultsBelow c' := hsub (mem_defaultsBelow.mpr ⟨hdefault, .single h⟩)
  exact hback ⟨c', hdefault, .single h, (mem_defaultsBelow.mp hself).2⟩

/-- Steps that suffice: each level of a value takes as many as its type has layers, and each default yet
to be opened adds its levels. -/
noncomputable def stepsFor (m : Model) (layers deepest : Nat) (c : Decoding) : Nat :=
  (c.2.depth + (m.defaultsBelow c).card * (deepest + 1)) * (layers + 2) + c.1.depth

theorem levels_lt {levels levels' depth depth' : Nat} (h : levels' < levels) (hd : depth' ≤ layers) :
    levels' * (layers + 2) + depth' < levels * (layers + 2) + depth := by
  have hmul := Nat.mul_le_mul_right (layers + 2) h
  rw [Nat.succ_mul] at hmul
  omega

/-- What a decoding comes to needs fewer steps. -/
theorem stepsFor_lt (hL : ∀ f ∈ m.inputFields, f.type.depth ≤ layers)
    (hD : ∀ x ∈ m.defaultDecodings, x.2.depth ≤ deepest) (hc : c.1.depth ≤ layers)
    (hback : ¬ m.LeadsBack c) (h : m.Calls c c') :
    c'.1.depth ≤ layers ∧ m.stepsFor layers deepest c' < m.stepsFor layers deepest c := by
  have hmem : c' ∈ m.callsOf c.1 c.2 := by
    obtain ⟨before, rest, he, -⟩ := h
    rw [he]
    exact List.mem_append_right _ List.mem_cons_self
  obtain ⟨hc', hcase⟩ := cases_of_mem_callsOf hL hc hmem
  have hcard := Finset.card_le_card (defaultsBelow_subset h)
  have hopen := Nat.mul_le_mul_right (deepest + 1) hcard
  refine ⟨hc', ?_⟩
  unfold stepsFor
  rcases hcase with ⟨hv, ht⟩ | hv | hdefault
  · rw [hv]
    have hmul := Nat.mul_le_mul_right (layers + 2) (Nat.add_le_add_left hopen c.2.depth)
    omega
  · exact levels_lt (by omega) hc'
  · have hlt := Nat.mul_le_mul_right (deepest + 1) (card_defaultsBelow_lt hback h hdefault)
    rw [Nat.succ_mul] at hlt
    have hdeep := hD c' hdefault
    have hpos := c.2.depth_pos
    exact levels_lt (by omega) hc'

theorem LeadsBack.of_calls (h : m.Calls c c') (hc : m.LeadsBack c') : m.LeadsBack c := by
  obtain ⟨x, hx, hreach, hcycle⟩ := hc
  exact ⟨x, hx, .head h hreach, hcycle⟩

theorem ends_within_stepsFor (hL : ∀ f ∈ m.inputFields, f.type.depth ≤ layers)
    (hD : ∀ x ∈ m.defaultDecodings, x.2.depth ≤ deepest) (hc : c.1.depth ≤ layers)
    (hback : ¬ m.LeadsBack c) {steps : Nat} (hsteps : m.stepsFor layers deepest c ≤ steps) :
    (m.within steps c).run.isSome := by
  induction steps generalizing c with
  | zero =>
    have hpos := c.1.depth_pos
    unfold stepsFor at hsteps
    omega
  | succ steps ih =>
    rw [ends_succ_iff]
    intro c' h
    obtain ⟨hc', hlt⟩ := stepsFor_lt hL hD hc hback h
    exact ih hc' (fun hb => hback (.of_calls h hb)) (by omega)

/-! The steps that decoding is given. -/

theorem le_foldl_max (ns : List Nat) (start : Nat) :
    start ≤ ns.foldl max start ∧ ∀ n ∈ ns, n ≤ ns.foldl max start := by
  induction ns generalizing start with
  | nil => exact ⟨Nat.le_refl _, List.forall_mem_nil _⟩
  | cons n ns ih =>
    obtain ⟨hstart, hall⟩ := ih (max start n)
    rw [List.foldl_cons]
    refine ⟨Nat.le_trans (Nat.le_max_left _ _) hstart, ?_⟩
    exact List.forall_mem_cons.mpr ⟨Nat.le_trans (Nat.le_max_right _ _) hstart, hall⟩

theorem defaultDecodings_map_snd : m.defaultDecodings.map Prod.snd = m.inputDefaults := by
  unfold defaultDecodings inputDefaults
  rw [List.map_filterMap]
  congr 1
  funext f
  cases f.default <;> rfl

theorem card_defaultsBelow_le : (m.defaultsBelow c).card ≤ m.inputDefaults.length := by
  classical
  rw [← defaultDecodings_map_snd, List.length_map]
  exact Nat.le_trans (Finset.card_le_card (Finset.filter_subset _ _)) (List.toFinset_card_le _)

/-- Decoding is given steps enough, whenever any number of steps is. -/
theorem ends_within_decodeSteps {type : TypeRef} {value : WireValue} (hback : ¬ m.LeadsBack (type, value)) :
    (m.decodeWithin (m.decodeSteps type value) type value).run.isSome := by
  set layers := (m.inputFields.map fun f => f.type.depth).foldl max type.depth
  set deepest := (m.inputDefaults.map WireValue.depth).foldl max 0
  have hL : ∀ f ∈ m.inputFields, f.type.depth ≤ layers :=
    fun f hf => (le_foldl_max _ _).2 _ (List.mem_map_of_mem hf)
  have hD : ∀ x ∈ m.defaultDecodings, x.2.depth ≤ deepest := by
    intro x hx
    refine (le_foldl_max _ _).2 _ (List.mem_map_of_mem ?_)
    rw [← defaultDecodings_map_snd]
    exact List.mem_map_of_mem hx
  have htype : type.depth ≤ layers := (le_foldl_max _ _).1
  refine ends_within_stepsFor hL hD (c := (type, value)) htype hback ?_
  have hcard := Nat.mul_le_mul_right (deepest + 1) (card_defaultsBelow_le (m := m) (c := (type, value)))
  have hmul := Nat.mul_le_mul_right (layers + 2) (Nat.add_le_add_left hcard value.depth)
  change (value.depth + (m.defaultsBelow (type, value)).card * (deepest + 1)) * (layers + 2) + type.depth ≤
    (value.depth + m.inputDefaults.length * (deepest + 1) + 1) * (layers + 2)
  rw [Nat.succ_mul]
  omega

/-- Decoding a value ends exactly if it comes to no default that leads back to itself. -/
theorem decode_ends_iff (m : Model) (type : TypeRef) (value : WireValue) :
    (∃ steps, (m.decodeWithin steps type value).run.isSome) ↔ ¬ m.LeadsBack (type, value) := by
  constructor
  · rintro ⟨steps, hends⟩ hback
    exact not_ends_of_leadsBack (c := (type, value)) hback hends
  · intro hback
    exact ⟨_, ends_within_decodeSteps hback⟩

/-- A filter that nests itself, by default with nothing in it. -/
def filterRecord : Record :=
  { name := "Filter"
    fields := [{ name := "inner", type := .optional (.record "Filter"), default := some (.mapping []) }] }

/-- A schema that takes filters. -/
def filterSetting : Setting :=
  { catalogue := { records := [("Filter", filterRecord)] }, options := { mutationTypes := [filterRecord] } }

/-- Roots that answer a size. -/
def filterRoots : RootRecords :=
  { query := { name := "Query", fields := [{ name := "size", type := .scalar "i64" }] } }

/-- The schema of filters is built, and no number of steps decodes a filter with nothing in it. -/
theorem endless_filter : ∃ m, build filterSetting filterRoots = .ok m ∧
    ∀ steps, (m.decodeWithin steps (.named "FilterInput") (.object [])).run = none := by
  obtain ⟨m, hm, ht⟩ : ∃ m, build filterSetting filterRoots = .ok m ∧
      m.type? "FilterInput" = some (.inputObject
        { name := "FilterInput"
          fields := [{ name := "inner", hostName := "inner", type := .named "FilterInput",
                       default := some (.object []) }] }) := ⟨_, rfl, rfl⟩
  refine ⟨m, hm, fun steps => ?_⟩
  induction steps with
  | zero => rfl
  | succ steps ih =>
    change (m.decodeNamed (m.decodeWithin steps) "FilterInput" (.object [])).run = none
    unfold decodeNamed
    rw [ht]
    change (decodeObject _ _ _).run = none
    simp only [decodeObject, decodeFields, Entries.get?_nil, Option.none_or]
    rw [Bounded.run_bind, Bounded.run_bind, ih]

end Model

end RecordGraph
