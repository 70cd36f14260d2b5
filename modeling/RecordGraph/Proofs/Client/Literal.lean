import RecordGraph.Client.Literal
import RecordGraph.Proofs.Dictionary
import RecordGraph.Proofs.Except
/-! What a client writes for a value. An array is written item by item. For an object each member is written
under its name on the wire, and stays what was written there as long as no other member has that name. -/

namespace RecordGraph

/-- Induction over the values that a value holds. -/
theorem Json.induction_holds {P : Json → Prop}
    (array : ∀ items : List Json, (∀ j ∈ items, P j) → P (.array items))
    (object : ∀ members : List (String × Json), (∀ p ∈ members, P p.2) → P (.object members))
    (leaf : ∀ j, (∀ items, j ≠ .array items) → (∀ members, j ≠ .object members) → P j) (j : Json) : P j :=
  @Json.rec P (fun items => ∀ j ∈ items, P j) (fun members => ∀ p ∈ members, P p.2) (fun p => P p.2)
    (leaf _ nofun nofun) (fun _ => leaf _ nofun nofun) (fun _ => leaf _ nofun nofun)
    (fun _ => leaf _ nofun nofun) array object
    (List.forall_mem_nil _) (fun _ _ hitem hrest => List.forall_mem_cons.mpr ⟨hitem, hrest⟩)
    (List.forall_mem_nil _) (fun _ _ hmember hrest => List.forall_mem_cons.mpr ⟨hmember, hrest⟩)
    (fun _ _ h => h) j

theorem Json.isNull_of_ne {j : Json} (h : j ≠ .null) : j.isNull = false := by
  cases j with
  | null => exact absurd rfl h
  | _ => rfl

namespace Client

variable {d : Description} {c : Casing} {type : TypeDescription} {name key : String} {j : Json}
  {written entries : Entries WireValue} {members : List (String × Json)}

/-! Wrappers. -/

section
variable {items : Option (Option TypeShape → Except ClientError (List WireValue))}
  {named : Option String → Except ClientError WireValue} {typeName : Option String} {kind : TypeKind}

theorem wrapperLiteral_null {inner : Option TypeShape} (hk : kind ≠ .nonNull) :
    wrapperLiteral name .null items named (.mk kind typeName inner) = .ok .null := by
  cases kind with
  | nonNull => exact absurd rfl hk
  | _ => rw [wrapperLiteral.eq_def]; rfl

theorem wrapperLiteral_list {inner : TypeShape} (hj : j ≠ .null) :
    wrapperLiteral name j items named (.mk .list typeName (some inner)) =
      match items with
      | some items => (items (some inner)).map .list
      | none => (wrapperLiteral name j none named inner).map fun one => .list [one] := by
  rw [wrapperLiteral.eq_def]
  simp only [Json.isNull_of_ne hj]
  cases items <;> rfl

theorem wrapperLiteral_named {inner : Option TypeShape} (hj : j ≠ .null) (hlist : kind ≠ .list)
    (hnonNull : kind ≠ .nonNull) :
    wrapperLiteral name j items named (.mk kind typeName inner) = named typeName := by
  cases kind with
  | list => exact absurd rfl hlist
  | nonNull => exact absurd rfl hnonNull
  | _ => rw [wrapperLiteral.eq_def]; simp [Json.isNull_of_ne hj]

end

/-! Leaves. -/

theorem member_of_memberLiteral {w : WireValue} (h : memberLiteral type name j = .ok w) :
    ∃ member, j = .string member ∧ member ∈ type.members.getD [] ∧ w = .member member := by
  unfold memberLiteral at h
  split at h
  · rename_i member
    split at h
    · rename_i hmember
      cases h
      exact ⟨member, rfl, List.contains_iff_mem.mp hmember, rfl⟩
    · cases h
  · cases h

/-- What is written for a named type goes by the kind of the type. -/
theorem cases_of_namedLiteral {object : TypeDescription → Except ClientError WireValue}
    {typeName : Option String} {w : WireValue} (h : namedLiteral d name j object typeName = .ok w) :
    ∃ u, d.type (typeName.getD "") = .ok u ∧
      (u.kind = .enum ∧ memberLiteral u name j = .ok w ∨ u.kind = .inputObject ∧ object u = .ok w ∨
        u.kind = .scalar ∧ w = .ofJson j) := by
  obtain ⟨u, hu, h⟩ := bind_eq_ok.mp h
  refine ⟨u, hu, ?_⟩
  split at h
  · rename_i hkind
    exact .inl ⟨hkind, h⟩
  · rename_i hkind
    exact .inr (.inl ⟨hkind, h⟩)
  · rename_i hkind
    cases h
    exact .inr (.inr ⟨hkind, rfl⟩)
  · cases h

theorem literal_leaf {shape : TypeShape} (harray : ∀ items, j ≠ .array items)
    (hobject : ∀ members, j ≠ .object members) : literal d c name j shape =
      wrapperLiteral name j none (namedLiteral d name j (noObject name j)) shape := by
  cases j with
  | array items => exact absurd rfl (harray items)
  | object members => exact absurd rfl (hobject members)
  | _ => rfl

/-! Items and members. -/

theorem itemLiterals_eq_ok {inner : TypeShape} {items : List Json} {ws : List WireValue} :
    itemLiterals d c name (some inner) items = .ok ws ↔
      List.Forall₂ (fun j w => literal d c name j inner = .ok w) items ws := by
  induction items generalizing ws with
  | nil => simp [itemLiterals, eq_comm]
  | cons j items ih =>
    simp only [itemLiterals, bind_eq_ok, ih, List.forall₂_cons_left_iff]
    constructor
    · rintro ⟨w, hw, ws', hws, h⟩
      cases h
      exact ⟨w, ws', hw, hws, rfl⟩
    · rintro ⟨w, ws', hw, hws, rfl⟩
      exact ⟨w, hw, ws', hws, rfl⟩

theorem fieldLiterals_cons : fieldLiterals d c type written ((key, j) :: members) = .ok entries ↔
    ∃ field w, type.inputField? (c.toWire key) = some field ∧
      literal d c (c.toWire key) j field.type = .ok w ∧
      fieldLiterals d c type (Entries.insert written (c.toWire key) w) members = .ok entries := by
  rw [fieldLiterals]
  cases type.inputField? (c.toWire key) with
  | none => simp
  | some field => simp [bind_eq_ok]

/-- What no member is named by is left as it was. -/
theorem get?_fieldLiterals_of_ne (h : fieldLiterals d c type written members = .ok entries)
    (hno : ∀ p ∈ members, c.toWire p.1 ≠ name) : Entries.get? entries name = Entries.get? written name := by
  induction members generalizing written with
  | nil =>
    cases h
    rfl
  | cons p members ih =>
    obtain ⟨key, j⟩ := p
    obtain ⟨field, w, -, -, h⟩ := fieldLiterals_cons.mp h
    rw [List.forall_mem_cons] at hno
    rw [ih h hno.2, Entries.get?_insert, if_neg hno.1]

/-- What is written for a member stands under its name on the wire. -/
theorem get?_fieldLiterals_of_mem (h : fieldLiterals d c type written members = .ok entries)
    (hn : (members.map fun p => c.toWire p.1).Nodup) (hm : (key, j) ∈ members) :
    ∃ field w, type.inputField? (c.toWire key) = some field ∧
      literal d c (c.toWire key) j field.type = .ok w ∧
      Entries.get? entries (c.toWire key) = some w := by
  induction members generalizing written with
  | nil => cases hm
  | cons p members ih =>
    obtain ⟨other, k⟩ := p
    obtain ⟨field, w, hfield, hw, hrest⟩ := fieldLiterals_cons.mp h
    rw [List.map_cons, List.nodup_cons] at hn
    cases hm with
    | head =>
      refine ⟨field, w, hfield, hw, ?_⟩
      rw [get?_fieldLiterals_of_ne hrest fun p hp he => hn.1 (List.mem_map.mpr ⟨p, hp, he⟩), Entries.get?_insert,
        if_pos rfl]
    | tail _ hm => exact ih hrest hn.2 hm

end Client

end RecordGraph
