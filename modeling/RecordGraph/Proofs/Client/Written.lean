import RecordGraph.Client.Document
import RecordGraph.Proofs.Client.Literal
/-! What a client writes, said without the writing. A value is written as its declared type asks, an object of input
fields member by member under names on the wire. There the client joins members of one name, so that the relation
has the joining as a parameter. -/

namespace RecordGraph.Client

/-- A shape without wrappers names a type. -/
inductive Description.Names (d : Description) : TypeShape → TypeDescription → Prop
  | mk {kind : TypeKind} {typeName : Option String} {inner : Option TypeShape} {type : TypeDescription}
      (hlist : kind ≠ .list) (hnonNull : kind ≠ .nonNull) (h : d.type (typeName.getD "") = .ok type) :
      d.Names (.mk kind typeName inner) type

mutual

/-- What is written for a value of a type. The entries of an object are put together by `join`, from those that its
members have each for itself. -/
inductive Written (join : Entries WireValue → Entries WireValue) (d : Description) (c : Casing) :
    TypeShape → Json → WireValue → Prop
  | null {shape : TypeShape} (hk : shape.kind ≠ .nonNull) : Written join d c shape .null .null
  | nonNull {typeName : Option String} {inner : TypeShape} {j : Json} {w : WireValue}
      (h : Written join d c inner j w) : Written join d c (.mk .nonNull typeName (some inner)) j w
  | list {typeName : Option String} {inner : Option TypeShape} {items : List Json} {ws : List WireValue}
      (h : ItemsWritten join d c inner items ws) : Written join d c (.mk .list typeName inner) (.array items) (.list ws)
  /-- A single value stands for a list of one. -/
  | single {typeName : Option String} {inner : TypeShape} {j : Json} {w : WireValue} (hnull : j ≠ .null)
      (hj : ∀ items, j ≠ .array items) (h : Written join d c inner j w) :
      Written join d c (.mk .list typeName (some inner)) j (.list [w])
  | scalar {shape : TypeShape} {type : TypeDescription} {j : Json} (hnull : j ≠ .null) (ht : d.Names shape type)
      (hk : type.kind = .scalar) : Written join d c shape j (.ofJson j)
  | enum {shape : TypeShape} {type : TypeDescription} {member : String} (ht : d.Names shape type)
      (hk : type.kind = .enum) (h : member ∈ type.members.getD []) :
      Written join d c shape (.string member) (.member member)
  | object {shape : TypeShape} {type : TypeDescription} {members : List (String × Json)}
      {entries : Entries WireValue} (ht : d.Names shape type) (hk : type.kind = .inputObject)
      (h : FieldsWritten join d c type.inputField? members entries) :
      Written join d c shape (.object members) (.object (join entries))

/-- The items of an array, one by one. -/
inductive ItemsWritten (join : Entries WireValue → Entries WireValue) (d : Description) (c : Casing) :
    Option TypeShape → List Json → List WireValue → Prop
  | nil {inner : Option TypeShape} : ItemsWritten join d c inner [] []
  | cons {inner : TypeShape} {j : Json} {w : WireValue} {items : List Json} {ws : List WireValue}
      (h : Written join d c inner j w) (hrest : ItemsWritten join d c (some inner) items ws) :
      ItemsWritten join d c (some inner) (j :: items) (w :: ws)

/-- The members of an object, each with an entry of its own under the wire name of its key, if that is declared. -/
inductive FieldsWritten (join : Entries WireValue → Entries WireValue) (d : Description) (c : Casing) :
    (String → Option InputDescription) → List (String × Json) → Entries WireValue → Prop
  | nil {declared : String → Option InputDescription} : FieldsWritten join d c declared [] []
  | cons {declared : String → Option InputDescription} {key : String} {j : Json} {input : InputDescription}
      {w : WireValue} {members : List (String × Json)} {entries : Entries WireValue}
      (hi : declared (c.toWire key) = some input) (h : Written join d c input.type j w)
      (hrest : FieldsWritten join d c declared members entries) :
      FieldsWritten join d c declared ((key, j) :: members) ((c.toWire key, w) :: entries)

end

variable {join : Entries WireValue → Entries WireValue} {d : Description} {c : Casing} {shape : TypeShape}
  {type : TypeDescription} {declared : String → Option InputDescription} {name : String} {j : Json} {w : WireValue}
  {items : List Json} {ws : List WireValue} {members : List (String × Json)} {entries : Entries WireValue}

theorem Description.Names.eq {other : TypeDescription} (h : d.Names shape type) (ho : d.Names shape other) :
    type = other := by
  cases h with
  | mk _ _ h =>
    cases ho with
    | mk _ _ ho => exact Except.ok.inj (h.symm.trans ho)

/-- An entry beside a member: it stands under the wire name of the key, which is declared, and has a value that is
related to the value of the member at the declared type. -/
def Beside (c : Casing) (declared : String → Option InputDescription) (R : TypeShape → Json → WireValue → Prop)
    (p : String × Json) (e : String × WireValue) : Prop :=
  e.1 = c.toWire p.1 ∧ ∃ input, declared e.1 = some input ∧ R input.type p.2 e.2

theorem Beside.imp {R S : TypeShape → Json → WireValue → Prop} (h : ∀ {t j w}, R t j w → S t j w)
    {p : String × Json} {e : String × WireValue} : Beside c declared R p e → Beside c declared S p e := by
  rintro ⟨he, input, hi, hw⟩
  exact ⟨he, input, hi, h hw⟩

theorem Description.not_names_list {typeName : Option String} {inner : Option TypeShape} :
    ¬ d.Names (.mk .list typeName inner) type := by
  intro h
  cases h with
  | mk hlist _ _ => exact hlist rfl

theorem Description.not_names_nonNull {typeName : Option String} {inner : Option TypeShape} :
    ¬ d.Names (.mk .nonNull typeName inner) type := by
  intro h
  cases h with
  | mk _ hnonNull _ => exact hnonNull rfl

theorem itemsWritten_some {inner : TypeShape} :
    ItemsWritten join d c (some inner) items ws ↔ List.Forall₂ (Written join d c inner) items ws := by
  constructor
  · intro h
    induction items generalizing ws with
    | nil =>
      cases h
      exact .nil
    | cons j items ih =>
      cases h with
      | cons h hrest => exact .cons h (ih hrest)
  · intro h
    induction h with
    | nil => exact .nil
    | cons h _ ih => exact .cons h ih

theorem fieldsWritten_iff : FieldsWritten join d c declared members entries ↔
    List.Forall₂ (Beside c declared (Written join d c)) members entries := by
  constructor
  · intro h
    induction members generalizing entries with
    | nil =>
      cases h
      exact .nil
    | cons p members ih =>
      cases h with
      | cons hi h hrest => exact .cons ⟨rfl, _, hi, h⟩ (ih hrest)
  · intro h
    induction h with
    | nil => exact .nil
    | @cons p e _ _ h _ ih =>
      obtain ⟨key, j⟩ := p
      obtain ⟨name, w⟩ := e
      obtain ⟨rfl, input, hi, h⟩ := h
      exact .cons hi h ih

/-- Induction over what is written, with the items of arrays and the members of objects side by side with what is
written for them. -/
theorem Written.induction_parts
    {motive : (shape : TypeShape) → (j : Json) → (w : WireValue) → Written join d c shape j w → Prop}
    (null : ∀ {shape} (hk : shape.kind ≠ .nonNull), motive shape .null .null (.null hk))
    (nonNull : ∀ {typeName inner j w} (h : Written join d c inner j w), motive inner j w h →
      motive (.mk .nonNull typeName (some inner)) j w (.nonNull h))
    (list : ∀ {typeName inner items ws} (h : ItemsWritten join d c inner items ws),
      List.Forall₂ (fun j w => ∃ t, inner = some t ∧ ∃ h, motive t j w h) items ws →
      motive (.mk .list typeName inner) (.array items) (.list ws) (.list h))
    (single : ∀ {typeName inner j w} (hnull : j ≠ .null) (hj : ∀ items, j ≠ .array items)
      (h : Written join d c inner j w), motive inner j w h →
      motive (.mk .list typeName (some inner)) j (.list [w]) (.single hnull hj h))
    (scalar : ∀ {shape type j} (hnull : j ≠ .null) (ht : d.Names shape type) (hk : type.kind = .scalar),
      motive shape j (.ofJson j) (.scalar hnull ht hk))
    (enum : ∀ {shape type member} (ht : d.Names shape type) (hk : type.kind = .enum)
      (h : member ∈ type.members.getD []), motive shape (.string member) (.member member) (.enum ht hk h))
    (object : ∀ {shape type members entries} (ht : d.Names shape type) (hk : type.kind = .inputObject)
      (h : FieldsWritten join d c type.inputField? members entries),
      List.Forall₂ (Beside c type.inputField? fun t j w => ∃ h, motive t j w h) members entries →
      motive shape (.object members) (.object (join entries)) (.object ht hk h))
    {shape : TypeShape} {j : Json} {w : WireValue} (h : Written join d c shape j w) : motive shape j w h :=
  @Written.rec join d c motive
    (fun inner items ws _ => List.Forall₂ (fun j w => ∃ t, inner = some t ∧ ∃ h, motive t j w h) items ws)
    (fun declared members entries _ =>
      List.Forall₂ (Beside c declared fun t j w => ∃ h, motive t j w h) members entries)
    null nonNull list single scalar enum object
    .nil (fun h _ ih ihrest => .cons ⟨_, rfl, h, ih⟩ ihrest)
    .nil (fun hi h _ ih ihrest => .cons ⟨rfl, _, hi, h, ih⟩ ihrest) _ _ _ h

/-! The client writes what is written. -/

theorem itemsWritten_of_itemLiterals {inner : Option TypeShape}
    (hitem : ∀ j ∈ items, ∀ {name shape w}, literal d c name j shape = .ok w → Written join d c shape j w)
    (h : itemLiterals d c name inner items = .ok ws) : ItemsWritten join d c inner items ws := by
  induction items generalizing ws with
  | nil =>
    cases h
    exact .nil
  | cons j items ih =>
    cases inner with
    | none => cases h
    | some inner =>
      rw [List.forall_mem_cons] at hitem
      obtain ⟨w, hw, h⟩ := bind_eq_ok.mp h
      obtain ⟨ws, hws, h⟩ := bind_eq_ok.mp h
      cases h
      exact .cons (hitem.1 hw) (ih hitem.2 hws)

/-- Members that are written one after the other, each put into the entries written so far. -/
theorem fieldsWritten_of_steps {run : Entries WireValue → List (String × Json) → Except ClientError (Entries WireValue)}
    {written : Entries WireValue} (hnil : ∀ {written}, run written [] = .ok written)
    (hcons : ∀ {written key j members entries}, run written ((key, j) :: members) = .ok entries →
      ∃ input w, declared (c.toWire key) = some input ∧ literal d c (c.toWire key) j input.type = .ok w ∧
        run (Entries.insert written (c.toWire key) w) members = .ok entries)
    (hmember : ∀ p ∈ members, ∀ {name shape w}, literal d c name p.2 shape = .ok w → Written join d c shape p.2 w)
    (h : run written members = .ok entries) : ∃ own, FieldsWritten join d c declared members own ∧
      entries = own.foldl (fun entries e => Entries.insert entries e.1 e.2) written := by
  induction members generalizing written with
  | nil =>
    cases hnil.symm.trans h
    exact ⟨[], .nil, rfl⟩
  | cons p members ih =>
    obtain ⟨key, j⟩ := p
    rw [List.forall_mem_cons] at hmember
    obtain ⟨input, w, hi, hw, hrest⟩ := hcons h
    obtain ⟨own, hown, rfl⟩ := ih hmember.2 hrest
    exact ⟨(c.toWire key, w) :: own, .cons hi (hmember.1 hw) hown, rfl⟩

theorem ne_nonNull {kind : TypeKind} {inner : Option TypeShape} (hnone : kind = .nonNull → inner = none → False)
    (hsome : ∀ t, kind = .nonNull → inner = some t → False) : kind ≠ .nonNull := by
  intro hk
  cases inner with
  | none => exact hnone hk rfl
  | some t => exact hsome t hk rfl

/-- Behind the wrappers there is an array to write item by item, or a value of a named type. -/
theorem written_of_wrapperLiteral {value : Option (Option TypeShape → Except ClientError (List WireValue))}
    {named : Option String → Except ClientError WireValue}
    (hnone : value = none → ∀ items, j ≠ .array items)
    (hsome : ∀ {f}, value = some f → ∃ items, j = .array items ∧
      ∀ {inner ws}, f inner = .ok ws → ItemsWritten join d c inner items ws)
    (hnamed : ∀ {kind typeName inner w}, j ≠ .null → kind ≠ .list → kind ≠ .nonNull → named typeName = .ok w →
      Written join d c (.mk kind typeName inner) j w)
    (h : wrapperLiteral name j value named shape = .ok w) : Written join d c shape j w := by
  have hnull : ¬ j.isNull = true → j ≠ .null := by
    rintro hnot rfl
    exact hnot rfl
  fun_induction wrapperLiteral name j value named shape generalizing w with
  | case1 => cases h
  | case2 _ _ ih => exact .nonNull (ih h)
  | case3 _ _ _ hno hno' hj =>
    obtain rfl : j = .null := by
      cases j with
      | null => rfl
      | _ => cases hj
    cases h
    exact .null (ne_nonNull hno hno')
  | case4 _ _ _ _ hf =>
    obtain ⟨items, rfl, hitems⟩ := hsome hf
    obtain ⟨ws, hws, rfl⟩ := map_eq_ok.mp h
    exact .list (hitems hws)
  | case5 _ hj _ hf _ _ ih =>
    obtain ⟨w, hw, rfl⟩ := map_eq_ok.mp h
    exact .single (hnull hj) (hnone hf) (ih hw)
  | case6 => cases h
  | case7 _ _ _ hno hno' hj hlist => exact hnamed (hnull hj) hlist (ne_nonNull hno hno') h

/-- A value of a named type, if objects are written. -/
theorem written_of_namedLiteral {object : TypeDescription → Except ClientError WireValue} {kind : TypeKind}
    {typeName : Option String} {inner : Option TypeShape}
    (hobject : ∀ {type w}, d.Names (.mk kind typeName inner) type → type.kind = .inputObject → object type = .ok w →
      Written join d c (.mk kind typeName inner) j w)
    (hj : j ≠ .null) (hlist : kind ≠ .list) (hnonNull : kind ≠ .nonNull)
    (h : namedLiteral d name j object typeName = .ok w) : Written join d c (.mk kind typeName inner) j w := by
  obtain ⟨type, ht, h⟩ := cases_of_namedLiteral h
  have hnames : d.Names (.mk kind typeName inner) type := .mk hlist hnonNull ht
  obtain ⟨hk, hw⟩ | ⟨hk, hw⟩ | ⟨hk, rfl⟩ := h
  · obtain ⟨member, rfl, hmember, rfl⟩ := member_of_memberLiteral hw
    exact .enum hnames hk hmember
  · exact hobject hnames hk hw
  · exact .scalar hj hnames hk

/-- A value that is no object. -/
theorem written_of_noObject {kind : TypeKind} {typeName : Option String} {inner : Option TypeShape} (hj : j ≠ .null)
    (hlist : kind ≠ .list) (hnonNull : kind ≠ .nonNull)
    (h : namedLiteral d name j (noObject name j) typeName = .ok w) :
    Written join d c (.mk kind typeName inner) j w := by
  refine written_of_namedLiteral (fun _ _ hno => ?_) hj hlist hnonNull h
  cases hno

theorem written_of_literal (j : Json) : ∀ {name shape w}, literal d c name j shape = .ok w →
    Written Entries.ofPairs d c shape j w := by
  induction j using Json.induction_holds with
  | array items ih =>
    intro name shape w h
    rw [literal] at h
    refine written_of_wrapperLiteral (fun hnone => by cases hnone) ?_ written_of_noObject h
    rintro f ⟨⟩
    exact ⟨items, rfl, itemsWritten_of_itemLiterals ih⟩
  | object members ih =>
    intro name shape w h
    rw [literal] at h
    refine written_of_wrapperLiteral (fun _ _ hj => by cases hj) (fun hf => by cases hf)
      (written_of_namedLiteral ?_) h
    intro type w hnames hk hw
    obtain ⟨entries, hentries, rfl⟩ := map_eq_ok.mp hw
    obtain ⟨own, hown, rfl⟩ := fieldsWritten_of_steps rfl fieldLiterals_cons.mp ih hentries
    exact .object hnames hk hown
  | leaf j harray hobject =>
    intro name shape w h
    rw [literal_leaf harray hobject] at h
    exact written_of_wrapperLiteral (fun _ => harray) (fun hf => by cases hf) written_of_noObject h

end RecordGraph.Client
