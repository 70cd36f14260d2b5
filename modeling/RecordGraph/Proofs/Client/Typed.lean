import RecordGraph.Proofs.Client.Places
/-! Literals of declared types. What a client writes is a literal of the declared type, but for null: it is written
wherever null is given, also where the type does not allow it, since a non-null type is looked through. -/

namespace RecordGraph.Client

/-- A literal of a type. If types are not taken strictly, null is a literal of non-null types too. -/
inductive LiteralOf (d : Description) (strict : Bool) : TypeShape → WireValue → Prop
  | null {shape : TypeShape} (hk : shape.kind ≠ .nonNull) : LiteralOf d strict shape .null
  | nonNull {typeName : Option String} {inner : TypeShape} {w : WireValue} (hw : strict = true → w ≠ .null)
      (h : LiteralOf d strict inner w) : LiteralOf d strict (.mk .nonNull typeName (some inner)) w
  | list {typeName : Option String} {inner : TypeShape} {ws : List WireValue}
      (h : ∀ w ∈ ws, LiteralOf d strict inner w) : LiteralOf d strict (.mk .list typeName (some inner)) (.list ws)
  /-- A list type that does not say what it lists has no other. -/
  | empty {typeName : Option String} : LiteralOf d strict (.mk .list typeName none) (.list [])
  /-- What a literal of a scalar looks like is up to its codec. -/
  | scalar {shape : TypeShape} {type : TypeDescription} {j : Json} (hj : j ≠ .null) (ht : d.Names shape type)
      (hk : type.kind = .scalar) : LiteralOf d strict shape (.ofJson j)
  | enum {shape : TypeShape} {type : TypeDescription} {member : String} (ht : d.Names shape type)
      (hk : type.kind = .enum) (h : member ∈ type.members.getD []) : LiteralOf d strict shape (.member member)
  | object {shape : TypeShape} {type : TypeDescription} {fields : Entries WireValue} (ht : d.Names shape type)
      (hk : type.kind = .inputObject) (hn : (fields.map Prod.fst).Nodup)
      (hdeclared : ∀ e ∈ fields, (type.inputField? e.1).isSome)
      (h : ∀ e ∈ fields, ∀ input, type.inputField? e.1 = some input → LiteralOf d strict input.type e.2) :
      LiteralOf d strict shape (.object fields)

/-- Null is given only where the declared type allows it. -/
def NullAllowed (shape : TypeShape) (j : Json) : Prop := j = .null → shape.kind ≠ .nonNull

variable {d : Description} {c : Casing} {strict : Bool} {shape : TypeShape} {type : TypeDescription}
  {typeName : Option String} {j : Json} {w : WireValue}

theorem Description.Names.kind_ne (ht : d.Names shape type) : shape.kind ≠ .nonNull := by
  cases ht with
  | mk _ hnonNull _ => exact hnonNull

theorem ofJson_ne_null (hj : j ≠ .null) : WireValue.ofJson j ≠ .null := by
  cases j with
  | null => exact absurd rfl hj
  | _ => simp [WireValue.ofJson]

/-- Null is written for null and for nothing else. -/
theorem Written.null_iff {join : Entries WireValue → Entries WireValue} (h : Written join d c shape j w) :
    w = .null ↔ j = .null := by
  induction h using Written.induction_parts with
  | null => simp
  | nonNull _ ih => exact ih
  | list => simp
  | single hnull => simp [hnull]
  | scalar hnull => simp [hnull, ofJson_ne_null hnull]
  | enum => simp
  | object => simp

/-! A literal of a type, by the form of the type. -/

theorem literalOf_nonNull {inner : TypeShape} : LiteralOf d strict (.mk .nonNull typeName (some inner)) w ↔
    (strict = true → w ≠ .null) ∧ LiteralOf d strict inner w := by
  constructor
  · intro h
    cases h with
    | null hk => exact absurd rfl hk
    | nonNull hw h => exact ⟨hw, h⟩
    | scalar _ ht _ => exact absurd ht Description.not_names_nonNull
    | enum ht _ _ => exact absurd ht Description.not_names_nonNull
    | object ht _ _ _ _ => exact absurd ht Description.not_names_nonNull
  · rintro ⟨hw, h⟩
    exact .nonNull hw h

theorem literalOf_list {inner : TypeShape} {ws : List WireValue} :
    LiteralOf d strict (.mk .list typeName (some inner)) (.list ws) ↔ ∀ w ∈ ws, LiteralOf d strict inner w := by
  constructor
  · intro h
    generalize hw : WireValue.list ws = w at h
    cases h with
    | null => cases hw
    | list h =>
      cases hw
      exact h
    | scalar _ ht _ => exact absurd ht Description.not_names_list
    | enum ht _ _ => exact absurd ht Description.not_names_list
    | object ht _ _ _ _ => exact absurd ht Description.not_names_list
  · exact .list

theorem literalOf_object {fields : Entries WireValue} (ht : d.Names shape type) (hk : type.kind = .inputObject) :
    LiteralOf d strict shape (.object fields) ↔ (fields.map Prod.fst).Nodup ∧
      (∀ e ∈ fields, (type.inputField? e.1).isSome) ∧
      ∀ e ∈ fields, ∀ input, type.inputField? e.1 = some input → LiteralOf d strict input.type e.2 := by
  constructor
  · intro h
    generalize hw : WireValue.object fields = w at h
    cases h with
    | null => cases hw
    | nonNull _ _ => exact absurd ht Description.not_names_nonNull
    | list _ => cases hw
    | empty => cases hw
    | scalar _ ht' hk' => simp [← ht.eq ht', hk] at hk'
    | enum _ _ _ => cases hw
    | object ht' _ hn hdeclared h =>
      cases hw
      exact ht.eq ht' ▸ ⟨hn, hdeclared, h⟩
  · rintro ⟨hn, hdeclared, h⟩
    exact .object ht hk hn hdeclared h

theorem forall_mem_iff_of_forall₂ {α β : Type} {A : α → Prop} {B : β → Prop} {as : List α} {bs : List β}
    (h : List.Forall₂ (fun a b => B b ↔ A a) as bs) : (∀ b ∈ bs, B b) ↔ ∀ a ∈ as, A a := by
  induction h with
  | nil => simp
  | cons h _ ih => rw [List.forall_mem_cons, List.forall_mem_cons, h, ih]

/-- The entries that are written for members, each with a declared name, are a literal if their values are. -/
theorem literalOf_ofPairs {B : TypeShape → Json → Prop} {members : List (String × Json)}
    {entries : Entries WireValue} (ht : d.Names shape type) (hk : type.kind = .inputObject)
    (h : List.Forall₂ (Beside c type.inputField? fun t j w => LiteralOf d strict t w ↔ B t j) members entries) :
    LiteralOf d strict shape (.object (Entries.ofPairs entries)) ↔
      ∀ p ∈ wireMembers c members, ∀ input, type.inputField? p.1 = some input → B input.type p.2 := by
  have hparts := forall₂_wireMembers h
  have hdeclared : ∀ e ∈ Entries.ofPairs entries, (type.inputField? e.1).isSome := by
    refine (forall_mem_iff_of_forall₂ (A := fun _ => True) (hparts.imp ?_)).mpr fun _ _ => trivial
    rintro p e ⟨-, input, hi, -⟩
    exact iff_of_true (hi ▸ rfl) trivial
  rw [literalOf_object ht hk, and_iff_right (Entries.nodup_ofPairs entries), and_iff_right hdeclared]
  refine forall_mem_iff_of_forall₂ (hparts.imp ?_)
  rintro p e ⟨hname, input, hi, hw⟩
  rw [hname, hi]
  simp [hw]

theorem nullAllowed_of_ne (hj : j ≠ .null) : NullAllowed shape j := fun h => absurd h hj

/-- What the client writes is a literal of the declared type, strictly so if null is given only where the type
allows it. -/
theorem literalOf_iff (h : Written Entries.ofPairs d c shape j w) :
    LiteralOf d strict shape w ↔ Everywhere d c (fun s k => strict = true → NullAllowed s k) shape j := by
  induction h using Written.induction_parts with
  | null hk =>
    rw [everywhere_null hk]
    exact iff_of_true (.null hk) fun _ _ => hk
  | @nonNull typeName inner j w h ih =>
    have hallowed : NullAllowed (.mk .nonNull typeName (some inner)) j ↔ w ≠ .null := by
      rw [ne_eq, h.null_iff]
      simp [NullAllowed, TypeShape.kind]
    rw [literalOf_nonNull, ih, everywhere_nonNull, hallowed]
  | @list _ inner items ws h ih =>
    rw [everywhere_list, and_iff_right fun _ => nullAllowed_of_ne fun h => by cases h]
    cases inner with
    | none =>
      cases h
      exact iff_of_true .empty fun _ ht => by cases ht
    | some inner =>
      have hitems : List.Forall₂ (fun j w => LiteralOf d strict inner w ↔
          Everywhere d c (fun s k => strict = true → NullAllowed s k) inner j) items ws := by
        refine ih.imp ?_
        rintro j w ⟨t, ⟨⟩, -, hw⟩
        exact hw
      rw [literalOf_list, forall_mem_iff_of_forall₂ hitems]
      simp
  | single hnull hj _ ih =>
    rw [literalOf_list, List.forall_mem_singleton, ih, everywhere_single hnull hj,
      and_iff_right fun _ => nullAllowed_of_ne hnull]
  | scalar hnull ht hk =>
    rw [everywhere_leaf ht (ne_of_eq_of_ne hk (by decide))]
    exact iff_of_true (.scalar hnull ht hk) fun _ _ => ht.kind_ne
  | enum ht hk h =>
    rw [everywhere_leaf ht (ne_of_eq_of_ne hk (by decide))]
    exact iff_of_true (.enum ht hk h) fun _ _ => ht.kind_ne
  | object ht hk _ ih =>
    rw [literalOf_ofPairs ht hk (ih.imp fun _ _ => Beside.imp fun ⟨_, hw⟩ => hw), everywhere_object ht hk,
      and_iff_right fun _ => nullAllowed_of_ne fun h => by cases h]

/-- What is written is a literal of the declared type, if non-null types are looked through, and null is written for
null only. It is a literal of the type in full exactly if null is given nowhere that the declared type forbids it. -/
theorem literal_typed {name : String} (h : literal d c name j shape = .ok w) :
    LiteralOf d false shape w ∧ (w = .null ↔ j = .null) ∧
      (LiteralOf d true shape w ↔ Everywhere d c NullAllowed shape j) := by
  have hw := written_of_literal j h
  have hlenient : Everywhere d c (fun s k => false = true → NullAllowed s k) shape j := by
    intro s k _ hstrict
    cases hstrict
  have hstrict : LiteralOf d true shape w ↔ Everywhere d c (fun s k => true = true → NullAllowed s k) shape j :=
    literalOf_iff hw
  exact ⟨(literalOf_iff hw).mpr hlenient, hw.null_iff, by simpa using hstrict⟩

/-- Books in a list that must be there, as each of them must. -/
def booksShape : TypeShape :=
  .mk .nonNull none (some (.mk .list none (some (.mk .nonNull none (some (.mk .inputObject (some "BookInput") none))))))

/-- A book without an author. -/
def anonymousBook : Json := .array [.object [("title", .string "a"), ("author_id", .null)]]

theorem anonymousBook_typed : ∃ w, literal bookDescription .camel "books" anonymousBook booksShape = .ok w ∧
    LiteralOf bookDescription false booksShape w ∧ LiteralOf bookDescription true booksShape w ∧
    Everywhere bookDescription .camel NullAllowed booksShape anonymousBook := by
  have h : literal bookDescription .camel "books" anonymousBook booksShape =
      .ok (.list [.object [("title", .string "a"), ("authorId", .null)]]) := rfl
  have htitle : LiteralOf bookDescription true (.mk .nonNull none (some (.mk .scalar (some "String") none)))
      (.string "a") := .nonNull nofun (.scalar (j := .string "a") nofun names_string rfl)
  have hauthor : LiteralOf bookDescription true (.mk .scalar (some "String") none) .null := .null (by decide)
  have hstrict : LiteralOf bookDescription true booksShape
      (.list [.object [("title", .string "a"), ("authorId", .null)]]) := by
    refine .nonNull nofun (.list (List.forall_mem_singleton.mpr (.nonNull nofun ?_)))
    refine .object names_bookInput rfl (by decide) (by decide)
      (List.forall_mem_cons.mpr ⟨?_, List.forall_mem_singleton.mpr ?_⟩)
    · rintro _ ⟨⟩
      exact htitle
    · rintro _ ⟨⟩
      exact hauthor
  obtain ⟨hlenient, -, hiff⟩ := literal_typed h
  exact ⟨_, h, hlenient, hstrict, hiff.mp hstrict⟩

/-- Null is written for a list that must be there. -/
theorem null_for_nonNull : literal bookDescription .camel "books" .null booksShape = .ok .null ∧
    ¬ LiteralOf bookDescription true booksShape .null :=
  ⟨rfl, fun h => (literalOf_nonNull.mp h).1 rfl rfl⟩

end RecordGraph.Client
