import RecordGraph.Proofs.Client.Written
/-! Places in a value. A value holds others, and each is written as the shape asks that is declared for its place. What
holds everywhere in a value holds of the value itself and everywhere in its parts. -/

namespace RecordGraph.Client

/-- The values of an object by wire name. Of keys with one name the last counts, in the place of the first. -/
def wireMembers (c : Casing) (members : List (String × Json)) : Entries Json :=
  Entries.ofPairs (members.map fun p => (c.toWire p.1, p.2))

/-- A value inside a value that is written as a shape asks, with the shape that is asked for it. -/
inductive Place (d : Description) (c : Casing) : TypeShape → Json → TypeShape → Json → Prop
  | self {shape : TypeShape} {j : Json} : Place d c shape j shape j
  | nonNull {typeName : Option String} {inner s : TypeShape} {j k : Json} (h : Place d c inner j s k) :
      Place d c (.mk .nonNull typeName (some inner)) j s k
  | item {typeName : Option String} {inner s : TypeShape} {items : List Json} {j k : Json} (hj : j ∈ items)
      (h : Place d c inner j s k) : Place d c (.mk .list typeName (some inner)) (.array items) s k
  | single {typeName : Option String} {inner s : TypeShape} {j k : Json} (hnull : j ≠ .null)
      (hj : ∀ items, j ≠ .array items) (h : Place d c inner j s k) :
      Place d c (.mk .list typeName (some inner)) j s k
  | member {shape s : TypeShape} {type : TypeDescription} {members : List (String × Json)} {name : String}
      {input : InputDescription} {j k : Json} (ht : d.Names shape type) (hk : type.kind = .inputObject)
      (hj : (name, j) ∈ wireMembers c members) (hi : type.inputField? name = some input)
      (h : Place d c input.type j s k) : Place d c shape (.object members) s k

/-- What holds at each place in a value. -/
def Everywhere (d : Description) (c : Casing) (P : TypeShape → Json → Prop) (shape : TypeShape) (j : Json) : Prop :=
  ∀ s k, Place d c shape j s k → P s k

variable {d : Description} {c : Casing} {P : TypeShape → Json → Prop} {shape : TypeShape} {type : TypeDescription}
  {typeName : Option String} {j : Json} {items : List Json} {members : List (String × Json)}

theorem everywhere_null (hk : shape.kind ≠ .nonNull) : Everywhere d c P shape .null ↔ P shape .null := by
  refine ⟨fun h => h _ _ .self, fun h s k hplace => ?_⟩
  cases hplace with
  | self => exact h
  | nonNull _ => exact absurd rfl hk
  | single hnull _ _ => exact absurd rfl hnull

theorem everywhere_nonNull {inner : TypeShape} : Everywhere d c P (.mk .nonNull typeName (some inner)) j ↔
    P (.mk .nonNull typeName (some inner)) j ∧ Everywhere d c P inner j := by
  refine ⟨fun h => ⟨h _ _ .self, fun s k hplace => h s k (.nonNull hplace)⟩, fun h s k hplace => ?_⟩
  cases hplace with
  | self => exact h.1
  | nonNull hplace => exact h.2 s k hplace
  | member ht => exact absurd ht Description.not_names_nonNull

theorem everywhere_list {inner : Option TypeShape} : Everywhere d c P (.mk .list typeName inner) (.array items) ↔
    P (.mk .list typeName inner) (.array items) ∧ ∀ t, inner = some t → ∀ j ∈ items, Everywhere d c P t j := by
  constructor
  · intro h
    refine ⟨h _ _ .self, ?_⟩
    rintro t rfl j hj s k hplace
    exact h s k (.item hj hplace)
  · intro h s k hplace
    cases hplace with
    | self => exact h.1
    | item hj hplace => exact h.2 _ rfl _ hj s k hplace
    | single _ hj _ => exact absurd rfl (hj items)

theorem everywhere_single {inner : TypeShape} (hnull : j ≠ .null) (hj : ∀ items, j ≠ .array items) :
    Everywhere d c P (.mk .list typeName (some inner)) j ↔
      P (.mk .list typeName (some inner)) j ∧ Everywhere d c P inner j := by
  refine ⟨fun h => ⟨h _ _ .self, fun s k hplace => h s k (.single hnull hj hplace)⟩, fun h s k hplace => ?_⟩
  cases hplace with
  | self => exact h.1
  | item _ _ => exact absurd rfl (hj _)
  | single _ _ hplace => exact h.2 s k hplace
  | member ht => exact absurd ht Description.not_names_list

/-- A value of a type that is no input object has no place but its own. -/
theorem everywhere_leaf (ht : d.Names shape type) (hk : type.kind ≠ .inputObject) :
    Everywhere d c P shape j ↔ P shape j := by
  refine ⟨fun h => h _ _ .self, fun h s k hplace => ?_⟩
  cases hplace with
  | self => exact h
  | nonNull _ => exact absurd ht Description.not_names_nonNull
  | item _ _ => exact absurd ht Description.not_names_list
  | single _ _ _ => exact absurd ht Description.not_names_list
  | member ht' hk' _ _ _ => exact absurd (ht.eq ht' ▸ hk') hk

theorem everywhere_object (ht : d.Names shape type) (hk : type.kind = .inputObject) :
    Everywhere d c P shape (.object members) ↔ P shape (.object members) ∧
      ∀ e ∈ wireMembers c members, ∀ input, type.inputField? e.1 = some input → Everywhere d c P input.type e.2 := by
  constructor
  · intro h
    exact ⟨h _ _ .self, fun e he input hi s k hplace => h s k (.member ht hk he hi hplace)⟩
  · intro h s k hplace
    cases hplace with
    | self => exact h.1
    | nonNull _ => exact absurd ht Description.not_names_nonNull
    | single _ _ _ => exact absurd ht Description.not_names_list
    | member ht' _ hj hi hplace =>
      cases ht.eq ht'
      exact h.2 _ hj _ hi s k hplace

/-- What is written entry by entry for members is written for the values that count. -/
theorem forall₂_wireMembers {declared : String → Option InputDescription} {R : TypeShape → Json → WireValue → Prop}
    {entries : Entries WireValue} (h : List.Forall₂ (Beside c declared R) members entries) :
    List.Forall₂ (fun p e => p.1 = e.1 ∧ ∃ input, declared e.1 = some input ∧ R input.type p.2 e.2)
      (wireMembers c members) (Entries.ofPairs entries) := by
  refine Entries.forall₂_ofPairs And.left (List.forall₂_map_left_iff.mpr (h.imp fun p e hbeside => ?_))
  exact ⟨hbeside.1.symm, hbeside.2⟩

/-- A book as a server may take it: with a title, and with its author or without. -/
def bookInput : TypeDescription :=
  { kind := .inputObject, name := "BookInput",
    inputFields := some [⟨"title", .mk .nonNull none (some (.mk .scalar (some "String") none))⟩,
      ⟨"authorId", .mk .scalar (some "String") none⟩] }

/-- What is known about such a server. -/
def bookDescription : Description :=
  { query := "Query", mutation := some "Mutation",
    types := [("BookInput", bookInput), ("String", { kind := .scalar, name := "String" })] }

theorem names_bookInput : bookDescription.Names (.mk .inputObject (some "BookInput") none) bookInput :=
  .mk (by decide) (by decide) rfl

theorem names_string :
    bookDescription.Names (.mk .scalar (some "String") none) { kind := .scalar, name := "String" } :=
  .mk (by decide) (by decide) rfl

end RecordGraph.Client
