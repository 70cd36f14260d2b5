import Mathlib.Data.Option.Basic
import RecordGraph.Client.Description
import RecordGraph.Proofs.Registry
import RecordGraph.Wire.Model
/-! Descriptions that mirror a model: whatever the model has under a name, the description has under that name, in
the same form. Nothing is said about the order in which fields and members are described. Every model has such a
description. -/

namespace RecordGraph.Client

/-- A shape with the wrappers of a reference around the type that it names. -/
inductive TypeShape.Mirrors : TypeShape → TypeRef → Prop
  | named {kind : TypeKind} {name : String} {inner : Option TypeShape} (hlist : kind ≠ .list)
      (hnonNull : kind ≠ .nonNull) : Mirrors (.mk kind (some name) inner) (.named name)
  | list {name : Option String} {inner : TypeShape} {element : TypeRef} (h : Mirrors inner element) :
      Mirrors (.mk .list name (some inner)) (.list element)
  | nonNull {name : Option String} {inner : TypeShape} {type : TypeRef} (h : Mirrors inner type) :
      Mirrors (.mk .nonNull name (some inner)) (.nonNull type)

/-- An argument or an input field with a name and a type. -/
structure InputDescription.Mirrors (i : InputDescription) (name : String) (type : TypeRef) : Prop where
  name : i.name = name
  type : i.type.Mirrors type

/-- A field with the name, the type and the arguments of a field on the wire. -/
structure FieldDescription.Mirrors (g : FieldDescription) (f : WireField) : Prop where
  name : g.name = f.name
  type : g.type.Mirrors f.type
  arguments : ∀ name,
    Option.Rel (fun i a => InputDescription.Mirrors i a.name a.type) (g.argument? name) (f.argument? name)

/-- The kind of a type. -/
def kindOf : WireType → TypeKind
  | .scalar _ => .scalar
  | .enum _ => .enum
  | .object _ => .object
  | .interface _ => .interface
  | .inputObject _ => .inputObject

/-- A type with the kind, the fields, the input fields and the members of a type on the wire. -/
structure TypeDescription.Mirrors (u : TypeDescription) (t : WireType) : Prop where
  kind : u.kind = kindOf t
  fields : ∀ {fields}, t.fields? = some fields → ∀ name,
    Option.Rel FieldDescription.Mirrors (u.field? name) (fields.find? fun f => f.name == name)
  inputFields : ∀ {object}, t = .inputObject object → ∀ name,
    Option.Rel (fun i f => InputDescription.Mirrors i f.name f.type) (u.inputField? name)
      (object.fields.find? fun f => f.name == name)
  members : ∀ {enum}, t = .enum enum → ∀ member, member ∈ u.members.getD [] ↔ member ∈ enum.members

/-- A description with a type for each type of a model. -/
def Description.Mirrors (d : Description) (m : Model) : Prop :=
  ∀ {name t}, m.type? name = some t → ∃ u, d.type name = .ok u ∧ u.Mirrors t

/-! The description that follows a model. -/

/-- The shape of a reference. -/
def shapeOf (m : Model) : TypeRef → TypeShape
  | .named name => .mk (((m.type? name).map kindOf).getD .scalar) (some name) none
  | .nonNull inner => .mk .nonNull none (some (shapeOf m inner))
  | .list element => .mk .list none (some (shapeOf m element))

/-- The description of a field. -/
def describeField (m : Model) (f : WireField) : FieldDescription :=
  { name := f.name, arguments := f.arguments.map fun a => ⟨a.name, shapeOf m a.type⟩
    type := shapeOf m f.type }

/-- The description of a type. -/
def describeType (m : Model) (t : WireType) : TypeDescription :=
  { kind := kindOf t
    name := t.name
    fields := t.fields?.map fun fields => fields.map (describeField m)
    inputFields := match t with
      | .inputObject object => some (object.fields.map fun f => ⟨f.name, shapeOf m f.type⟩)
      | _ => none
    members := match t with
      | .enum enum => some enum.members
      | _ => none }

/-- The description of a model. -/
def describe (m : Model) : Description :=
  { query := m.query, mutation := m.mutation
    types := m.types.names.filterMap fun name => (m.type? name).map fun t => (name, describeType m t) }

variable {m : Model}

theorem mirrors_shapeOf (m : Model) (type : TypeRef) : (shapeOf m type).Mirrors type := by
  induction type with
  | nonNull inner ih => exact .nonNull ih
  | list element ih => exact .list ih
  | named name =>
    cases ht : m.type? name with
    | none =>
      rw [shapeOf, ht]
      exact .named nofun nofun
    | some t =>
      rw [shapeOf, ht]
      cases t <;> exact .named nofun nofun

/-- Looking up a name before or after a translation that keeps names. -/
theorem rel_find?_map {α β : Type} {R : β → α → Prop} {f : α → β} {p : α → Bool} {q : β → Bool}
    (hR : ∀ a, R (f a) a) (hpq : ∀ a, q (f a) = p a) (as : List α) :
    Option.Rel R ((as.map f).find? q) (as.find? p) := by
  rw [List.find?_map, show q ∘ f = p from funext hpq]
  cases as.find? p with
  | none => exact .none
  | some a => exact .some (hR a)

theorem mirrors_describeField (m : Model) (f : WireField) : (describeField m f).Mirrors f where
  name := rfl
  type := mirrors_shapeOf m f.type
  arguments _ := rel_find?_map (fun a => ⟨rfl, mirrors_shapeOf m a.type⟩) (fun _ => rfl) f.arguments

theorem mirrors_describeType (m : Model) (t : WireType) : (describeType m t).Mirrors t where
  kind := rfl
  fields {fields} h name := by
    simp only [TypeDescription.field?, describeType, h, Option.map_some, Option.getD_some]
    exact rel_find?_map (mirrors_describeField m) (fun _ => rfl) fields
  inputFields {object} h name := by
    subst h
    exact rel_find?_map (fun f => ⟨rfl, mirrors_shapeOf m f.type⟩) (fun _ => rfl) object.fields
  members {enum} h member := by
    subst h
    exact Iff.rfl

theorem get?_filterMap {α : Type} (f : String → Option α) (names : List String) (name : String) :
    Entries.get? (names.filterMap fun name => (f name).map (Prod.mk name)) name =
      if name ∈ names then f name else none := by
  induction names with
  | nil => rfl
  | cons other names ih =>
    by_cases he : other = name
    · subst he
      rw [if_pos List.mem_cons_self]
      cases hf : f other with
      | none =>
        rw [List.filterMap_cons_none (by rw [hf]; rfl), ih, hf, ite_self]
      | some a =>
        rw [List.filterMap_cons_some (by rw [hf]; rfl), Entries.get?_cons, if_pos rfl]
    · have hmem : name ∈ other :: names ↔ name ∈ names := by simp [Ne.symm he]
      simp only [hmem, ← ih]
      cases hf : f other with
      | none => rw [List.filterMap_cons_none (by rw [hf]; rfl)]
      | some a => rw [List.filterMap_cons_some (by rw [hf]; rfl), Entries.get?_cons, if_neg he]

theorem mirrors_describe (m : Model) : (describe m).Mirrors m := by
  intro name t ht
  have hname : name ∈ m.types.names := by
    by_contra hno
    cases (Registry.get?_eq_none_iff_names.mpr hno).symm.trans ht
  refine ⟨describeType m t, ?_, mirrors_describeType m t⟩
  have hget : Entries.get? (describe m).types name = some (describeType m t) := by
    have h := get?_filterMap (fun name => (m.type? name).map (describeType m)) m.types.names name
    simp only [Option.map_map, if_pos hname, ht] at h
    exact h
  rw [Description.type, hget]

end RecordGraph.Client
