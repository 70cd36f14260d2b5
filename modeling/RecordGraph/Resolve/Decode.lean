import RecordGraph.Wire.Model
import RecordGraph.Resolve.Arguments
/-!
Decoding wire values into host values by their declared type. Scalars are read by their codec, enum
members become host values of their enum, input objects become mappings by host name, or whatever
the loader of their record makes of them. The defaults of absent fields are decoded as well, so
decoding ends only if no default leads back to itself; it is therefore given a number of steps.
-/

namespace RecordGraph

/-- An outcome within a number of steps: none when they did not suffice. -/
abbrev Bounded (α : Type) := ExceptT FieldError Option α

namespace Bounded

/-- The steps did not suffice. -/
def outOfSteps : Bounded α := ExceptT.mk none

end Bounded

namespace Model

/-- The failure of a type that no input can have. -/
def noInput (name kind : String) : FieldError :=
  .resolver ("Type `" ++ name ++ "` is an " ++ kind ++ " and cannot be used as an input")

/-- What a loader, if there is one, makes of the decoded fields. -/
def load (loader : Option Loader) (fields : List (String × Value)) : Except FieldError Value :=
  match loader with
  | some loader => loader fields
  | none => .ok (.mapping fields)

/-- Decodes the fields of an input object that are present or have a default, with the decoding to
use for them. -/
def decodeFields (decode : TypeRef → WireValue → Bounded Value)
    (entries : List (String × WireValue)) (decoded : List (String × Value)) :
    List InputField → Bounded (List (String × Value))
  | [] => return decoded
  | f :: rest =>
    match (Entries.get? entries f.name).or f.default with
    | some value => do
      let v ← decode f.type value
      decodeFields decode entries (Entries.insert decoded f.hostName v) rest
    | none => decodeFields decode entries decoded rest

/-- Decodes an input object. -/
def decodeObject (decode : TypeRef → WireValue → Bounded Value) (type : InputObjectType) :
    WireValue → Bounded Value
  | .object entries => do
    let fields ← decodeFields decode entries [] type.fields
    liftM (load type.loader fields)
  | value =>
    throw (.resolver ("Expected an object for `" ++ type.name ++ "`, found " ++ value.text))

/-- Decodes a value of a named type. -/
def decodeNamed (m : Model) (decode : TypeRef → WireValue → Bounded Value) (name : String)
    (value : WireValue) : Bounded Value :=
  match m.type? name with
  | some (.scalar type) => liftM ((type.codec.parse value).mapError FieldError.codec)
  | some (.enum type) => liftM ((type.parse value).mapError FieldError.codec)
  | some (.inputObject type) => decodeObject decode type value
  | some type => throw (noInput name type.kind)
  | none => throw (.resolver ("Unknown type `" ++ name ++ "`"))

/-- Decodes a value within a number of steps. Null is a value of every type here, and a single value
stands for a list of one. -/
def decodeWithin (m : Model) : Nat → TypeRef → WireValue → Bounded Value
  | 0, _, _ => .outOfSteps
  | steps + 1, .nonNull inner, value => decodeWithin m steps inner value
  | _ + 1, _, .null => return .null
  | steps + 1, .list inner, .list items => return .list (← items.mapM (decodeWithin m steps inner))
  | steps + 1, .list inner, value => return .list [← decodeWithin m steps inner value]
  | steps + 1, .named name, value => m.decodeNamed (decodeWithin m steps) name value

end Model

namespace TypeRef

/-- How many layers a reference has. -/
def depth : TypeRef → Nat
  | .named _ => 1
  | .nonNull inner => inner.depth + 1
  | .list element => element.depth + 1

end TypeRef

namespace WireValue

mutual

/-- How deeply a value is nested. -/
def depth : WireValue → Nat
  | .list items => depthOfItems items + 1
  | .object fields => depthOfFields fields + 1
  | _ => 1

/-- The depth of the deepest item. -/
def depthOfItems : List WireValue → Nat
  | [] => 0
  | item :: rest => max (depth item) (depthOfItems rest)

/-- The depth of the deepest field. -/
def depthOfFields : List (String × WireValue) → Nat
  | [] => 0
  | (_, value) :: rest => max (depth value) (depthOfFields rest)

end

end WireValue

namespace Model

/-- The fields of all input objects. -/
def inputFields (m : Model) : List InputField :=
  m.types.values.flatMap fun
    | .inputObject type => type.fields
    | _ => []

/-- The declared defaults of all input fields. -/
def inputDefaults (m : Model) : List WireValue := m.inputFields.filterMap InputField.default

/-- Steps that suffice unless a default leads back to itself: below a value, each default opens at
most once on the way down, and each level of a value takes as many steps as its type has layers. -/
def decodeSteps (m : Model) (type : TypeRef) (value : WireValue) : Nat :=
  let layers := (m.inputFields.map fun f => f.type.depth).foldl max type.depth
  let deepest := (m.inputDefaults.map WireValue.depth).foldl max 0
  (value.depth + m.inputDefaults.length * (deepest + 1) + 1) * (layers + 2)

/-- Decodes a value of a type. -/
def decode (m : Model) (type : TypeRef) (value : WireValue) : Except FieldError Value :=
  match (m.decodeWithin (m.decodeSteps type value) type value).run with
  | some outcome => outcome
  | none => .error (.endlessDefaults type.base)

/-- Decodes the declared arguments of a field that are given. -/
def decodeArguments (m : Model) (field : WireField) (given : List (String × WireValue)) :
    Except FieldError Arguments :=
  field.arguments.foldlM (fun decoded argument =>
    match Entries.get? given argument.name with
    | some value => do
      let v ← m.decode argument.type value
      return Entries.insert decoded argument.hostName v
    | none => return decoded) []

end Model

end RecordGraph
