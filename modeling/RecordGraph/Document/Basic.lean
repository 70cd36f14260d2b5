import RecordGraph.OperationKind
import RecordGraph.Value.Wire
import RecordGraph.Wire.TypeRef
/-!
Documents as clients send them: operations, which select fields of their root type and of the types
below it, and fragments, which several selections may share. A literal may hold variables; with a
value for each of them it becomes a wire value.
-/

namespace RecordGraph

/-- A value as it is written in a document. -/
inductive Literal where
  | variable (name : String)
  | null
  | bool (value : Bool)
  | number (value : WireNumber)
  | string (text : String)
  | member (name : String)
  | list (items : List Literal)
  | object (fields : List (String × Literal))
  deriving Inhabited

/-- An instruction on a part of a document. -/
structure Directive where
  name : String
  arguments : List (String × Literal) := []
  deriving Inhabited

/-- What is asked of an object. -/
inductive Selection where
  /-- A field, under its own name or another one, and what is asked of its value. -/
  | field (label : Option String) (name : String) (arguments : List (String × Literal))
      (directives : List Directive) (selections : List Selection)
  /-- The selections of a fragment. -/
  | spread (fragment : String) (directives : List Directive)
  /-- Selections for objects of a type only. -/
  | inline (condition : Option String) (directives : List Directive) (selections : List Selection)
  deriving Inhabited

/-- A variable of an operation. -/
structure VariableDefinition where
  name : String
  type : TypeRef
  directives : List Directive := []
  default : Option WireValue := none

/-- An operation. -/
structure Operation where
  kind : OperationKind
  name : Option String := none
  declarations : List VariableDefinition := []
  directives : List Directive := []
  selections : List Selection

/-- Selections on a type under a name. -/
structure Fragment where
  name : String
  condition : String
  directives : List Directive := []
  selections : List Selection

/-- A document. -/
structure Document where
  operations : List Operation
  fragments : List Fragment := []

namespace Literal

mutual

/-- The variables in a literal. -/
def variableNames : Literal → List String
  | .variable name => [name]
  | .list items => itemVariables items
  | .object fields => fieldVariables fields
  | _ => []

/-- The variables in the items of a list. -/
def itemVariables : List Literal → List String
  | [] => []
  | item :: rest => variableNames item ++ itemVariables rest

/-- The variables in the fields of an object. -/
def fieldVariables : List (String × Literal) → List String
  | [] => []
  | (_, value) :: rest => variableNames value ++ fieldVariables rest

end

mutual

/-- The value of a literal, given the values of its variables; else the first variable without a
value. -/
def value (lookUp : String → Option WireValue) : Literal → Except String WireValue
  | .variable name =>
    match lookUp name with
    | some value => .ok value
    | none => .error name
  | .null => .ok .null
  | .bool b => .ok (.bool b)
  | .number n => .ok (.number n)
  | .string s => .ok (.string s)
  | .member name => .ok (.member name)
  | .list items => (itemValues lookUp items).map .list
  | .object fields => (fieldValues lookUp fields).map .object

/-- The values of the items of a list. -/
def itemValues (lookUp : String → Option WireValue) : List Literal → Except String (List WireValue)
  | [] => .ok []
  | item :: rest => do
    let item ← value lookUp item
    let rest ← itemValues lookUp rest
    return item :: rest

/-- The values of named literals. -/
def fieldValues (lookUp : String → Option WireValue) :
    List (String × Literal) → Except String (List (String × WireValue))
  | [] => .ok []
  | (name, literal) :: rest => do
    let value ← value lookUp literal
    let rest ← fieldValues lookUp rest
    return (name, value) :: rest

end

mutual

/-- The literal that stands for a value. Octets are written as a list of numbers. -/
def ofWire : WireValue → Literal
  | .null => .null
  | .bool b => .bool b
  | .number n => .number n
  | .string s => .string s
  | .member name => .member name
  | .list items => .list (ofItems items)
  | .object fields => .object (ofFields fields)
  | .binary octets => .list (octets.map fun o => .number (.ofUInt64 o.toUInt64))

/-- The literals of the items of a list. -/
def ofItems : List WireValue → List Literal
  | [] => []
  | item :: rest => ofWire item :: ofItems rest

/-- The literals of the fields of an object. -/
def ofFields : List (String × WireValue) → List (String × Literal)
  | [] => []
  | (name, value) :: rest => (name, ofWire value) :: ofFields rest

end

mutual

/-- Whether two literals say the same; the order of the fields of an object does not count. -/
def same : Literal → Literal → Bool
  | .variable a, .variable b => a == b
  | .null, .null => true
  | .bool a, .bool b => a == b
  | .number a, .number b => a == b
  | .string a, .string b => a == b
  | .member a, .member b => a == b
  | .list as, .list bs => sameItems as bs
  | .object as, .object bs => as.length == bs.length && sameFields as bs
  | _, _ => false

/-- Whether two lists hold the same literals in the same order. -/
def sameItems : List Literal → List Literal → Bool
  | [], [] => true
  | a :: as, b :: bs => same a b && sameItems as bs
  | _, _ => false

/-- Whether each of the first fields stands among the second ones, with the same literal. -/
def sameFields : List (String × Literal) → List (String × Literal) → Bool
  | [], _ => true
  | (name, a) :: as, bs =>
    (match Entries.get? bs name with
      | some b => same a b
      | none => false) && sameFields as bs

end

end Literal

namespace Selection

/-- The name under which the value of a field stands in a response. -/
def responseKey (label : Option String) (name : String) : String := label.getD name

end Selection

namespace Document

/-- The fragment with a name. -/
def fragment? (d : Document) (name : String) : Option Fragment :=
  d.fragments.find? fun f => f.name == name

end Document

end RecordGraph
