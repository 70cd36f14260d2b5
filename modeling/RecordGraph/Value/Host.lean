import RecordGraph.Entries
import RecordGraph.Number.WireNumber
import RecordGraph.Number.Decimal
import RecordGraph.Time.Moment
/-!
Values of the host, as resolvers produce and consume them. Mapping-shaped data is a `mapping`;
object-shaped data, which has handlers besides its attributes, is a `source`. A handler is a
description of what to answer, so values are plain data; what only the host can compute is named by
`Handler.native` and left to it.
-/

namespace RecordGraph

/-- Integers of 64 bits, signed or not, and floats. -/
inductive HostNumber where
  | signed (value : Int64)
  | unsigned (value : UInt64)
  | float (value : Binary64)
  deriving DecidableEq, Inhabited

/-- How a handler looks at one of its arguments. -/
inductive ArgumentView where
  | any
  | text
  | integer
  | list
  deriving DecidableEq, Repr

mutual

/-- A value of the host. -/
inductive Value where
  | null
  | bool (value : Bool)
  | number (value : HostNumber)
  | string (text : String)
  | list (items : List Value)
  | mapping (entries : List (String × Value))
  | moment (value : Moment)
  | decimal (value : Decimal)
  /-- A member of one particular enum. -/
  | member (enumName name : String)
  | source (value : Source)
  /-- A result that is computed when it is asked for. -/
  | callable (handler : Handler)

/-- An object-shaped value: the name of its record, its attributes, and its handlers by field
name. A `resolve` handler answers a field, a `mutate` handler a field of the mutation root, and a
`message` handler shapes what subscribers of a field receive. -/
inductive Source where
  | mk (typeName : String) (attributes : List (String × Value))
      (resolve mutate message : List (String × Handler))

/-- What a handler answers. -/
inductive Handler where
  /-- Always the same value. -/
  | give (value : Value)
  /-- Always a failure. -/
  | fail (message : String)
  /-- A sequence of values, which a failure cuts short. -/
  | emit (items : List Emission)
  /-- A mapping of everything the handler was told. -/
  | describe
  /-- A line of text with everything the handler was told. -/
  | describeLine
  /-- One of its arguments, or null. -/
  | argument (view : ArgumentView) (name : String)
  /-- A callable with another handler. -/
  | defer (handler : Handler)
  /-- Whatever the host computes under a name. -/
  | native (name : String)

/-- One step of a sequence. -/
inductive Emission where
  | value (value : Value)
  | failure (message : String)

end

instance : Inhabited Value := ⟨.null⟩
instance : Inhabited Source := ⟨.mk "" [] [] [] []⟩
instance : Inhabited Handler := ⟨.give .null⟩
instance : Inhabited Emission := ⟨.value .null⟩

namespace HostNumber

/-- The number as a float; an integer is rounded. -/
def toBinary64 : HostNumber → Binary64
  | .signed n => .ofInt n.toInt
  | .unsigned n => .ofInt n.toNat
  | .float x => x

/-- The number as a signed 64-bit integer. A float without fractional part is clamped to the
range. -/
def asInt64? : HostNumber → Option Int64
  | .signed n => some n
  | .unsigned n => if n.toNat < 0x8000000000000000 then some (Int64.ofNat n.toNat) else none
  | .float x => if x.isIntegral then some x.toInt64Clamped else none

/-- The text of the number. -/
def text : HostNumber → String
  | .signed n => toString n.toInt
  | .unsigned n => toString n.toNat
  | .float x => x.plainText

/-- A number from the wire, in the first form that holds it. -/
def ofWire : WireNumber → HostNumber
  | .integer n _ =>
    if n < 0x8000000000000000 then .signed (Int64.ofInt n) else .unsigned (UInt64.ofNat n.toNat)
  | .float x _ => .float x

/-- The number on the wire, if it is finite. -/
def toWire? : HostNumber → Option WireNumber
  | .signed n => some (.ofInt64 n)
  | .unsigned n => some (.ofUInt64 n)
  | .float x => WireNumber.ofFloat? x

end HostNumber

namespace Source

/-- The name of the record a source belongs to. -/
def typeName : Source → String
  | .mk name _ _ _ _ => name

/-- The attributes of a source. -/
def attributes : Source → List (String × Value)
  | .mk _ attributes _ _ _ => attributes

/-- The handlers that answer fields. -/
def resolveHandlers : Source → List (String × Handler)
  | .mk _ _ handlers _ _ => handlers

/-- The handlers that answer fields of the mutation root. -/
def mutateHandlers : Source → List (String × Handler)
  | .mk _ _ _ handlers _ => handlers

/-- The handlers that shape messages. -/
def messageHandlers : Source → List (String × Handler)
  | .mk _ _ _ _ handlers => handlers

end Source

namespace Value

/-- A signed integer. -/
def int (n : Int64) : Value := .number (.signed n)

/-- A count. -/
def count (n : Nat) : Value := .number (.unsigned (UInt64.ofNat n))

/-- A text, or null. -/
def ofText? : Option String → Value
  | some text => .string text
  | none => .null

/-- The value under a key of a mapping. -/
def get? : Value → String → Option Value
  | .mapping entries, key => Entries.get? entries key
  | _, _ => none

/-- Whether a value is null. -/
def isNull : Value → Bool
  | .null => true
  | _ => false

/-- The text of a string. -/
def asText? : Value → Option String
  | .string text => some text
  | _ => none

/-- The integer of a number. -/
def asInt64? : Value → Option Int64
  | .number n => n.asInt64?
  | _ => none

/-- The items of a list. -/
def asList? : Value → Option (List Value)
  | .list items => some items
  | _ => none

/-- The name of the concrete type, when a value carries one: a source always, a mapping under
`__typename`. -/
def typeName? : Value → Option String
  | .source s => some s.typeName
  | .mapping entries => (Entries.get? entries "__typename").bind asText?
  | _ => none

/-- A word for the kind of a value. -/
def kind : Value → String
  | .null => "null"
  | .bool _ => "boolean"
  | .number _ => "number"
  | .string _ => "string"
  | .list _ => "list"
  | .mapping _ => "mapping"
  | .moment _ => "datetime"
  | .decimal _ => "decimal"
  | .member _ _ => "enum"
  | .source _ => "object"
  | .callable _ => "resolver"

end Value

end RecordGraph
