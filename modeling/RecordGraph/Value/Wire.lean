import RecordGraph.Json
/-!
Values as they travel between client and server: literals and variables on the way in, response data
on the way out.
-/

namespace RecordGraph

/-- A value on the wire. -/
inductive WireValue where
  | null
  | bool (value : Bool)
  | number (value : WireNumber)
  | string (text : String)
  /-- The bare name of an enum member. -/
  | member (name : String)
  | list (items : List WireValue)
  | object (fields : List (String × WireValue))
  | binary (octets : List UInt8)
  deriving Inhabited

namespace WireValue

/-- Whether a value is the null of the wire. -/
def isNull : WireValue → Bool
  | .null => true
  | _ => false

/-- Control characters, of which two ranges lie below code point 160. -/
def isControl (c : Char) : Bool := c.toNat < 32 || (127 ≤ c.toNat && c.toNat < 160)

/-- A character of a string literal. Control characters without an escape of their own are written
with the decimal digits of their code point. -/
def escapeChar (c : Char) : String :=
  match c with
  | '\r' => "\\r"
  | '\n' => "\\n"
  | '\t' => "\\t"
  | '"' => "\\\""
  | '\\' => "\\\\"
  | c =>
    if isControl c then
      let code := toString c.toNat
      "\\u" ++ zeros (4 - code.length) ++ code
    else c.toString

/-- A string literal. -/
def quote (text : String) : String := "\"" ++ String.join (text.toList.map escapeChar) ++ "\""

mutual

/-- The literal of a value. -/
def text : WireValue → String
  | .null => "null"
  | .bool b => if b then "true" else "false"
  | .number n => n.text
  | .string s => quote s
  | .member name => name
  | .list items => "[" ++ ", ".intercalate (itemTexts items) ++ "]"
  | .object fields => "\x7b" ++ ", ".intercalate (fieldTexts fields) ++ "\x7d"
  | .binary octets => "[" ++ ", ".intercalate (octets.map fun o => toString o.toNat) ++ "]"

/-- The literals of the items of a list. -/
def itemTexts : List WireValue → List String
  | [] => []
  | item :: rest => text item :: itemTexts rest

/-- The literals of the fields of an object, each after its name. -/
def fieldTexts : List (String × WireValue) → List String
  | [] => []
  | (name, value) :: rest => (name ++ ": " ++ text value) :: fieldTexts rest

end

mutual

/-- The wire form of a JSON value. -/
def ofJson : Json → WireValue
  | .null => .null
  | .bool b => .bool b
  | .number n => .number n
  | .string s => .string s
  | .array items => .list (ofItems items)
  | .object members => .object (ofMembers members)

/-- The wire forms of the items of an array. -/
def ofItems : List Json → List WireValue
  | [] => []
  | item :: rest => ofJson item :: ofItems rest

/-- The wire forms of the members of an object. -/
def ofMembers : List (String × Json) → List (String × WireValue)
  | [] => []
  | (name, value) :: rest => (name, ofJson value) :: ofMembers rest

end

mutual

/-- The JSON form of a value. Members become texts, octets an array of numbers. -/
def toJson : WireValue → Json
  | .null => .null
  | .bool b => .bool b
  | .number n => .number n
  | .string s => .string s
  | .member name => .string name
  | .list items => .array (toItems items)
  | .object fields => .object (toMembers fields)
  | .binary octets => .array (octets.map fun o => .number (.ofUInt64 o.toUInt64))

/-- The JSON forms of the items of a list. -/
def toItems : List WireValue → List Json
  | [] => []
  | item :: rest => toJson item :: toItems rest

/-- The JSON forms of the fields of an object. -/
def toMembers : List (String × WireValue) → List (String × Json)
  | [] => []
  | (name, value) :: rest => (name, toJson value) :: toMembers rest

end

/-- The wire form of a float; what is no finite number becomes null. -/
def ofFloat (x : Binary64) : WireValue :=
  match WireNumber.ofFloat? x with
  | some n => .number n
  | none => .null

end WireValue

end RecordGraph
