import RecordGraph.Value.Convert
import RecordGraph.Json.Reader
import RecordGraph.Text.Octets
import RecordGraph.Text.Base64
import RecordGraph.Time.Reader
/-!
Codecs between host values and the wire values of scalar types. A codec writes the host values it
stands for and reads wire values back; whatever it cannot convert is an error that names the scalar
and the value.
-/

namespace RecordGraph

/-- The two directions of a scalar, and the check of shape that an engine makes before it reads. -/
structure ScalarCodec where
  serialize : Value → Except CodecError WireValue
  parse : WireValue → Except CodecError Value
  accepts : WireValue → Bool := fun _ => true

namespace ScalarCodec

/-- A host value that the scalar cannot write. -/
def refuse (scalar : String) (value : Value) : Except CodecError α :=
  .error (.serialize scalar value.text)

/-- A wire value that the scalar cannot read. -/
def reject (scalar : String) (value : WireValue) : Except CodecError α :=
  .error (.parse scalar value.text)

/-- Signed 64-bit integers. -/
def int : ScalarCodec where
  serialize value :=
    match value.asInt64? with
    | some n => .ok (.number (.ofInt64 n))
    | none => refuse "Int" value
  parse value :=
    match value with
    | .number n =>
      match n.asInt64? with
      | some k => .ok (.int k)
      | none => reject "Int" value
    | value => reject "Int" value

/-- Floats; integers and decimals are written as the nearest one. -/
def float : ScalarCodec where
  serialize value :=
    match value with
    | .number n => .ok (.ofFloat n.toBinary64)
    | .decimal d => .ok (.ofFloat d.toBinary64)
    | value => refuse "Float" value
  parse value :=
    match value with
    | .number n => .ok (.number (.ofWire n))
    | value => reject "Float" value

/-- Truth values. -/
def boolean : ScalarCodec where
  serialize value :=
    match value with
    | .bool b => .ok (.bool b)
    | value => refuse "Boolean" value
  parse value :=
    match value with
    | .bool b => .ok (.bool b)
    | value => reject "Boolean" value

/-- Texts; truth values and numbers are written as their text. -/
def string : ScalarCodec where
  serialize value :=
    match value with
    | .string s => .ok (.string s)
    | .bool b => .ok (.string (Value.bool b).text)
    | .number n => .ok (.string n.text)
    | value => refuse "String" value
  parse value :=
    match value with
    | .string s => .ok (.string s)
    | value => reject "String" value

/-- The text of an identifier before it is encoded. -/
def idText? : Value → Option String
  | .string s => some s
  | .number n => some n.text
  | .bool b => some (Value.bool b).text
  | .decimal d => some d.text
  | _ => none

/-- The wire text of an identifier: its octets in base 64. -/
def encodeId (text : String) : String :=
  String.ofList (Text.Base64.encode (Text.octets text.toList))

/-- The text of an identifier from its wire text. -/
def decodeId (encoded : String) : Except CodecError String :=
  match Text.Base64.decode (Text.octets encoded.toList) with
  | .error fault => .error (.malformed "ID" encoded fault.message)
  | .ok octets =>
    match Text.ofOctets octets with
    | .error fault => .error (.malformed "ID" encoded fault.message)
    | .ok text => .ok (String.ofList text)

/-- Identifiers, encoded on the wire. An integer literal is a plain identifier. -/
def id : ScalarCodec where
  serialize value :=
    match idText? value with
    | some text => .ok (.string (encodeId text))
    | none => refuse "ID" value
  parse value :=
    match value with
    | .string s => (decodeId s).map .string
    | .number (.integer n h) => .ok (.string (WireNumber.integer n h).text)
    | value => reject "ID" value

/-- Moments as texts. Without an offset a text stands for universal time. -/
def dateTime : ScalarCodec where
  serialize value :=
    match value with
    | .moment m => .ok (.string m.text)
    | value => refuse "DateTime" value
  parse value :=
    match value with
    | .string s =>
      match Moment.read s with
      | .ok m => .ok (.moment m)
      | .error fault => .error (.malformed "DateTime" s fault.message)
    | value => reject "DateTime" value
  accepts value :=
    match value with
    | .string _ => true
    | _ => false

/-- Arbitrary mappings. On the way in they are objects, or strings with the text of a JSON object. -/
def dictionary : ScalarCodec where
  serialize value :=
    match value with
    | .mapping entries =>
      match (Value.mapping entries).toWire with
      | .ok w => .ok w
      | .error _ => refuse "Dictionary" value
    | value => refuse "Dictionary" value
  parse value :=
    match value with
    | .object fields => .ok (Value.ofWire (.object fields))
    | .string s =>
      match Json.read? s with
      | some (.object members) => .ok (Value.ofJson (.object members))
      | some other =>
        .error (.malformed "Dictionary" s ("expected a mapping, found " ++ other.compact))
      | none => .error (.malformed "Dictionary" s "the text is not JSON")
    | value => reject "Dictionary" value
  accepts value :=
    match value with
    | .object _ | .string _ => true
    | _ => false

/-- Reads a decimal number from its text. -/
def parseDecimal (text : String) : Except CodecError Value :=
  match Decimal.read text with
  | .ok d => .ok (.decimal d)
  | .error fault => .error (.malformed "Decimal" text fault.message)

/-- Decimal numbers: written as the nearest float, read from numbers and from texts. -/
def decimal : ScalarCodec where
  serialize value :=
    match value with
    | .decimal d => .ok (.ofFloat d.toBinary64)
    | .number n => .ok (.ofFloat n.toBinary64)
    | value => refuse "Decimal" value
  parse value :=
    match value with
    | .number n => parseDecimal n.text
    | .string s => parseDecimal s
    | value => reject "Decimal" value
  accepts value :=
    match value with
    | .number _ | .string _ => true
    | _ => false

end ScalarCodec

/-- A scalar type: the host type it maps from, its name on the wire, and its codec. Builtin scalars
are those that every engine provides. -/
structure ScalarType where
  hostName : String
  wireName : String
  description : Option String := none
  builtin : Bool := false
  codec : ScalarCodec

/-- The scalars that every schema knows. -/
def defaultScalars : List ScalarType :=
  [⟨"i64", "Int", none, true, .int⟩,
   ⟨"i32", "Int", none, true, .int⟩,
   ⟨"f64", "Float", none, true, .float⟩,
   ⟨"bool", "Boolean", none, true, .boolean⟩,
   ⟨"String", "String", none, true, .string⟩,
   ⟨"ID", "ID", none, true, .id⟩,
   ⟨"DateTime", "DateTime", some "An ISO-8601 encoded date and time", false, .dateTime⟩,
   ⟨"Dictionary", "Dictionary", some "An arbitrary mapping of names to values", false, .dictionary⟩,
   ⟨"Decimal", "Decimal", some "An arbitrary-precision decimal number", false, .decimal⟩]

end RecordGraph
