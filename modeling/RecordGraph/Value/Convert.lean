import RecordGraph.Fault
import RecordGraph.Value.Text
import RecordGraph.Value.Wire
/-!
Host values and wire values without any scalar-specific encoding. Leaves without a plain form on the
wire are an error, and so is a value that holds one at any depth.
-/

namespace RecordGraph

namespace Value

mutual

/-- The plain wire form of a value. -/
def toWire : Value → Except FieldError WireValue
  | .null => .ok .null
  | .bool b => .ok (.bool b)
  | .number n =>
    match n.toWire? with
    | some w => .ok (.number w)
    | none => .error (.unrepresentable n.text)
  | .string s => .ok (.string s)
  | .list items => (itemsToWire items).map .list
  | .mapping entries => (entriesToWire entries).map .object
  | .moment m => .ok (.string m.text)
  | .decimal d => .ok (.ofFloat d.toBinary64)
  | .member _ name => .ok (.member name)
  | .source s => .error (.unrepresentable (kind (.source s)))
  | .callable h => .error (.unrepresentable (kind (.callable h)))

/-- The plain wire forms of the items of a list; the first failure counts. -/
def itemsToWire : List Value → Except FieldError (List WireValue)
  | [] => .ok []
  | item :: rest => do
    let head ← toWire item
    let tail ← itemsToWire rest
    return head :: tail

/-- The plain wire forms of the entries of a mapping; the first failure counts. -/
def entriesToWire : List (String × Value) → Except FieldError (List (String × WireValue))
  | [] => .ok []
  | (key, value) :: rest => do
    let head ← toWire value
    let tail ← entriesToWire rest
    return (key, head) :: tail

end

mutual

/-- The host form of a wire value. Enum members become strings, octets a list of integers. -/
def ofWire : WireValue → Value
  | .null => .null
  | .bool b => .bool b
  | .number n => .number (.ofWire n)
  | .string s => .string s
  | .member name => .string name
  | .list items => .list (ofWireItems items)
  | .object fields => .mapping (ofWireFields fields)
  | .binary octets => .list (octets.map fun o => int (Int64.ofNat o.toNat))

/-- The host forms of the items of a list. -/
def ofWireItems : List WireValue → List Value
  | [] => []
  | item :: rest => ofWire item :: ofWireItems rest

/-- The host forms of the fields of an object. -/
def ofWireFields : List (String × WireValue) → List (String × Value)
  | [] => []
  | (name, value) :: rest => (name, ofWire value) :: ofWireFields rest

end

/-- The host form of a JSON value. -/
def ofJson (json : Json) : Value := ofWire (WireValue.ofJson json)

end Value

end RecordGraph
