import RecordGraph.Number.FloatText
/-!
Numbers as they travel between client and server: integers from `-2^63` up to below `2^64`, and
finite floats. An integer and a float are different numbers here even when they are equal.
-/

namespace RecordGraph

/-- A number on the wire. -/
inductive WireNumber where
  | integer (value : Int) (inRange : -0x8000000000000000 ≤ value ∧ value < 0x10000000000000000)
  | float (value : Binary64) (finite : value.isFinite = true)
  deriving DecidableEq

namespace WireNumber

/-- The wire form of an integer in range. -/
def ofInt? (n : Int) : Option WireNumber :=
  if h : -0x8000000000000000 ≤ n ∧ n < 0x10000000000000000 then some (.integer n h) else none

/-- The wire form of a finite float. -/
def ofFloat? (x : Binary64) : Option WireNumber :=
  if h : x.isFinite = true then some (.float x h) else none

/-- Every signed 64-bit integer is in range. -/
def ofInt64 (n : Int64) : WireNumber :=
  .integer n.toInt ⟨n.le_toInt, Int.lt_trans n.toInt_lt (by decide)⟩

/-- Every unsigned 64-bit integer is in range. -/
def ofUInt64 (n : UInt64) : WireNumber :=
  .integer n.toNat ⟨by omega, by have := n.toNat_lt; omega⟩

/-- The integer, when it is one that fits a signed 64-bit integer. -/
def asInt64? : WireNumber → Option Int64
  | .integer n _ => if n < 0x8000000000000000 then some (Int64.ofInt n) else none
  | .float _ _ => none

/-- The number as a float; an integer is rounded. -/
def toBinary64 : WireNumber → Binary64
  | .integer n _ => .ofInt n
  | .float x _ => x

/-- JSON text. -/
def text : WireNumber → String
  | .integer n _ => toString n
  | .float x _ => x.jsonText

end WireNumber

end RecordGraph
