import RecordGraph.Value.Host
/-!
Equality of host values. Numbers are compared as floats whatever their form, decimals and moments by
what they denote, mappings without regard to order. Sources and callables have an identity that
values do not carry, so none equals another.
-/

namespace RecordGraph

namespace Value

mutual

/-- Whether two values are equal. -/
def same : Value → Value → Bool
  | .null, .null => true
  | .bool a, .bool b => a == b
  | .number a, .number b => a.toBinary64.sameNumber b.toBinary64
  | .string a, .string b => a == b
  | .list a, .list b => sameItems a b
  | .mapping a, .mapping b => a.length == b.length && sameEntries a b
  | .moment a, .moment b => a.sameInstant b
  | .decimal a, .decimal b => a.sameNumber b
  | .member e a, .member f b => e == f && a == b
  | _, _ => false

/-- Whether two lists have equal items in the same order. -/
def sameItems : List Value → List Value → Bool
  | [], [] => true
  | a :: as, b :: bs => same a b && sameItems as bs
  | _, _ => false

/-- Whether each entry has an equal one under the same key. -/
def sameEntries : List (String × Value) → List (String × Value) → Bool
  | [], _ => true
  | (key, a) :: rest, others =>
    (match Entries.get? others key with
      | some b => same a b
      | none => false) && sameEntries rest others

end

end Value

end RecordGraph
