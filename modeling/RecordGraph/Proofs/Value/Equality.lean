import RecordGraph.Value.Same
import RecordGraph.Proofs.Dictionary
import RecordGraph.Proofs.Number.Rounding
/-! Equality around a place. Two values that differ at one place only are equal exactly if what stands around the
place equals itself and what stands there is equal. Integers are compared by the floats nearest to them, so two of
them are told apart at every place unless these are the same. -/

namespace RecordGraph

/-- A place in a value: the value itself, or a place in an item of a list or under a key of a mapping. -/
inductive Place where
  | top
  | item (before : List Value) (inner : Place) (behind : List Value)
  | entry (before : List (String × Value)) (key : String) (inner : Place) (behind : List (String × Value))
      (distinct : (before.map Prod.fst ++ key :: behind.map Prod.fst).Nodup)

namespace Place

/-- The value with another one at a place. -/
def fill : Place → Value → Value
  | top, v => v
  | item before inner behind, v => .list (before ++ inner.fill v :: behind)
  | entry before key inner behind _, v => .mapping (before ++ (key, inner.fill v) :: behind)

end Place

namespace Value

variable {v w : Value} {before behind : List Value} {entries others : List (String × Value)}

end Value

namespace HostNumber

variable {m n : HostNumber} {a b : Int}

/-- The forms of a number that hold an integer of 64 bits, with or without a sign. -/
def Holds : HostNumber → Int → Prop
  | .signed n, k => n.toInt = k
  | .unsigned n, k => n.toNat = k
  | .float _, _ => False

theorem Holds.natAbs_lt (h : n.Holds a) : a.natAbs < 0x10000000000000000 := by
  cases n with
  | signed k =>
    have hlow := k.le_toInt
    have hhigh := k.toInt_lt
    cases h
    omega
  | unsigned k =>
    have hlt := k.toNat_lt
    cases h
    omega
  | float x => exact h.elim

/-- An integer is compared by the float nearest to it. -/
theorem Holds.denotes (h : n.Holds a) : n.toBinary64.Denotes (Binary64.nearest a) := by
  have hsize : Nat.log2 a.natAbs < 1000 := by
    by_cases hzero : a.natAbs = 0
    · rw [hzero]
      decide
    · have := (Nat.log2_lt (k := 64) hzero).mpr h.natAbs_lt
      omega
  have hfloat : n.toBinary64 = .ofInt a := by
    cases n with
    | signed k => rw [toBinary64, show k.toInt = a from h]
    | unsigned k => rw [toBinary64, show (k.toNat : Int) = a from h]
    | float x => exact h.elim
  rw [hfloat]
  exact Binary64.denotes_ofInt hsize

end HostNumber

end RecordGraph
