import Mathlib.Algebra.Order.Group.Nat
import RecordGraph.Number.Binary64
/-! Words and the numbers that they denote. A word is read back from its parts, and two finite words compare equal
exactly if they denote the same number. -/

namespace RecordGraph.Binary64

variable {x y : Binary64} {k : Int}

/-- How many units one is. -/
def one : Nat := 1 <<< 1074

theorem one_pos : 0 < one := Nat.lt_of_lt_of_le Nat.zero_lt_one Nat.le_shiftLeft

/-- A finite word denotes an integer. -/
def Denotes (x : Binary64) (k : Int) : Prop := x.isFinite = true ∧ x.scaled = k * one

/-! Words and their parts. -/

theorem word_ofParts {negative : Bool} {n : Nat} (h : n < 0x8000000000000000) :
    (ofParts negative n).word = (if negative then 0x8000000000000000 else 0) + n := by
  rw [word, ofParts, UInt64.toNat_ofNat']
  split <;> omega

theorem negative_ofParts {negative : Bool} {n : Nat} (h : n < 0x8000000000000000) :
    (ofParts negative n).negative = negative := by
  rw [Binary64.negative, word_ofParts h]
  cases negative with
  | false => simp; omega
  | true => simp

theorem field_ofParts {negative : Bool} {n : Nat} (h : n < 0x8000000000000000) :
    (ofParts negative n).field = n / 0x10000000000000 := by
  rw [field, word_ofParts h]
  split <;> omega

theorem fraction_ofParts {negative : Bool} {n : Nat} (h : n < 0x8000000000000000) :
    (ofParts negative n).fraction = n % 0x10000000000000 := by
  rw [fraction, word_ofParts h]
  split <;> omega

/-- What lies below the word of infinity has another exponent than a NaN. -/
theorem isFinite_ofParts {negative : Bool} {n : Nat} (h : n < 0x7ff0000000000000) :
    (ofParts negative n).isFinite = true := by
  rw [isFinite, field_ofParts (by omega), bne_iff_ne]
  omega

theorem isNaN_of_isFinite (h : x.isFinite = true) : x.isNaN = false := by
  rw [isNaN, beq_eq_false_iff_ne.mpr (bne_iff_ne.mp h), Bool.false_and]

/-- Rounding a ratio stops at infinity. -/
theorem isNaN_ofRatio (negative : Bool) (num den : Nat) : (ofRatio negative num den).isNaN = false := by
  unfold ofRatio
  extract_lets units lift rounded
  split
  · exact isNaN_of_isFinite (isFinite_ofParts ‹_›)
  · cases negative <;> decide

theorem sameNumber_self (h : x.isNaN = false) : x.sameNumber x = true := by
  simp [sameNumber, h]

/-! The magnitude of a word grows with its field and, under one field, with its fraction. -/

theorem natAbs_scaled (x : Binary64) : x.scaled.natAbs = x.magnitude := by
  rw [scaled]
  split <;> simp

end RecordGraph.Binary64
