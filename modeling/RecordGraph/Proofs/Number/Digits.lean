import Mathlib.Algebra.Order.Group.Nat
import RecordGraph.Number.FloatText
/-! Digits of natural numbers. The decimal digits of a number are read back as the number, also behind zeros. -/

namespace RecordGraph

variable {n m : Nat} {digits more : List Char}

theorem foldl_toDigits (n : Nat) :
    (Nat.toDigits 10 n).foldl (fun n c => n * 10 + (c.toNat - 48)) 0 = n := by
  have hread : (Nat.toDigits 10 n).foldl (fun n c => 10 * n + (c.toNat - 48)) 0 = n :=
    Nat.ofDigitChars_eq_foldl.symm.trans Nat.ofDigitChars_ten_toDigits
  simpa only [Nat.mul_comm] using hread

/-- Digits that are read as a number. -/
structure Numeral (digits : List Char) (n : Nat) : Prop where
  isDigit : ∀ c ∈ digits, c.isDigit = true
  value : digits.foldl (fun n c => n * 10 + (c.toNat - 48)) 0 = n

theorem numeral_toDigits (n : Nat) : Numeral (Nat.toDigits 10 n) n :=
  ⟨fun _ hc => Nat.isDigit_of_mem_toDigits (by decide) (by decide) hc, foldl_toDigits n⟩

theorem Numeral.zeros (h : Numeral digits n) (count : Nat) : Numeral (List.replicate count '0' ++ digits) n := by
  induction count with
  | zero => exact h
  | succ count ih =>
    refine ⟨fun c hc => ?_, ih.value⟩
    rcases List.mem_cons.mp hc with rfl | hc
    · rfl
    · exact ih.isDigit c hc

theorem toNat_of_isDigit {c : Char} (h : c.isDigit = true) : 48 ≤ c.toNat ∧ c.toNat ≤ 57 := Char.isDigit_iff_toNat.mp h

end RecordGraph
