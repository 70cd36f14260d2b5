import RecordGraph.Resolve.Arguments
import RecordGraph.Scalar.Codec
import RecordGraph.Proofs.Number.Binary64
/-! Integers read out of numbers. An integer of 64 bits is read as itself from every form that denotes it, and nothing
is read where none is denoted. Only floats beyond the range are read as an integer that they do not denote, the
bound that is next to them. -/

namespace RecordGraph

/-- An integer fits 64 bits with a sign. -/
def Fits (k : Int) : Prop := -0x8000000000000000 ≤ k ∧ k < 0x8000000000000000

theorem fits_toInt (k : Int64) : Fits k.toInt := ⟨k.le_toInt, k.toInt_lt⟩

namespace Binary64

variable {x : Binary64} {k : Int}

theorem truncate_of_denotes (h : x.Denotes k) : x.truncate = k := by
  have hone : (one : Int) ≠ 0 := Int.natCast_ne_zero.mpr one_pos.ne'
  change x.scaled.tdiv one = k
  rw [h.2]
  exact Int.mul_tdiv_cancel k hone

theorem isIntegral_iff : x.isIntegral = true ↔ ∃ k, x.Denotes k := by
  have hintegral : x.isIntegral = true ↔ x.isFinite = true ∧ one ∣ x.magnitude := by
    rw [isIntegral, Bool.and_eq_true, beq_iff_eq, Nat.dvd_iff_mod_eq_zero]
    rfl
  rw [hintegral, ← natAbs_scaled, ← Int.ofNat_dvd_left]
  constructor
  · rintro ⟨hfinite, k, hk⟩
    exact ⟨k, hfinite, hk.trans (Int.mul_comm ..)⟩
  · rintro ⟨k, hfinite, hk⟩
    exact ⟨hfinite, k, hk.trans (Int.mul_comm ..)⟩

theorem toInt_toInt64Clamped (h : x.Denotes k) :
    x.toInt64Clamped.toInt = max (-0x8000000000000000) (min 0x7fffffffffffffff k) := by
  rw [toInt64Clamped, truncate_of_denotes h]
  apply Int64.toInt_ofInt_of_le
  · exact Int.le_max_left ..
  · change max (-0x8000000000000000) (min 0x7fffffffffffffff k) < 0x8000000000000000
    omega

end Binary64

namespace HostNumber

variable {n : HostNumber} {x : Binary64} {i j : Int} {k : Int64}

/-- The integer that a number denotes, whatever its form. -/
def Denotes : HostNumber → Int → Prop
  | .signed n, k => n.toInt = k
  | .unsigned n, k => n.toNat = k
  | .float x, k => x.Denotes k

theorem Denotes.unique (hi : n.Denotes i) (hj : n.Denotes j) : i = j := by
  cases n with
  | signed m => exact hi.symm.trans hj
  | unsigned m => exact hi.symm.trans hj
  | float x => rw [← Binary64.truncate_of_denotes hi, Binary64.truncate_of_denotes hj]

/-- A float that denotes an integer of more than 64 bits. -/
def Clamped (n : HostNumber) : Prop := ∃ x k, n = .float x ∧ x.Denotes k ∧ ¬ Fits k

/-- Whoever reads an integer out of a number gets the one that it denotes, and no other; where it denotes none of
64 bits, nothing is read. -/
structure Exact (n : HostNumber) : Prop where
  read : ∀ k : Int64, n.asInt64? = some k ↔ n.Denotes k.toInt
  written : ∀ w, ScalarCodec.int.serialize (.number n) = .ok w ↔
    ∃ k : Int64, w = .number (.ofInt64 k) ∧ n.Denotes k.toInt
  given : ∀ (a : Arguments) name, Entries.get? a name = some (.number n) →
    ∀ k : Int64, a.int? name = some k ↔ n.Denotes k.toInt

/-- A float is read as the integer of 64 bits that is next to the one it denotes. -/
theorem asInt64?_float : (HostNumber.float x).asInt64? = some k ↔
    ∃ i, x.Denotes i ∧ k.toInt = max (-0x8000000000000000) (min 0x7fffffffffffffff i) := by
  rw [asInt64?, Option.ite_none_right_eq_some, Binary64.isIntegral_iff, Option.some_inj]
  constructor
  · rintro ⟨⟨i, hi⟩, rfl⟩
    exact ⟨i, hi, Binary64.toInt_toInt64Clamped hi⟩
  · rintro ⟨i, hi, hk⟩
    exact ⟨⟨i, hi⟩, Int64.toInt_inj.mp ((Binary64.toInt_toInt64Clamped hi).trans hk.symm)⟩

theorem asInt64?_eq_some (h : ¬ n.Clamped) : n.asInt64? = some k ↔ n.Denotes k.toInt := by
  have hfits := fits_toInt k
  unfold Fits at hfits
  cases n with
  | signed m => simp only [asInt64?, Option.some_inj, Denotes, Int64.toInt_inj]
  | unsigned m =>
    simp only [asInt64?, Option.ite_none_right_eq_some, Option.some_inj, Denotes]
    constructor
    · rintro ⟨hm, rfl⟩
      exact (Int64.toInt_ofInt_of_le (by omega) (by omega)).symm
    · intro hk
      refine ⟨by omega, Int64.toInt_inj.mp ?_⟩
      exact (Int64.toInt_ofInt_of_le (by omega) (by omega)).trans hk
  | float x =>
    rw [asInt64?_float]
    constructor
    · rintro ⟨i, hi, hk⟩
      have hin : Fits i := Classical.byContradiction fun hout => h ⟨x, i, rfl, hi, hout⟩
      unfold Fits at hin
      obtain rfl : k.toInt = i := by omega
      exact hi
    · intro hk
      exact ⟨k.toInt, hk, by omega⟩

/-- The codec and the arguments of a field read integers alike. -/
theorem exact_of_read (h : ∀ k : Int64, n.asInt64? = some k ↔ n.Denotes k.toInt) : n.Exact := by
  refine ⟨h, fun w => ?_, fun a name hget k => ?_⟩
  · simp only [ScalarCodec.int, Value.asInt64?, ← h]
    cases n.asInt64? with
    | none => simp [ScalarCodec.refuse]
    | some k => simp [eq_comm]
  · simp only [Arguments.int?, Arguments.get?, hget, Option.filter_some, Value.isNull, Bool.not_false, if_true,
      Option.bind_some, Value.asInt64?, h]

/-- No value but a number is read as an integer. -/
theorem number_of_serialize_int {v : Value} {w : WireValue} (h : ScalarCodec.int.serialize v = .ok w) :
    ∃ n, v = .number n := by
  cases v with
  | number n => exact ⟨n, rfl⟩
  | _ => cases h

theorem number_of_int? {a : Arguments} {name : String} (h : a.int? name = some k) :
    ∃ n, Entries.get? a name = some (.number n) := by
  obtain ⟨v, hv, hk⟩ := Option.bind_eq_some_iff.mp h
  have hget : Entries.get? a name = some v := (Option.filter_eq_some_iff.mp hv).1
  cases v with
  | number n => exact ⟨n, hget⟩
  | _ => cases hk

/-- Integers are read exactly, except out of floats beyond the range of 64 bits. -/
theorem integers_exact_iff (n : HostNumber) : n.Exact ↔ ¬ n.Clamped := by
  constructor
  · rintro hexact ⟨x, i, rfl, hi, hout⟩
    -- What is read fits, what is denoted does not.
    obtain ⟨k, hk⟩ : ∃ k, (HostNumber.float x).asInt64? = some k :=
      ⟨x.toInt64Clamped, asInt64?_float.mpr ⟨i, hi, Binary64.toInt_toInt64Clamped hi⟩⟩
    have heq : k.toInt = i := Denotes.unique ((hexact.read k).mp hk) hi
    exact hout (heq ▸ fits_toInt k)
  · exact fun h => exact_of_read fun k => asInt64?_eq_some h

/-- Three as a float is read as the integer three. -/
theorem threeFloat_exact : (HostNumber.float ⟨0x4008000000000000⟩).Exact ∧
    (HostNumber.float ⟨0x4008000000000000⟩).asInt64? = some 3 := by
  have hdenotes : (HostNumber.float ⟨0x4008000000000000⟩).Denotes 3 := ⟨by decide +kernel, by decide +kernel⟩
  have hexact : (HostNumber.float ⟨0x4008000000000000⟩).Exact := by
    apply (integers_exact_iff _).mpr
    rintro ⟨x, i, hx, hi, hout⟩
    have hthree : i = 3 := Denotes.unique (hx ▸ hi : (HostNumber.float _).Denotes i) hdenotes
    exact hout (hthree ▸ ⟨by decide, by decide⟩)
  exact ⟨hexact, (hexact.read 3).mpr hdenotes⟩

/-- Two to the power of sixty-three, as a float. -/
def beyondInt64 : HostNumber := .float ⟨0x43e0000000000000⟩

/-- It is written as the greatest integer of 64 bits, which is less by one. -/
theorem beyondInt64_clamped : beyondInt64.Denotes 0x8000000000000000 ∧
    ScalarCodec.int.serialize (.number beyondInt64) = .ok (.number (.ofInt64 0x7fffffffffffffff)) ∧
    ¬ beyondInt64.Exact := by
  have hdenotes : beyondInt64.Denotes 0x8000000000000000 := ⟨by decide +kernel, by decide +kernel⟩
  refine ⟨hdenotes, rfl, fun hexact => ?_⟩
  have hread := (hexact.read 0x7fffffffffffffff).mp rfl
  exact absurd (Denotes.unique hread hdenotes) (by decide)

end HostNumber

end RecordGraph
