import Mathlib.Tactic.SplitIfs
import RecordGraph.Scalar.Codec
import RecordGraph.Proofs.Time.Reader
/-! Moments that are written and read back. The text of a moment has one format, each field at its full width, so a
year of four digits is read back with all that follows it. The sign of any other year is read only where no offset
follows, and an offset always does. -/

namespace RecordGraph

namespace Moment

variable {m : Moment} {n width low high nanos : Nat} {offset year : Int} {rest : List Char}

/-! Fields with leading zeros. -/

theorem toList_padded (width n : Nat) : (padded width n).toList =
    List.replicate (width - (Nat.toDigits 10 n).length) '0' ++ Nat.toDigits 10 n := by
  simp only [padded, zeros, String.toList_append, String.toList_ofList, Nat.toString_eq_repr, Nat.toList_repr,
    ← String.length_toList]

theorem numeral_padded (width n : Nat) : Numeral (padded width n).toList n := by
  rw [toList_padded]
  exact (numeral_toDigits n).zeros _

theorem length_padded (hwidth : 0 < width) (h : n < 10 ^ width) : (padded width n).toList.length = width := by
  have hlength : (Nat.toDigits 10 n).length ≤ width := (Nat.length_toDigits_le_iff (by decide) hwidth).mpr h
  rw [toList_padded, List.length_append, List.length_replicate]
  omega

theorem length_padded_pos (width n : Nat) : 0 < (padded width n).toList.length := by
  have hpos : 0 < (Nat.toDigits 10 n).length := List.length_pos_of_ne_nil Nat.toDigits_ne_nil
  rw [toList_padded, List.length_append]
  omega

theorem bounded_padded (hlow : low ≤ n) (hhigh : n ≤ high) (hbound : high < 100) :
    bounded 2 2 low high ((padded 2 n).toList ++ rest) = .ok (n, rest) := by
  have hlength : (padded 2 n).toList.length = 2 := length_padded (by decide) (by omega)
  exact bounded_append (numeral_padded 2 n) (by omega) (by omega) (.inl hlength) (by omega) hlow hhigh

theorem looseField_padded (hlow : low ≤ n) (hhigh : n ≤ high) (hbound : high < 100) :
    looseField low high ((padded 2 n).toList ++ rest) = .ok (n, rest) :=
  looseField_append (numeral_padded 2 n) (length_padded (by decide) (by omega)) hlow hhigh (by omega)

/-! Fractions and offsets. -/

/-- A fraction is read in nanoseconds, whatever the number of its digits. -/
theorem optionalFraction_padded (hwidth : 0 < width) (hnine : width ≤ 9) (h : n < 10 ^ width)
    (hnanos : n * 10 ^ (9 - width) = nanos) (hrest : ∀ c ∈ rest.head?, c.isDigit = false) :
    optionalFraction (("." ++ padded width n).toList ++ rest) = .ok (nanos, rest) := by
  have hlength : (padded width n).toList.length = width := length_padded hwidth h
  have hbound : n < 0x8000000000000000 :=
    calc n < 10 ^ width := h
      _ ≤ 10 ^ 9 := Nat.pow_le_pow_right (by decide) hnine
      _ < 0x8000000000000000 := by decide
  rw [String.toList_append]
  refine (optionalFraction_point ((padded width n).toList ++ rest)).trans ?_
  rw [fraction_append (numeral_padded width n) (by omega) (by omega) hrest hbound, hlength, hnanos]

theorem optionalFraction_text (h : nanos < 1000000000) (hrest : ∀ c ∈ rest.head?, c.isDigit = false ∧ c ≠ '.') :
    optionalFraction ((fractionText nanos).toList ++ rest) = .ok (nanos, rest) := by
  have hno : ∀ c ∈ rest.head?, c.isDigit = false := fun c hc => (hrest c hc).1
  rw [fractionText]
  split_ifs with hzero hmillis hmicros
  · rw [hzero]
    exact optionalFraction_eq fun c hc => (hrest c hc).2
  · exact optionalFraction_padded (by decide) (by decide) (by omega) (by omega) hno
  · exact optionalFraction_padded (by decide) (by decide) (by omega) (by omega) hno
  · exact optionalFraction_padded (by decide) (by decide) h (Nat.mul_one nanos) hno

/-- The sign of an offset. -/
theorem offsetText_sign (offset : Int) : ∃ c sign, (c = '+' ∧ sign = 1 ∨ c = '-' ∧ sign = -1) ∧
    sign * offset.natAbs = offset ∧ (offsetText offset).toList =
      c :: ((padded 2 (offset.natAbs / 60)).toList ++ ':' :: (padded 2 (offset.natAbs % 60)).toList) := by
  by_cases hneg : offset < 0
  · refine ⟨'-', -1, .inr ⟨rfl, rfl⟩, by omega, ?_⟩
    simp [offsetText, if_pos hneg]
  · refine ⟨'+', 1, .inl ⟨rfl, rfl⟩, by omega, ?_⟩
    simp [offsetText, if_neg hneg]

/-- An offset of less than a day is written as hours and minutes. -/
theorem offsetField_text (h : offset.natAbs < 1440) : offsetField (offsetText offset).toList = .ok (offset, []) := by
  obtain ⟨c, sign, hsign, hoffset, htext⟩ := offsetText_sign offset
  have hread : ∀ rest, offsetField (c :: ((padded 2 (offset.natAbs / 60)).toList ++
      ':' :: ((padded 2 (offset.natAbs % 60)).toList ++ rest))) = _ := fun rest =>
    offsetField_append hsign (numeral_padded 2 _) (length_padded (by decide) (by omega)) (by omega)
      (numeral_padded 2 _) (length_padded (by decide) (by omega)) (by omega)
  rw [htext, ← List.append_nil (padded 2 (offset.natAbs % 60)).toList, hread]
  congr 2
  calc sign * ((offset.natAbs / 60 : Nat) * 60 + (offset.natAbs % 60 : Nat) : Int)
      = sign * offset.natAbs := by congr 1; omega
    _ = offset := hoffset

/-! Years. -/

/-- A year of at most four digits has no sign. -/
theorem yearText_short (h0 : 0 ≤ year) (h : year ≤ 9999) : yearText year = padded 4 year.toNat := by
  rw [yearText, if_neg (by omega), if_neg (by omega)]
  congr 1
  omega

theorem yearText_sign (h : ¬ (0 ≤ year ∧ year ≤ 9999)) : ∃ c sign, (c = '+' ∧ sign = 1 ∨ c = '-' ∧ sign = -1) ∧
    sign * year.natAbs = year ∧ (yearText year).toList = c :: (padded 4 year.natAbs).toList := by
  by_cases hneg : year < 0
  · refine ⟨'-', -1, .inr ⟨rfl, rfl⟩, by omega, ?_⟩
    simp [yearText, if_pos hneg]
  · refine ⟨'+', 1, .inl ⟨rfl, rfl⟩, by omega, ?_⟩
    simp [yearText, if_neg hneg, show 9999 < year by omega]

/-! Whole moments. -/

theorem toList_text (m : Moment) : m.text.toList = (yearText m.year).toList ++
    '-' :: ((padded 2 m.month).toList ++ '-' :: ((padded 2 m.day).toList ++
    'T' :: ((padded 2 m.hour).toList ++ ':' :: ((padded 2 m.minute).toList ++ ':' :: ((padded 2 m.second).toList ++
      ((fractionText m.nanos).toList ++ (offsetText m.offset).toList)))))) := by
  simp [text, dateText, timeText]

/-- Neither a digit nor a point starts an offset. -/
theorem head_offsetText (offset : Int) : ∀ c ∈ (offsetText offset).toList.head?, c.isDigit = false ∧ c ≠ '.' := by
  obtain ⟨c, sign, hsign, -, htext⟩ := offsetText_sign offset
  rw [htext]
  rintro _ ⟨⟩
  rcases hsign with ⟨rfl, -⟩ | ⟨rfl, -⟩ <;> decide

theorem Proper.day_le_31 (h : m.Proper) : m.day ≤ 31 := by
  have hday := h.day_le
  unfold daysInMonth at hday
  split_ifs at hday <;> omega

/-- A moment of a year of four digits is read back as it was. -/
theorem strict_text (h : m.Proper) (h0 : 0 ≤ m.year) (h4 : m.year ≤ 9999) : strict m.text.toList = .ok (m, []) := by
  have hcast : (m.year.toNat : Int) = m.year := Int.toNat_of_nonneg h0
  have hlength : (padded 4 m.year.toNat).toList.length = 4 := length_padded (by decide) (by omega)
  have hexists : checkDay m.year.toNat m.month m.day [] = .ok ((), []) := by
    rw [hcast, checkDay, if_pos h.day_le]
    rfl
  rw [toList_text, yearText_short h0 h4, strict,
    bind_of_ok (number_append (numeral_padded 4 _) (by omega) (by omega) (.inl hlength) (by omega)),
    bind_of_ok (mark_cons _ _), bind_of_ok (bounded_padded h.month_pos h.month_le (by decide)),
    bind_of_ok (mark_cons _ _), bind_of_ok (bounded_padded h.day_pos h.day_le_31 (by decide)),
    bind_of_ok (show separator ('T' :: _) = .ok ((), _) from rfl),
    bind_of_ok (bounded_padded (Nat.zero_le _) h.hour_le (by decide)),
    bind_of_ok (mark_cons _ _), bind_of_ok (bounded_padded (Nat.zero_le _) h.minute_le (by decide)),
    bind_of_ok (mark_cons _ _), bind_of_ok (bounded_padded (Nat.zero_le _) h.second_le (by decide)),
    bind_of_ok (optionalFraction_text h.nanos_lt (head_offsetText _)), bind_of_ok (offsetField_text h.offset_lt),
    bind_of_ok (show finish [] = .ok ((), []) from rfl), bind_of_ok hexists, hcast]
  rfl

/-- The sign of a year is no digit. -/
theorem strict_sign (h : ¬ (0 ≤ m.year ∧ m.year ≤ 9999)) : ∃ fault, strict m.text.toList = .error fault := by
  obtain ⟨c, sign, hsign, -, htext⟩ := yearText_sign h
  have hno : c.isDigit = false := by
    rcases hsign with ⟨rfl, -⟩ | ⟨rfl, -⟩ <;> rfl
  have hnumber : ∀ text, ∃ fault, number 4 4 (c :: text) = .error fault := by
    intro text
    simp only [number, List.takeWhile_cons, hno]
    rw [if_neg (by simp)]
    split
    · exact ⟨_, rfl⟩
    · exact ⟨_, rfl⟩
  obtain ⟨fault, hfault⟩ := hnumber _
  refine ⟨fault, ?_⟩
  rw [toList_text, htext, strict]
  exact bind_of_error hfault

/-- Behind the sign of a year no offset is read, so the offset is left over. -/
theorem loose_sign (h : m.Proper) (hyear : ¬ (0 ≤ m.year ∧ m.year ≤ 9999)) :
    loose m.text.toList = .error .tooLong := by
  obtain ⟨c, sign, hsign, hvalue, htext⟩ := yearText_sign hyear
  obtain ⟨hlow, hhigh⟩ := And.intro h.year_ge h.year_le
  have hleft : finish (offsetText m.offset).toList = .error .tooLong := by
    obtain ⟨c, -, -, -, hoffset⟩ := offsetText_sign m.offset
    rw [hoffset]
    rfl
  rw [toList_text, htext, List.cons_append, loose,
    bind_of_ok (looseYear_append hsign (numeral_padded 4 _) (length_padded_pos 4 _) (by omega) (by rintro _ ⟨⟩; rfl)),
    hvalue]
  change (if _ then _ else _ : Reader Moment) _ = _
  rw [if_neg (by omega)]
  change (mark '-' >>= fun _ => _) _ = _
  rw [bind_of_ok (mark_cons _ _), bind_of_ok (looseField_padded h.month_pos h.month_le (by decide)),
    bind_of_ok (mark_cons _ _), bind_of_ok (looseField_padded h.day_pos h.day_le_31 (by decide)),
    bind_of_ok (mark_cons _ _), bind_of_ok (looseField_padded (Nat.zero_le _) h.hour_le (by decide)),
    bind_of_ok (mark_cons _ _), bind_of_ok (looseField_padded (Nat.zero_le _) h.minute_le (by decide)),
    bind_of_ok (mark_cons _ _), bind_of_ok (looseField_padded (Nat.zero_le _) h.second_le (by decide)),
    bind_of_ok (optionalFraction_text h.nanos_lt (head_offsetText _)), bind_of_error hleft]

/-- A moment is read back from its text if its year has four digits. -/
theorem read_text (h : m.Proper) :
    read m.text = if 0 ≤ m.year ∧ m.year ≤ 9999 then .ok m else .error .tooLong := by
  split
  · rename_i hyear
    rw [read, readStrict?_eq_some.mpr ⟨[], strict_text h hyear.1 hyear.2⟩]
  · rename_i hyear
    obtain ⟨fault, hfault⟩ := strict_sign hyear
    rw [read, readStrict?, hfault, loose_sign h hyear]
    rfl

end Moment

namespace ScalarCodec

open Moment

variable {m : Moment} {s : String} {v : Value}

/-- A moment is written as a text that is read as the same instant with the same offset. -/
def Survives (m : Moment) : Prop := ∃ text m', dateTime.serialize (.moment m) = .ok (.string text) ∧
  dateTime.parse (.string text) = .ok (.moment m') ∧ m'.sameInstant m = true ∧ m'.offset = m.offset

theorem dateTime_parse_eq_ok : dateTime.parse (.string s) = .ok v ↔ ∃ m, read s = .ok m ∧ v = .moment m := by
  simp only [dateTime]
  split
  · rename_i m hread
    simp [hread, eq_comm]
  · rename_i fault hread
    simp [hread]

theorem dateTime_parse_text (h : m.Proper) : dateTime.parse (.string m.text) =
    if 0 ≤ m.year ∧ m.year ≤ 9999 then .ok (.moment m)
    else .error (.malformed "DateTime" m.text MomentFault.tooLong.message) := by
  simp only [dateTime, read_text h]
  split_ifs <;> rfl

theorem survives_iff (h : m.Proper) : Survives m ↔ 0 ≤ m.year ∧ m.year ≤ 9999 := by
  constructor
  · rintro ⟨_, m', ⟨⟩, hparse, -⟩
    rw [dateTime_parse_text h] at hparse
    by_contra hyear
    rw [if_neg hyear] at hparse
    cases hparse
  · intro hyear
    refine ⟨m.text, m, rfl, ?_, beq_self_eq_true _, rfl⟩
    rw [dateTime_parse_text h, if_pos hyear]

/-- Every moment that is read survives if its year has four digits, so every moment that is read with an offset does.
A year with a sign is read where no offset follows, and what is written for it is refused for the offset. -/
theorem moments_survive_iff (h : dateTime.parse (.string s) = .ok v) : ∃ m, v = .moment m ∧
    (readStrict? s = some m → Survives m) ∧ (Survives m ↔ 0 ≤ m.year ∧ m.year ≤ 9999) ∧ (¬ Survives m →
      dateTime.parse (.string m.text) = .error (.malformed "DateTime" m.text MomentFault.tooLong.message)) := by
  obtain ⟨m, hread, rfl⟩ := dateTime_parse_eq_ok.mp h
  have hproper : m.Proper := proper_of_read hread
  refine ⟨m, rfl, fun hstrict => ?_, survives_iff hproper, fun hno => ?_⟩
  · obtain ⟨rest, hstrict⟩ := readStrict?_eq_some.mp hstrict
    exact (survives_iff hproper).mpr (yields_strict _ _ _ hstrict).2
  · rw [dateTime_parse_text hproper, if_neg fun hyear => hno ((survives_iff hproper).mpr hyear)]

/-- Half a second past ten, two hours ahead of universal time. -/
theorem morning_survives : ∃ v, dateTime.parse (.string "2024-05-17T10:30:15.5+02:00") = .ok v ∧
    ∃ m, v = .moment m ∧ Survives m ∧ m.nanos = 500000000 ∧ m.offset = 120 := by
  have hread : dateTime.parse (.string "2024-05-17T10:30:15.5+02:00") =
      .ok (.moment ⟨2024, 5, 17, 10, 30, 15, 500000000, 120⟩) := by rfl
  refine ⟨_, hread, ?_⟩
  obtain ⟨m, hm, -, hsurvives, -⟩ := moments_survive_iff hread
  cases hm
  exact ⟨_, rfl, hsurvives.mpr ⟨by decide, by decide⟩, rfl, rfl⟩

/-- A moment of the year 12345 is read, and what is written for it is not. -/
theorem farFuture_lost : ¬ ∀ s v, dateTime.parse (.string s) = .ok v → ∃ m, v = .moment m ∧ Survives m := by
  intro hall
  have hread : dateTime.parse (.string "+12345-05-17T10:30:15") =
      .ok (.moment ⟨12345, 5, 17, 10, 30, 15, 0, 0⟩) := by rfl
  obtain ⟨m, hm, hsurvives⟩ := hall _ _ hread
  cases hm
  have hproper : Proper ⟨12345, 5, 17, 10, 30, 15, 0, 0⟩ := by constructor <;> decide
  exact absurd ((survives_iff hproper).mp hsurvives).2 (by decide)

end ScalarCodec

end RecordGraph
