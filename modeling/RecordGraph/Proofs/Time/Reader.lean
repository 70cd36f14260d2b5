import Mathlib.Data.List.TakeWhile
import RecordGraph.Time.Reader
import RecordGraph.Proofs.Except
import RecordGraph.Proofs.Number.Digits
/-! Reading a moment field by field. A field that was written with all its digits is taken off the front of a text,
and whatever is read for a field lies within the bounds of the field. -/

namespace RecordGraph.Moment

variable {α β : Type} {x : Reader α} {f : α → Reader β} {a : α} {b : β} {text rest more digits : List Char}
  {fault : MomentFault} {least most low high n width : Nat}

/-! Readers one after the other. -/

theorem bind_of_ok (h : x text = .ok (a, rest)) : (x >>= f) text = f a rest := by
  simp only [bind, StateT.bind, h, Except.bind]

theorem bind_of_error (h : x text = .error fault) : (x >>= f) text = .error fault := by
  simp only [bind, StateT.bind, h, Except.bind]

theorem run_bind_eq_ok : (x >>= f) text = .ok (b, rest) ↔ ∃ a more, x text = .ok (a, more) ∧ f a more = .ok (b, rest) := by
  cases h : x text with
  | error fault => simp [bind_of_error h]
  | ok r =>
    rw [bind_of_ok (show x text = .ok (r.1, r.2) from h)]
    constructor
    · exact fun hb => ⟨r.1, r.2, rfl, hb⟩
    · rintro ⟨_, _, ⟨⟩, hb⟩
      exact hb

theorem get_eq (text : List Char) : (get : Reader (List Char)) text = .ok (text, text) := rfl

theorem modify_eq (g : List Char → List Char) (text : List Char) :
    (modify g : Reader Unit) text = .ok ((), g text) := rfl

theorem set_eq (text rest : List Char) : (set rest : Reader PUnit) text = .ok ((), rest) := rfl

theorem pure_eq (a : α) (text : List Char) : (pure a : Reader α) text = .ok (a, text) := rfl

/-- Whatever is read has a property. -/
def Yields (x : Reader α) (p : α → Prop) : Prop := ∀ text a rest, x text = .ok (a, rest) → p a

section Yields

variable {p : α → Prop} {q : β → Prop}

theorem yields_pure (h : p a) : Yields (pure a) p := by
  rintro text _ _ ⟨⟩
  exact h

theorem yields_throw : Yields (throw fault : Reader α) p := by
  rintro text a rest ⟨⟩

/-- What is read is read past a check. -/
theorem yields_check {c : Prop} [Decidable c] {g : Unit → Reader β} (hg : ¬ c → Yields (g ()) q) :
    Yields (if c then throw fault >>= g else g ()) q := by
  split
  · rintro text b rest ⟨⟩
  · exact hg ‹_›

theorem yields_bind (hx : Yields x p) (hf : ∀ a, p a → Yields (f a) q) : Yields (x >>= f) q := by
  intro text b rest h
  obtain ⟨a, more, ha, hb⟩ := run_bind_eq_ok.mp h
  exact hf a (hx _ _ _ ha) _ _ _ hb

/-- The property that does not say anything. -/
theorem yields_any (x : Reader α) : Yields x fun _ => True := fun _ _ _ _ => trivial

end Yields

/-! Numbers. -/

theorem takeNumber_append (hdigits : ∀ c ∈ digits, c.isDigit = true) (hmost : digits.length ≤ most)
    (hrest : digits.length = most ∨ ∀ c ∈ rest.head?, c.isDigit = false) (value : Nat) :
    takeNumber most value (digits ++ rest) = (digits.foldl (fun n c => n * 10 + (c.toNat - 48)) value, rest) := by
  induction digits generalizing most value with
  | nil =>
    cases most with
    | zero => rfl
    | succ most =>
      cases rest with
      | nil => rfl
      | cons c rest =>
        have hc : c.isDigit = false := (hrest.resolve_left (by simp)) c rfl
        simp [takeNumber, hc]
  | cons c digits ih =>
    obtain ⟨hc, hdigits⟩ := List.forall_mem_cons.mp hdigits
    obtain ⟨most, rfl⟩ : ∃ m, most = m + 1 := ⟨most - 1, by simp at hmost; omega⟩
    simp only [List.length_cons, Nat.add_le_add_iff_right, Nat.add_right_cancel_iff] at hmost hrest
    simp only [List.cons_append, takeNumber, hc, if_true, List.foldl_cons]
    exact ih hdigits hmost hrest _

/-- A number is read from its digits, if no more digits follow than are taken. -/
theorem number_append (hn : Numeral digits n) (hleast : least ≤ digits.length) (hmost : digits.length ≤ most)
    (hrest : digits.length = most ∨ ∀ c ∈ rest.head?, c.isDigit = false) (hbound : n < 0x8000000000000000) :
    number least most (digits ++ rest) = .ok (n, rest) := by
  have hcount : least ≤ ((digits ++ rest).takeWhile Char.isDigit).length := by
    rw [List.takeWhile_append_of_pos hn.isDigit, List.length_append]
    omega
  simp only [number, if_pos hcount, takeNumber_append hn.isDigit hmost hrest, hn.value, if_pos hbound]

theorem bounded_append (hn : Numeral digits n) (hleast : least ≤ digits.length) (hmost : digits.length ≤ most)
    (hrest : digits.length = most ∨ ∀ c ∈ rest.head?, c.isDigit = false) (hbound : n < 0x8000000000000000)
    (hlow : low ≤ n) (hhigh : n ≤ high) : bounded least most low high (digits ++ rest) = .ok (n, rest) := by
  rw [bounded, bind_of_ok (number_append hn hleast hmost hrest hbound), if_pos ⟨hlow, hhigh⟩]
  rfl

/-- A number is less than the power of ten that has one digit more than it took. -/
theorem takeNumber_lt (most value : Nat) (text : List Char) : (takeNumber most value text).1 <
    (value + 1) * 10 ^ min most (text.takeWhile Char.isDigit).length := by
  induction most generalizing value text with
  | zero => simp [takeNumber]
  | succ most ih =>
    cases text with
    | nil => simp [takeNumber]
    | cons c text =>
      by_cases hc : c.isDigit = true
      · have hdigit := toNat_of_isDigit hc
        simp only [takeNumber, hc, if_true, List.takeWhile_cons, List.length_cons, Nat.succ_min_succ]
        calc (takeNumber most (value * 10 + (c.toNat - 48)) text).1
            < (value * 10 + (c.toNat - 48) + 1) * 10 ^ min most (text.takeWhile Char.isDigit).length := ih _ _
          _ ≤ ((value + 1) * 10) * 10 ^ min most (text.takeWhile Char.isDigit).length :=
            Nat.mul_le_mul_right _ (by omega)
          _ = (value + 1) * 10 ^ (min most (text.takeWhile Char.isDigit).length + 1) := by
            rw [Nat.pow_succ, Nat.mul_comm (10 ^ _), Nat.mul_assoc]
      · simp [takeNumber, hc]

theorem number_eq_ok (h : number least most text = .ok (n, rest)) : n = (takeNumber most 0 text).1 := by
  simp only [number] at h
  split at h
  · split at h
    · cases h
      rfl
    · cases h
  · split at h <;> cases h

theorem yields_number (least most : Nat) : Yields (number least most) fun n => n < 10 ^ most := by
  intro text n rest h
  rw [number_eq_ok h]
  calc (takeNumber most 0 text).1 < (0 + 1) * 10 ^ min most (text.takeWhile Char.isDigit).length := takeNumber_lt _ _ _
    _ ≤ 10 ^ most := by
      rw [Nat.zero_add, Nat.one_mul]
      exact Nat.pow_le_pow_right (by decide) (Nat.min_le_left _ _)

theorem yields_bounded (least most low high : Nat) :
    Yields (bounded least most low high) fun n => low ≤ n ∧ n ≤ high := by
  refine yields_bind (yields_any _) fun n _ => ?_
  split
  · exact yields_pure ‹_›
  · exact yields_throw

/-! Signs and blanks. -/

theorem mark_cons (c : Char) (rest : List Char) : mark c (c :: rest) = .ok ((), rest) := if_pos rfl

theorem blanks_eq (h : ∀ c ∈ text.head?, Text.isBlank c = false) : blanks text = .ok ((), text) := by
  have hkept : text.dropWhile Text.isBlank = text := by
    cases text with
    | nil => rfl
    | cons c text => simp [h c rfl]
  change Except.ok ((), text.dropWhile Text.isBlank) = _
  rw [hkept]

theorem isBlank_of_isDigit {c : Char} (h : c.isDigit = true) : Text.isBlank c = false := by
  have hbounds := toNat_of_isDigit h
  simp only [Text.isBlank, Bool.or_eq_false_iff, decide_eq_false_iff_not, beq_eq_false_iff_ne]
  omega

theorem head_isDigit (hn : Numeral digits n) (hne : 0 < digits.length) :
    ∀ c ∈ (digits ++ rest).head?, c.isDigit = true := by
  cases digits with
  | nil => cases hne
  | cons d digits =>
    rintro _ ⟨⟩
    exact hn.isDigit d List.mem_cons_self

/-- A field of two digits. -/
theorem looseField_append (hn : Numeral digits n) (hlength : digits.length = 2) (hlow : low ≤ n) (hhigh : n ≤ high)
    (hbound : high < 0x8000000000000000) : looseField low high (digits ++ rest) = .ok (n, rest) := by
  have hblanks : blanks (digits ++ rest) = .ok ((), digits ++ rest) :=
    blanks_eq fun c hc => isBlank_of_isDigit (head_isDigit hn (by omega) c hc)
  rw [looseField, bind_of_ok hblanks]
  exact bounded_append hn (by omega) (by omega) (.inl hlength) (by omega) hlow hhigh

theorem yields_looseField (low high : Nat) : Yields (looseField low high) fun n => low ≤ n ∧ n ≤ high :=
  yields_bind (yields_any _) fun _ _ => yields_bounded 1 2 low high

/-! Fractions. -/

theorem fraction_append (hn : Numeral digits n) (hpos : 0 < digits.length) (hnine : digits.length ≤ 9)
    (hrest : ∀ c ∈ rest.head?, c.isDigit = false) (hbound : n < 0x8000000000000000) :
    fraction (digits ++ rest) = .ok (n * 10 ^ (9 - digits.length), rest) := by
  have hspan : (digits ++ rest).takeWhile Char.isDigit = digits ∧ rest.dropWhile Char.isDigit = rest := by
    rw [List.takeWhile_append_of_pos hn.isDigit]
    cases rest with
    | nil => simp
    | cons c rest => simp [hrest c rfl]
  have hnumber : number 1 9 (digits ++ rest) = .ok (n, rest) := number_append hn hpos hnine (.inr hrest) hbound
  rw [fraction, bind_of_ok (get_eq _), bind_of_ok hnumber, bind_of_ok (modify_eq _ _), pure_eq, hspan.1, hspan.2,
    Nat.min_eq_right hnine]
  rfl

theorem yields_fraction : Yields fraction fun n => n < 1000000000 := by
  intro text n rest h
  rw [fraction, bind_of_ok (get_eq _)] at h
  obtain ⟨k, more, hk, h⟩ := run_bind_eq_ok.mp h
  cases h
  have hlt := takeNumber_lt 9 0 text
  rw [← number_eq_ok hk, Nat.zero_add, Nat.one_mul] at hlt
  calc k * Nat.pow 10 (9 - min 9 (text.takeWhile Char.isDigit).length)
      < 10 ^ min 9 (text.takeWhile Char.isDigit).length * 10 ^ (9 - min 9 (text.takeWhile Char.isDigit).length) :=
        Nat.mul_lt_mul_of_pos_right hlt (Nat.pow_pos (by decide))
    _ = 1000000000 := by
      rw [← Nat.pow_add, Nat.add_sub_cancel' (Nat.min_le_left _ _)]

/-- Without a point nothing is read. -/
theorem optionalFraction_eq (h : ∀ c ∈ text.head?, c ≠ '.') : optionalFraction text = .ok (0, text) := by
  rw [optionalFraction, bind_of_ok (get_eq _)]
  split
  · exact absurd rfl (h '.' rfl)
  · rfl

theorem optionalFraction_point (text : List Char) : optionalFraction ('.' :: text) = fraction text := by
  rw [optionalFraction, bind_of_ok (get_eq _)]
  exact bind_of_ok (set_eq _ _)

theorem yields_optionalFraction : Yields optionalFraction fun n => n < 1000000000 := by
  refine yields_bind (yields_any _) fun text _ => ?_
  split
  · exact yields_bind (yields_any _) fun _ _ => yields_fraction
  · exact yields_pure (by decide)

/-! Offsets. -/

theorem yields_offsetSign : Yields offsetSign fun sign => sign = 1 ∨ sign = -1 := by
  intro text sign rest h
  unfold offsetSign at h
  split at h
  · cases h
  · cases h
    exact .inl rfl
  · cases h
    exact .inr rfl
  · split at h
    · cases h
      exact .inr rfl
    · cases h

/-- Hours and minutes behind a sign, as they stand in an offset. -/
def signedOffset : Reader Int := do
  let sign ← offsetSign
  let hours ← bounded 2 2 0 23
  mark ':'
  let minutes ← bounded 2 2 0 59
  return sign * (hours * 60 + minutes)

theorem yields_signedOffset : Yields signedOffset fun offset => offset.natAbs < 1440 := by
  refine yields_bind yields_offsetSign fun sign hsign => ?_
  refine yields_bind (yields_bounded _ _ _ _) fun hours hhours => ?_
  refine yields_bind (yields_any _) fun _ _ => ?_
  refine yields_bind (yields_bounded _ _ _ _) fun minutes hminutes => ?_
  apply yields_pure
  rcases hsign with rfl | rfl <;> omega

theorem yields_offsetField : Yields offsetField fun offset => offset.natAbs < 1440 := by
  refine yields_bind (yields_any _) fun text _ => ?_
  split
  · exact yields_bind (yields_any _) fun _ _ => yields_pure (by decide)
  · exact yields_bind (yields_any _) fun _ _ => yields_pure (by decide)
  · exact yields_signedOffset

theorem offsetField_append {hours minutes : List Char} {h m : Nat} {c : Char} {sign : Int}
    (hsign : c = '+' ∧ sign = 1 ∨ c = '-' ∧ sign = -1) (hhours : Numeral hours h) (hhourslength : hours.length = 2)
    (hh : h ≤ 23) (hminutes : Numeral minutes m) (hminuteslength : minutes.length = 2) (hm : m ≤ 59) :
    offsetField (c :: (hours ++ ':' :: (minutes ++ rest))) = .ok (sign * (h * 60 + m), rest) := by
  have hfield : ∀ text, offsetField (c :: text) = signedOffset (c :: text) := by
    rcases hsign with ⟨rfl, -⟩ | ⟨rfl, -⟩ <;> exact fun _ => rfl
  have hread : ∀ text, offsetSign (c :: text) = .ok (sign, text) := by
    rcases hsign with ⟨rfl, rfl⟩ | ⟨rfl, rfl⟩ <;> exact fun _ => rfl
  rw [hfield, signedOffset, bind_of_ok (hread _),
    bind_of_ok (bounded_append hhours (by omega) (by omega) (.inl hhourslength) (by omega) (by omega) hh),
    bind_of_ok (mark_cons _ _),
    bind_of_ok (bounded_append hminutes (by omega) (by omega) (.inl hminuteslength) (by omega) (by omega) hm), pure_eq]

/-! Years. -/

/-- Any number of digits behind a sign. -/
theorem looseYear_append {year : List Char} {y : Nat} {c : Char} {sign : Int}
    (hsign : c = '+' ∧ sign = 1 ∨ c = '-' ∧ sign = -1) (hyear : Numeral year y) (hpos : 0 < year.length)
    (hbound : y < 0x8000000000000000) (hrest : ∀ c ∈ rest.head?, c.isDigit = false) :
    looseYear (c :: (year ++ rest)) = .ok (sign * y, rest) := by
  have hnumber : number 1 (year ++ rest).length (year ++ rest) = .ok (y, rest) :=
    number_append hyear hpos (by simp) (.inr hrest) hbound
  rcases hsign with ⟨rfl, rfl⟩ | ⟨rfl, rfl⟩
  · rw [looseYear, bind_of_ok (blanks_eq (by rintro _ ⟨⟩; decide)), bind_of_ok (get_eq _)]
    have hcast : (number 1 (year ++ rest).length >>= fun n => pure (n : Int) : Reader Int) (year ++ rest) =
        .ok ((y : Int), rest) := bind_of_ok hnumber
    change (set (year ++ rest) >>= fun _ => _ : Reader Int) _ = _
    rw [bind_of_ok (set_eq _ _), bind_of_ok hcast, Int.one_mul]
    rfl
  · rw [looseYear, bind_of_ok (blanks_eq (by rintro _ ⟨⟩; decide)), bind_of_ok (get_eq _)]
    change (set (year ++ rest) >>= fun _ => _ : Reader Int) _ = _
    rw [bind_of_ok (set_eq _ _), bind_of_ok hnumber, pure_eq, Int.neg_one_mul]

/-! Whole moments. -/

/-- A moment that can be read: its day exists, and every field is within its bounds. -/
structure Proper (m : Moment) : Prop where
  year_ge : -262143 ≤ m.year
  year_le : m.year ≤ 262142
  month_pos : 1 ≤ m.month
  month_le : m.month ≤ 12
  day_pos : 1 ≤ m.day
  day_le : m.day ≤ daysInMonth m.year m.month
  hour_le : m.hour ≤ 23
  minute_le : m.minute ≤ 59
  second_le : m.second ≤ 60
  nanos_lt : m.nanos < 1000000000
  offset_lt : m.offset.natAbs < 1440

theorem yields_checkDay (year : Int) (month day : Nat) :
    Yields (checkDay year month day) fun _ => day ≤ daysInMonth year month := by
  intro text u rest h
  rw [checkDay] at h
  split at h
  · assumption
  · cases h

theorem yields_strict : Yields strict fun m => m.Proper ∧ 0 ≤ m.year ∧ m.year ≤ 9999 := by
  refine yields_bind (yields_number _ _) fun year hyear => ?_
  refine yields_bind (yields_any _) fun _ _ => ?_
  refine yields_bind (yields_bounded _ _ _ _) fun month hmonth => ?_
  refine yields_bind (yields_any _) fun _ _ => ?_
  refine yields_bind (yields_bounded _ _ _ _) fun day hday => ?_
  refine yields_bind (yields_any _) fun _ _ => ?_
  refine yields_bind (yields_bounded _ _ _ _) fun hour hhour => ?_
  refine yields_bind (yields_any _) fun _ _ => ?_
  refine yields_bind (yields_bounded _ _ _ _) fun minute hminute => ?_
  refine yields_bind (yields_any _) fun _ _ => ?_
  refine yields_bind (yields_bounded _ _ _ _) fun second hsecond => ?_
  refine yields_bind yields_optionalFraction fun nanos hnanos => ?_
  refine yields_bind yields_offsetField fun offset hoffset => ?_
  refine yields_bind (yields_any _) fun _ _ => ?_
  refine yields_bind (yields_checkDay _ _ _) fun _ hexists => ?_
  have hge : (0 : Int) ≤ year := Int.natCast_nonneg year
  have hle : (year : Int) ≤ 9999 := Int.ofNat_le.mpr (Nat.le_of_lt_succ hyear)
  exact yields_pure ⟨⟨Int.le_trans (by decide) hge, Int.le_trans hle (by decide), hmonth.1, hmonth.2, hday.1, hexists,
    hhour.2, hminute.2, hsecond.2, hnanos, hoffset⟩, hge, hle⟩

theorem yields_loose : Yields loose Proper := by
  refine yields_bind (yields_any _) fun year _ => ?_
  refine yields_check fun _ => ?_
  refine yields_bind (yields_any _) fun _ _ => ?_
  refine yields_bind (yields_looseField _ _) fun month hmonth => ?_
  refine yields_bind (yields_any _) fun _ _ => ?_
  refine yields_bind (yields_looseField _ _) fun day hday => ?_
  refine yields_bind (yields_any _) fun _ _ => ?_
  refine yields_bind (yields_looseField _ _) fun hour hhour => ?_
  refine yields_bind (yields_any _) fun _ _ => ?_
  refine yields_bind (yields_looseField _ _) fun minute hminute => ?_
  refine yields_bind (yields_any _) fun _ _ => ?_
  refine yields_bind (yields_looseField _ _) fun second hsecond => ?_
  refine yields_bind yields_optionalFraction fun nanos hnanos => ?_
  refine yields_bind (yields_any _) fun _ _ => ?_
  refine yields_check fun hyear => ?_
  refine yields_bind (yields_checkDay _ _ _) fun _ hexists => ?_
  obtain ⟨hge, hle⟩ : -262143 ≤ year ∧ year ≤ 262142 := by omega
  exact yields_pure ⟨hge, hle, hmonth.1, hmonth.2, hday.1, hexists, hhour.2, hminute.2, hsecond.2, hnanos,
    show (0 : Int).natAbs < 1440 by decide⟩

theorem readStrict?_eq_some {s : String} {m : Moment} :
    readStrict? s = some m ↔ ∃ rest, strict s.toList = .ok (m, rest) := by
  rw [readStrict?]
  split
  · rename_i n rest h
    simp [h]
  · rename_i fault h
    simp [h]

theorem proper_of_read {s : String} {m : Moment} (h : read s = .ok m) : m.Proper := by
  rw [read] at h
  split at h
  · rename_i n hn
    cases h
    obtain ⟨rest, hstrict⟩ := readStrict?_eq_some.mp hn
    exact (yields_strict _ _ _ hstrict).1
  · obtain ⟨r, hloose, rfl⟩ := map_eq_ok.mp h
    exact yields_loose _ _ _ hloose

end RecordGraph.Moment
