import RecordGraph.Text.Octets
import RecordGraph.Proofs.Except
/-! The octets of a text determine it, and octets that stand for a text are the octets of that text: none of
the forms that would stand for a character a second time is read. -/

namespace RecordGraph.Text

@[simp] theorem octets_cons (c : Char) (text : List Char) :
    octets (c :: text) = charOctets c ++ octets text := List.flatMap_cons

/-- A character has an octet at least. -/
theorem length_le_octets (text : List Char) : text.length ≤ (octets text).length := by
  induction text with
  | nil => exact Nat.zero_le _
  | cons c text ih =>
    have hpos : 0 < (charOctets c).length := List.length_pos_iff.mpr String.utf8EncodeChar_ne_nil
    rw [octets_cons, List.length_append, List.length_cons]
    omega

theorem octets_injective : Function.Injective octets := by
  intro text text' h
  have hbytes : text.utf8Encode = text'.utf8Encode := congrArg List.toByteArray h
  simpa only [List.utf8Decode?_utf8Encode, Option.some.injEq, Array.mk.injEq] using
    congrArg ByteArray.utf8Decode? hbytes

theorem charOctets_ofNat {n : Nat} (h : n.isValidChar) : charOctets (Char.ofNat n) =
    if n ≤ 127 then [UInt8.ofNat n]
    else if n ≤ 2047 then [UInt8.ofNat (n / 64 % 32 + 192), UInt8.ofNat (n % 64 + 128)]
    else if n ≤ 65535 then
      [UInt8.ofNat (n / 4096 % 16 + 224), UInt8.ofNat (n / 64 % 64 + 128), UInt8.ofNat (n % 64 + 128)]
    else
      [UInt8.ofNat (n / 262144 % 8 + 240), UInt8.ofNat (n / 4096 % 64 + 128),
        UInt8.ofNat (n / 64 % 64 + 128), UInt8.ofNat (n % 64 + 128)] := by
  have hn : (Char.ofNat n).val.toNat = n := by
    rw [Char.ofNat, dif_pos h]
    rfl
  rw [charOctets, String.utf8EncodeChar.eq_1, hn]

theorem ofNat_eq {n : Nat} {o : UInt8} (h : n = o.toNat) : UInt8.ofNat n = o := h ▸ UInt8.ofNat_toNat

/-! The octets that may follow a leading one. -/

theorem isTail_iff {o : UInt8} : isTail o = true ↔ 128 ≤ o.toNat ∧ o.toNat ≤ 191 := by
  simp [isTail, UInt8.le_iff_toNat_le]

/-- The range of the second octet leaves out the overlong forms, the surrogates and what lies beyond the last
code point. -/
theorem bounds_of_isSecond {lead o : UInt8} (h : isSecond lead o = true) : 128 ≤ o.toNat ∧ o.toNat ≤ 191 ∧
    (lead.toNat = 224 → 160 ≤ o.toNat) ∧ (lead.toNat = 237 → o.toNat ≤ 159) ∧
    (lead.toNat = 240 → 144 ≤ o.toNat) ∧ (lead.toNat = 244 → o.toNat ≤ 143) := by
  simp only [isSecond, Bool.and_eq_true, decide_eq_true_eq, UInt8.le_iff_toNat_le] at h
  revert h
  fun_cases secondRange lead
  all_goals
    simp only [← UInt8.toNat_inj, UInt8.reduceToNat] at *
    omega

/-! The octets of a character, one lemma for each number of them. -/

variable {a b c d : UInt8}

theorem charOctets_one (ha : a.toNat < 128) : charOctets (Char.ofNat a.toNat) = [a] := by
  rw [charOctets_ofNat (.inl (by omega)), if_pos (by omega), ofNat_eq rfl]

theorem charOctets_two (ha : 194 ≤ a.toNat ∧ a.toNat ≤ 223) (hb : isTail b = true) :
    charOctets (Char.ofNat (a.toNat % 32 * 64 + tailBits b)) = [a, b] := by
  rw [isTail_iff] at hb
  rw [tailBits, charOctets_ofNat (.inl (by omega)), if_neg (by omega), if_pos (by omega),
    ofNat_eq (o := a) (by omega), ofNat_eq (o := b) (by omega)]

theorem charOctets_three (ha : 224 ≤ a.toNat ∧ a.toNat ≤ 239) (hb : isSecond a b = true)
    (hc : isTail c = true) :
    charOctets (Char.ofNat (a.toNat % 16 * 4096 + tailBits b * 64 + tailBits c)) = [a, b, c] := by
  rw [isTail_iff] at hc
  have hb := bounds_of_isSecond hb
  -- The bounds of the second octet leave out the surrogates.
  have hvalid : (a.toNat % 16 * 4096 + b.toNat % 64 * 64 + c.toNat % 64).isValidChar := by
    rw [Nat.isValidChar]
    omega
  rw [tailBits, tailBits, charOctets_ofNat hvalid, if_neg (by omega), if_neg (by omega), if_pos (by omega),
    ofNat_eq (o := a) (by omega), ofNat_eq (o := b) (by omega), ofNat_eq (o := c) (by omega)]

theorem charOctets_four (ha : 240 ≤ a.toNat ∧ a.toNat ≤ 244) (hb : isSecond a b = true)
    (hc : isTail c = true) (hd : isTail d = true) :
    charOctets (Char.ofNat (a.toNat % 8 * 262144 + tailBits b * 4096 + tailBits c * 64 + tailBits d)) =
      [a, b, c, d] := by
  rw [isTail_iff] at hc hd
  have hb := bounds_of_isSecond hb
  have hvalid : (a.toNat % 8 * 262144 + b.toNat % 64 * 4096 + c.toNat % 64 * 64 + d.toNat % 64).isValidChar := by
    rw [Nat.isValidChar]
    omega
  rw [tailBits, tailBits, tailBits, charOctets_ofNat hvalid, if_neg (by omega), if_neg (by omega),
    if_neg (by omega), ofNat_eq (o := a) (by omega), ofNat_eq (o := b) (by omega), ofNat_eq (o := c) (by omega),
    ofNat_eq (o := d) (by omega)]

/-! Reading. -/

/-- A character that is read has the octets that are taken for it. -/
theorem takeChar_ok {index : Nat} {lead : UInt8} {rest left : List UInt8} {c : Char}
    (h : takeChar index lead rest = .ok (c, left)) : charOctets c ++ left = lead :: rest := by
  revert h
  fun_cases takeChar index lead rest
  case case1 hlead =>
    rintro ⟨⟩
    rw [charOctets_one hlead, List.singleton_append]
  case case3 hlead b rest hb =>
    rintro ⟨⟩
    rw [charOctets_two hlead hb, List.cons_append, List.singleton_append]
  case case8 hlead b hb d rest hd =>
    rintro ⟨⟩
    rw [charOctets_three hlead (by simpa using hb) hd]
    rfl
  case case15 hlead b hb d hd e rest he =>
    rintro ⟨⟩
    rw [charOctets_four hlead (by simpa using hb) (by simpa using hd) he]
    rfl
  all_goals
    intro h
    cases h

theorem takeChars_ok {fuel index : Nat} {os : List UInt8} {text : List Char} (hfuel : os.length ≤ fuel)
    (h : takeChars fuel index os = .ok text) : octets text = os := by
  induction fuel generalizing index os text with
  | zero =>
    obtain rfl := List.eq_nil_of_length_eq_zero (Nat.le_zero.mp hfuel)
    cases h
    rfl
  | succ fuel ih =>
    cases os with
    | nil =>
      cases h
      rfl
    | cons lead rest =>
      obtain ⟨⟨c, left⟩, hchar, h⟩ := bind_eq_ok.mp h
      obtain ⟨more, hmore, h⟩ := bind_eq_ok.mp h
      cases h
      have hchar : charOctets c ++ left = lead :: rest := takeChar_ok hchar
      have hlength := congrArg List.length hchar
      have hpos : 0 < (charOctets c).length := List.length_pos_iff.mpr String.utf8EncodeChar_ne_nil
      rw [List.length_append] at hlength
      rw [octets_cons, ih (by omega) hmore, hchar]

/-- Octets that stand for a text are those of the text. -/
theorem octets_of_ofOctets {os : List UInt8} {text : List Char} (h : ofOctets os = .ok text) :
    octets text = os := takeChars_ok (Nat.le_refl _) h

/-! Reading what was written. -/

variable {n : Nat} {index : Nat} {rest : List UInt8}

theorem toNat_ofNat_of_lt {n : Nat} (h : n < 256) : (UInt8.ofNat n).toNat = n := by
  rw [UInt8.toNat_ofNat', Nat.mod_eq_of_lt h]

theorem isTail_ofNat (n : Nat) : isTail (UInt8.ofNat (n % 64 + 128)) = true := by
  rw [isTail_iff, toNat_ofNat_of_lt (by omega)]
  omega

theorem tailBits_ofNat (n : Nat) : tailBits (UInt8.ofNat (n % 64 + 128)) = n % 64 := by
  rw [tailBits, toNat_ofNat_of_lt (by omega)]
  omega

theorem takeChar_one (h : n ≤ 127) : takeChar index (UInt8.ofNat n) rest = .ok (Char.ofNat n, rest) := by
  have hlead : UInt8.ofNat n < 0x80 := by
    rw [UInt8.lt_iff_toNat_lt, toNat_ofNat_of_lt (by omega)]
    exact Nat.lt_succ_of_le h
  rw [takeChar.eq_def, if_pos hlead, toNat_ofNat_of_lt (by omega)]

theorem takeChar_two (h : 128 ≤ n ∧ n ≤ 2047) : takeChar index (UInt8.ofNat (n / 64 % 32 + 192))
    (UInt8.ofNat (n % 64 + 128) :: rest) = .ok (Char.ofNat n, rest) := by
  have hlead : (UInt8.ofNat (n / 64 % 32 + 192)).toNat = n / 64 % 32 + 192 := toNat_ofNat_of_lt (by omega)
  rw [takeChar.eq_def, if_neg, if_pos]
  · simp only [isTail_ofNat, tailBits_ofNat, hlead, if_true]
    congr 3
    omega
  · simp only [UInt8.le_iff_toNat_le, hlead, UInt8.reduceToNat]
    omega
  · simp only [UInt8.lt_iff_toNat_lt, hlead, UInt8.reduceToNat]
    omega

theorem isSecond_of_bounds {lead o : UInt8} (h : 128 ≤ o.toNat ∧ o.toNat ≤ 191)
    (hlow : lead.toNat = 224 → 160 ≤ o.toNat) (hsurrogate : lead.toNat = 237 → o.toNat ≤ 159)
    (hfour : lead.toNat = 240 → 144 ≤ o.toNat) (hlast : lead.toNat = 244 → o.toNat ≤ 143) :
    isSecond lead o = true := by
  simp only [isSecond, Bool.and_eq_true, decide_eq_true_eq, UInt8.le_iff_toNat_le]
  fun_cases secondRange lead
  all_goals
    simp only [← UInt8.toNat_inj, UInt8.reduceToNat] at *
    omega

/-- The surrogates are no characters, so the second octet of a character is in the range of its first one. -/
theorem takeChar_three (h : 2048 ≤ n ∧ n ≤ 65535) (hvalid : n.isValidChar) :
    takeChar index (UInt8.ofNat (n / 4096 % 16 + 224))
      (UInt8.ofNat (n / 64 % 64 + 128) :: UInt8.ofNat (n % 64 + 128) :: rest) = .ok (Char.ofNat n, rest) := by
  have hlead : (UInt8.ofNat (n / 4096 % 16 + 224)).toNat = n / 4096 % 16 + 224 := toNat_ofNat_of_lt (by omega)
  have hsecond : (UInt8.ofNat (n / 64 % 64 + 128)).toNat = n / 64 % 64 + 128 := toNat_ofNat_of_lt (by omega)
  rw [Nat.isValidChar] at hvalid
  have hrange : isSecond (UInt8.ofNat (n / 4096 % 16 + 224)) (UInt8.ofNat (n / 64 % 64 + 128)) = true := by
    apply isSecond_of_bounds <;> omega
  rw [takeChar.eq_def, if_neg, if_neg, if_pos]
  · simp only [hrange, isTail_ofNat, tailBits_ofNat, hlead, if_true, Bool.not_true, Bool.false_eq_true, if_false]
    congr 3
    omega
  all_goals
    simp only [UInt8.le_iff_toNat_le, UInt8.lt_iff_toNat_lt, hlead, UInt8.reduceToNat]
    omega

theorem takeChar_four (h : 65536 ≤ n ∧ n ≤ 1114111) :
    takeChar index (UInt8.ofNat (n / 262144 % 8 + 240)) (UInt8.ofNat (n / 4096 % 64 + 128) ::
      UInt8.ofNat (n / 64 % 64 + 128) :: UInt8.ofNat (n % 64 + 128) :: rest) = .ok (Char.ofNat n, rest) := by
  have hlead : (UInt8.ofNat (n / 262144 % 8 + 240)).toNat = n / 262144 % 8 + 240 := toNat_ofNat_of_lt (by omega)
  have hsecond : (UInt8.ofNat (n / 4096 % 64 + 128)).toNat = n / 4096 % 64 + 128 := toNat_ofNat_of_lt (by omega)
  have hrange : isSecond (UInt8.ofNat (n / 262144 % 8 + 240)) (UInt8.ofNat (n / 4096 % 64 + 128)) = true := by
    apply isSecond_of_bounds <;> omega
  rw [takeChar.eq_def, if_neg, if_neg, if_neg, if_pos]
  · simp only [hrange, isTail_ofNat, tailBits_ofNat, hlead, if_true, Bool.not_true, Bool.false_eq_true, if_false]
    congr 3
    omega
  all_goals
    simp only [UInt8.le_iff_toNat_le, UInt8.lt_iff_toNat_lt, hlead, UInt8.reduceToNat]
    omega

/-- A character is read from its octets. -/
theorem takeChar_charOctets (c : Char) (index : Nat) (rest : List UInt8) : ∃ lead tail,
    charOctets c = lead :: tail ∧ takeChar index lead (tail ++ rest) = .ok (c, rest) := by
  have hvalid : c.toNat.isValidChar := c.valid
  have hlt : c.toNat ≤ 1114111 := by
    rw [Nat.isValidChar] at hvalid
    omega
  have hc : Char.ofNat c.toNat = c := Char.ofNat_toNat c
  have hoctets := charOctets_ofNat hvalid
  rw [hc] at hoctets
  rw [hoctets]
  split
  · case isTrue h => exact ⟨_, [], rfl, (takeChar_one h).trans (by rw [hc]; rfl)⟩
  split
  · case isTrue h => exact ⟨_, [_], rfl, (takeChar_two (by omega)).trans (by rw [hc]; rfl)⟩
  split
  · case isTrue h => exact ⟨_, [_, _], rfl, (takeChar_three (by omega) hvalid).trans (by rw [hc]; rfl)⟩
  · exact ⟨_, [_, _, _], rfl, (takeChar_four (by omega)).trans (by rw [hc]; rfl)⟩

theorem takeChars_octets {fuel : Nat} {text : List Char} (hfuel : (octets text).length ≤ fuel) (index : Nat) :
    takeChars fuel index (octets text) = .ok text := by
  induction text generalizing fuel index with
  | nil => cases fuel <;> rfl
  | cons c text ih =>
    obtain ⟨lead, tail, hc, htake⟩ := takeChar_charOctets c index (octets text)
    rw [octets_cons, hc, List.cons_append] at hfuel ⊢
    rw [List.length_cons, List.length_append] at hfuel
    obtain ⟨fuel, rfl⟩ : ∃ k, fuel = k + 1 := ⟨fuel - 1, by omega⟩
    rw [takeChars, htake]
    change (takeChars fuel _ (octets text) >>= fun more => pure (c :: more)) = _
    rw [ih (by omega)]
    rfl

/-- The octets of a text stand for the text. -/
theorem ofOctets_octets (text : List Char) : ofOctets (octets text) = .ok text :=
  takeChars_octets (Nat.le_refl _) 0

end RecordGraph.Text
