import RecordGraph.Text.Base64
import RecordGraph.Proofs.Text.Octets
/-! Symbols that stand for octets are those that are written for the octets: there is one way only to write
them, because the padding is required and the last symbol carries no bits of its own. -/

namespace RecordGraph.Text.Base64

variable {o : UInt8} {n start position : Nat}

/-! Symbols. -/

theorem value_lt (h : value? o = some n) : n < 64 := by
  simp only [value?] at h
  grind

theorem symbol_of_value (h : value? o = some n) : symbol n = Char.ofNat o.toNat ∧ o.toNat < 128 := by
  revert h
  fun_cases value? o
  all_goals rintro ⟨⟩
  all_goals unfold symbol
  case case1 => exact ⟨by rw [if_pos (by omega)]; congr 1; omega, by omega⟩
  case case2 => exact ⟨by rw [if_neg (by omega), if_pos (by omega)]; congr 1; omega, by omega⟩
  case case3 =>
    exact ⟨by rw [if_neg (by omega), if_neg (by omega), if_pos (by omega)]; congr 1, by omega⟩
  case case4 h => exact ⟨by rw [show o.toNat = 43 from h]; rfl, by omega⟩
  case case5 h => exact ⟨by rw [show o.toNat = 47 from h]; rfl, by omega⟩

theorem charOctets_symbol (h : value? o = some n) : charOctets (symbol n) = [o] := by
  obtain ⟨hsymbol, hascii⟩ := symbol_of_value h
  rw [hsymbol, charOctets_one hascii]

theorem charOctets_pad : charOctets '=' = [pad] := by decide

theorem value_of_valueAt (h : valueAt position o = .ok n) : value? o = some n := by
  unfold valueAt at h
  split at h
  · case h_1 k hk =>
    cases h
    exact hk
  · cases h

/-! Groups. Four symbols carry the bits of three octets. -/

variable {p q r s : Nat}

theorem encode_three (hp : p < 64) (hq : q < 64) (hr : r < 64) (hs : s < 64) (more : List UInt8) :
    let n := ((p * 64 + q) * 64 + r) * 64 + s
    encode (UInt8.ofNat (n / 65536) :: UInt8.ofNat (n / 256) :: UInt8.ofNat n :: more) =
      symbol p :: symbol q :: symbol r :: symbol s :: encode more := by
  intro n
  have hjoin : (n / 65536 % 256 * 256 + n / 256 % 256) * 256 + n % 256 = n := by omega
  have hfirst : n / 262144 = p := by omega
  have hsecond : n / 4096 % 64 = q := by omega
  have hthird : n / 64 % 64 = r := by omega
  have hfourth : n % 64 = s := by omega
  simp only [encode, UInt8.toNat_ofNat']
  rw [show 2 ^ 8 = 256 from rfl, hjoin, hfirst, hsecond, hthird, hfourth]

theorem encode_two (hp : p < 64) (hq : q < 64) (hr : r < 64) (hlast : ((p * 64 + q) * 64 + r) % 4 = 0) :
    let n := (p * 64 + q) * 64 + r
    encode [UInt8.ofNat (n / 1024), UInt8.ofNat (n / 4)] = [symbol p, symbol q, symbol r, '='] := by
  intro n
  have hjoin : (n / 1024 % 256 * 256 + n / 4 % 256) * 4 = n := by omega
  have hfirst : n / 4096 = p := by omega
  have hsecond : n / 64 % 64 = q := by omega
  have hthird : n % 64 = r := by omega
  simp only [encode, UInt8.toNat_ofNat']
  rw [show 2 ^ 8 = 256 from rfl, hjoin, hfirst, hsecond, hthird]

theorem encode_one (hp : p < 64) (hq : q < 64) (hlast : (p * 64 + q) % 16 = 0) :
    encode [UInt8.ofNat ((p * 64 + q) / 16)] = [symbol p, symbol q, '=', '='] := by
  have hjoin : (p * 64 + q) / 16 % 256 * 16 = p * 64 + q := by omega
  have hfirst : (p * 64 + q) / 64 = p := by omega
  have hsecond : (p * 64 + q) % 64 = q := by omega
  simp only [encode, UInt8.toNat_ofNat']
  rw [show 2 ^ 8 = 256 from rfl, hjoin, hfirst, hsecond]

/-- There are more symbols than octets. -/
theorem length_lt_encode {os : List UInt8} (h : os ≠ []) : os.length < (encode os).length := by
  induction os using encode.induct with
  | case1 => exact absurd rfl h
  | case2 | case3 => simp [encode]
  | case4 a b c more ih =>
    simp only [encode, List.length_cons]
    cases more with
    | nil => simp
    | cons d more =>
      have := ih nofun
      omega

/-! The last group. -/

/-- The symbols of the last group come before its padding. -/
theorem readTail_ok {tail tail' : Tail} {group : List UInt8}
    (h : readTail start position tail group = .ok tail') : ∃ symbols values padding,
      group = symbols ++ List.replicate padding pad ∧
      List.Forall₂ (fun o n => value? o = some n) symbols values ∧
      tail' = ⟨tail.values ++ values, tail.padded + padding⟩ ∧ (0 < tail.padded → symbols = []) := by
  induction group generalizing position tail with
  | nil =>
    cases h
    exact ⟨[], [], 0, rfl, .nil, by simp, fun _ => rfl⟩
  | cons o group ih =>
    unfold readTail at h
    split at h
    case isTrue ho =>
      split at h
      case isTrue => cases h
      obtain ⟨symbols, values, padding, rfl, hvalues, rfl, hnone⟩ := ih h
      -- Only padding follows padding.
      obtain rfl := hnone (Nat.succ_pos _)
      cases hvalues
      exact ⟨[], [], padding + 1, by rw [ho]; rfl, .nil, by simp [Nat.add_right_comm, Nat.add_assoc],
        fun _ => rfl⟩
    split at h
    case isTrue => cases h
    case isFalse hpadded =>
      obtain ⟨n, hn, h⟩ := bind_eq_ok.mp h
      obtain ⟨symbols, values, padding, rfl, hvalues, rfl, -⟩ := ih h
      exact ⟨o :: symbols, n :: values, padding, rfl, .cons (value_of_valueAt hn) hvalues, by simp,
        fun hpos => absurd hpos hpadded⟩

/-- What the last group stands for is written with its symbols and its padding. -/
theorem encode_of_tailOctets {group os : List UInt8} {values : List Nat} {padding : Nat}
    (hvalues : ∀ n ∈ values, n < 64) (hlength : values.length + padding ≤ 4)
    (h : tailOctets start group ⟨values, padding⟩ = .ok os) :
    encode os = values.map symbol ++ List.replicate padding '=' := by
  -- A group of one symbol is refused, so the padding follows from the number of symbols.
  match values with
  | [] => cases h
  | [_] => cases h
  | [p, q] =>
    simp only [tailOctets, List.length_cons, List.length_nil] at h hlength
    split at h
    case isTrue => cases h
    case isFalse hfull =>
    split at h
    case isFalse => cases h
    case isTrue hlast =>
    cases h
    obtain rfl : padding = 2 := by omega
    simp only [List.forall_mem_cons] at hvalues
    exact encode_one hvalues.1 hvalues.2.1 hlast
  | [p, q, r] =>
    simp only [tailOctets, List.length_cons, List.length_nil] at h hlength
    split at h
    case isTrue => cases h
    case isFalse hfull =>
    split at h
    case isFalse => cases h
    case isTrue hlast =>
    cases h
    obtain rfl : padding = 1 := by omega
    simp only [List.forall_mem_cons] at hvalues
    exact encode_two hvalues.1 hvalues.2.1 hvalues.2.2.1 hlast
  | p :: q :: r :: s :: rest =>
    simp only [tailOctets, List.length_cons] at h hlength
    obtain rfl : padding = 0 := by omega
    obtain rfl : rest = [] := List.eq_nil_of_length_eq_zero (by omega)
    split at h
    case isTrue => cases h
    case isFalse hfull =>
    cases h
    simp only [List.forall_mem_cons] at hvalues
    exact encode_three hvalues.1 hvalues.2.1 hvalues.2.2.1 hvalues.2.2.2.1 []

theorem octets_symbols {symbols : List UInt8} {values : List Nat}
    (h : List.Forall₂ (fun o n => value? o = some n) symbols values) (padding : Nat) :
    octets (values.map symbol ++ List.replicate padding '=') = symbols ++ List.replicate padding pad := by
  induction h with
  | nil =>
    induction padding with
    | zero => rfl
    | succ padding ih =>
      rw [List.map_nil, List.nil_append] at ih ⊢
      rw [List.replicate_succ, octets_cons, charOctets_pad, ih]
      rfl
  | cons ho _ ih =>
    rw [List.map_cons, List.cons_append, octets_cons, charOctets_symbol ho, ih]
    rfl

/-- The octets of the last group are written as that group. -/
theorem octets_of_last {group os : List UInt8} (hlength : group.length ≤ 4)
    (h : (readTail start 0 ⟨[], 0⟩ group >>= tailOctets start group) = .ok os) :
    octets (encode os) = group := by
  obtain ⟨tail, htail, h⟩ := bind_eq_ok.mp h
  obtain ⟨symbols, values, padding, rfl, hvalues, rfl, -⟩ := readTail_ok htail
  rw [List.nil_append, Nat.zero_add] at h
  rw [List.length_append, List.length_replicate, hvalues.length_eq] at hlength
  have hlt : ∀ n ∈ values, n < 64 := by
    intro n hn
    obtain ⟨_, -, hvalue⟩ := exists_of_mem_right hvalues hn
    exact value_lt hvalue
  rw [encode_of_tailOctets hlt hlength h]
  exact octets_symbols hvalues padding

theorem decodeFrom_last {group : List UInt8} (h : group.length ≤ 4) :
    decodeFrom start group = readTail start 0 ⟨[], 0⟩ group >>= tailOctets start group := by
  rw [decodeFrom]
  rintro a b c d e rest rfl
  simp only [List.length_cons] at h
  omega

theorem octets_of_decodeFrom {xs os : List UInt8} (h : decodeFrom start xs = .ok os) :
    octets (encode os) = xs := by
  induction start, xs using decodeFrom.induct generalizing os with
  | case1 start a b c d e rest ih =>
    simp only [decodeFrom, bind_eq_ok] at h
    obtain ⟨p, hp, q, hq, r, hr, s, hs, more, hmore, h⟩ := h
    cases h
    have ha := value_of_valueAt hp
    have hb := value_of_valueAt hq
    have hc := value_of_valueAt hr
    have hd := value_of_valueAt hs
    rw [encode_three (value_lt ha) (value_lt hb) (value_lt hc) (value_lt hd)]
    simp only [octets_cons, charOctets_symbol ha, charOctets_symbol hb, charOctets_symbol hc,
      charOctets_symbol hd, ih hmore]
    rfl
  | case2 start group hgroup =>
    have hlength : group.length ≤ 4 := by
      match group, hgroup with
      | [], _ | [_], _ | [_, _], _ | [_, _, _], _ | [_, _, _, _], _ => simp
      | a :: b :: c :: d :: e :: rest, hgroup => exact absurd rfl (hgroup a b c d e rest)
    rw [decodeFrom_last hlength] at h
    exact octets_of_last hlength h

/-- Symbols that stand for octets are those of the octets. -/
theorem octets_encode_of_decode {xs os : List UInt8} (h : decode xs = .ok os) : octets (encode os) = xs := by
  unfold decode at h
  split at h
  · cases h
    rfl
  · obtain ⟨-, -, h⟩ := bind_eq_ok.mp h
    exact octets_of_decodeFrom h

/-! Reading what was written. -/

/-- The octet of the symbol of six bits. -/
def octetOf (n : Nat) : UInt8 := UInt8.ofNat (symbol n).toNat

theorem octetOf_spec : ∀ n < 64,
    charOctets (symbol n) = [octetOf n] ∧ value? (octetOf n) = some n ∧ octetOf n ≠ pad := by decide

theorem valueAt_octetOf (h : n < 64) (position : Nat) : valueAt position (octetOf n) = .ok n := by
  rw [valueAt, (octetOf_spec n h).2.1]

theorem readTail_octetOf (h : n < 64) (values : List Nat) (rest : List UInt8) :
    readTail start position ⟨values, 0⟩ (octetOf n :: rest) =
      readTail start (position + 1) ⟨values ++ [n], 0⟩ rest := by
  rw [readTail, if_neg (octetOf_spec n h).2.2, if_neg (Nat.lt_irrefl 0), valueAt_octetOf h]
  rfl

theorem readTail_pad (h : 2 ≤ position) (tail : Tail) (rest : List UInt8) :
    readTail start position tail (pad :: rest) =
      readTail start (position + 1) { tail with padded := tail.padded + 1 } rest := by
  rw [readTail, if_pos rfl, if_neg (Nat.not_lt.mpr h)]

variable {p q r s : Nat}

theorem octets_group_one (hp : p < 64) (hq : q < 64) :
    octets [symbol p, symbol q, '=', '='] = [octetOf p, octetOf q, pad, pad] := by
  simp only [octets_cons, (octetOf_spec p hp).1, (octetOf_spec q hq).1, charOctets_pad]
  rfl

theorem octets_group_two (hp : p < 64) (hq : q < 64) (hr : r < 64) :
    octets [symbol p, symbol q, symbol r, '='] = [octetOf p, octetOf q, octetOf r, pad] := by
  simp only [octets_cons, (octetOf_spec p hp).1, (octetOf_spec q hq).1, (octetOf_spec r hr).1, charOctets_pad]
  rfl

theorem octets_group_three (hp : p < 64) (hq : q < 64) (hr : r < 64) (hs : s < 64) (rest : List Char) :
    octets (symbol p :: symbol q :: symbol r :: symbol s :: rest) =
      octetOf p :: octetOf q :: octetOf r :: octetOf s :: octets rest := by
  simp only [octets_cons, (octetOf_spec p hp).1, (octetOf_spec q hq).1, (octetOf_spec r hr).1,
    (octetOf_spec s hs).1, List.cons_append, List.nil_append]

theorem ofNat_toNat_of_eq {o : UInt8} {k : Nat} (h : k % 256 = o.toNat) : UInt8.ofNat k = o := by
  rw [← UInt8.toNat_inj, UInt8.toNat_ofNat', h]

theorem octets_encode_one (a : UInt8) :
    octets (encode [a]) = [octetOf (a.toNat * 16 / 64), octetOf (a.toNat * 16 % 64), pad, pad] := by
  have ha := a.toNat_lt
  exact octets_group_one (by omega) (by omega)

theorem octets_encode_two (a b : UInt8) :
    let n := (a.toNat * 256 + b.toNat) * 4
    octets (encode [a, b]) = [octetOf (n / 4096), octetOf (n / 64 % 64), octetOf (n % 64), pad] := by
  have ha := a.toNat_lt
  have hb := b.toNat_lt
  exact octets_group_two (by omega) (by omega) (by omega)

theorem octets_encode_three (a b c : UInt8) (rest : List UInt8) :
    let n := (a.toNat * 256 + b.toNat) * 256 + c.toNat
    octets (encode (a :: b :: c :: rest)) = octetOf (n / 262144) :: octetOf (n / 4096 % 64) ::
      octetOf (n / 64 % 64) :: octetOf (n % 64) :: octets (encode rest) := by
  have ha := a.toNat_lt
  have hb := b.toNat_lt
  have hc := c.toNat_lt
  exact octets_group_three (by omega) (by omega) (by omega) (by omega) (encode rest)

/-- All groups have four symbols. -/
theorem length_octets_encode (os : List UInt8) : (octets (encode os)).length % 4 = 0 := by
  induction os using encode.induct with
  | case1 => rfl
  | case2 a => simp [octets_encode_one]
  | case3 a b => simp [octets_encode_two]
  | case4 a b c rest ih =>
    simp only [octets_encode_three, List.length_cons]
    omega

theorem octets_encode_ne_nil {os : List UInt8} (hos : os ≠ []) : octets (encode os) ≠ [] := by
  intro hnil
  have hlength := length_le_octets (encode os)
  have hmore := length_lt_encode hos
  rw [hnil, List.length_nil] at hlength
  omega

theorem decodeFrom_one (a : UInt8) (start : Nat) : decodeFrom start (octets (encode [a])) = .ok [a] := by
  have ha := a.toNat_lt
  have hjoin : a.toNat * 16 / 64 * 64 + a.toNat * 16 % 64 = a.toNat * 16 := by omega
  rw [octets_encode_one, decodeFrom_last (by simp)]
  refine bind_eq_ok.mpr ⟨⟨[a.toNat * 16 / 64, a.toNat * 16 % 64], 2⟩, ?_, ?_⟩
  · rw [readTail_octetOf (by omega), readTail_octetOf (by omega), readTail_pad (by omega),
      readTail_pad (by omega)]
    rfl
  · simp only [tailOctets, hjoin]
    rw [if_neg (by simp), if_pos (by omega), ofNat_toNat_of_eq (o := a) (by omega)]

theorem decodeFrom_two (a b : UInt8) (start : Nat) :
    decodeFrom start (octets (encode [a, b])) = .ok [a, b] := by
  have ha := a.toNat_lt
  have hb := b.toNat_lt
  rw [octets_encode_two, decodeFrom_last (by simp)]
  generalize hn : (a.toNat * 256 + b.toNat) * 4 = n
  have hjoin : (n / 4096 * 64 + n / 64 % 64) * 64 + n % 64 = n := by omega
  refine bind_eq_ok.mpr ⟨⟨[n / 4096, n / 64 % 64, n % 64], 1⟩, ?_, ?_⟩
  · rw [readTail_octetOf (by omega), readTail_octetOf (by omega), readTail_octetOf (by omega),
      readTail_pad (by omega)]
    rfl
  · simp only [tailOctets, hjoin]
    rw [if_neg (by simp), if_pos (by omega), ofNat_toNat_of_eq (o := a) (by omega),
      ofNat_toNat_of_eq (o := b) (by omega)]

theorem decodeFrom_three (a b c : UInt8) (start : Nat) :
    decodeFrom start (octets (encode [a, b, c])) = .ok [a, b, c] := by
  have ha := a.toNat_lt
  have hb := b.toNat_lt
  have hc := c.toNat_lt
  have hnil : octets (encode []) = [] := rfl
  rw [octets_encode_three, hnil, decodeFrom_last (by simp)]
  generalize hn : (a.toNat * 256 + b.toNat) * 256 + c.toNat = n
  have hjoin : ((n / 262144 * 64 + n / 4096 % 64) * 64 + n / 64 % 64) * 64 + n % 64 = n := by omega
  refine bind_eq_ok.mpr ⟨⟨[n / 262144, n / 4096 % 64, n / 64 % 64, n % 64], 0⟩, ?_, ?_⟩
  · rw [readTail_octetOf (by omega), readTail_octetOf (by omega), readTail_octetOf (by omega),
      readTail_octetOf (by omega)]
    rfl
  · simp only [tailOctets, hjoin]
    rw [if_neg (by simp), ofNat_toNat_of_eq (o := a) (by omega), ofNat_toNat_of_eq (o := b) (by omega),
      ofNat_toNat_of_eq (o := c) (by omega)]

theorem decodeFrom_octets_encode {os : List UInt8} (hos : os ≠ []) (start : Nat) :
    decodeFrom start (octets (encode os)) = .ok os := by
  induction os using encode.induct generalizing start with
  | case1 => exact absurd rfl hos
  | case2 a => exact decodeFrom_one a start
  | case3 a b => exact decodeFrom_two a b start
  | case4 a b c rest ih =>
    cases hrest : octets (encode rest) with
    | nil =>
      obtain rfl : rest = [] := by_contra fun hne => octets_encode_ne_nil hne hrest
      exact decodeFrom_three a b c start
    | cons o more =>
      have hne : rest ≠ [] := by
        rintro rfl
        cases hrest
      have ha := a.toNat_lt
      have hb := b.toNat_lt
      have hc := c.toNat_lt
      have hmore := ih hne (start + 4)
      rw [hrest] at hmore
      rw [octets_encode_three, hrest]
      generalize hn : (a.toNat * 256 + b.toNat) * 256 + c.toNat = n
      have hjoin : ((n / 262144 * 64 + n / 4096 % 64) * 64 + n / 64 % 64) * 64 + n % 64 = n := by omega
      rw [decodeFrom, valueAt_octetOf (by omega), valueAt_octetOf (by omega), valueAt_octetOf (by omega),
        valueAt_octetOf (by omega), hmore]
      change Except.ok _ = _
      rw [hjoin, ofNat_toNat_of_eq (o := a) (by omega), ofNat_toNat_of_eq (o := b) (by omega),
        ofNat_toNat_of_eq (o := c) (by omega)]

/-- Octets are read from the symbols that are written for them. -/
theorem decode_octets_encode (os : List UInt8) : decode (octets (encode os)) = .ok os := by
  by_cases hos : os = []
  · rw [hos]
    rfl
  have hlone : checkLone (octets (encode os)) = .ok () := by
    have hlength := length_octets_encode os
    rw [checkLone]
    split
    · exact if_neg fun h => by omega
    · rfl
  rw [decode.eq_def]
  split
  · rename_i hnil
    exact absurd hnil (octets_encode_ne_nil hos)
  · rw [hlone]
    exact decodeFrom_octets_encode hos 0

end RecordGraph.Text.Base64
