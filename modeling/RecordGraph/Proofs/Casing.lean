import RecordGraph.Casing
/-! Camel case and back. A wire name consists of letters and digits and does not start with a capital, and the
names of this shape are the ones that come back when they are turned into host names and then into wire names. The
host names that they are turned into are those in which a letter stands behind every underscore, so these are the
host names that come back from the wire. -/

namespace RecordGraph

namespace Text

variable {c : Char}

/-! Characters below code point 128. -/

theorem of_forall_ascii {P : Char → Prop} (h : ∀ n < 128, P (Char.ofNat n)) (hc : c.toNat < 128) : P c :=
  Char.ofNat_toNat c ▸ h c.toNat hc

/-- A property of some characters is checked one by one. -/
theorem forall_mem_of_all {P : Char → Prop} [DecidablePred P] {chars : List Char}
    (h : chars.all (fun c => decide (P c)) = true) : ∀ c ∈ chars, P c := fun c hc =>
  of_decide_eq_true (List.all_eq_true.mp h c hc)

theorem ascii_of_isAlphanum (h : c.isAlphanum = true) : c.toNat < 128 := by
  delta Char.isAlphanum Char.isAlpha Char.isUpper Char.isLower Char.isDigit at h
  simp only [Bool.or_eq_true, Bool.and_eq_true, decide_eq_true_eq, UInt32.le_iff_toNat_le, ge_iff_le] at h
  change ((65 ≤ c.toNat ∧ c.toNat ≤ 90) ∨ (97 ≤ c.toNat ∧ c.toNat ≤ 122)) ∨ (48 ≤ c.toNat ∧ c.toNat ≤ 57) at h
  omega

theorem isAlphanumeric_ascii (hc : c.toNat < 128) : isAlphanumeric c = c.isAlphanum := if_pos hc

theorem isUpper_ascii (hc : c.toNat < 128) : isUpper c = c.isUpper := if_pos hc

theorem lowercase_ascii (hc : c.toNat < 128) : lowercase c = [c.toLower] := if_pos hc

theorem uppercase_ascii (hc : c.toNat < 128) : uppercase c = [c.toUpper] := if_pos hc

theorem not_isUpper_toLower (hc : c.toNat < 128) : c.toLower.isUpper = false :=
  of_forall_ascii (P := fun c => c.toLower.isUpper = false) (by decide) hc

theorem toLower_of_not_isUpper (h : c.isUpper = false) (hc : c.toNat < 128) : c.toLower = c :=
  of_forall_ascii (P := fun c => c.isUpper = false → c.toLower = c) (by decide) hc h

theorem isAlphanum_toLower (h : c.isAlphanum = true) : c.toLower.isAlphanum = true :=
  of_forall_ascii (P := fun c => c.isAlphanum = true → c.toLower.isAlphanum = true) (by decide)
    (ascii_of_isAlphanum h) h

theorem isAlphanum_toUpper (h : c.isAlphanum = true) : c.toUpper.isAlphanum = true :=
  of_forall_ascii (P := fun c => c.isAlphanum = true → c.toUpper.isAlphanum = true) (by decide)
    (ascii_of_isAlphanum h) h

/-- A capital is the capital of its small letter. -/
theorem small_of_isUpper (h : c.isUpper = true) (hc : c.toNat < 128) :
    c.toLower.isLower = true ∧ c.toLower.toUpper = c :=
  of_forall_ascii (P := fun c => c.isUpper = true → c.toLower.isLower = true ∧ c.toLower.toUpper = c)
    (by decide) hc h

theorem isAlphanum_of_isLower (h : c.isLower = true) : c.isAlphanum = true := by
  change (c.isUpper || c.isLower || c.isDigit) = true
  rw [h, Bool.or_true, Bool.true_or]

theorem isAlphanum_of_isDigit (h : c.isDigit = true) : c.isAlphanum = true := by
  change (c.isAlpha || c.isDigit) = true
  rw [h, Bool.or_true]

/-- A small letter is the small letter of its capital. -/
theorem capital_of_isLower (h : c.isLower = true) :
    c.toUpper.isUpper = true ∧ c.toUpper.isAlphanum = true ∧ c.toUpper.toLower = c :=
  of_forall_ascii (P := fun c => c.isLower = true →
    c.toUpper.isUpper = true ∧ c.toUpper.isAlphanum = true ∧ c.toUpper.toLower = c)
    (by decide) (ascii_of_isAlphanum (isAlphanum_of_isLower h)) h

theorem not_isLower_of_isDigit (h : c.isDigit = true) : c.isLower = false :=
  of_forall_ascii (P := fun c => c.isDigit = true → c.isLower = false) (by decide)
    (ascii_of_isAlphanum (isAlphanum_of_isDigit h)) h

end Text

namespace Casing

/-! The words of a name. -/

section
variable {c : Char} {piece rest name word : List Char} {run : Run}

/-- A letter or digit without a capital. -/
def IsSmall (c : Char) : Prop := c.isAlphanum = true ∧ c.isUpper = false

theorem isSmall_toLower (h : c.isAlphanum = true) : IsSmall c.toLower :=
  ⟨Text.isAlphanum_toLower h, Text.not_isUpper_toLower (Text.ascii_of_isAlphanum h)⟩

theorem pieces_underscore : pieces piece ('_' :: rest) = piece :: pieces [] rest := if_neg (by decide)

theorem pieces_alphanum (h : c.isAlphanum = true) : pieces piece (c :: rest) = pieces (piece ++ [c]) rest :=
  if_pos ((Text.isAlphanumeric_ascii (Text.ascii_of_isAlphanum h)).trans h)

/-- Words are cut at capitals only. -/
theorem cutPiece_small (h : ∀ c ∈ piece, IsSmall c) (hne : piece ≠ []) :
    cutPiece run word piece = [word ++ piece] := by
  induction piece generalizing run word with
  | nil => exact absurd rfl hne
  | cons c piece ih =>
    cases piece with
    | nil => rfl
    | cons d piece =>
      have hupper {e : Char} (he : e ∈ c :: d :: piece) : Text.isUpper e = false :=
        (Text.isUpper_ascii (Text.ascii_of_isAlphanum (h e he).1)).trans (h e he).2
      have hd : Text.isUpper d = false := hupper (by simp)
      have hc : Text.isUpper c = false := hupper (by simp)
      rw [cutPiece, if_neg (by simp [hd]), if_neg (by simp [hc]),
        ih (fun e he => h e (List.mem_cons_of_mem _ he)) (List.cons_ne_nil _ _), List.append_assoc,
        List.singleton_append]

/-! Words as they are written. -/

theorem lowerWord_ascii (h : ∀ c ∈ word, c.toNat < 128) : lowerWord word = word.map Char.toLower := by
  induction word with
  | nil => rfl
  | cons c word ih =>
    have hc : c.toNat < 128 := h c List.mem_cons_self
    cases word with
    | nil =>
      rw [lowerWord, if_neg (by omega), Text.lowercase_ascii hc]
      rfl
    | cons d word =>
      rw [lowerWord, Text.lowercase_ascii hc, ih fun e he => h e (List.mem_cons_of_mem _ he)]
      · rfl
      · exact List.cons_ne_nil _ _

theorem lowerWord_small (h : ∀ c ∈ word, IsSmall c) : lowerWord word = word := by
  have hascii : ∀ c ∈ word, c.toNat < 128 := fun c hc => Text.ascii_of_isAlphanum (h c hc).1
  rw [lowerWord_ascii hascii, List.map_congr_left fun c hc => Text.toLower_of_not_isUpper (h c hc).2 (hascii c hc),
    List.map_id']

/-- A word that starts with the small letter of a capital is written with the capital. -/
theorem capitalWord_toLower (hc : c.isAlphanum = true) (hupper : c.isUpper = true) (hword : ∀ c ∈ word, IsSmall c) :
    capitalWord (c.toLower :: word) = c :: word := by
  have hcapital : c.toLower.toUpper = c := (Text.small_of_isUpper hupper (Text.ascii_of_isAlphanum hc)).2
  rw [capitalWord, Text.uppercase_ascii (Text.ascii_of_isAlphanum (Text.isAlphanum_toLower hc)), hcapital,
    lowerWord_small hword, List.singleton_append]

/-! Host names that were wire names. -/

theorem snakeChar_capital (hc : c.isAlphanum = true) (hupper : c.isUpper = true) :
    snakeChar c = ['_', c.toLower] := by
  have hascii := Text.ascii_of_isAlphanum hc
  rw [snakeChar, if_pos ((Text.isUpper_ascii hascii).trans hupper), Text.lowercase_ascii hascii]

theorem snakeChar_small (h : IsSmall c) : snakeChar c = [c] :=
  if_neg (by rw [Text.isUpper_ascii (Text.ascii_of_isAlphanum h.1), h.2]; decide)

/-- Each capital of a wire name starts a word of the host name. `piece` is what was read of the first word, `tail`
what is still to come of it. -/
theorem words_of_snake (hpiece : ∀ c ∈ piece, IsSmall c) (hne : piece ≠ [])
    (hrest : ∀ c ∈ rest, c.isAlphanum = true) : ∃ tail more,
      (pieces piece (rest.flatMap snakeChar)).flatMap (cutPiece .start []) = (piece ++ tail) :: more ∧
        (∀ c ∈ tail, IsSmall c) ∧ tail ++ more.flatMap capitalWord = rest := by
  induction rest generalizing piece with
  | nil => exact ⟨[], [], by simp [pieces, cutPiece_small hpiece hne], List.forall_mem_nil _, rfl⟩
  | cons c rest ih =>
    obtain ⟨hc, hrest⟩ := List.forall_mem_cons.mp hrest
    cases hupper : c.isUpper with
    | true =>
      have hlower : IsSmall c.toLower := isSmall_toLower hc
      obtain ⟨tail, more, hwords, htail, hjoin⟩ :=
        ih (List.forall_mem_singleton.mpr hlower) (List.cons_ne_nil _ _) hrest
      refine ⟨[], (c.toLower :: tail) :: more, ?_, List.forall_mem_nil _, ?_⟩
      · rw [List.flatMap_cons, snakeChar_capital hc hupper, List.cons_append, List.singleton_append,
          pieces_underscore, pieces_alphanum hlower.1, List.flatMap_cons, cutPiece_small hpiece hne,
          List.nil_append, List.nil_append, hwords]
        simp
      · rw [List.nil_append, List.flatMap_cons, capitalWord_toLower hc hupper htail, List.cons_append, hjoin]
    | false =>
      have hsmall : IsSmall c := ⟨hc, hupper⟩
      obtain ⟨tail, more, hwords, htail, hjoin⟩ :=
        ih (List.forall_mem_append.mpr ⟨hpiece, List.forall_mem_singleton.mpr hsmall⟩) (by simp) hrest
      refine ⟨c :: tail, more, ?_, List.forall_mem_cons.mpr ⟨hsmall, htail⟩, ?_⟩
      · rw [List.flatMap_cons, snakeChar_small hsmall, List.singleton_append, pieces_alphanum hc, hwords]
        simp
      · rw [List.cons_append, hjoin]

end

/-- The shape of wire names: letters and digits, and no capital at the front. -/
structure IsCamel (name : List Char) : Prop where
  alphanum : ∀ c ∈ name, c.isAlphanum = true
  small : ∀ c ∈ name.head?, c.isUpper = false

section
variable {name : List Char} {s : String}

theorem toList_snake {c : Char} {rest : List Char} (h : IsCamel (c :: rest)) :
    (snake (String.ofList (c :: rest))).toList = c :: rest.flatMap snakeChar := by
  have hc : Text.isUpper c = false :=
    (Text.isUpper_ascii (Text.ascii_of_isAlphanum (h.alphanum c List.mem_cons_self))).trans (h.small c rfl)
  simp [snake, hc]

/-- A name of the shape of wire names comes back from its host name. -/
theorem lowerCamel_snake (h : IsCamel name) : lowerCamel (snake (String.ofList name)) = String.ofList name := by
  cases name with
  | nil => rfl
  | cons c rest =>
    have hc : IsSmall c := ⟨h.alphanum c List.mem_cons_self, h.small c rfl⟩
    obtain ⟨tail, more, hwords, htail, hjoin⟩ := words_of_snake (List.forall_mem_singleton.mpr hc)
      (List.cons_ne_nil _ _) fun d hd => h.alphanum d (List.mem_cons_of_mem _ hd)
    have hfirst : ∀ d ∈ [c] ++ tail, IsSmall d :=
      List.forall_mem_append.mpr ⟨List.forall_mem_singleton.mpr hc, htail⟩
    rw [lowerCamel, toList_snake h, words, pieces_alphanum hc.1, List.nil_append, hwords, joinWords,
      lowerWord_small hfirst, List.append_assoc, hjoin, List.singleton_append]

/-! Wire names have this shape. -/

/-- A word is not cut before its first character, as a run of capitals has one. -/
theorem of_mem_cutPiece {run : Run} {word piece w : List Char} (hrun : run = .upper → word ≠ [])
    (hword : ∀ c ∈ word, c.isAlphanum = true) (hpiece : ∀ c ∈ piece, c.isAlphanum = true)
    (hw : w ∈ cutPiece run word piece) : w ≠ [] ∧ ∀ c ∈ w, c.isAlphanum = true := by
  induction run, word, piece using cutPiece.induct with
  | case1 run word => cases hw
  | case2 run word c =>
    obtain rfl := List.mem_singleton.mp hw
    exact ⟨by simp, List.forall_mem_append.mpr ⟨hword, hpiece⟩⟩
  | case3 run word c d rest hcut ih =>
    obtain ⟨hc, hpiece⟩ := List.forall_mem_cons.mp hpiece
    rw [cutPiece, if_pos hcut] at hw
    rcases List.mem_cons.mp hw with rfl | hw
    · exact ⟨by simp, List.forall_mem_append.mpr ⟨hword, List.forall_mem_singleton.mpr hc⟩⟩
    · exact ih nofun (List.forall_mem_nil _) hpiece hw
  | case4 run word c d rest hcut hcut' ih =>
    obtain ⟨hc, hpiece⟩ := List.forall_mem_cons.mp hpiece
    rw [cutPiece, if_neg hcut, if_pos hcut'] at hw
    rcases List.mem_cons.mp hw with rfl | hw
    · exact ⟨hrun hcut'.1, hword⟩
    · exact ih nofun (List.forall_mem_singleton.mpr hc) hpiece hw
  | case5 run word c d rest hcut hcut' ih =>
    obtain ⟨hc, hpiece⟩ := List.forall_mem_cons.mp hpiece
    rw [cutPiece, if_neg hcut, if_neg hcut'] at hw
    exact ih (by simp) (List.forall_mem_append.mpr ⟨hword, List.forall_mem_singleton.mpr hc⟩) hpiece hw

theorem alphanum_of_mem_pieces {piece p : List Char} (hname : ∀ c ∈ name, c.toNat < 128)
    (hpiece : ∀ c ∈ piece, c.isAlphanum = true) (hp : p ∈ pieces piece name) : ∀ c ∈ p, c.isAlphanum = true := by
  induction name generalizing piece with
  | nil =>
    obtain rfl := List.mem_singleton.mp hp
    exact hpiece
  | cons c name ih =>
    obtain ⟨hascii, hname⟩ := List.forall_mem_cons.mp hname
    rw [pieces, Text.isAlphanumeric_ascii hascii] at hp
    split at hp
    · rename_i hc
      exact ih hname (List.forall_mem_append.mpr ⟨hpiece, List.forall_mem_singleton.mpr hc⟩) hp
    · rcases List.mem_cons.mp hp with rfl | hp
      · exact hpiece
      · exact ih hname (List.forall_mem_nil _) hp

theorem of_mem_words {w : List Char} (hname : ∀ c ∈ name, c.toNat < 128) (hw : w ∈ words name) :
    w ≠ [] ∧ ∀ c ∈ w, c.isAlphanum = true := by
  obtain ⟨p, hp, hw⟩ := List.mem_flatMap.mp hw
  exact of_mem_cutPiece (fun h : Run.start = .upper => nomatch h) (List.forall_mem_nil _)
    (alphanum_of_mem_pieces hname (List.forall_mem_nil _) hp) hw

theorem alphanum_lowerWord {w : List Char} (hw : ∀ c ∈ w, c.isAlphanum = true) :
    ∀ c ∈ lowerWord w, c.isAlphanum = true := by
  rw [lowerWord_ascii fun c hc => Text.ascii_of_isAlphanum (hw c hc)]
  exact List.forall_mem_map.mpr fun c hc => Text.isAlphanum_toLower (hw c hc)

theorem alphanum_capitalWord {w : List Char} (hw : ∀ c ∈ w, c.isAlphanum = true) :
    ∀ c ∈ capitalWord w, c.isAlphanum = true := by
  cases w with
  | nil => exact List.forall_mem_nil _
  | cons c w =>
    obtain ⟨hc, hw⟩ := List.forall_mem_cons.mp hw
    rw [capitalWord, Text.uppercase_ascii (Text.ascii_of_isAlphanum hc), List.singleton_append]
    exact List.forall_mem_cons.mpr ⟨Text.isAlphanum_toUpper hc, alphanum_lowerWord hw⟩

theorem isCamel_joinWords {ws : List (List Char)} (h : ∀ w ∈ ws, w ≠ [] ∧ ∀ c ∈ w, c.isAlphanum = true) :
    IsCamel (joinWords ws) := by
  cases ws with
  | nil => exact ⟨List.forall_mem_nil _, nofun⟩
  | cons first rest =>
    obtain ⟨⟨hne, hfirst⟩, hrest⟩ := List.forall_mem_cons.mp h
    constructor
    case alphanum =>
      refine List.forall_mem_append.mpr ⟨alphanum_lowerWord hfirst, fun c hc => ?_⟩
      obtain ⟨w, hw, hc⟩ := List.mem_flatMap.mp hc
      exact alphanum_capitalWord (hrest w hw).2 c hc
    case small =>
      cases first with
      | nil => exact absurd rfl hne
      | cons c first =>
        rw [joinWords, lowerWord_ascii fun c hc => Text.ascii_of_isAlphanum (hfirst c hc)]
        rintro d ⟨⟩
        exact Text.not_isUpper_toLower (Text.ascii_of_isAlphanum (hfirst c List.mem_cons_self))

theorem isCamel_lowerCamel (h : ∀ c ∈ s.toList, c.toNat < 128) : IsCamel (lowerCamel s).toList := by
  rw [lowerCamel, String.toList_ofList]
  exact isCamel_joinWords fun w hw => of_mem_words h hw

/-- A wire name is not changed by the way to the host and back. -/
theorem lowerCamel_snake_lowerCamel (h : ∀ c ∈ s.toList, c.toNat < 128) :
    lowerCamel (snake (lowerCamel s)) = lowerCamel s := by
  have hback := lowerCamel_snake (isCamel_lowerCamel h)
  rwa [String.ofList_toList] at hback

/-- Wire names are stable: turning one into its host name and back changes nothing, so that two wire names with one
host name are the same. -/
theorem wire_names_stable :
    (∀ name : String, (∀ c ∈ name.toList, c.toNat < 128) →
      camel.toWire (camel.toHost (camel.toWire name)) = camel.toWire name) ∧
    (∀ name other : String, (∀ c ∈ name.toList, c.toNat < 128) → (∀ c ∈ other.toList, c.toNat < 128) →
      camel.toHost (camel.toWire name) = camel.toHost (camel.toWire other) →
        camel.toWire name = camel.toWire other) := by
  simp only [toWire, toHost]
  constructor
  · exact fun name hname => lowerCamel_snake_lowerCamel hname
  · intro name other hname hother heq
    rw [← lowerCamel_snake_lowerCamel hname, heq, lowerCamel_snake_lowerCamel hother]

/-- Capitals in a row, a doubled underscore, a hyphen and a digit at the front of a word are all lost on the way to
the wire name, which itself is stable. -/
theorem secondPage_stable : (∀ c ∈ "XMLHttp__2nd-Page".toList, c.toNat < 128) ∧
    camel.toWire "XMLHttp__2nd-Page" = "xmlHttp2ndPage" ∧
    camel.toWire (camel.toHost (camel.toWire "XMLHttp__2nd-Page")) = camel.toWire "XMLHttp__2nd-Page" ∧
    camel.toHost (camel.toWire "XMLHttp__2nd-Page") = camel.toHost (camel.toWire "xml_http2nd_page") ∧
    camel.toWire "XMLHttp__2nd-Page" = camel.toWire "xml_http2nd_page" :=
  have hascii : ∀ c ∈ "XMLHttp__2nd-Page".toList, c.toNat < 128 := Text.forall_mem_of_all rfl
  have hsame : camel.toHost (camel.toWire "XMLHttp__2nd-Page") = camel.toHost (camel.toWire "xml_http2nd_page") :=
    (show _ = "xml_http2nd_page" by decide).trans (show _ = "xml_http2nd_page" by decide).symm
  ⟨hascii, by decide, wire_names_stable.1 "XMLHttp__2nd-Page" hascii, hsame,
    wire_names_stable.2 "XMLHttp__2nd-Page" "xml_http2nd_page" hascii (Text.forall_mem_of_all rfl) hsame⟩

/-! Host names that come back. -/

/-- The characters of a host name with underscores: small letters, digits and underscores. -/
def IsHost (c : Char) : Prop := c.isLower = true ∨ c.isDigit = true ∨ c = '_'

instance : DecidablePred IsHost := fun _ => inferInstanceAs (Decidable (_ ∨ _ ∨ _))

theorem isSmall_of_isHost {c : Char} (h : IsHost c) (hne : c ≠ '_') : IsSmall c := by
  have hchar : c.isLower = true ∨ c.isDigit = true := h.imp_right (·.resolve_right hne)
  have halphanum : c.isAlphanum = true := hchar.elim Text.isAlphanum_of_isLower Text.isAlphanum_of_isDigit
  refine ⟨halphanum, ?_⟩
  exact Text.of_forall_ascii (P := fun c => c.isLower = true ∨ c.isDigit = true → c.isUpper = false)
    (by decide) (Text.ascii_of_isAlphanum halphanum) hchar

theorem ascii_of_isHost {c : Char} (h : IsHost c) : c.toNat < 128 := by
  by_cases hne : c = '_'
  · rw [hne]
    decide
  · exact Text.ascii_of_isAlphanum (isSmall_of_isHost h hne).1

/-- A small letter stands behind every underscore. -/
def LetterBehind (name : List Char) : Prop :=
  ∀ before after, name = before ++ '_' :: after → ∃ c rest, after = c :: rest ∧ c.isLower = true

theorem letterBehind_cons {c : Char} (hc : c ≠ '_') : LetterBehind (c :: name) ↔ LetterBehind name := by
  constructor
  · exact fun h before after heq => h (c :: before) after (by rw [heq, List.cons_append])
  · intro h before after heq
    cases before with
    | nil => exact absurd (List.cons.inj heq).1 hc
    | cons d before => exact h before after (List.cons.inj heq).2

theorem letterBehind_underscore {c : Char} (hc : c.isLower = true) :
    LetterBehind ('_' :: c :: name) ↔ LetterBehind name := by
  have hne : c ≠ '_' := by
    rintro rfl
    exact absurd hc (by decide)
  constructor
  · exact fun h before after heq => h ('_' :: c :: before) after (by rw [heq]; rfl)
  · intro h before after heq
    cases before with
    | nil => exact ⟨c, name, (List.cons.inj heq).2.symm, hc⟩
    | cons d before => exact (letterBehind_cons hne).mpr h before after (List.cons.inj heq).2

/-- The host name of a wire name has underscores only before the small letters of its capitals. -/
theorem letterBehind_flatMap (h : ∀ c ∈ name, c.isAlphanum = true) : LetterBehind (name.flatMap snakeChar) := by
  induction name with
  | nil => exact fun before after heq => by simp at heq
  | cons c name ih =>
    obtain ⟨hc, hname⟩ := List.forall_mem_cons.mp h
    cases hupper : c.isUpper with
    | true =>
      rw [List.flatMap_cons, snakeChar_capital hc hupper]
      exact (letterBehind_underscore (Text.small_of_isUpper hupper (Text.ascii_of_isAlphanum hc)).1).mpr (ih hname)
    | false =>
      rw [List.flatMap_cons, snakeChar_small ⟨hc, hupper⟩]
      refine (letterBehind_cons ?_).mpr (ih hname)
      rintro rfl
      exact absurd hc (by decide)

/-- A name with a small letter behind each underscore is the host name of the one with capitals in their place. -/
theorem exists_flatMap (hname : ∀ c ∈ name, IsHost c)
    (hbehind : LetterBehind name) :
    ∃ wire : List Char, (∀ c ∈ wire, c.isAlphanum = true) ∧ wire.flatMap snakeChar = name := by
  induction hn : name.length using Nat.strongRecOn generalizing name with
  | ind n ih =>
    cases name with
    | nil => exact ⟨[], List.forall_mem_nil _, rfl⟩
    | cons c rest =>
      obtain ⟨hc, hrest⟩ := List.forall_mem_cons.mp hname
      rw [List.length_cons] at hn
      by_cases hunderscore : c = '_'
      · subst hunderscore
        obtain ⟨small, rest, rfl, hsmall⟩ := hbehind [] rest rfl
        obtain ⟨wire, hwire, rfl⟩ := ih rest.length (by rw [List.length_cons] at hn; omega)
          (List.forall_mem_cons.mp hrest).2 ((letterBehind_underscore hsmall).mp hbehind) rfl
        obtain ⟨hupper, halphanum, hlower⟩ := Text.capital_of_isLower hsmall
        refine ⟨small.toUpper :: wire, List.forall_mem_cons.mpr ⟨halphanum, hwire⟩, ?_⟩
        rw [List.flatMap_cons, snakeChar_capital halphanum hupper, hlower]
        rfl
      · obtain ⟨wire, hwire, rfl⟩ := ih rest.length (by omega) hrest
          ((letterBehind_cons hunderscore).mp hbehind) rfl
        have hsmall : IsSmall c := isSmall_of_isHost hc hunderscore
        refine ⟨c :: wire, List.forall_mem_cons.mpr ⟨hsmall.1, hwire⟩, ?_⟩
        rw [List.flatMap_cons, snakeChar_small hsmall, List.singleton_append]

/-- Well-formed host names: no underscore at the front, at the end or next to another one, and no digit behind
one. -/
structure IsSnake (name : List Char) : Prop where
  front : ¬ ['_'] <+: name
  back : ¬ ['_'] <:+ name
  double : ¬ ['_', '_'] <:+: name
  digit : ∀ d : Char, d.isDigit = true → ¬ ['_', d] <:+: name

theorem isSnake_iff (hname : ∀ c ∈ name, IsHost c) :
    IsSnake name ↔ name.head? ≠ some '_' ∧ LetterBehind name := by
  constructor
  · intro h
    constructor
    · intro hhead
      obtain ⟨rest, rfl⟩ := List.head?_eq_some_iff.mp hhead
      exact h.front ⟨rest, rfl⟩
    · rintro before after rfl
      cases after with
      | nil => exact absurd ⟨before, rfl⟩ h.back
      | cons c rest =>
        rcases hname c (by simp) with hc | hc | rfl
        · exact ⟨c, rest, rfl, hc⟩
        · exact absurd ⟨before, rest, by simp⟩ (h.digit c hc)
        · exact absurd ⟨before, rest, by simp⟩ h.double
  · rintro ⟨hhead, hbehind⟩
    constructor
    case front =>
      rintro ⟨rest, rfl⟩
      exact hhead rfl
    case back =>
      rintro ⟨before, rfl⟩
      obtain ⟨_, _, heq, -⟩ := hbehind before [] rfl
      cases heq
    case double =>
      rintro ⟨before, rest, rfl⟩
      obtain ⟨_, _, ⟨⟩, hc⟩ := hbehind before ('_' :: rest) (by simp)
      exact absurd hc (by decide)
    case digit =>
      rintro d hd ⟨before, rest, rfl⟩
      obtain ⟨_, _, ⟨⟩, hc⟩ := hbehind before (d :: rest) (by simp)
      rw [Text.not_isLower_of_isDigit hd] at hc
      cases hc

theorem isSnake_snake (h : IsCamel name) (hname : ∀ c ∈ (snake (String.ofList name)).toList, IsHost c) :
    IsSnake (snake (String.ofList name)).toList := by
  rw [isSnake_iff hname]
  cases name with
  | nil => exact ⟨by simp [snake], fun before after heq => by simp [snake] at heq⟩
  | cons c rest =>
    have hne : c ≠ '_' := by
      rintro rfl
      exact absurd (h.alphanum '_' List.mem_cons_self) (by decide)
    rw [toList_snake h]
    exact ⟨by simpa using hne, (letterBehind_cons hne).mpr
      (letterBehind_flatMap fun c hc => h.alphanum c (List.mem_cons_of_mem _ hc))⟩

theorem exists_snake (hname : ∀ c ∈ s.toList, IsHost c) (h : IsSnake s.toList) :
    ∃ wire, IsCamel wire ∧ snake (String.ofList wire) = s := by
  obtain ⟨hhead, hbehind⟩ := (isSnake_iff hname).mp h
  cases hs : s.toList with
  | nil => exact ⟨[], ⟨List.forall_mem_nil _, nofun⟩, String.toList_inj.mp (by rw [hs]; rfl)⟩
  | cons c rest =>
    rw [hs] at hname hhead hbehind
    have hne : c ≠ '_' := fun h => hhead (congrArg some h)
    obtain ⟨hc, hrest⟩ := List.forall_mem_cons.mp hname
    have hsmall : IsSmall c := isSmall_of_isHost hc hne
    obtain ⟨wire, hwire, heq⟩ := exists_flatMap hrest ((letterBehind_cons hne).mp hbehind)
    have hcamel : IsCamel (c :: wire) :=
      ⟨List.forall_mem_cons.mpr ⟨hsmall.1, hwire⟩, by rintro d ⟨⟩; exact hsmall.2⟩
    exact ⟨c :: wire, hcamel, String.toList_inj.mp (by rw [toList_snake hcamel, heq, hs])⟩

/-- A host name comes back from the wire exactly if it is well-formed. -/
theorem toHost_toWire_iff (hname : ∀ c ∈ s.toList, IsHost c) :
    camel.toHost (camel.toWire s) = s ↔ IsSnake s.toList := by
  rw [toWire, toHost]
  constructor
  · intro hback
    have hcamel : IsCamel (lowerCamel s).toList := isCamel_lowerCamel fun c hc => ascii_of_isHost (hname c hc)
    have hwire : snake (String.ofList (lowerCamel s).toList) = s := by rwa [String.ofList_toList]
    exact hwire ▸ isSnake_snake hcamel (hwire.symm ▸ hname)
  · intro h
    obtain ⟨wire, hcamel, rfl⟩ := exists_snake hname h
    rw [lowerCamel_snake hcamel]

/-- A digit may stand behind a letter, but not behind an underscore. -/
theorem pointX2Y_comes_back : (∀ c ∈ "point_x2_y".toList, IsHost c) ∧ IsSnake "point_x2_y".toList ∧
    camel.toHost (camel.toWire "point_x2_y") = "point_x2_y" ∧
    (∀ c ∈ "point_x_2".toList, IsHost c) ∧ ¬ IsSnake "point_x_2".toList ∧
    camel.toHost (camel.toWire "point_x_2") = "point_x2" :=
  have hgood : ∀ c ∈ "point_x2_y".toList, IsHost c := Text.forall_mem_of_all rfl
  have hbad : ∀ c ∈ "point_x_2".toList, IsHost c := Text.forall_mem_of_all rfl
  ⟨hgood, (toHost_toWire_iff hgood).mp (by decide), by decide, hbad,
    fun h => absurd ((toHost_toWire_iff hbad).mpr h) (by decide), by decide⟩

end

end Casing

end RecordGraph
