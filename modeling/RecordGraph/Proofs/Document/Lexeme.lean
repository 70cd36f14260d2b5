import Mathlib.Data.List.TakeWhile
import RecordGraph.Document.Lexeme
/-! The smallest parts of a document are read the same, whatever follows them: a blank, a comma, a colon or a
bracket goes on with none of them. -/

namespace RecordGraph.Document

/-- A name of the grammar. -/
def IsName (name : String) : Prop :=
  (match name.toList with
    | [] => false
    | c :: rest => isNameStart c && rest.all isNamePart) = true

instance (name : String) : Decidable (IsName name) := inferInstanceAs (Decidable (_ = true))

/-- The characters that stand right behind names, numbers and quotes. -/
def separators : List Char := [' ', ',', ':', '(', ')', ']', '\x7b', '\x7d']

/-- What a text starts with, if it is not empty, stands apart from what is before it. -/
def Apart (rest : List Char) : Prop := ∀ c ∈ rest.head?, c ∈ separators

variable {text more rest span digits body : List Char} {c sign : Char} {name word : String} {p : Char → Bool}

theorem apart_nil : Apart [] := by
  rintro _ ⟨⟩

theorem apart_cons (h : c ∈ separators) : Apart (c :: rest) := by
  rintro _ ⟨⟩
  exact h

theorem isNamePart_of_isDigit (h : c.isDigit = true) : isNamePart c = true := by
  simp only [isNamePart, Char.isAlphanum, h, Bool.or_true, Bool.true_or]

theorem isNamePart_of_isNameStart (h : isNameStart c = true) : isNamePart c = true := by
  rcases Bool.or_eq_true_iff.mp h with halpha | hline
  · simp only [isNamePart, Char.isAlphanum, halpha, Bool.true_or]
  · simp only [isNamePart, hline, Bool.or_true]

/-- What stands apart goes on with no name, no number and no quotes. -/
theorem Apart.plain (h : Apart rest) (hc : c ∈ rest.head?) :
    isNamePart c = false ∧ c ≠ '.' ∧ c ≠ '+' ∧ c ≠ '-' ∧ c ≠ '"' := by
  have hmem := h c hc
  simp only [separators, List.mem_cons, List.not_mem_nil, or_false] at hmem
  rcases hmem with rfl | rfl | rfl | rfl | rfl | rfl | rfl | rfl <;> decide

/-- A run of characters that names may hold ends before what stands apart. -/
theorem Apart.takeWhile_append (h : Apart rest) (hp : ∀ c, p c = true → isNamePart c = true) :
    (text ++ rest).takeWhile p = text.takeWhile p := by
  induction text with
  | nil =>
    cases rest with
    | nil => rfl
    | cons c rest =>
      have hc : ¬ p c = true := fun hc => Bool.false_ne_true ((h.plain rfl).1.symm.trans (hp c hc))
      rw [List.nil_append, List.takeWhile_cons_of_neg hc, List.takeWhile_nil]
  | cons c text ih => simp only [List.cons_append, List.takeWhile_cons, ih]

theorem Apart.dropWhile_append (h : Apart rest) (hp : ∀ c, p c = true → isNamePart c = true) :
    (text ++ rest).dropWhile p = text.dropWhile p ++ rest := by
  induction text with
  | nil =>
    cases rest with
    | nil => rfl
    | cons c rest =>
      have hc : ¬ p c = true := fun hc => Bool.false_ne_true ((h.plain rfl).1.symm.trans (hp c hc))
      rw [List.nil_append, List.dropWhile_cons_of_neg hc, List.dropWhile_nil, List.nil_append]
  | cons c text ih =>
    simp only [List.cons_append, List.dropWhile_cons, ih]
    split <;> rfl

section Blanks

mutual

/-- What comes after blanks and comments is found, whatever follows it. -/
theorem skip_append : ∀ {text : List Char}, skip text = c :: more →
    skip (text ++ rest) = c :: (more ++ rest)
  | [], h => by cases h
  | d :: text, h => by
    simp only [skip, List.cons_append] at h ⊢
    by_cases hcomment : d = '#'
    · rw [if_pos hcomment] at h ⊢
      exact skipComment_append h
    · rw [if_neg hcomment] at h ⊢
      by_cases hblank : isBlank d = true
      · rw [if_pos hblank] at h ⊢
        exact skip_append h
      · rw [if_neg hblank] at h ⊢
        cases h
        rfl

theorem skipComment_append : ∀ {text : List Char}, skipComment text = c :: more →
    skipComment (text ++ rest) = c :: (more ++ rest)
  | [], h => by cases h
  | d :: text, h => by
    simp only [skipComment, List.cons_append] at h ⊢
    by_cases hend : isLineEnd d = true
    · rw [if_pos hend] at h ⊢
      exact skip_append h
    · rw [if_neg hend] at h ⊢
      exact skipComment_append h

end

mutual

/-- What is skipped once is skipped altogether. -/
theorem skip_of_skip : ∀ {text : List Char}, skip text = c :: more → skip (c :: more) = c :: more
  | [], h => by cases h
  | d :: text, h => by
    simp only [skip] at h
    by_cases hcomment : d = '#'
    · rw [if_pos hcomment] at h
      exact skip_of_skipComment h
    · rw [if_neg hcomment] at h
      by_cases hblank : isBlank d = true
      · rw [if_pos hblank] at h
        exact skip_of_skip h
      · rw [if_neg hblank] at h
        cases h
        simp only [skip, if_neg hcomment, if_neg hblank]

theorem skip_of_skipComment : ∀ {text : List Char}, skipComment text = c :: more → skip (c :: more) = c :: more
  | [], h => by cases h
  | d :: text, h => by
    simp only [skipComment] at h
    by_cases hend : isLineEnd d = true
    · rw [if_pos hend] at h
      exact skip_of_skip h
    · rw [if_neg hend] at h
      exact skip_of_skipComment h

end

/-- Nothing is skipped where no blank and no comment starts. -/
theorem skip_cons (hcomment : c ≠ '#') (hblank : isBlank c = false) : skip (c :: rest) = c :: rest := by
  simp only [skip, if_neg hcomment, hblank, Bool.false_eq_true, if_false]

theorem isNameStart_ne (h : isNameStart c = true) (hd : isNameStart sign = false) : c ≠ sign := by
  rintro rfl
  rw [hd] at h
  cases h

theorem skip_of_isNameStart (h : isNameStart c = true) : skip (c :: rest) = c :: rest := by
  refine skip_cons (isNameStart_ne h rfl) (Bool.eq_false_iff.mpr fun hblank => ?_)
  simp only [isBlank, isLineEnd, Bool.or_eq_true, beq_iff_eq] at hblank
  rcases hblank with (((rfl | rfl) | rfl) | rfl) | (rfl | rfl) <;> cases h

@[simp]
theorem skip_space : skip (' ' :: rest) = skip rest := rfl

@[simp]
theorem skip_comma : skip (',' :: rest) = skip rest := rfl

end Blanks

section Names

theorem nameHere?_append (h : nameHere? text = some (name, more)) (hrest : Apart rest) :
    nameHere? (text ++ rest) = some (name, more ++ rest) := by
  cases text with
  | nil => cases h
  | cons c text =>
    simp only [nameHere?, List.cons_append] at h ⊢
    rw [hrest.takeWhile_append fun _ => id, hrest.dropWhile_append fun _ => id]
    split at h
    · rw [if_pos ‹_›]
      cases h
      rfl
    · cases h

theorem name?_append (h : name? text = some (name, more)) (hrest : Apart rest) :
    name? (text ++ rest) = some (name, more ++ rest) := by
  unfold name? at h ⊢
  cases hskip : skip text with
  | nil => rw [hskip] at h; cases h
  | cons c text =>
    rw [hskip] at h
    rw [skip_append hskip]
    exact nameHere?_append h hrest

/-- A name starts with a character that names start with. -/
theorem IsName.toList_eq (h : IsName name) :
    ∃ c rest, name.toList = c :: rest ∧ isNameStart c = true ∧ ∀ d ∈ rest, isNamePart d = true := by
  unfold IsName at h
  split at h
  · cases h
  · obtain ⟨hstart, hparts⟩ := Bool.and_eq_true_iff.mp h
    exact ⟨_, _, ‹_›, hstart, List.all_eq_true.mp hparts⟩

theorem name?_of_isName (h : IsName name) (hrest : Apart rest) :
    name? (name.toList ++ rest) = some (name, rest) := by
  obtain ⟨c, tail, hname, hc, htail⟩ := h.toList_eq
  have hhere : name? name.toList = some (name, []) := by
    rw [hname, name?, skip_of_isNameStart hc, nameHere?, if_pos hc,
      List.takeWhile_eq_self_iff.mpr htail, List.dropWhile_eq_nil_iff.mpr htail, ← hname, String.ofList_toList]
  exact name?_append hhere hrest

/-- What starts with a sign is no name. -/
theorem name?_eq_none (hskip : skip text = c :: more) (hc : isNameStart c = false) : name? text = none := by
  simp only [name?, hskip, nameHere?, hc, Bool.false_eq_true, if_false]

end Names

section Signs

theorem symbol?_of_skip (hskip : skip text = c :: more) :
    symbol? sign text = if c = sign then some more else none := by
  rw [symbol?, hskip]

theorem symbol?_eq_none (hskip : skip text = c :: more) (hc : c ≠ sign) : symbol? sign text = none := by
  rw [symbol?_of_skip hskip, if_neg hc]

theorem skip_of_symbol? (h : symbol? sign text = some more) : skip text = sign :: more := by
  unfold symbol? at h
  split at h
  · cases h
  · rename_i c after hskip
    split at h
    · subst_vars
      cases h
      exact hskip
    · cases h

theorem symbol?_append (h : symbol? sign text = some more) : symbol? sign (text ++ rest) = some (more ++ rest) := by
  rw [symbol?_of_skip (skip_append (skip_of_symbol? h)), if_pos rfl]

/-- No word is there where its first character is not. -/
theorem word?_eq_none (hskip : skip text = c :: body) (hword : word.toList.head? = some sign) (hc : c ≠ sign) :
    word? word text = none := by
  simp only [word?, hskip, List.isPrefixOf_iff_prefix]
  refine if_neg ?_
  rintro ⟨tail, htail⟩
  obtain ⟨after, hafter⟩ := List.head?_eq_some_iff.mp hword
  rw [hafter] at htail
  exact hc (List.cons.inj htail).1.symm

/-- A word is there or is not; it does not come about by what stands apart from the text. -/
theorem word?_append (hskip : skip text = c :: body) (hword : word.toList.all isNamePart = true)
    (hrest : Apart rest) : word? word (text ++ rest) = (word? word text).map (· ++ rest) := by
  simp only [word?, hskip, skip_append hskip, List.isPrefixOf_iff_prefix]
  by_cases hshort : word.toList <+: c :: body
  · rw [if_pos hshort, ← List.cons_append, if_pos (hshort.trans (List.prefix_append _ _)), Option.map_some,
      ← String.length_toList, List.drop_append_of_le_length hshort.length_le]
  · rw [if_neg hshort, Option.map_none]
    refine if_neg fun hlong => ?_
    rcases List.prefix_or_prefix_of_prefix hlong (List.prefix_append (c :: body) rest) with hprefix | ⟨tail, htail⟩
    · exact hshort hprefix
    · -- The word goes on behind the text, but with a character that no name has.
      rw [← htail, ← List.cons_append, List.prefix_append_right_inj] at hlong
      obtain - | ⟨d, tail⟩ := tail
      · exact hshort ⟨[], by rw [← htail, List.append_nil, List.append_nil]⟩
      · obtain ⟨after, rfl⟩ := hlong
        have hd := List.all_eq_true.mp hword d (htail ▸ List.mem_append_right _ List.mem_cons_self)
        rw [(hrest.plain rfl).1] at hd
        cases hd

end Signs

section Numbers

theorem spanDigits_append (hrest : Apart rest) :
    Json.spanDigits (text ++ rest) = ((Json.spanDigits text).1, (Json.spanDigits text).2 ++ rest) := by
  simp only [Json.spanDigits, hrest.takeWhile_append fun _ => isNamePart_of_isDigit,
    hrest.dropWhile_append fun _ => isNamePart_of_isDigit]

theorem wholePart?_append (h : wholePart? text = some (digits, more)) (hrest : Apart rest) :
    wholePart? (text ++ rest) = some (digits, more ++ rest) := by
  obtain - | ⟨c, text⟩ := text
  · cases h
  · by_cases hzero : c = '0'
    · subst hzero
      cases h
      rfl
    · have hother (after : List Char) : wholePart? (c :: after) = _ :=
        wholePart?.eq_2 _ fun _ heq => hzero (List.cons.inj heq).1
      rw [hother] at h
      rw [List.cons_append, hother, ← List.cons_append, spanDigits_append hrest]
      rcases hspan : Json.spanDigits (c :: text) with ⟨- | ⟨d, ds⟩, after⟩
      · rw [hspan] at h
        cases h
      · rw [hspan] at h
        cases h
        rfl

theorem fractionPart_append (hrest : Apart rest) :
    fractionPart (text ++ rest) = ((fractionPart text).1, (fractionPart text).2 ++ rest) := by
  obtain - | ⟨c, text⟩ := text
  · exact fractionPart.eq_2 rest fun _ heq => (hrest.plain (heq ▸ rfl)).2.1 rfl
  · by_cases hpoint : c = '.'
    · subst hpoint
      simp only [List.cons_append, fractionPart, spanDigits_append hrest]
      rcases Json.spanDigits text with ⟨- | ⟨d, digits⟩, after⟩ <;> rfl
    · simp only [List.cons_append, fractionPart.eq_2 _ fun _ heq => hpoint (List.cons.inj heq).1]

theorem minusPart_append (hrest : Apart rest) :
    minusPart (text ++ rest) = ((minusPart text).1, (minusPart text).2 ++ rest) := by
  obtain - | ⟨c, text⟩ := text
  · exact minusPart.eq_2 rest fun _ heq => (hrest.plain (heq ▸ rfl)).2.2.2.1 rfl
  · by_cases hminus : c = '-'
    · subst hminus
      rfl
    · simp only [List.cons_append, minusPart.eq_2 _ fun _ heq => hminus (List.cons.inj heq).1]

theorem signPart_append (hrest : Apart rest) :
    signPart (text ++ rest) = ((signPart text).1, (signPart text).2 ++ rest) := by
  obtain - | ⟨c, text⟩ := text
  · exact signPart.eq_3 rest (fun _ heq => (hrest.plain (heq ▸ rfl)).2.2.2.1 rfl)
      fun _ heq => (hrest.plain (heq ▸ rfl)).2.2.1 rfl
  · by_cases hminus : c = '-'
    · subst hminus
      rfl
    · by_cases hplus : c = '+'
      · subst hplus
        rfl
      · have hother (after : List Char) : signPart (c :: after) = ([], c :: after) :=
          signPart.eq_3 _ (fun _ heq => hminus (List.cons.inj heq).1) fun _ heq => hplus (List.cons.inj heq).1
        simp only [List.cons_append, hother]

theorem exponentPart_append (hrest : Apart rest) :
    exponentPart (text ++ rest) = ((exponentPart text).1, (exponentPart text).2 ++ rest) := by
  obtain - | ⟨c, text⟩ := text
  · obtain - | ⟨c, rest⟩ := rest
    · rfl
    · have hc : ¬ (c = 'e' ∨ c = 'E') := by
        rintro (rfl | rfl) <;> cases (hrest.plain rfl).1
      simp only [List.nil_append, exponentPart, if_neg hc]
  · simp only [List.cons_append, exponentPart, signPart_append hrest, spanDigits_append hrest]
    split
    · rcases Json.spanDigits (signPart text).2 with ⟨- | ⟨d, digits⟩, after⟩ <;> rfl
    · rfl

theorem startsName_append (hrest : Apart rest) :
    ((text ++ rest).head?.map isNameStart).getD false = (text.head?.map isNameStart).getD false := by
  obtain - | ⟨c, text⟩ := text
  · obtain - | ⟨c, rest⟩ := rest
    · rfl
    · exact Bool.eq_false_iff.mpr fun hc =>
        Bool.false_ne_true ((hrest.plain rfl).1.symm.trans (isNamePart_of_isNameStart hc))
  · rfl

theorem numberSpan?_append (h : numberSpan? text = some (span, more)) (hrest : Apart rest) :
    numberSpan? (text ++ rest) = some (span, more ++ rest) := by
  simp only [numberSpan?, minusPart_append hrest, Option.bind_eq_bind, Option.bind_eq_some_iff] at h ⊢
  obtain ⟨⟨whole, after⟩, hwhole, hend⟩ := h
  refine ⟨_, wholePart?_append hwhole hrest, ?_⟩
  simp only [fractionPart_append hrest, exponentPart_append hrest, startsName_append hrest]
  split at hend
  · cases hend
  · cases hend
    rw [if_neg ‹_›]

theorem numberHere?_append {n : WireNumber} (h : numberHere? text = some (n, more)) (hrest : Apart rest) :
    numberHere? (text ++ rest) = some (n, more ++ rest) := by
  simp only [numberHere?, Option.bind_eq_bind, Option.bind_eq_some_iff] at h
  obtain ⟨⟨span, after⟩, hspan, ⟨number, tail⟩, hnumber, heq⟩ := h
  cases heq
  simp only [numberHere?, numberSpan?_append hspan hrest, Option.bind_eq_bind, Option.bind_some, hnumber]
  rfl

theorem isDigit_eq_false_of_isNameStart (h : isNameStart c = true) : c.isDigit = false := by
  refine Bool.eq_false_iff.mpr fun hdigit => ?_
  delta isNameStart Char.isAlpha Char.isUpper Char.isLower at h
  simp only [Char.isDigit, Bool.or_eq_true, Bool.and_eq_true, decide_eq_true_eq, beq_iff_eq, ge_iff_le,
    UInt32.le_iff_toNat_le] at h hdigit
  rcases h with (⟨hlow, -⟩ | ⟨hlow, -⟩) | rfl
  · exact absurd (hlow.trans hdigit.2) (by decide)
  · exact absurd (hlow.trans hdigit.2) (by decide)
  · exact absurd hdigit.2 (by decide)

/-- No number starts like a name. -/
theorem numberHere?_eq_none (hc : isNameStart c = true) : numberHere? (c :: text) = none := by
  have hdigit : ¬ c.isDigit = true := Bool.eq_false_iff.mp (isDigit_eq_false_of_isNameStart hc)
  have hsign : minusPart (c :: text) = ([], c :: text) :=
    minusPart.eq_2 _ fun _ heq => isNameStart_ne hc rfl (List.cons.inj heq).1
  have hwhole : wholePart? (c :: text) = none := by
    rw [wholePart?.eq_2 _ fun _ heq => isNameStart_ne hc rfl (List.cons.inj heq).1, Json.spanDigits,
      List.takeWhile_cons_of_neg hdigit]
  simp only [numberHere?, numberSpan?, hsign, hwhole, Option.bind_eq_bind, Option.bind_none]

end Numbers

section Quotes

/-- A letter after a backslash stands for a character. -/
theorem lineBody?_escaped (h : escaped? sign = some c) :
    lineBody? ('\\' :: sign :: text) = (lineBody? text).map fun (body, rest) => (c :: body, rest) := by
  have hu : sign ≠ 'u' := by
    rintro rfl
    cases h
  rw [lineBody?.eq_4 _ _ fun _ _ _ _ _ hsign _ => hu hsign, h]
  cases lineBody? text <;> rfl

/-- Any other character of a line stands for itself. -/
theorem lineBody?_cons (hquote : c ≠ '"') (hslash : c ≠ '\\') (hend : isLineEnd c = false) :
    lineBody? (c :: text) = (lineBody? text).map fun (body, rest) => (c :: body, rest) := by
  have hplain : ¬ (isLineEnd c || c == '\\') = true := by
    rw [hend, Bool.false_or, beq_iff_eq]
    exact hslash
  rw [lineBody?.eq_5 _ _ hquote (fun _ _ _ _ _ hc _ => hslash hc) fun _ _ hc _ => hslash hc, if_neg hplain]
  cases lineBody? text <;> rfl

theorem lineBody?_append (h : lineBody? text = some (body, more)) :
    lineBody? (text ++ rest) = some (body, more ++ rest) := by
  induction text using lineBody?.induct generalizing body with
  | case1 => cases h
  | case2 text =>
    cases h
    rfl
  | case3 a b c d text ih =>
    simp only [lineBody?, List.cons_append, Option.bind_eq_bind, Option.bind_eq_some_iff] at h ⊢
    obtain ⟨unit, hunit, ⟨body, after⟩, hbody, heq⟩ := h
    cases heq
    exact ⟨unit, hunit, _, ih hbody, rfl⟩
  | case4 sign text hunit ih =>
    cases hsign : escaped? sign with
    | none =>
      simp only [lineBody?, hsign, Option.bind_eq_bind, Option.bind_none] at h
      cases h
    | some c =>
      rw [lineBody?_escaped hsign] at h
      obtain ⟨⟨body, after⟩, hbody, heq⟩ := Option.map_eq_some_iff.mp h
      cases heq
      rw [List.cons_append, List.cons_append, lineBody?_escaped hsign, ih hbody]
      rfl
  | case5 c text hquote hunit hescape hend ih =>
    simp only [lineBody?, hend, if_true] at h
    cases h
  | case6 c text hquote hunit hescape hend ih =>
    rw [Bool.or_eq_true, not_or, Bool.not_eq_true, beq_iff_eq] at hend
    rw [lineBody?_cons hquote hend.2 hend.1] at h
    obtain ⟨⟨body, after⟩, hbody, heq⟩ := Option.map_eq_some_iff.mp h
    cases heq
    rw [List.cons_append, lineBody?_cons hquote hend.2 hend.1, ih hbody]
    rfl

theorem length_of_blockBody? (h : blockBody? text = some (body, more)) : 3 ≤ text.length := by
  induction text using blockBody?.induct generalizing body with
  | case1 => cases h
  | case2 text => exact Nat.le_add_left 3 text.length
  | case3 text ih => exact Nat.le_add_left 3 (text.length + 1)
  | case4 c text hend hescape ih =>
    simp only [blockBody?, Option.bind_eq_bind, Option.bind_eq_some_iff] at h
    obtain ⟨⟨body, after⟩, hbody, heq⟩ := h
    cases heq
    exact (ih hbody).trans (Nat.le_succ _)

theorem blockBody?_append (h : blockBody? text = some (body, more)) :
    blockBody? (text ++ rest) = some (body, more ++ rest) := by
  induction text using blockBody?.induct generalizing body with
  | case1 => cases h
  | case2 text =>
    cases h
    rfl
  | case3 text ih =>
    simp only [blockBody?, List.cons_append, Option.bind_eq_bind, Option.bind_eq_some_iff] at h ⊢
    obtain ⟨⟨body, after⟩, hbody, heq⟩ := h
    cases heq
    exact ⟨_, ih hbody, rfl⟩
  | case4 c text hend hescape ih =>
    simp only [blockBody?, Option.bind_eq_bind, Option.bind_eq_some_iff] at h
    obtain ⟨⟨body, after⟩, hbody, heq⟩ := h
    cases heq
    -- Three quotes are still to come, so the text says what its first character is without what is added.
    obtain ⟨d, e, f, tail, rfl⟩ : ∃ d e f tail, text = d :: e :: f :: tail := by
      match text, length_of_blockBody? hbody with
      | d :: e :: f :: tail, _ => exact ⟨d, e, f, tail, rfl⟩
    rw [List.cons_append, blockBody?.eq_4, ih hbody]
    · rfl
    · rintro _ hc ⟨⟩
      exact hend _ hc rfl
    · rintro _ hc ⟨⟩
      exact hescape _ hc rfl

/-- Quotes that are not three on end open a text on one line. -/
theorem stringHere?_quote (h : ∀ inner, text ≠ '"' :: '"' :: inner) :
    stringHere? ('"' :: text) = (lineBody? text).map fun (body, rest) => (String.ofList body, rest) := by
  unfold stringHere?
  split
  · exact (h _ (List.cons.inj ‹_›).2).elim
  · rfl

/-- Three quotes open a block. Without its end, the first two of them are an empty text. -/
theorem stringHere?_block : stringHere? ('"' :: '"' :: '"' :: text) =
    match blockBody? text with
    | some (body, rest) => some (String.ofList (blockText body), rest)
    | none => some ("", '"' :: text) := by
  simp only [stringHere?]
  cases blockBody? text <;> rfl

/-- A text that is quotes and nothing more is read the same before what stands apart. -/
theorem stringHere?_append (h : stringHere? ('"' :: text) = some (word, [])) (hrest : Apart rest) :
    stringHere? ('"' :: (text ++ rest)) = some (word, rest) := by
  by_cases hblock : ∃ inner, text = '"' :: '"' :: inner
  · obtain ⟨inner, rfl⟩ := hblock
    rw [stringHere?_block] at h
    split at h
    · rename_i body after hbody
      cases h
      rw [List.cons_append, List.cons_append, stringHere?_block, blockBody?_append hbody, List.nil_append]
    · cases h
  · have hthree : ∀ inner, text ≠ '"' :: '"' :: inner := fun inner heq => hblock ⟨inner, heq⟩
    rw [stringHere?_quote hthree] at h
    obtain ⟨⟨body, after⟩, hbody, heq⟩ := Option.map_eq_some_iff.mp h
    cases heq
    rw [stringHere?_quote, lineBody?_append hbody]
    · rfl
    · rintro inner heq
      match text, hthree with
      | [], _ => cases hbody
      | [d], _ =>
        obtain ⟨-, rfl⟩ := List.cons.inj (heq : d :: rest = _)
        exact (hrest.plain rfl).2.2.2.2 rfl
      | d :: e :: tail, hthree =>
        cases heq
        exact hthree _ rfl

end Quotes

end RecordGraph.Document
