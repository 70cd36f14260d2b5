import RecordGraph.Document.Reader
import RecordGraph.Proofs.Document.Lexeme
/-! Literals are read the same, whatever stands apart from them. A list and an object are read item by item, up to
the bracket that closes them. -/

namespace RecordGraph

namespace Document

variable {text more rest : List Char} {c : Char} {l : Literal} {fuel : Nat}

/-- A word that is one literal and nothing more is read the same before what stands apart. -/
theorem wordLiteral?_append (hskip : skip text = c :: more) (h : wordLiteral? text = some (l, []))
    (hrest : Apart rest) : wordLiteral? (text ++ rest) = some (l, rest) := by
  unfold wordLiteral? at h ⊢
  rw [word?_append hskip rfl hrest, word?_append hskip rfl hrest,
    word?_append hskip rfl hrest]
  cases htrue : word? "true" text with
  | some after =>
    rw [htrue] at h
    cases h
    rfl
  | none =>
    cases hfalse : word? "false" text with
    | some after =>
      rw [htrue, hfalse] at h
      cases h
      rfl
    | none =>
      cases hnull : word? "null" text with
      | some after =>
        rw [htrue, hfalse, hnull] at h
        cases h
        rfl
      | none =>
        rw [htrue, hfalse, hnull] at h
        obtain ⟨⟨name, after⟩, hname, heq⟩ := Option.map_eq_some_iff.mp h
        cases heq
        simp only [name?_append hname hrest, List.nil_append, Option.map_some, Option.map_none]

theorem wordLiteral?_eq_none (hskip : skip text = c :: more) (hc : isNameStart c = false) :
    wordLiteral? text = none := by
  have hword {word : String} {d : Char} (hword : word.toList.head? = some d) (hd : isNameStart d = true) :
      word? word text = none := word?_eq_none hskip hword (isNameStart_ne hd hc).symm
  simp only [wordLiteral?, hword (by rfl : "true".toList.head? = some 't') rfl,
    hword (by rfl : "false".toList.head? = some 'f') rfl, hword (by rfl : "null".toList.head? = some 'n') rfl,
    name?_eq_none hskip hc, Option.map_none]

/-- A literal that starts like a name is a word. -/
theorem literal?_of_isNameStart (constant : Bool) (fuel : Nat) (hskip : skip text = c :: more)
    (hc : isNameStart c = true) : literal? constant (fuel + 1) text = wordLiteral? (c :: more) := by
  rw [literal?, hskip]
  split
  · exact (isNameStart_ne hc rfl (List.cons.inj ‹_›).1).elim
  · exact (isNameStart_ne hc rfl (List.cons.inj ‹_›).1).elim
  · exact (isNameStart_ne hc rfl (List.cons.inj ‹_›).1).elim
  · exact (isNameStart_ne hc rfl (List.cons.inj ‹_›).1).elim
  · rw [numberHere?_eq_none hc]

/-- The signs that end what is in parentheses or brackets. -/
def closing : List Char := [')', ']', '\x7d']

theorem closing_cases (hc : c ∈ closing) : c = ')' ∨ c = ']' ∨ c = '\x7d' := by
  simpa only [closing, List.mem_cons, List.not_mem_nil, or_false] using hc

theorem skip_closing (hc : c ∈ closing) : skip (c :: rest) = c :: rest := by
  rcases closing_cases hc with rfl | rfl | rfl <;> rfl

theorem apart_closing (hc : c ∈ closing) : Apart (c :: rest) := by
  refine apart_cons ?_
  rcases closing_cases hc with rfl | rfl | rfl <;> decide

theorem literal?_eq_none (constant : Bool) (fuel : Nat) (hskip : skip text = c :: more) (hc : c ∈ closing) :
    literal? constant fuel text = none := by
  cases fuel with
  | zero => rfl
  | succ fuel =>
    unfold literal?
    rw [hskip]
    rcases closing_cases hc with rfl | rfl | rfl <;> rfl

theorem literals_eq_nil (constant : Bool) (fuel : Nat) (hskip : skip text = c :: more) (hc : c ∈ closing) :
    literals constant fuel text = ([], text) := by
  cases fuel with
  | zero => rfl
  | succ fuel => rw [literals, literal?_eq_none constant fuel hskip hc]

theorem namedLiterals_eq_nil (constant : Bool) (fuel : Nat) (hskip : skip text = c :: more)
    (hc : c ∈ closing) : namedLiterals constant fuel text = ([], text) := by
  cases fuel with
  | zero => rfl
  | succ fuel =>
    have hname : name? text = none := by
      refine name?_eq_none hskip ?_
      rcases closing_cases hc with rfl | rfl | rfl <;> rfl
    simp only [namedLiterals, hname, Option.bind_eq_bind, Option.bind_none]

@[simp]
theorem literal?_space (constant : Bool) (fuel : Nat) :
    literal? constant fuel (' ' :: text) = literal? constant fuel text := by
  cases fuel <;> rfl

@[simp]
theorem literal?_comma (constant : Bool) (fuel : Nat) :
    literal? constant fuel (',' :: text) = literal? constant fuel text := by
  cases fuel <;> rfl

/-- A text that is one literal and nothing more is read the same before what stands apart. -/
theorem literal?_append (h : literal? false 1 text = some (l, [])) (hrest : Apart rest) :
    literal? false (fuel + 1) (text ++ rest) = some (l, rest) := by
  unfold literal? at h ⊢
  rcases hskip : skip text with - | ⟨c, after⟩
  · rw [hskip] at h
    cases h
  · rw [hskip] at h
    rw [skip_append hskip]
    split at h
    · cases ‹c :: after = _›
      obtain ⟨⟨name, tail⟩, hname, heq⟩ := Option.map_eq_some_iff.mp h
      cases heq
      simp only [Bool.false_eq_true, if_false, name?_append hname hrest, List.nil_append, Option.map_some]
    · cases ‹c :: after = _›
      obtain ⟨⟨s, tail⟩, hstring, heq⟩ := Option.map_eq_some_iff.mp h
      cases heq
      simp only [stringHere?_append hstring hrest, Option.map_some]
    · cases ‹c :: after = _›
      obtain ⟨tail, hclose, heq⟩ := Option.map_eq_some_iff.mp h
      cases heq
      simp only [literals_eq_nil false fuel (skip_append (skip_of_symbol? hclose)) (by decide),
        symbol?_append hclose, List.nil_append, Option.map_some]
    · cases ‹c :: after = _›
      obtain ⟨tail, hclose, heq⟩ := Option.map_eq_some_iff.mp h
      cases heq
      simp only [namedLiterals_eq_nil false fuel (skip_append (skip_of_symbol? hclose)) (by decide),
        symbol?_append hclose, List.nil_append, Option.map_some]
    · rename_i hvariable hstring hlist hobject
      have hsame := skip_of_skip hskip
      split
      · exact (hvariable after (congrArg (· :: after) (List.cons.inj ‹_›).1)).elim
      · exact (hstring after (congrArg (· :: after) (List.cons.inj ‹_›).1)).elim
      · exact (hlist after (congrArg (· :: after) (List.cons.inj ‹_›).1)).elim
      · exact (hobject after (congrArg (· :: after) (List.cons.inj ‹_›).1)).elim
      · rw [← List.cons_append]
        split at h
        · rename_i n tail hnumber
          cases h
          rw [numberHere?_append hnumber hrest]
          rfl
        · have hc : isNameStart c = true := by
            by_contra hc
            rw [wordLiteral?_eq_none hsame (Bool.eq_false_iff.mpr hc)] at h
            cases h
          rw [List.cons_append, numberHere?_eq_none hc]
          exact wordLiteral?_append hsame h hrest

/-- Literals are read one after the other. -/
theorem literals_cons {constant : Bool} (h : literal? constant fuel text = some (l, more)) :
    literals constant (fuel + 1) text =
      (l :: (literals constant fuel more).1, (literals constant fuel more).2) := by
  rw [literals, h]

/-- So are named ones. -/
theorem namedLiterals_cons {constant : Bool} {name : String} (hname : name? text = some (name, ':' :: more))
    (h : literal? constant fuel more = some (l, rest)) :
    namedLiterals constant (fuel + 1) text =
      ((name, l) :: (namedLiterals constant fuel rest).1, (namedLiterals constant fuel rest).2) := by
  have hcolon : symbol? ':' (':' :: more) = some more := rfl
  simp only [namedLiterals, hname, hcolon, h, Option.bind_eq_bind, Option.bind_some]
  rfl

theorem literal?_list {constant : Bool} {items : List Literal}
    (h : literals constant fuel text = (items, ']' :: rest)) :
    literal? constant (fuel + 1) ('[' :: text) = some (.list items, rest) := by
  have hskip : skip ('[' :: text) = '[' :: text := rfl
  have hclose : symbol? ']' (']' :: rest) = some rest := rfl
  simp only [literal?, hskip, h, hclose, Option.map_some]

theorem literal?_object {constant : Bool} {fields : List (String × Literal)}
    (h : namedLiterals constant fuel text = (fields, '\x7d' :: rest)) :
    literal? constant (fuel + 1) ('\x7b' :: text) = some (.object (Entries.ofPairs fields), rest) := by
  have hskip : skip ('\x7b' :: text) = '\x7b' :: text := rfl
  have hclose : symbol? '\x7d' ('\x7d' :: rest) = some rest := rfl
  simp only [literal?, hskip, h, hclose, Option.map_some]

end Document

end RecordGraph
