import RecordGraph.Document.Reader
import RecordGraph.Proofs.Document.Lexeme
/-! What is read of a selection, part by part: a part that is not there takes nothing, and a selection set is there
between two brackets only. -/

namespace RecordGraph

namespace Document

variable {text more rest : List Char} {c : Char} {fuel sets : Nat}

/-- What stands behind a field: a blank, and then another field, or a bracket. -/
def Behind (rest : List Char) : Prop :=
  ∃ c more, rest = ' ' :: c :: more ∧ (isNameStart c = true ∨ c = '\x7b' ∨ c = '\x7d')

theorem Behind.apart (h : Behind rest) : Apart rest := by
  obtain ⟨c, more, rfl, -⟩ := h
  exact apart_cons (by decide)

/-- What stands behind a field starts none of its parts. -/
theorem Behind.skip_eq (h : Behind rest) : ∃ c more, skip rest = c :: more ∧ c ≠ ':' ∧ c ≠ '(' ∧ c ≠ '@' := by
  obtain ⟨c, more, rfl, hc⟩ := h
  refine ⟨c, more, ?_, ?_⟩
  · rcases hc with hc | rfl | rfl
    · exact skip_of_isNameStart hc
    · rfl
    · rfl
  · rcases hc with hc | rfl | rfl
    · exact ⟨isNameStart_ne hc rfl, isNameStart_ne hc rfl, isNameStart_ne hc rfl⟩
    · decide
    · decide

/-- What stands behind a field without selections, and behind the closing bracket of those that it has. -/
def Ends (rest : List Char) : Prop := ∃ c more, rest = ' ' :: c :: more ∧ (isNameStart c = true ∨ c = '\x7d')

theorem Ends.behind (h : Ends rest) : Behind rest := by
  obtain ⟨c, more, rfl, hc⟩ := h
  exact ⟨c, more, rfl, hc.imp_right .inr⟩

theorem arguments_eq_nil (hskip : skip text = c :: more) (hc : c ≠ '(') :
    arguments fuel text = ([], text) := by
  simp only [arguments, symbol?_eq_none hskip hc, Option.bind_eq_bind, Option.bind_none, Option.getD_none]

theorem directives_eq_nil (hskip : skip text = c :: more) (hc : c ≠ '@') :
    directives fuel text = ([], text) := by
  cases fuel with
  | zero => rfl
  | succ fuel => rw [directives, symbol?_eq_none hskip hc, Option.bind_none]

theorem ellipsis?_eq_none (hskip : skip text = c :: more) (hc : c ≠ '.') : ellipsis? text = none := by
  unfold ellipsis?
  split
  · rename_i heq
    rw [hskip] at heq
    exact (hc (List.cons.inj heq).1).elim
  · rfl

/-- Nothing is selected where neither a name nor a fragment starts. -/
theorem selection?_eq_none (hskip : skip text = c :: more) (hc : isNameStart c = false) (hpoint : c ≠ '.') :
    selection? fuel sets text = none := by
  cases fuel with
  | zero => rfl
  | succ fuel =>
    have hname : name? text = none := name?_eq_none hskip hc
    have hlabel : label? text = none := by rw [label?, hname]; rfl
    rw [selection?, ellipsis?_eq_none hskip hpoint, hlabel]
    simp only [hname, Option.bind_eq_bind, Option.bind_none]

theorem selections_eq_nil (hskip : skip text = c :: more) (hc : isNameStart c = false) (hpoint : c ≠ '.') :
    selections fuel sets text = ([], text) := by
  cases fuel with
  | zero => rfl
  | succ fuel => rw [selections, selection?_eq_none hskip hc hpoint]

theorem selections_cons {first : Selection} (h : selection? fuel sets text = some (first, more)) :
    selections (fuel + 1) sets text =
      (first :: (selections fuel sets more).1, (selections fuel sets more).2) := by
  rw [selections, h]

theorem selectionSet?_eq_none (hskip : skip text = c :: more) (hc : c ≠ '\x7b') :
    selectionSet? fuel sets text = none := by
  cases fuel with
  | zero => rfl
  | succ fuel =>
    cases sets with
    | zero => rfl
    | succ sets => rw [selectionSet?, symbol?_eq_none hskip hc]; rfl

theorem Ends.selectionSet? (h : Ends rest) : selectionSet? fuel sets rest = none := by
  obtain ⟨c, more, rfl, hc | rfl⟩ := h
  · exact selectionSet?_eq_none (skip_space.trans (skip_of_isNameStart hc)) (isNameStart_ne hc rfl)
  · exact selectionSet?_eq_none rfl (by decide)

/-- A selection set is what is selected up to its closing bracket. -/
theorem selectionSet?_closed {found : List Selection} (hskip : skip text = '\x7b' :: more)
    (h : selections fuel sets more = (found, ' ' :: '\x7d' :: rest)) (hfound : found ≠ []) :
    selectionSet? (fuel + 1) (sets + 1) text = some (found, rest) := by
  have hopen : symbol? '\x7b' text = some more := by rw [symbol?_of_skip hskip, if_pos rfl]
  have hclose : symbol? '\x7d' (' ' :: '\x7d' :: rest) = some rest := rfl
  rw [selectionSet?, hopen]
  simp only [Option.bind_eq_bind, Option.bind_some, h, hclose, List.isEmpty_eq_false_iff.mpr hfound,
    Bool.false_eq_true, if_false]
  rfl

/-- Without its closing bracket there is no selection set. -/
theorem selectionSet?_unclosed {found : List Selection} (hskip : skip text = '\x7b' :: more)
    (h : selections fuel sets more = (found, ' ' :: '\x7b' :: rest)) :
    selectionSet? (fuel + 1) (sets + 1) text = none := by
  have hopen : symbol? '\x7b' text = some more := by rw [symbol?_of_skip hskip, if_pos rfl]
  have hclose : symbol? '\x7d' (' ' :: '\x7b' :: rest) = none := rfl
  rw [selectionSet?, hopen]
  simp only [Option.bind_eq_bind, Option.bind_some, h, hclose, Option.bind_none]

end Document

end RecordGraph
