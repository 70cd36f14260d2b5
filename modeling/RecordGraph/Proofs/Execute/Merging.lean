import RecordGraph.Execute.Response
import RecordGraph.Proofs.Dictionary
/-! Fields under one key. Where no key is shared, the object of some fields has them as they are. Where keys are
shared by values that hold no objects, the first value under each key is kept, and the others are lost. -/

namespace RecordGraph

namespace WireValue

/-- A value that later values of its key do not change. -/
def Kept (w : WireValue) : Prop := ∀ later, mergeInto later w = w

theorem kept_null : Kept .null := fun later => by cases later <;> rfl

theorem kept_string (text : String) : Kept (.string text) := fun later => by cases later <;> rfl

/-- Only objects in a list are changed. -/
theorem mergeItems_strings (texts : List String) (later : List WireValue) :
    mergeItems later (texts.map string) = texts.map string := by
  induction texts generalizing later with
  | nil => cases later with
    | nil => rfl
    | cons item rest => cases item <;> rfl
  | cons text texts ih =>
    cases later with
    | nil => rfl
    | cons item rest => cases item <;> exact congrArg (string text :: ·) (ih rest)

theorem kept_strings (texts : List String) : Kept (.list (texts.map string)) := fun later => by
  cases later with
  | list later => exact congrArg list (mergeItems_strings texts later)
  | _ => rfl

variable {before fields : List (String × WireValue)}

theorem mergeFields_sublist (h : ∀ e ∈ before ++ fields, Kept e.2) :
    (mergeFields fields before).Sublist (before ++ fields) := by
  induction fields generalizing before with
  | nil =>
    rw [mergeFields, List.append_nil]
  | cons entry rest ih =>
    obtain ⟨name, value⟩ := entry
    cases hget : Entries.get? before name with
    | none =>
      simp only [mergeFields, hget]
      rw [List.append_cons before (name, value) rest] at h ⊢
      exact ih h
    | some old =>
      have hkept : mergeInto value old = old := h _ (List.mem_append_left _ (Entries.mem_of_get? hget)) value
      have hrest : ∀ e ∈ before ++ rest, Kept e.2 := by
        intro e he
        rcases List.mem_append.mp he with he | he
        · exact h e (List.mem_append_left _ he)
        · exact h e (List.mem_append_right _ (List.mem_cons_of_mem _ he))
      simp only [mergeFields, hget, hkept, Entries.insert_of_get? hget]
      exact (ih hrest).trans (List.Sublist.append_left (List.sublist_cons_self ..) before)

theorem mergeFields_of_nodup (h : ((before ++ fields).map Prod.fst).Nodup) :
    mergeFields fields before = before ++ fields := by
  induction fields generalizing before with
  | nil => rw [mergeFields, List.append_nil]
  | cons entry rest ih =>
    obtain ⟨name, value⟩ := entry
    have hget : Entries.get? before name = none := by
      rw [Entries.get?_eq_none]
      intro hmem
      rw [List.map_append, List.map_cons, List.nodup_append] at h
      exact h.2.2 name hmem name List.mem_cons_self rfl
    rw [List.append_cons] at h ⊢
    simp only [mergeFields, hget]
    exact ih h

end WireValue

end RecordGraph
