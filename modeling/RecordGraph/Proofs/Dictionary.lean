import Mathlib.Data.List.Forall2
import Mathlib.Data.List.Nodup
import Mathlib.Data.List.Perm.Basic
import RecordGraph.Proofs.Registry
/-! Dictionaries in which each name stands once. Writing and erasing keep it so, and the rest of the
dictionary is what it was, up to the order of its entries; two dictionaries that agree name by name
therefore have as many entries of any kind. -/

namespace RecordGraph

namespace Entries

variable {α β : Type} {entries : Entries α} {name other : String} {value : α}

theorem contains_iff : contains entries name = true ↔ ∃ value, get? entries name = some value := by
  rw [← Option.ne_none_iff_exists', ne_eq, get?_eq_none, not_not]
  simp [contains]

theorem mem_insert {entry : String × α} (h : entry ∈ insert entries name value) :
    entry = (name, value) ∨ entry ∈ entries := by
  induction entries with
  | nil => exact .inl (List.mem_singleton.mp h)
  | cons first rest ih =>
    obtain ⟨key, old⟩ := first
    rw [insert] at h
    split at h
    · rename_i hk
      rw [hk] at h
      exact (List.mem_cons.mp h).imp_right (List.mem_cons_of_mem _)
    · rcases List.mem_cons.mp h with rfl | h
      · exact .inr List.mem_cons_self
      · exact (ih h).imp_right (List.mem_cons_of_mem _)

theorem insert_of_get?_eq_none (h : get? entries name = none) :
    insert entries name value = entries ++ [(name, value)] := by
  induction entries with
  | nil => rfl
  | cons first rest ih =>
    obtain ⟨key, old⟩ := first
    rw [get?_cons] at h
    rw [insert]
    split at h
    · cases h
    · rename_i hk
      rw [if_neg hk, ih h, List.cons_append]

/-- Pairs of distinct names are written one after the other. -/
theorem foldl_insert_of_nodup {pairs : List (String × α)} (h : ((entries ++ pairs).map Prod.fst).Nodup) :
    pairs.foldl (fun entries pair => insert entries pair.1 pair.2) entries = entries ++ pairs := by
  induction pairs generalizing entries with
  | nil => exact (List.append_nil _).symm
  | cons pair pairs ih =>
    have hnew : get? entries pair.1 = none := by
      rw [get?_eq_none]
      intro hmem
      rw [List.map_append, List.map_cons, List.nodup_append] at h
      exact h.2.2 pair.1 hmem pair.1 List.mem_cons_self rfl
    rw [List.append_cons] at h ⊢
    rw [List.foldl_cons, insert_of_get?_eq_none hnew, ih h]

theorem ofPairs_of_nodup {pairs : List (String × α)} (h : (pairs.map Prod.fst).Nodup) : ofPairs pairs = pairs :=
  foldl_insert_of_nodup h

/-- Writing what is there already changes nothing. -/
theorem insert_of_get? (h : get? entries name = some value) : insert entries name value = entries := by
  induction entries with
  | nil => cases h
  | cons entry rest ih =>
    obtain ⟨key, old⟩ := entry
    rw [get?_cons] at h
    rw [insert]
    split at h
    · rename_i hk
      cases h
      rw [if_pos hk]
    · rename_i hk
      rw [if_neg hk, ih h]

theorem nodup_insert (h : (entries.map Prod.fst).Nodup) :
    ((insert entries name value).map Prod.fst).Nodup := by
  induction entries with
  | nil => exact List.nodup_singleton _
  | cons first rest ih =>
    obtain ⟨key, old⟩ := first
    rw [List.map_cons, List.nodup_cons] at h
    rw [insert]
    split
    · exact List.nodup_cons.mpr h
    · rename_i hk
      refine List.nodup_cons.mpr ⟨fun hm => ?_, ih h.2⟩
      obtain ⟨entry, hentry, hkey⟩ := List.mem_map.mp hm
      rcases mem_insert hentry with rfl | hentry
      · exact hk hkey.symm
      · exact h.1 (List.mem_map.mpr ⟨entry, hentry, hkey⟩)

theorem nodup_ofPairs (pairs : List (String × α)) : ((ofPairs pairs).map Prod.fst).Nodup := by
  suffices h : ∀ entries : Entries α, (entries.map Prod.fst).Nodup →
      ((pairs.foldl (fun entries pair => insert entries pair.1 pair.2) entries).map Prod.fst).Nodup from
    h [] List.nodup_nil
  induction pairs with
  | nil => exact fun _ h => h
  | cons pair pairs ih => exact fun entries h => ih _ (nodup_insert h)

section
variable {R : String × α → String × β → Prop} {others : Entries β}

theorem forall₂_insert {w : β} (hR : ∀ {entry other}, R entry other → entry.1 = other.1)
    (h : List.Forall₂ R entries others) (hnew : R (name, value) (name, w)) :
    List.Forall₂ R (insert entries name value) (insert others name w) := by
  induction h with
  | nil => exact .cons hnew .nil
  | @cons entry other _ _ hfirst hrest ih =>
    obtain ⟨key, old⟩ := entry
    obtain ⟨key', old'⟩ := other
    obtain rfl : key = key' := hR hfirst
    rw [insert, insert]
    split
    · rename_i hk
      subst hk
      exact .cons hnew hrest
    · exact .cons hfirst ih

/-- Pairs that are related one by one make dictionaries that are. -/
theorem forall₂_ofPairs {pairs : List (String × α)} {pairs' : List (String × β)}
    (hR : ∀ {entry other}, R entry other → entry.1 = other.1) (h : List.Forall₂ R pairs pairs') :
    List.Forall₂ R (ofPairs pairs) (ofPairs pairs') := by
  suffices hfold : ∀ {entries others}, List.Forall₂ R entries others →
      List.Forall₂ R (pairs.foldl (fun entries pair => insert entries pair.1 pair.2) entries)
        (pairs'.foldl (fun entries pair => insert entries pair.1 pair.2) others) from hfold .nil
  induction h with
  | nil => exact id
  | @cons pair pair' _ _ hfirst _ ih =>
    obtain ⟨name, v⟩ := pair
    obtain ⟨name', w⟩ := pair'
    obtain rfl : name = name' := hR hfirst
    exact fun hwritten => ih (forall₂_insert hR hwritten hfirst)

end

theorem nodup_erase (h : (entries.map Prod.fst).Nodup) (name : String) :
    ((erase entries name).map Prod.fst).Nodup :=
  h.sublist (List.filter_sublist.map _)

theorem get?_erase (entries : Entries α) (name other : String) :
    get? (erase entries name) other = if name = other then none else get? entries other := by
  induction entries with
  | nil => simp [erase]
  | cons first rest ih =>
    obtain ⟨key, old⟩ := first
    rw [erase, List.filter_cons]
    by_cases hk : key = name
    · rw [if_neg (by simp [hk]), ← erase, ih, get?_cons, hk]
      split <;> rfl
    · rw [if_pos (by simp [hk]), get?_cons, ← erase, ih, get?_cons]
      by_cases ho : key = other
      · rw [if_pos ho, if_pos ho, if_neg (fun e => hk (ho.trans e.symm))]
      · rw [if_neg ho, if_neg ho]

theorem erase_of_get?_eq_none (h : get? entries name = none) : erase entries name = entries := by
  rw [get?_eq_none] at h
  refine List.filter_eq_self.mpr fun entry hentry => ?_
  simpa using fun e : entry.1 = name => h (List.mem_map.mpr ⟨entry, hentry, e⟩)

/-- An entry and the others. -/
theorem perm_erase (hn : (entries.map Prod.fst).Nodup) (h : get? entries name = some value) :
    entries.Perm ((name, value) :: erase entries name) := by
  induction entries with
  | nil => cases h
  | cons first rest ih =>
    obtain ⟨key, old⟩ := first
    rw [List.map_cons, List.nodup_cons] at hn
    rw [get?_cons] at h
    rw [erase, List.filter_cons]
    split at h
    · rename_i hk
      cases h
      rw [hk] at hn
      rw [if_neg (by simp [hk]), ← erase, erase_of_get?_eq_none (get?_eq_none.mpr hn.1), hk]
    · rename_i hk
      rw [if_pos (by simp [hk]), ← erase]
      exact ((ih hn.2 h).cons _).trans (.swap ..)

theorem insert_perm (hn : (entries.map Prod.fst).Nodup) (name : String) (value : α) :
    (insert entries name value).Perm ((name, value) :: erase entries name) := by
  have h := perm_erase (nodup_insert hn) ((get?_insert entries name name value).trans (if_pos rfl))
  suffices he : erase (insert entries name value) name = erase entries name by rwa [he] at h
  clear h hn
  induction entries with
  | nil => simp [insert, erase]
  | cons first rest ih =>
    obtain ⟨key, old⟩ := first
    rw [insert]
    split
    · rename_i hk
      simp [erase, hk]
    · unfold erase at ih ⊢
      rw [List.filter_cons, List.filter_cons, ih]

/-- Changes every value. -/
def each (f : α → β) (entries : Entries α) : Entries β := entries.map fun entry => (entry.1, f entry.2)

@[simp] theorem map_fst_each (f : α → β) (entries : Entries α) :
    (each f entries).map Prod.fst = entries.map Prod.fst := by
  simp [each]

theorem get?_each (f : α → β) (entries : Entries α) (name : String) :
    get? (each f entries) name = (get? entries name).map f := by
  induction entries with
  | nil => rfl
  | cons first rest ih =>
    rw [each, List.map_cons, get?_cons, ← each, ih, get?_cons]
    split <;> rfl

/-- Two dictionaries have the same names, and related values under them. -/
structure Agree (R : α → β → Prop) (entries : Entries α) (others : Entries β) : Prop where
  none_iff : ∀ name, get? entries name = none ↔ get? others name = none
  rel : ∀ {name v w}, get? entries name = some v → get? others name = some w → R v w

namespace Agree

variable {R S : α → β → Prop} {others : Entries β} {v : α} {w : β}

theorem exists_of_some (h : Agree R entries others) (hv : get? entries name = some v) :
    ∃ w, get? others name = some w ∧ R v w := by
  cases hw : get? others name with
  | none =>
    rw [(h.none_iff name).mpr hw] at hv
    cases hv
  | some w => exact ⟨w, rfl, h.rel hv hw⟩

theorem exists_of_some' (h : Agree R entries others) (hw : get? others name = some w) :
    ∃ v, get? entries name = some v ∧ R v w := by
  cases hv : get? entries name with
  | none =>
    rw [(h.none_iff name).mp hv] at hw
    cases hw
  | some v => exact ⟨v, rfl, h.rel hv hw⟩

theorem insert (h : Agree R entries others)
    (himp : ∀ {other v w}, name ≠ other → get? entries other = some v → R v w → S v w) (hvw : S v w) :
    Agree S (insert entries name v) (insert others name w) where
  none_iff other := by
    rw [get?_insert, get?_insert]
    split
    · simp
    · exact h.none_iff other
  rel {other v' w'} hv hw := by
    rw [get?_insert] at hv hw
    split at hv
    · rename_i ho
      rw [if_pos ho] at hw
      cases hv
      cases hw
      exact hvw
    · rename_i ho
      rw [if_neg ho] at hw
      exact himp ho hv (h.rel hv hw)

theorem erase (h : Agree R entries others)
    (himp : ∀ {other v w}, name ≠ other → get? entries other = some v → R v w → S v w) :
    Agree S (erase entries name) (erase others name) where
  none_iff other := by
    rw [get?_erase, get?_erase]
    split
    · exact iff_of_true rfl rfl
    · exact h.none_iff other
  rel {other v' w'} hv hw := by
    rw [get?_erase] at hv hw
    split at hv
    · cases hv
    · rename_i ho
      rw [if_neg ho] at hw
      exact himp ho hv (h.rel hv hw)

theorem each {f : β → β} (h : Agree R entries others)
    (himp : ∀ {name v w}, get? entries name = some v → R v w → S v (f w)) :
    Agree S entries (each f others) where
  none_iff name := by rw [get?_each, Option.map_eq_none_iff, h.none_iff]
  rel hv hw := by
    rw [get?_each] at hw
    obtain ⟨u, hu, rfl⟩ := Option.map_eq_some_iff.mp hw
    exact himp hv (h.rel hv hu)

/-- Dictionaries that agree have as many entries of a kind. -/
theorem countP_eq {p : String × α → Bool} {q : String × β → Bool} (h : Agree R entries others)
    (hn : (entries.map Prod.fst).Nodup) (hn' : (others.map Prod.fst).Nodup)
    (hpq : ∀ {name v w}, R v w → p (name, v) = q (name, w)) : entries.countP p = others.countP q := by
  induction entries generalizing others with
  | nil =>
    cases others with
    | nil => rfl
    | cons first rest =>
      have hfirst := (h.none_iff first.1).mp rfl
      rw [get?_cons, if_pos rfl] at hfirst
      cases hfirst
  | cons first rest ih =>
    obtain ⟨name, v⟩ := first
    rw [List.map_cons, List.nodup_cons] at hn
    obtain ⟨w, hw, hvw⟩ := h.exists_of_some ((get?_cons ..).trans (if_pos rfl))
    have hrest : Agree R rest (Entries.erase others name) := by
      have hself : Agree R (Entries.erase ((name, v) :: rest) name) (Entries.erase others name) :=
        h.erase fun _ _ hr => hr
      rw [Entries.erase, List.filter_cons, if_neg (by simp), ← Entries.erase,
        erase_of_get?_eq_none (get?_eq_none.mpr hn.1)] at hself
      exact hself
    rw [(perm_erase hn' hw).countP_eq q, List.countP_cons, List.countP_cons, hpq hvw,
      ih hrest hn.2 (nodup_erase hn' name)]

end Agree

end Entries

end RecordGraph
