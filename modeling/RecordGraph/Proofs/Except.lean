import Mathlib.Data.List.Forall2
/-! Computations that can fail, read backwards from what they gave: each step that they took gave something. A list of
steps gives a list that is related to it item by item. -/

namespace RecordGraph

variable {ε ε' α β : Type} {x : Except ε α} {b : β}

theorem bind_eq_ok {f : α → Except ε β} : (x >>= f) = .ok b ↔ ∃ a, x = .ok a ∧ f a = .ok b := by
  cases x with
  | error e => simp [bind, Except.bind]
  | ok a => simp [bind, Except.bind]

theorem map_eq_ok {f : α → β} : x.map f = .ok b ↔ ∃ a, x = .ok a ∧ f a = b := by
  cases x with
  | error e => simp [Except.map]
  | ok a => simp [Except.map]

theorem mapError_eq_ok {f : ε → ε'} {a : α} : x.mapError f = .ok a ↔ x = .ok a := by
  cases x with
  | error e => simp [Except.mapError]
  | ok a => simp [Except.mapError]

theorem mapM_eq_ok {f : α → Except ε β} {as : List α} {bs : List β} :
    as.mapM f = .ok bs ↔ List.Forall₂ (fun a b => f a = .ok b) as bs := by
  induction as generalizing bs with
  | nil => simp [pure, Except.pure, eq_comm]
  | cons a as ih =>
    simp only [List.mapM_cons, bind_eq_ok, List.forall₂_cons_left_iff, ih]
    constructor
    · rintro ⟨b, hb, bs', hbs, h⟩
      cases h
      exact ⟨b, bs', hb, hbs, rfl⟩
    · rintro ⟨b, bs', hb, hbs, rfl⟩
      exact ⟨b, hb, bs', hbs, rfl⟩

theorem exists_error_iff : (∃ e, x = .error e) ↔ ¬ ∃ a, x = .ok a := by
  cases x with
  | error e => simp
  | ok a => simp

/-- A list of steps fails with what its first failing step reports. -/
theorem mapM_eq_error {f : α → Except ε β} {as : List α} {e : ε} : as.mapM f = .error e ↔
    ∃ front a behind, as = front ++ a :: behind ∧ (∀ a' ∈ front, ∃ b, f a' = .ok b) ∧ f a = .error e := by
  induction as with
  | nil => simp [pure, Except.pure]
  | cons a as ih =>
    rw [List.mapM_cons]
    cases ha : f a with
    | error e' =>
      constructor
      · intro h
        cases h
        exact ⟨[], a, as, rfl, List.forall_mem_nil _, ha⟩
      · rintro ⟨front, a', behind, heq, hfront, ha'⟩
        cases front with
        | nil =>
          cases heq
          cases ha.symm.trans ha'
          rfl
        | cons first front =>
          cases heq
          obtain ⟨b, hb⟩ := hfront a List.mem_cons_self
          rw [ha] at hb
          cases hb
    | ok b =>
      have hrest : (do let b ← Except.ok b; let bs ← as.mapM f; return b :: bs) = .error e ↔
          as.mapM f = .error e := by
        cases as.mapM f <;> simp [bind, Except.bind, pure, Except.pure]
      rw [hrest, ih]
      constructor
      · rintro ⟨front, a', behind, rfl, hfront, ha'⟩
        exact ⟨a :: front, a', behind, rfl, List.forall_mem_cons.mpr ⟨⟨b, ha⟩, hfront⟩, ha'⟩
      · rintro ⟨front, a', behind, heq, hfront, ha'⟩
        cases front with
        | nil =>
          cases heq
          rw [ha] at ha'
          cases ha'
        | cons first front =>
          cases heq
          exact ⟨front, a', behind, rfl, (List.forall_mem_cons.mp hfront).2, ha'⟩

section
variable {R : α → β → Prop} {as : List α} {bs : List β}

theorem exists_mem_zip_of_mem_left {a : α} (h : List.Forall₂ R as bs) (ha : a ∈ as) :
    ∃ b, (a, b) ∈ as.zip bs ∧ R a b := by
  induction h with
  | nil => cases ha
  | cons hab _ ih =>
    rcases List.mem_cons.mp ha with rfl | ha
    · exact ⟨_, List.mem_cons_self, hab⟩
    · obtain ⟨b, hb, hr⟩ := ih ha
      exact ⟨b, List.mem_cons_of_mem _ hb, hr⟩

theorem exists_of_mem_left {a : α} (h : List.Forall₂ R as bs) (ha : a ∈ as) : ∃ b ∈ bs, R a b := by
  obtain ⟨b, hzip, hr⟩ := exists_mem_zip_of_mem_left h ha
  exact ⟨b, (List.of_mem_zip hzip).2, hr⟩

theorem exists_forall₂_iff : (∃ bs, List.Forall₂ R as bs) ↔ ∀ a ∈ as, ∃ b, R a b := by
  induction as with
  | nil => simp
  | cons a as ih =>
    rw [List.forall_mem_cons, ← ih]
    simp only [List.forall₂_cons_left_iff]
    constructor
    · rintro ⟨_, b, bs, hb, hbs, rfl⟩
      exact ⟨⟨b, hb⟩, bs, hbs⟩
    · rintro ⟨⟨b, hb⟩, bs, hbs⟩
      exact ⟨_, b, bs, hb, hbs, rfl⟩

/-- A list of steps fails exactly if one of them does. -/
theorem exists_mapM_error_iff {f : α → Except ε β} :
    (∃ e, as.mapM f = .error e) ↔ ∃ a ∈ as, ∃ e, f a = .error e := by
  simp only [exists_error_iff, mapM_eq_ok, exists_forall₂_iff, not_forall, exists_prop]

theorem exists_of_mem_right (h : List.Forall₂ R as bs) (hb : b ∈ bs) : ∃ a ∈ as, R a b :=
  exists_of_mem_left h.flip hb

end

end RecordGraph
