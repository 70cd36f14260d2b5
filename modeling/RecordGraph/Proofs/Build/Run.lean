import RecordGraph.Build.Schema
import RecordGraph.Proofs.Registry
/-! Running the steps of a build. A step gives a value or fails, and leaves a draft either way. For
every builder one lemma says what it has done when it gave a value; proofs about builds use these
and open no builder. -/

namespace RecordGraph

namespace Draft

/-- The draft with one more type, unless its name is taken. -/
def add (d : Draft) (t : WireType) : Draft := { d with types := (d.types.add t.name t).1 }

/-- The draft with a registered type completed. -/
def replace (d : Draft) (t : WireType) : Draft :=
  if (d.types.get? t.name).map WireType.kind = some t.kind then { d with types := d.types.set t.name t }
  else d

/-- The draft that knows the extra fields of a connection type. -/
def noteConnection (d : Draft) (name : String) (extra : List String) : Draft :=
  { d with connectionFields := Entries.insert d.connectionFields name extra }

variable {d : Draft} {t u : WireType} {name : String}

theorem get?_add_self (h : d.types.get? t.name = none) : (d.add t).types.get? t.name = some t :=
  Registry.get?_add_self h

theorem get?_add_of_ne (h : t.name ≠ name) : (d.add t).types.get? name = d.types.get? name :=
  Registry.get?_add_of_ne h

theorem get?_add_of_some (h : d.types.get? name = some u) : (d.add t).types.get? name = some u :=
  Registry.get?_add_of_some h

theorem get?_add_ne_none (d : Draft) (t : WireType) : (d.add t).types.get? t.name ≠ none := by
  by_cases h : d.types.get? t.name = none
  · exact ne_of_eq_of_ne (get?_add_self h) (Option.some_ne_none _)
  · obtain ⟨u, hu⟩ := Option.ne_none_iff_exists'.mp h
    exact ne_of_eq_of_ne (get?_add_of_some hu) (Option.some_ne_none _)

theorem get?_replace_self (h : d.types.get? t.name = some u) (hk : u.kind = t.kind) :
    (d.replace t).types.get? t.name = some t := by
  rw [replace, if_pos (by simp [h, hk])]
  exact Registry.get?_set_self (by simp [h])

theorem get?_replace_of_ne (h : t.name ≠ name) : (d.replace t).types.get? name = d.types.get? name := by
  unfold replace
  split
  · exact Registry.get?_set_of_ne h
  · rfl

/-- Completing changes no kind. -/
theorem kind_replace (name : String) :
    ((d.replace t).types.get? name).map WireType.kind = (d.types.get? name).map WireType.kind := by
  by_cases hne : t.name = name
  · subst hne
    by_cases hk : (d.types.get? t.name).map WireType.kind = some t.kind
    · obtain ⟨u, hu, hk'⟩ := Option.map_eq_some_iff.mp hk
      rw [get?_replace_self hu hk', hu, Option.map_some, Option.map_some, hk']
    · rw [replace, if_neg hk]
  · rw [get?_replace_of_ne hne]

theorem get?_replace_ne_none (h : d.types.get? name ≠ none) : (d.replace t).types.get? name ≠ none := by
  intro hn
  have hk := kind_replace (d := d) (t := t) name
  rw [hn, Option.map_none, eq_comm, Option.map_eq_none_iff] at hk
  exact h hk

theorem names_replace : (d.replace t).types.names = d.types.names := by
  unfold replace
  split
  · exact Registry.names_set
  · rfl

theorem connectionFields_replace : (d.replace t).connectionFields = d.connectionFields := by
  unfold replace
  split <;> rfl

end Draft

namespace Build

variable {α β : Type} {d d' d'' : Draft}

/-- What a step answers, and the draft that it leaves. -/
def outcome (x : Build α) (d : Draft) : Except ModelError α × Draft := x.run.run d

/-- The draft that a step leaves, whether or not it fails. -/
def after (x : Build α) (d : Draft) : Draft := (outcome x d).2

/-- The step gives a value and leaves a draft. -/
def Gives (x : Build α) (d : Draft) (a : α) (d' : Draft) : Prop := outcome x d = (.ok a, d')

theorem Gives.after_eq {x : Build α} {a : α} (h : x.Gives d a d') : x.after d = d' := congrArg Prod.snd h

theorem outcome_bind (x : Build α) (f : α → Build β) (d : Draft) : (x >>= f).outcome d =
    match x.outcome d with
    | (.ok a, d') => (f a).outcome d'
    | (.error e, d') => (.error e, d') := by
  change (match x.outcome d with | (a, d') => (ExceptT.bindCont f a).run d') = _
  cases x.outcome d with
  | mk r d' => cases r <;> rfl

theorem gives_pure {a b : α} : (pure a : Build α).Gives d b d' ↔ b = a ∧ d' = d := by
  change (Except.ok a, d) = (Except.ok b, d') ↔ _
  simp [eq_comm]

theorem gives_throw {e : ModelError} {a : α} : ¬ (throw e : Build α).Gives d a d' := by
  change (Except.error e, d) ≠ (Except.ok a, d')
  simp

theorem gives_bind {x : Build α} {f : α → Build β} {b : β} :
    (x >>= f).Gives d b d'' ↔ ∃ a d', x.Gives d a d' ∧ (f a).Gives d' b d'' := by
  unfold Gives
  rw [outcome_bind]
  cases x.outcome d with
  | mk r d1 => cases r <;> simp

/-- What is made of a result leaves the draft alone. -/
theorem gives_map {x : Build α} {f : α → β} {b : β} :
    (x >>= fun a => pure (f a)).Gives d b d' ↔ ∃ a, x.Gives d a d' ∧ b = f a := by
  rw [gives_bind]
  constructor
  · rintro ⟨a, d1, hx, hp⟩
    obtain ⟨rfl, rfl⟩ := gives_pure.mp hp
    exact ⟨a, hx, rfl⟩
  · rintro ⟨a, hx, rfl⟩
    exact ⟨a, d', hx, gives_pure.mpr ⟨rfl, rfl⟩⟩

theorem gives_discard {x : Build α} {u : Unit} : (discard x).Gives d u d' ↔ ∃ a, x.Gives d a d' := by
  change Gives ((fun _ => ()) <$> x) _ _ _ ↔ _
  rw [map_eq_pure_bind, gives_map]
  simp

theorem gives_type? {name : String} {t : Option WireType} :
    (type? name).Gives d t d' ↔ t = d.types.get? name ∧ d' = d := gives_pure

theorem gives_get {e : Draft} : (get : Build Draft).Gives d e d' ↔ e = d ∧ d' = d := gives_pure

theorem gives_modify {f : Draft → Draft} {u : Unit} : (modify f : Build Unit).Gives d u d' ↔ d' = f d := by
  change (Except.ok (), f d) = (Except.ok u, d') ↔ _
  simp [eq_comm]

theorem gives_add {t : WireType} {u : Unit} : (add t).Gives d u d' ↔ d' = d.add t := gives_modify

theorem gives_replace {t : WireType} {u : Unit} : (replace t).Gives d u d' ↔ d' = d.replace t := gives_modify

/-- A guard lets a step pass exactly when its condition fails. -/
theorem gives_guard {c : Prop} [Decidable c] {e : ModelError} {x : Build α} {a : α} :
    (if c then (throw e : Build Unit) >>= fun _ => x else x).Gives d a d' ↔ ¬ c ∧ x.Gives d a d' := by
  split
  · rename_i hc
    simp only [gives_bind, gives_throw, false_and, exists_false, hc, not_true_eq_false]
  · rename_i hc
    simp [hc]

/-! Lists of steps. -/

/-- A step for each item of a list, in turn. -/
inductive Steps (x : α → Build β) : Draft → List α → List β → Draft → Prop where
  | nil {e : Draft} : Steps x e [] [] e
  | cons {a : α} {b : β} {as : List α} {bs : List β} {e e' e'' : Draft} :
      (x a).Gives e b e' → Steps x e' as bs e'' → Steps x e (a :: as) (b :: bs) e''

theorem gives_mapM {x : α → Build β} {as : List α} {bs : List β} :
    (as.mapM x).Gives d bs d' ↔ Steps x d as bs d' := by
  induction as generalizing d bs with
  | nil =>
    rw [List.mapM_nil, gives_pure]
    constructor
    · rintro ⟨rfl, rfl⟩; exact .nil
    · rintro ⟨⟩; exact ⟨rfl, rfl⟩
  | cons a as ih =>
    simp only [List.mapM_cons, gives_bind, gives_pure]
    constructor
    · rintro ⟨b, d1, hb, bs', d2, hbs, rfl, rfl⟩
      exact .cons hb (ih.mp hbs)
    · rintro ⟨⟩
      exact ⟨_, _, ‹_›, _, _, ih.mpr ‹_›, rfl, rfl⟩

theorem gives_forM {x : α → Build Unit} {as : List α} {u : Unit} :
    (as.forM x).Gives d u d' ↔ ∃ us, Steps x d as us d' := by
  induction as generalizing d with
  | nil =>
    change (pure () : Build Unit).Gives d u d' ↔ _
    rw [gives_pure]
    constructor
    · rintro ⟨-, rfl⟩; exact ⟨_, .nil⟩
    · rintro ⟨_, ⟨⟩⟩; exact ⟨rfl, rfl⟩
  | cons a as ih =>
    change (x a >>= fun _ => as.forM x).Gives d u d' ↔ _
    simp only [gives_bind, ih]
    constructor
    · rintro ⟨b, d1, hb, us, hus⟩
      exact ⟨_, .cons hb hus⟩
    · rintro ⟨_, ⟨⟩⟩
      exact ⟨_, _, ‹_›, _, ‹_›⟩

/-- What every step of a list does to the draft, the list does. -/
theorem Steps.lift {x : α → Build β} {R : Draft → Draft → Prop} (refl : ∀ d, R d d)
    (trans : ∀ {a b c}, R a b → R b c → R a c) {as : List α} {bs : List β}
    (h : Steps x d as bs d') (hx : ∀ a ∈ as, ∀ {d b d'}, (x a).Gives d b d' → R d d') : R d d' := by
  induction h with
  | nil => exact refl _
  | cons h _ ih =>
    exact trans (hx _ List.mem_cons_self h) (ih fun a ha => hx a (List.mem_cons_of_mem _ ha))

end Build

end RecordGraph
