import RecordGraph.Proofs.Build.Closure
import RecordGraph.Proofs.Build.Memo
/-! Steps that fail. A step that fails leaves a draft behind, with whatever it had registered by then. Where it has
registered nothing that it looks at, it fails in the same way once more, in the draft it left and in any that has
grown from it. Scalars, enums and the types of paging are registered at once or not at all, so they are like that. -/

namespace RecordGraph

namespace Build

variable {α β : Type} {x : Build α} {f : α → Build β} {d d' d'' : Draft} {e : ModelError}

/-- The step fails and leaves a draft. -/
def Fails (x : Build α) (d : Draft) (e : ModelError) (d' : Draft) : Prop := outcome x d = (.error e, d')

theorem Fails.after_eq (h : x.Fails d e d') : x.after d = d' := congrArg Prod.snd h

theorem Grows.of_fails (hx : x.Grows) (h : x.Fails d e d') : d.Grows d' := h.after_eq ▸ hx d

theorem Gives.not_fails {a : α} {d₁ d₂ : Draft} (h : x.Gives d a d₁) : ¬ x.Fails d e d₂ := by
  intro hf
  cases (show _ = _ from h).symm.trans hf

theorem fails_pure {a : α} : ¬ (pure a : Build α).Fails d e d' := (gives_pure.mpr ⟨rfl, rfl⟩).not_fails

theorem fails_throw {e' : ModelError} : (throw e' : Build α).Fails d e d' ↔ e = e' ∧ d' = d := by
  change (Except.error e', d) = (Except.error e, d') ↔ _
  simp [eq_comm]

/-- Steps in a row fail if the first does, or gives a value and the rest fails. -/
theorem fails_bind : (x >>= f).Fails d e d'' ↔ x.Fails d e d'' ∨ ∃ a d', x.Gives d a d' ∧ (f a).Fails d' e d'' := by
  unfold Fails Gives
  rw [outcome_bind]
  cases x.outcome d with
  | mk r d1 => cases r <;> simp

theorem fails_type? {name : String} {f : Option WireType → Build β} :
    (type? name >>= f).Fails d e d' ↔ (f (d.types.get? name)).Fails d e d' := Iff.rfl

theorem outcome_type? {name : String} {f : Option WireType → Build β} :
    (type? name >>= f).outcome d = (f (d.types.get? name)).outcome d := rfl

theorem fails_modify {g : Draft → Draft} {f : Unit → Build β} :
    ((modify g : Build Unit) >>= f).Fails d e d' ↔ (f ()).Fails (g d) e d' := Iff.rfl

theorem fails_guard {c : Prop} [Decidable c] {e' : ModelError} :
    (if c then (throw e' : Build Unit) >>= fun _ => x else x).Fails d e d' ↔
      c ∧ e = e' ∧ d' = d ∨ ¬ c ∧ x.Fails d e d' := by
  split
  · rename_i hc
    simp only [fails_bind, fails_throw, gives_throw, false_and, exists_false, or_false, hc, true_and,
      not_true_eq_false]
  · rename_i hc
    simp [hc]

/-- A step for each item of a list fails at one of them. -/
theorem fails_forM {x : α → Build Unit} {as : List α} (h : (as.forM x).Fails d e d') :
    ∃ before a after us d₁, as = before ++ a :: after ∧ Steps x d before us d₁ ∧ (x a).Fails d₁ e d' := by
  induction as generalizing d with
  | nil => exact (fails_pure h).elim
  | cons a as ih =>
    obtain h | ⟨u, d1, ha, h⟩ := fails_bind.mp h
    · exact ⟨[], a, as, [], d, rfl, .nil, h⟩
    · obtain ⟨before, a', after, us, d2, rfl, hs, hfail⟩ := ih h
      exact ⟨a :: before, a', after, _, d2, rfl, .cons ha hs, hfail⟩

/-! Steps that do again what they have done. -/

/-- Whatever a draft has grown since, the step gives the value there that it gave, and fails there as it failed,
and leaves the draft as it is. -/
structure Firm (x : Build α) : Prop where
  grows : x.Grows
  gives : ∀ {d a d' d''}, x.Gives d a d' → d'.Grows d'' → x.Gives d'' a d''
  fails : ∀ {d e d' d''}, x.Fails d e d' → d'.Grows d'' → x.Fails d'' e d''

theorem firm_pure (a : α) : (pure a : Build α).Firm where
  grows := grows_pure a
  gives h _ := by
    obtain ⟨rfl, -⟩ := gives_pure.mp h
    exact gives_pure.mpr ⟨rfl, rfl⟩
  fails h := (fails_pure h).elim

theorem firm_bind (hx : x.Firm) (hf : ∀ a, (f a).Firm) : (x >>= f).Firm where
  grows := grows_bind hx.grows fun a => (hf a).grows
  gives h hd := by
    obtain ⟨a, d1, ha, hb⟩ := gives_bind.mp h
    have h1 := ((hf a).grows.of_gives hb).trans hd
    exact gives_bind.mpr ⟨a, _, hx.gives ha h1, (hf a).gives hb hd⟩
  fails h hd := by
    obtain h | ⟨a, d1, ha, hb⟩ := fails_bind.mp h
    · exact fails_bind.mpr (.inl (hx.fails h hd))
    · have h1 := ((hf a).grows.of_fails hb).trans hd
      exact fails_bind.mpr (.inr ⟨a, _, hx.gives ha h1, (hf a).fails hb hd⟩)

theorem firm_forM {x : α → Build Unit} {as : List α} (hx : ∀ a ∈ as, (x a).Firm) : (as.forM x).Firm := by
  induction as with
  | nil => exact firm_pure ()
  | cons a as ih =>
    rw [List.forall_mem_cons] at hx
    exact firm_bind hx.1 fun _ => ih hx.2

variable {s : Setting}

theorem fails_addUnlessPresent {t : WireType} (h : (addUnlessPresent t).Fails d e d') :
    d' = d ∧ e = .nameConflict t.name ∧ ∃ u, d.types.get? t.name = some u ∧ u.kind ≠ t.kind := by
  rw [addUnlessPresent, fails_type?] at h
  split at h
  · rename_i u hu
    split at h
    · exact (fails_pure h).elim
    · rename_i hk
      obtain ⟨rfl, rfl⟩ := fails_throw.mp h
      exact ⟨rfl, rfl, u, hu, hk⟩
  · cases h

theorem firm_addUnlessPresent {t : WireType} (hk : t.NamedByKind) : (addUnlessPresent t).Firm where
  grows := grows_addUnlessPresent hk
  gives {d u d' d''} h hd := by
    obtain ⟨v, hv, hkind⟩ : ∃ v, d'.types.get? t.name = some v ∧ v.kind = t.kind := by
      obtain ⟨v, hv, hkind, rfl⟩ | ⟨hn, rfl⟩ := gives_addUnlessPresent h
      · exact ⟨v, hv, hkind⟩
      · exact ⟨t, Draft.get?_add_self hn, rfl⟩
    refine gives_bind.mpr ⟨_, d'', gives_type?.mpr ⟨(hd.types hv).symm, rfl⟩, ?_⟩
    simp only [hkind, if_true]
    exact gives_pure.mpr ⟨rfl, rfl⟩
  fails {d e d' d''} h hd := by
    obtain ⟨rfl, rfl, u, hu, hkind⟩ := fails_addUnlessPresent h
    rw [addUnlessPresent, fails_type?, hd.types hu]
    simp only [hkind, if_false]
    exact fails_throw.mpr ⟨rfl, rfl⟩

theorem fails_scalar {hostName : String} (h : (scalar s hostName).Fails d e d') :
    d' = d ∧ e ≠ .outOfSteps ∧ (s.scalar? hostName = none ∧ e = .unmappableType hostName ∨
      ∃ t u, s.scalar? hostName = some t ∧ e = .nameConflict t.wireName ∧
        d.types.get? t.wireName = some u ∧ ∀ v, u ≠ .scalar v) := by
  unfold scalar at h
  split at h
  · obtain ⟨rfl, rfl⟩ := fails_throw.mp h
    exact ⟨rfl, by simp, .inl ⟨‹_›, rfl⟩⟩
  · rename_i t ht
    rw [fails_type?] at h
    split at h
    · exact (fails_pure h).elim
    · rename_i u hu hfound
      obtain ⟨rfl, rfl⟩ := fails_throw.mp h
      exact ⟨rfl, by simp, .inr ⟨t, u, ht, rfl, hfound, hu⟩⟩
    · cases h

theorem firm_scalar (s : Setting) (hostName : String) : (scalar s hostName).Firm where
  grows := grows_scalar s hostName
  gives {d ref d' d''} h hd := by
    obtain ⟨t, ht, rfl, -⟩ := gives_scalar h
    obtain ⟨u, hu, hk⟩ := holds_scalar h
    cases u with
    | scalar u => exact repeats_scalar ht (hd.types hu)
    | _ => exact absurd hk Bool.false_ne_true
  fails {d e d' d''} h hd := by
    obtain ⟨rfl, -, ⟨hno, rfl⟩ | ⟨t, u, ht, rfl, hu, hk⟩⟩ := fails_scalar h
    · rw [scalar, hno]
      exact fails_throw.mpr ⟨rfl, rfl⟩
    · rw [scalar, ht]
      simp only
      rw [fails_type?, hd.types hu]
      cases u with
      | scalar u => exact absurd rfl (hk u)
      | _ => exact fails_throw.mpr ⟨rfl, rfl⟩

theorem fails_enum {t : EnumType} (h : (enum t).Fails d e d') : d' = d := by
  rw [enum, fails_type?] at h
  split at h
  · exact (fails_pure h).elim
  · exact (fails_throw.mp h).2
  · obtain ⟨-, -, rfl⟩ | ⟨-, h⟩ := fails_guard.mp h
    · rfl
    · cases h

/-! The types of paging. -/

/-- Whatever the second draft holds that the first does not is a scalar or one of some types. -/
structure AddsOnly (ts : List WireType) (d d' : Draft) : Prop where
  entry : ∀ {name t}, d'.types.get? name = some t →
    d.types.get? name = some t ∨ (∃ u, t = .scalar u) ∨ name = t.name ∧ t ∈ ts

theorem AddsOnly.refl (ts : List WireType) (d : Draft) : AddsOnly ts d d := ⟨.inl⟩

theorem AddsOnly.trans {ts : List WireType} (h1 : AddsOnly ts d d') (h2 : AddsOnly ts d' d'') :
    AddsOnly ts d d'' :=
  ⟨fun ht => (h2.entry ht).elim h1.entry .inr⟩

theorem AddsOnly.mono {ts ts' : List WireType} (hts : ts ⊆ ts') (h : AddsOnly ts d d') : AddsOnly ts' d d' :=
  ⟨fun ht => (h.entry ht).imp_right (.imp_right (.imp_right fun hmem => hts hmem))⟩

theorem addsOnly_scalar {ts : List WireType} {hostName : String} {ref : TypeRef}
    (h : (scalar s hostName).Gives d ref d') : AddsOnly ts d d' := by
  obtain ⟨u, -, -, ⟨-, rfl⟩ | ⟨-, rfl⟩⟩ := gives_scalar h
  · exact .refl ts _
  · exact ⟨fun ht => (Draft.get?_add_cases ht).imp_right fun hnew => .inl ⟨u, hnew.2⟩⟩

theorem addsOnly_addAll {ts : List WireType} {us : List Unit} (h : Steps addUnlessPresent d ts us d') :
    AddsOnly ts d d' :=
  ⟨fun ht => (get?_addAll_cases h ht).imp_right .inr⟩

/-- The steps that register the types of paging, where the interface of connections is yet to be registered. -/
def markersAnew (s : Setting) : Build Unit := do
  let id ← scalar s "ID"
  let string ← scalar s "String"
  let boolean ← scalar s "bool"
  (markerTypes s id string boolean).forM addUnlessPresent

theorem firm_markersAnew (s : Setting) : (markersAnew s).Firm :=
  firm_bind (firm_scalar s _) fun _ => firm_bind (firm_scalar s _) fun _ => firm_bind (firm_scalar s _) fun _ =>
    firm_forM fun t ht => firm_addUnlessPresent (namedByKind_markerTypes t ht)

/-- The last type of paging is the interface of connections, so the steps fail before it is there. -/
theorem fails_markersAnew (h : (markersAnew s).Fails d e d') : ∃ id string boolean,
    AddsOnly (markerTypes s id string boolean).dropLast d d' := by
  obtain h | ⟨id, d1, h1, h⟩ := fails_bind.mp h
  · obtain ⟨rfl, -⟩ := fails_scalar h
    exact ⟨default, default, default, .refl _ _⟩
  obtain h | ⟨string, d2, h2, h⟩ := fails_bind.mp h
  · obtain ⟨rfl, -⟩ := fails_scalar h
    exact ⟨id, default, default, addsOnly_scalar h1⟩
  obtain h | ⟨boolean, d3, h3, h⟩ := fails_bind.mp h
  · obtain ⟨rfl, -⟩ := fails_scalar h
    exact ⟨id, string, default, (addsOnly_scalar h1).trans (addsOnly_scalar h2)⟩
  obtain ⟨before, t, after, us, d4, hlist, hs, hfail⟩ := fails_forM h
  obtain ⟨rfl, -⟩ := fails_addUnlessPresent hfail
  have hsub : before ⊆ (markerTypes s id string boolean).dropLast := by
    rw [hlist, List.dropLast_append_of_ne_nil (List.cons_ne_nil _ _)]
    exact List.subset_append_left _ _
  exact ⟨id, string, boolean, (addsOnly_scalar h1).trans ((addsOnly_scalar h2).trans
    ((addsOnly_scalar h3).trans ((addsOnly_addAll hs).mono hsub)))⟩

theorem fails_markers_iff (hno : ∀ u, d.types.get? "Connection" ≠ some (.interface u)) :
    (markers s).Fails d e d' ↔ (markersAnew s).Fails d e d' := by
  rw [markers, fails_type?]
  split
  · exact absurd ‹_› (hno _)
  · rfl

/-- Where the types of paging could not be registered, they cannot be the next time. No object but that of page
information is among those that were. -/
theorem fails_markers (h : (markers s).Fails d e d') : (markers s).Fails d' e d' ∧
    ∃ id string boolean, AddsOnly (markerTypes s id string boolean) d d' := by
  have hno : ∀ u, d.types.get? "Connection" ≠ some (.interface u) := by
    intro u hu
    rw [markers, fails_type?, hu] at h
    exact fails_pure h
  obtain ⟨id, string, boolean, hadds⟩ := fails_markersAnew ((fails_markers_iff hno).mp h)
  have hno' : ∀ u, d'.types.get? "Connection" ≠ some (.interface u) := by
    intro u hu
    obtain hold | ⟨v, hv⟩ | ⟨hname, hmem⟩ := hadds.entry hu
    · exact hno u hold
    · cases hv
    · simp only [markerTypes, List.dropLast_cons_cons, List.dropLast_singleton, List.mem_cons,
        List.not_mem_nil, or_false] at hmem
      -- Page information, nodes and edges have other names.
      rcases hmem with hmem | hmem | hmem <;> rw [hmem] at hname <;>
        exact absurd hname (by simp [WireType.name, pageInfoType])
  have hanew := (fails_markers_iff hno).mp h
  exact ⟨(fails_markers_iff hno').mpr ((firm_markersAnew s).fails hanew (.refl d')), id, string, boolean,
    hadds.mono (List.dropLast_subset _)⟩

end Build

end RecordGraph
