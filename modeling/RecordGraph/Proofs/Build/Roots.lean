import RecordGraph.Proofs.Build.Pages
/-! The roots of a built model. They are built last, each under a name that is fixed, and the first type of a
name stays: a record of the schema that has the name of a root, and that the seeds or the roots before it have
registered, takes its place. Otherwise the type of a root has the fields of its record, whatever else the build
comes to. -/

namespace RecordGraph

/-- The records of the roots under the names of their types, in the order in which they are built. -/
def RootRecords.named (roots : RootRecords) : List (String × Record) :=
  ("Query", roots.query) ::
    (roots.mutation.toList.map (Prod.mk "Mutation") ++ roots.subscription.toList.map (Prod.mk "Subscription"))

namespace Build

/-- What a build does before it comes to a root: the seeds, and the roots before it. -/
def upTo (s : Setting) (w : Walker) (before : List (String × Record)) : Build Unit := do
  seeds s w
  before.forM fun p => discard (root s w p.1 p.2)

end Build

namespace Model

/-- The registry of a model as the draft that its build left. -/
def draft (m : Model) : Draft := { types := m.types }

/-- The fields of an object type are those that a record shows to clients. -/
def Shows (m : Model) (s : Setting) (r : Record) (t : ObjectType) : Prop :=
  List.Forall₂ (OutputForm s {} m.draft) (r.fields.filter Field.inOutput) t.fields

/-- Each root has an object type of its name with the fields of its record. -/
def RootsDeclared (m : Model) (s : Setting) (roots : RootRecords) : Prop :=
  ∀ p ∈ roots.named, ∃ t, m.type? p.1 = some (.object t) ∧ m.Shows s p.2 t

/-- When the build comes to a root, an object type has its name. It is made of another record of the schema,
and stays without the fields of the root. -/
structure Preempts (m : Model) (s : Setting) (roots : RootRecords) (before : List (String × Record))
    (root : String × Record) (other : Record) : Prop where
  known : other ∈ s.knownRecords
  name_eq : other.name = root.1
  early : ∃ t, ((Build.upTo s (s.walker (rootList roots)) before).after {}).types.get? root.1 =
    some (.object t) ∧ m.type? root.1 = some (.object t) ∧ m.Shows s other t ∧ ¬ m.Shows s root.2 t

/-- A record of the schema takes the place of some root. -/
def Preempted (m : Model) (s : Setting) (roots : RootRecords) : Prop :=
  ∃ before root after other, roots.named = before ++ root :: after ∧ m.Preempts s roots before root other

end Model

/-! The roots as a list of steps. -/

namespace Build

variable {α : Type} {s : Setting} {roots : RootRecords} {w : Walker} {d d' : Draft} {steps : Nat}
  {name : String}

theorem gives_forM_append {x : α → Build Unit} {as as' : List α} {u : Unit} :
    ((as ++ as').forM x).Gives d u d' ↔ ∃ e, (as.forM x).Gives d () e ∧ (as'.forM x).Gives e () d' := by
  induction as generalizing d with
  | nil =>
    change (as'.forM x).Gives d () d' ↔ ∃ e, (pure () : Build Unit).Gives d () e ∧ _
    simp only [gives_pure, true_and, exists_eq_left]
  | cons a as ih =>
    change (x a >>= fun _ => (as ++ as').forM x).Gives d u d' ↔
      ∃ e, (x a >>= fun _ => as.forM x).Gives d () e ∧ _
    simp only [gives_bind, ih]
    constructor
    · rintro ⟨b, d1, hb, e, h1, h2⟩
      exact ⟨e, ⟨b, d1, hb, h1⟩, h2⟩
    · rintro ⟨e, ⟨b, d1, hb, h1⟩, h2⟩
      exact ⟨b, d1, hb, e, h1, h2⟩

theorem gives_optionalRoot {r : Option Record} {out : Option String}
    (h : (optionalRoot s w name r).Gives d out d') :
    ((r.toList.map (Prod.mk name)).forM fun p => discard (root s w p.1 p.2)).Gives d () d' := by
  cases r with
  | none => exact gives_pure.mpr ⟨rfl, (gives_pure.mp h).2⟩
  | some r =>
    obtain ⟨out, hroot, -⟩ := gives_map.mp h
    exact gives_bind.mpr ⟨(), _, gives_discard.mpr ⟨out, hroot⟩, gives_pure.mpr ⟨rfl, rfl⟩⟩

/-- A whole build takes the steps up to its last root. -/
theorem gives_upTo {out : String × Option String × Option String} (h : (schema s w roots).Gives d out d') :
    (upTo s w roots.named).Gives d () d' := by
  simp only [schema, gives_bind, gives_pure] at h
  obtain ⟨u, d1, hseeds, query, d2, hquery, mutation, d3, hmutation, subscription, d4, hsubscription, -, rfl⟩ := h
  refine gives_bind.mpr ⟨u, d1, hseeds, gives_bind.mpr ⟨(), d2, gives_discard.mpr ⟨query, hquery⟩, ?_⟩⟩
  exact gives_forM_append.mpr ⟨d3, gives_optionalRoot hmutation, gives_optionalRoot hsubscription⟩

/-- The steps up to a root are followed by the root itself. -/
theorem gives_upTo_append {before after : List (String × Record)} {p : String × Record}
    (h : (upTo s w (before ++ p :: after)).Gives d () d') : ∃ e out e',
      (upTo s w before).Gives d () e ∧ (root s w p.1 p.2).Gives e out e' ∧
        (after.forM fun p => discard (root s w p.1 p.2)).Gives e' () d' := by
  obtain ⟨u, d1, hseeds, hroots⟩ := gives_bind.mp h
  obtain ⟨e, hbefore, hrest⟩ := gives_forM_append.mp hroots
  obtain ⟨u', e', hroot, hafter⟩ := gives_bind.mp hrest
  obtain ⟨out, hroot⟩ := gives_discard.mp hroot
  exact ⟨e, out, e', gives_bind.mpr ⟨u, d1, hseeds, hbefore⟩, hroot, hafter⟩

/-- A root finds an object type of its name and leaves it, or registers its own. -/
theorem gives_root {r : Record} {out : String} (h : (root s (.within s steps) name r).Gives d out d') :
    (∃ t, d.types.get? name = some (.object t)) ∧ d' = d ∨
      ∃ t, d'.types.get? name = some (.object t) ∧
        List.Forall₂ (OutputForm s d d') (r.fields.filter Field.inOutput) t.fields := by
  obtain ⟨ref, hobject, -⟩ := gives_map.mp h
  by_cases hn : d.types.get? name = none
  · obtain ⟨fields, hforms, ht⟩ := object_forms (r := { r with name := name }) hn hobject
    exact .inr ⟨_, ht, hforms⟩
  · obtain ⟨-, ⟨ht, rfl⟩ | ⟨hn', -⟩⟩ := gives_objectNamed hobject
    · exact .inl ⟨ht, rfl⟩
    · exact absurd hn' hn

end Build

/-! The records of the roots. -/

namespace RootRecords

variable {roots : RootRecords}

theorem names_sublist (roots : RootRecords) :
    (roots.named.map Prod.fst).Sublist ["Query", "Mutation", "Subscription"] := by
  obtain ⟨query, mutation, subscription⟩ := roots
  cases mutation <;> cases subscription <;> simp [named]

theorem eq_of_fst_eq {p q : String × Record} (hp : p ∈ roots.named) (hq : q ∈ roots.named)
    (h : p.1 = q.1) : p = q :=
  List.inj_on_of_nodup_map ((names_sublist roots).nodup (by decide)) hp hq h

/-- No generated type has the name of a root. -/
theorem fst_ne_generated {p : String × Record} (hp : p ∈ roots.named) (element : String) (part : Part) :
    p.1 ≠ element ++ part.last := by
  intro he
  have hsuffix : part.last.toList <:+ p.1.toList := ⟨element.toList, by rw [he, String.toList_append]⟩
  have hno : ∀ name ∈ ["Query", "Mutation", "Subscription"], ¬ part.last.toList <:+ name.toList := by
    cases part <;> decide
  exact hno _ ((names_sublist roots).subset (List.mem_map_of_mem hp)) hsuffix

end RootRecords

namespace Setting

variable {s : Setting} {roots : RootRecords}

theorem declared_eq (s : Setting) (roots : RootRecords) :
    s.declared roots = s.knownRecords ++ roots.named.map fun p => { p.2 with name := p.1 } := by
  simp [declared, RootRecords.named, Function.comp_def]

theorem declared_of_named {p : String × Record} (h : p ∈ roots.named) :
    { p.2 with name := p.1 } ∈ s.declared roots := by
  rw [declared_eq]
  exact List.mem_append_right _ (List.mem_map_of_mem h)

/-- A declared record with the name of a root is known apart from the roots, or it is that root. -/
theorem known_or_root {p : String × Record} {r : Record} (h : p ∈ roots.named) (hr : r ∈ s.declared roots)
    (hname : r.name = p.1) : r ∈ s.knownRecords ∨ r = { p.2 with name := p.1 } := by
  rw [declared_eq, List.mem_append] at hr
  refine hr.imp_right fun hr => ?_
  obtain ⟨q, hq, rfl⟩ := List.mem_map.mp hr
  rw [RootRecords.eq_of_fst_eq hq h hname]

end Setting

namespace Build

variable {s : Setting} {roots : RootRecords} {d d' : Draft} {steps : Nat} {before : List (String × Record)}

theorem makes_roots (hb : before ⊆ roots.named) {u : Unit}
    (h : (before.forM fun p => discard (root s (.within s steps) p.1 p.2)).Gives d u d') :
    d.Makes s roots d' := by
  obtain ⟨us, hs⟩ := gives_forM.mp h
  refine hs.makes fun p hp {e b e'} hg => ?_
  obtain ⟨out, hroot⟩ := gives_discard.mp hg
  exact makes_root (Setting.declared_of_named (hb hp)) hroot

theorem makes_upTo (hb : before ⊆ roots.named) {u : Unit}
    (h : (upTo s (.within s steps) before).Gives d u d') : d.Makes s roots d' := by
  obtain ⟨u', d1, hseeds, hroots⟩ := gives_bind.mp h
  exact (makes_seeds hseeds).trans (makes_roots hb hroots)

end Build

namespace Model

variable {s : Setting} {roots : RootRecords} {m : Model}

/-- An object type that has the name of a root is made of a declared record of that name. -/
theorem record_of_root {d : Draft} {p : String × Record} {t : ObjectType} (hp : p ∈ roots.named)
    (hm : ({} : Draft).Makes s roots d) (ht : d.types.get? p.1 = some (.object t)) :
    ∃ r ∈ s.declared roots, r.name = p.1 ∧
      List.Forall₂ (OutputForm s {} d) (r.fields.filter Field.inOutput) t.fields := by
  obtain hnone | ⟨hname, ho⟩ := hm.origin ht
  · cases hnone
  obtain ⟨r, hr, fields, hf, rfl⟩ | ⟨element, part, hpart, -⟩ := declared_or_generated ho
  · exact ⟨r, hr, hname.symm, hf.forms.imp fun _ _ h => h.toOutputForm⟩
  · exact absurd (hname.trans hpart) (RootRecords.fst_ne_generated hp element part)

/-- The fields that a type has in some draft of the build it has in the model. -/
theorem shows_of_forms {e e' : Draft} {r : Record} {t : ObjectType} (h1 : ({} : Draft).Grows e)
    (h2 : e'.types.Keeps m.types)
    (h : List.Forall₂ (OutputForm s e e') (r.fields.filter Field.inOutput) t.fields) : m.Shows s r t :=
  h.imp fun _ _ hf => hf.widen h1 h2

/-- Each root of a built model has the fields of its record, exactly if no other record of the schema took the
place of one. -/
theorem roots_declared_iff (h : build s roots = .ok m) : m.RootsDeclared s roots ↔ ¬ m.Preempted s roots := by
  obtain ⟨d, hd, htypes⟩ := gives_of_build h
  constructor
  · rintro hdeclared ⟨before, p, after, other, hp, hpre⟩
    obtain ⟨t, -, ht, -, hno⟩ := hpre.early
    obtain ⟨t', ht', hshows⟩ := hdeclared p (hp ▸ List.mem_append_right _ List.mem_cons_self)
    cases ht.symm.trans ht'
    exact hno hshows
  · intro hno p hp
    obtain ⟨before, after, hsplit⟩ := List.append_of_mem hp
    obtain ⟨e, out, e', hbefore, hroot, hafter⟩ := Build.gives_upTo_append (hsplit ▸ Build.gives_upTo hd)
    have hsub : before ⊆ roots.named := hsplit ▸ List.subset_append_left _ _
    have hsub' : after ⊆ roots.named := by
      rw [hsplit]
      exact fun q hq => List.mem_append_right _ (List.mem_cons_of_mem _ hq)
    have hm : ({} : Draft).Makes s roots e := Build.makes_upTo hsub hbefore
    have hrest : e'.Grows d := (Build.makes_roots hsub' hafter).grows
    obtain ⟨⟨t, ht⟩, rfl⟩ | ⟨t, ht, hforms⟩ := Build.gives_root hroot
    · have hfinal : m.type? p.1 = some (.object t) := by
        rw [type?, ← htypes]
        exact hrest.types ht
      refine ⟨t, hfinal, by_contra fun hdiffers => hno ?_⟩
      obtain ⟨r, hr, hname, hforms⟩ := record_of_root hp hm ht
      have hshows : m.Shows s r t := shows_of_forms (.refl _) (htypes ▸ hrest.keeps) hforms
      -- Another root has another name, so a declared record of this name is a known one or the root itself.
      rcases Setting.known_or_root hp hr hname with hknown | rfl
      · exact ⟨before, p, after, r, hsplit, hknown, hname, t, by rw [hbefore.after_eq]; exact ht, hfinal,
          hshows, hdiffers⟩
      · exact absurd hshows hdiffers
    · refine ⟨t, ?_, shows_of_forms hm.grows (htypes ▸ hrest.keeps) hforms⟩
      rw [type?, ← htypes]
      exact hrest.types ht

theorem roots_bookshop : ∃ m, build (bookshop []) shopRoots = .ok m ∧ m.RootsDeclared (bookshop []) shopRoots ∧
    ¬ m.Preempted (bookshop []) shopRoots := by
  obtain ⟨m, hm⟩ : ∃ m, build (bookshop []) shopRoots = .ok m := ⟨_, rfl⟩
  have hno : ¬ m.Preempted (bookshop []) shopRoots := by
    rintro ⟨before, root, after, other, hroot, hpre⟩
    have hbook : other.name = "Book" := by
      obtain rfl := List.mem_singleton.mp (show other ∈ (bookshop []).knownRecords from hpre.known)
      rfl
    have hquery : root.1 = "Query" := by
      have hmem : root ∈ shopRoots.named := hroot ▸ List.mem_append_right _ List.mem_cons_self
      obtain rfl := List.mem_singleton.mp (show root ∈ [("Query", shopRoots.query)] from hmem)
      rfl
    exact absurd (hbook.symm.trans (hpre.name_eq.trans hquery)) (by decide)
  exact ⟨m, hm, (roots_declared_iff hm).mpr hno, hno⟩

/-- The bookshop with a record of its visitors, which has the name of the root of queries. -/
def visitedShop : Setting :=
  { bookshop [] with options :=
      { queryTypes := [{ name := "Query", fields := [{ name := "visitors", type := .scalar "i64" }] }] } }

/-- Its queries ask for visitors, not for books. -/
theorem preempted_visitedShop : ∃ m, build visitedShop shopRoots = .ok m ∧
    ¬ m.RootsDeclared visitedShop shopRoots := by
  obtain ⟨m, t, out, hm, ht, hfields, hname⟩ : ∃ m t out, build visitedShop shopRoots = .ok m ∧
      m.type? "Query" = some (.object t) ∧ t.fields = [out] ∧ out.name = "visitors" := ⟨_, _, _, rfl, rfl, rfl, rfl⟩
  refine ⟨m, hm, fun hdeclared => ?_⟩
  obtain ⟨t', ht', hshows⟩ := hdeclared ("Query", shopRoots.query) List.mem_cons_self
  cases ht.symm.trans ht'
  rw [Shows, hfields] at hshows
  have hbooks : out.name = "books" := by
    cases hshows with
    | cons hform _ => exact hform.name
  exact absurd (hname.symm.trans hbooks) (by decide)

end Model

end RecordGraph
