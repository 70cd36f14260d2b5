import RecordGraph.Proofs.Build.Origin
import RecordGraph.Proofs.Except
import RecordGraph.Proofs.Execute.Blind
/-! Mutate handlers and queries. The kind of a request is read off its text apart from the operation that is
executed; the two agree on every request that is executed, because an operation without a name stands alone
in its document. So the response to a query cannot tell which mutate handlers there are, and during any
operation a field that is not one of the mutation root cannot tell either. -/

namespace RecordGraph

namespace Document

variable {d : Document} {o : Operation} {text : String} {name : Option String}

theorem wellNamed_of_read (h : read? text = some d) : d.wellNamed = true := by
  unfold read? readWithin? at h
  dsimp only at h
  split at h
  · rename_i hd
    cases h
    exact hd.2
  · cases h

theorem name_of_nameless (hn : d.nameless? = some o) : o.name = none := by
  have hnone := List.find?_some (show d.operations.find? (fun o => o.name.isNone) = some o from hn)
  exact Option.isNone_iff_eq_none.mp hnone

/-- An operation without a name is the only one. -/
theorem operations_of_nameless (h : d.wellNamed = true) (hn : d.nameless? = some o) : d.operations = [o] := by
  have hmem : o ∈ d.operations := List.mem_of_find?_eq_some hn
  unfold wellNamed at h
  simp only [Bool.and_eq_true, Bool.or_eq_true, beq_iff_eq, List.length_map, List.all_map] at h
  rcases h.1.1.2 with hall | hone
  · have hsome : o.name.isSome = true := List.all_eq_true.mp hall o hmem
    rw [name_of_nameless hn] at hsome
    exact absurd hsome (by decide)
  · obtain ⟨only, honly⟩ := List.length_eq_one_iff.mp hone
    rw [honly] at hmem ⊢
    rw [List.mem_singleton.mp hmem]

/-- The operation that a request means has the kind that is read off its text. -/
theorem kindOf_eq (hread : read? text = some d) (ho : d.chosen? name = some o) : kindOf text name = o.kind := by
  simp only [kindOf, hread, Option.bind_eq_bind, Option.bind_some]
  cases hn : d.nameless? with
  | none => rw [ho]; rfl
  | some only =>
    have honly := operations_of_nameless (wellNamed_of_read hread) hn
    cases name with
    | none =>
      unfold chosen? at ho
      rw [honly] at ho
      cases ho
      rfl
    | some name =>
      change d.operations.find? (fun o => o.name == some name) = some o at ho
      rw [honly, List.find?_singleton, name_of_nameless hn] at ho
      cases ho

end Document

namespace Request

variable {r : Request} {p : Prepared}

theorem chosen_of_operation {d : Document} {o : Operation} (h : r.operation d = .ok o) :
    d.chosen? r.operationName = some o := by
  unfold operation at h
  split at h
  · rename_i ho
    cases h
    exact ho
  all_goals cases h

/-- What is executed is the operation that the request means. -/
theorem operation_of_prepare {t : TypeTable} {settings : EngineSettings} (h : r.prepare t settings = .ok p) :
    ∃ d o, Document.read? r.text = some d ∧ d.chosen? r.operationName = some o ∧ p.kind = o.kind := by
  delta prepare at h
  dsimp only at h
  split at h
  · rename_i d hd
    split at h
    · split at h
      · obtain ⟨-, -, h⟩ := bind_eq_ok.mp h
        obtain ⟨o, ho, hp⟩ := bind_eq_ok.mp h
        cases hp
        exact ⟨d, o, hd, chosen_of_operation ho, rfl⟩
      · cases h
    · cases h
  · cases h

/-- The kind of what is executed is the one read off the text. -/
theorem kindOf_prepared {t : TypeTable} {settings : EngineSettings} (h : r.prepare t settings = .ok p) :
    Document.kindOf r.text r.operationName = p.kind := by
  obtain ⟨d, o, hread, ho, hkind⟩ := operation_of_prepare h
  exact (Document.kindOf_eq hread ho).trans hkind.symm

end Request

/-! Host code of built schemas. -/

/-- The codecs and loaders that a schema brings along do not look at mutate handlers. -/
structure Setting.Blind (s : Setting) (roots : RootRecords) : Prop where
  codec : ∀ t ∈ s.options.scalars, t.codec.Blind
  loader : ∀ r ∈ s.declared roots, ∀ l, r.loader = some l → Loader.Blind l

/-- The types of paging are objects and interfaces. -/
theorem Build.fields?_markerTypes {s : Setting} {id string boolean : TypeRef} {t : WireType}
    (ht : t ∈ markerTypes s id string boolean) : t.fields?.isSome = true := by
  simp only [markerTypes, List.mem_cons, List.not_mem_nil, or_false] at ht
  rcases ht with rfl | rfl | rfl | rfl <;> rfl

namespace Model

variable {m m' : Model}

/-- Scalars are known to every schema or brought along, and loaders are those of records. -/
theorem blind_of_build {s : Setting} {roots : RootRecords} (h : build s roots = .ok m) (hs : s.Blind roots) :
    m.Blind := by
  obtain ⟨d, -, -, horigin⟩ := origins_of_build h
  constructor
  · intro name t ht
    obtain ⟨-, ho⟩ := horigin ht
    generalize hw : WireType.scalar t = w at ho
    cases ho with
    | scalar hfound =>
      cases hw
      have hmem := List.mem_reverse.mp (List.mem_of_find?_eq_some hfound)
      rcases List.mem_append.mp hmem with hdefault | hown
      · exact ScalarCodec.blind_defaultScalars hdefault
      · exact hs.codec _ hown
    | marker _ _ _ hmarker =>
      subst hw
      exact absurd (Build.fields?_markerTypes hmarker) Bool.false_ne_true
    | _ => cases hw
  · intro name t l ht hl
    obtain ⟨-, ho⟩ := horigin ht
    generalize hw : WireType.inputObject t = w at ho
    cases ho with
    | inputObject hr =>
      cases hw
      exact hs.loader _ hr l hl
    | marker _ _ _ hmarker =>
      subst hw
      exact absurd (Build.fields?_markerTypes hmarker) Bool.false_ne_true
    | _ => cases hw

/-- Models that differ in mutate handlers only look at them equally little. -/
theorem Blind.of_bare_eq (h : m.Blind) (hbare : m.bare = m'.bare) : m'.Blind := by
  have htype (name : String) : (m.type? name).map WireType.bare = (m'.type? name).map WireType.bare := by
    rw [← type?_bare, ← type?_bare, hbare]
  constructor
  · intro name t' ht'
    have hmap := htype name
    rw [ht'] at hmap
    obtain ⟨t, ht, hbare⟩ := Option.map_eq_some_iff.mp hmap
    cases t with
    | scalar t =>
      have hsame : t.bare = t'.bare := WireType.scalar.inj hbare
      have hcodec : t.bare.codec.serialize = t'.bare.codec.serialize := by rw [hsame]
      intro v
      change t'.bare.codec.serialize v.bare = t'.bare.codec.serialize v
      rw [← hcodec]
      exact h.codec ht v
    | _ => cases hbare
  · intro name t' l' ht' hl' fields
    have hmap := htype name
    rw [ht'] at hmap
    obtain ⟨t, ht, hbare⟩ := Option.map_eq_some_iff.mp hmap
    cases t with
    | inputObject t =>
      have hloader : t.loader.map (fun l fields => (l fields).map Value.bare) =
          t'.loader.map fun l fields => (l fields).map Value.bare :=
        congrArg InputObjectType.loader (WireType.inputObject.inj hbare)
      rw [hl'] at hloader
      obtain ⟨l, hl, heq⟩ := Option.map_eq_some_iff.mp hloader
      have hsame (fields : List (String × Value)) : (l fields).map Value.bare = (l' fields).map Value.bare :=
        congrFun heq fields
      rw [← hsame, ← hsame]
      exact h.loader ht hl fields
    | _ => cases hbare

end Model

/-! Two runs. -/

/-- Two computations give results that are seen as the same, from states that are alike to states that are
alike. States are alike when they come down to the same state of a third kind. -/
def Alike {σ σ' τ α β γ : Type} (R : σ → τ → Prop) (R' : σ' → τ → Prop) (f : α → γ) (g : β → γ)
    (x : StateM σ α) (y : StateM σ' β) : Prop :=
  ∀ s s' t, R s t → R' s' t → f (x.run s).1 = g (y.run s').1 ∧ ∃ t', R (x.run s).2 t' ∧ R' (y.run s').2 t'

theorem Erases.alike {σ σ' τ α β γ : Type} {R : σ → τ → Prop} {R' : σ' → τ → Prop} {f : α → γ} {g : β → γ}
    {x : StateM σ α} {y : StateM σ' β} {z : StateM τ γ} (hx : Erases R f x z) (hy : Erases R' g y z) :
    Alike R R' f g x y := by
  intro s s' t hs hs'
  obtain ⟨hf, hr⟩ := hx s t hs
  obtain ⟨hg, hr'⟩ := hy s' t hs'
  exact ⟨hf.symm.trans hg, _, hr, hr'⟩

namespace Service

variable {σ σ' τ : Type} {R : σ → τ → Prop} {R' : σ' → τ → Prop} {s : Service σ} {s' : Service σ'}
  {b : Service τ} {host : Host σ} {settings : EngineSettings} {source : SchemaSource}

/-- What a service is built with. -/
def settingOf (settings : EngineSettings) (source : SchemaSource) : Setting :=
  ⟨source.catalogue, { source.options with camelCase := settings.camelCase }⟩

theorem model_of_build (h : build host settings source = .ok s) :
    Model.build (settingOf settings source) source.records = .ok s.model := by
  obtain ⟨m, hm, h⟩ := bind_eq_ok.mp h
  obtain ⟨-, -, hp⟩ := bind_eq_ok.mp h
  cases hp
  exact mapError_eq_ok.mp hm

/-- Mutate handlers cannot be told by queries. A built service and one that differs from it in mutate handlers
only, of any value that is involved, give the same response to a query; and a field that is not one of the
mutation root during a mutation has the same result for both. What counts as a query is read off the text of
a request, and is what is executed. -/
theorem mutate_handlers_unseen (hbuild : build host settings source = .ok s)
    (hblind : (settingOf settings source).Blind source.records) (hs : s.Erases R b) (hs' : s'.Erases R' b) :
    (∀ r r' : Request, r.bare = r'.bare → Document.kindOf r.text r.operationName = .query →
      Alike R R' id id (s.run r) (s'.run r')) ∧
    (∀ request : FieldRequest, s.model.atMutationRoot request = false → ∀ parent parent' : Value,
      parent.bare = parent'.bare → Alike R R' (Except.map Output.bare) (Except.map Output.bare)
        (s.model.resolveOutput s.host parent request).run (s'.model.resolveOutput s'.host parent' request).run) ∧
    ∀ r p, s.prepare r = .ok p → Document.kindOf r.text r.operationName = p.kind := by
  have hbare : s.model.bare = s'.model.bare := hs.model.symm.trans hs'.model
  have hm : s.model.Blind := Model.blind_of_build (model_of_build hbuild) hblind
  have hm' : s'.model.Blind := hm.of_bare_eq hbare
  refine ⟨fun r r' hr hquery => ?_, fun request haway parent parent' hparent => ?_, fun r p hp => ?_⟩
  · have hkind {υ : Type} (u : Service υ) (q : Request) (hq : Document.kindOf q.text q.operationName = .query) (p)
        (hp : u.prepare q = .ok p) : p.kind ≠ .mutation := by
      rw [← Request.kindOf_prepared hp, hq]
      nofun
    have hquery' : Document.kindOf r'.text r'.operationName = .query := by
      have hsame : Document.kindOf r.bare.text r.bare.operationName =
          Document.kindOf r'.bare.text r'.bare.operationName := by rw [hr]
      exact hsame.symm.trans hquery
    have hx := hs.run (r := r) hm (hkind s r hquery)
    have hy := hs'.run (r := r') hm' (hkind s' r' hquery')
    rw [← hr] at hy
    exact hx.alike hy
  · have haway' : s'.model.atMutationRoot request = false := by
      have hsame : s.model.bare.atMutationRoot request = s'.model.bare.atMutationRoot request := by rw [hbare]
      exact hsame.symm.trans haway
    have hx := Model.erases_resolveOutput hs.host hm haway parent
    have hy := Model.erases_resolveOutput hs'.host hm' haway' parent'
    rw [← hbare, ← hparent] at hy
    exact hx.alike hy
  · exact Request.kindOf_prepared hp

/-- A service without mutate handlers, on a host without them. -/
def bare (s : Service σ) (host : Host τ) : Service τ :=
  { model := s.model.bare, settings := s.settings, host := host
    values := { query := s.values.query.bare, mutation := s.values.mutation.bare
                subscription := s.values.subscription.bare } }

theorem erases_bare {host : Host τ} (h : s.host.Erases R host) : s.Erases R (s.bare host) where
  model := rfl
  settings := rfl
  values kind := by cases kind <;> rfl
  host := h

/-- A host without native handlers has nothing to hide. -/
theorem erases_plain : Host.plain.Erases Eq Host.plain := fun _ _ _ => Hosted.erases_throw _

/-- A shop with a mutate handler for a field that is no mutation. -/
def eagerShop : SchemaSource where
  records := { query := { name := "Shop", fields := [{ name := "nickname", type := .scalar "String" }] } }
  values := { query := .source (.mk "Shop" [("nickname", .string "Corner")] []
                                  [("nickname", .fail "not to be called")] []) }

/-- The values of the same shop without the handler. -/
def calmValues : RootValues where
  query := .source (.mk "Shop" [("nickname", .string "Corner")] [] [] [])

theorem eagerShop_answers_calmly : ∃ s s' : Service Unit, build Host.plain {} eagerShop = .ok s ∧
    s'.values = calmValues ∧ s.Erases Eq (s.bare Host.plain) ∧ s'.Erases Eq (s.bare Host.plain) ∧
      ((s.run { text := "{ nickname }" }).run ()).1 = ((s'.run { text := "{ nickname }" }).run ()).1 := by
  obtain ⟨s, hbuild, hvalues, hhost⟩ : ∃ s, build Host.plain {} eagerShop = .ok s ∧
      s.values = eagerShop.values ∧ s.host = Host.plain := ⟨_, rfl, rfl, rfl⟩
  have hblind : (settingOf {} eagerShop).Blind eagerShop.records := by
    refine ⟨nofun, fun r hr l hl => ?_⟩
    have hnone : r.loader = none := by
      simp only [Setting.declared, Setting.knownRecords, settingOf, eagerShop, List.map_nil, List.nil_append,
        List.append_nil, Option.toList_none, List.mem_singleton] at hr
      rw [hr]
    rw [hnone] at hl
    cases hl
  have hplain : s.host.Erases Eq Host.plain := hhost ▸ erases_plain
  have hs : s.Erases Eq (s.bare Host.plain) := erases_bare hplain
  have hs' : Service.Erases Eq { s with values := calmValues } (s.bare Host.plain) :=
    { hs with
      values := fun kind => by
        rw [hs.values, hvalues]
        cases kind <;> rfl }
  obtain ⟨hqueries, -, -⟩ := mutate_handlers_unseen hbuild hblind hs hs'
  have halike := hqueries { text := "{ nickname }" } { text := "{ nickname }" } rfl (by decide +kernel)
  exact ⟨s, { s with values := calmValues }, hbuild, rfl, hs, hs', (halike () () () rfl rfl).1⟩

end Service

end RecordGraph
