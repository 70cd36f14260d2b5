import RecordGraph.Proofs.Build.Kinds
import RecordGraph.Proofs.Build.Scalars
/-! Which codec a scalar field gets. The type of a field names a scalar by its wire name only, and the scalar that
was registered first under a wire name keeps it. Two host scalars with one wire name share that scalar, and a build
does not compare their codecs: one of them reads and writes by the codec of the other. -/

namespace RecordGraph

theorem TypeRef.base_marked (c : Prop) [Decidable c] (ref : TypeRef) :
    (if c then .nonNull ref else ref : TypeRef).base = ref.base := by
  split <;> rfl

namespace Setting

variable {s : Setting} {d : Draft} {t : HostType} {ref : TypeRef} {f : Field} {hostName : String}

theorem base_of_outputRef? (h : t.scalarName? = some hostName) (href : s.outputRef? t = some ref) :
    (s.scalar? hostName).map ScalarType.wireName = some ref.base := by
  induction t generalizing ref with
  | scalar name =>
    cases h
    obtain ⟨u, hu, rfl⟩ := Option.map_eq_some_iff.mp href
    rw [hu]
    rfl
  | list t ih =>
    obtain ⟨inner, hinner, rfl⟩ := Option.map_eq_some_iff.mp href
    have hbase := ih h hinner
    exact hbase
  | optional t ih => exact ih h href
  | _ => cases h

/-- A host scalar stands for one reference, whichever way it is mapped. -/
theorem inputRef?_of_scalarName? (h : t.scalarName? = some hostName) : s.inputRef? d t = s.outputRef? t := by
  induction t with
  | scalar name => rfl
  | list t ih => rw [inputRef?, outputRef?, ih h]
  | optional t ih => exact ih h
  | _ => cases h

theorem piece_of_scalarName? (named : Bool) (h : t.scalarName? = some hostName) :
    s.outputPiece? named t = s.scalarPiece? hostName ∧ s.inputPiece? named t = s.scalarPiece? hostName := by
  induction t with
  | scalar name =>
    cases h
    exact ⟨rfl, rfl⟩
  | list t ih => exact ih h
  | optional t ih => exact ih h
  | _ => cases h

theorem pagingPieces_eq : s.pagingPieces f = (s.pagingFor f).filterMap fun p => s.scalarPiece? p.2.1 := by
  unfold pagingPieces pagingFor
  cases f.type.stripOptional <;> rfl

/-- The paging arguments that a field gets are known from its declaration. -/
theorem pagingOf_eq {d' : Draft} {declared : List WireArgument}
    (h : List.Forall₂ (ArgumentForm s d d') f.arguments declared) : pagingOf f declared = s.pagingFor f := by
  unfold pagingOf pagingFor
  cases f.type.stripOptional with
  | connection kind element => exact List.filter_congr fun p _ => Build.all_name_argument h p.1
  | _ => rfl

theorem mem_of_scalar? {u : ScalarType} (h : s.scalar? hostName = some u) : u ∈ defaultScalars ++ s.options.scalars :=
  List.mem_reverse.mp (List.mem_of_find?_eq_some h)

end Setting

/-- A host scalar is configured, and a scalar has its name on the wire. -/
def Draft.Knows (s : Setting) (d : Draft) (hostName : String) : Prop :=
  ∃ u, s.scalar? hostName = some u ∧ d.types.Has u.wireName "scalar"

namespace Model

/-- The draft that a build ends with. -/
def finalDraft (s : Setting) (roots : RootRecords) : Draft := (Build.schema s (s.walker (rootList roots)) roots).after {}

/-- A type of the model is made of a piece that the build comes to, and the piece has all that it needs. -/
structure MadeOf (m : Model) (s : Setting) (roots : RootRecords) (p : Piece) (t : WireType) : Prop where
  leads : s.Leads roots p
  held : m.types.get? p.name = some t
  made : p.Makes s {} (finalDraft s roots) t
  backed : (finalDraft s roots).Backs s p

/-- A type of the model shows a declared field of the piece that it is made of. -/
def ShowsField (m : Model) (s : Setting) (roots : RootRecords) (f : Field) (out : WireField) : Prop :=
  ∃ p t fields, m.MadeOf s roots p t ∧ f ∈ p.outputs ∧ t.fields? = some fields ∧ out ∈ fields ∧
    OutputForm s {} (finalDraft s roots) f out

/-- A declared host type and the type on the wire that stands for it: at an output field, at one of its arguments,
declared or for paging, or at an input field. -/
inductive Place (m : Model) (s : Setting) (roots : RootRecords) : HostType → TypeRef → Prop
  | output {f : Field} {out : WireField} : m.ShowsField s roots f out → Place m s roots f.type out.type
  | argument {f : Field} {out : WireField} {a : Argument} {given : WireArgument} : m.ShowsField s roots f out →
      a ∈ f.arguments → given ∈ out.arguments → ArgumentForm s {} (finalDraft s roots) a given →
        Place m s roots a.type given.type
  | paging {f : Field} {out : WireField} {a : String × String × String} {given : WireArgument} :
      m.ShowsField s roots f out → a ∈ s.pagingFor f → given ∈ out.arguments → PagingForm s a given →
        Place m s roots (.scalar a.2.1) given.type
  | input {p : Piece} {t : InputObjectType} {f : Field} {out : InputField} : m.MadeOf s roots p (.inputObject t) →
      f ∈ p.inputs → out ∈ t.fields → InputForm s {} (finalDraft s roots) f out → Place m s roots f.type out.type

/-- A build maps a host scalar: it has taken up a piece that uses it. -/
def Maps (s : Setting) (roots : RootRecords) (hostName : String) : Prop :=
  (finalDraft s roots).Knows s hostName ∧
    ∃ p, s.Leads roots p ∧ Draft.Takes s {} (finalDraft s roots) p ∧ hostName ∈ s.scalarsOf p

/-- The scalar under the wire name of a host scalar has the codec that is configured for the host scalar. -/
def OwnCodec (m : Model) (s : Setting) (hostName : String) : Prop :=
  ∃ t u, s.scalar? hostName = some t ∧ m.types.get? t.wireName = some (.scalar u) ∧ u.codec = t.codec

/-- A build maps two host scalars that have one wire name and different codecs. -/
def CodecsClash (s : Setting) (roots : RootRecords) : Prop :=
  ∃ a b t u, Maps s roots a ∧ Maps s roots b ∧ s.scalar? a = some t ∧ s.scalar? b = some u ∧
    t.wireName = u.wireName ∧ t.codec ≠ u.codec

variable {m : Model} {s : Setting} {roots : RootRecords} {p : Piece} {t : WireType} {type : HostType} {ref : TypeRef}
  {hostName : String}

/-- The draft that a successful build ends with is covered with the pieces that the build comes to, and its scalars
come from them. -/
theorem finalDraft_of_build (h : build s roots = .ok m) : (finalDraft s roots).types = m.types ∧
    ({} : Draft).Covers s (s.Leads roots) (finalDraft s roots) ∧
      ({} : Draft).Draws s (s.Leads roots) (fun _ => False) (finalDraft s roots) := by
  obtain ⟨d, hd, htypes⟩ := gives_of_build h
  have hdraft : finalDraft s roots = d := hd.after_eq
  obtain ⟨refs, hs⟩ := Build.gives_starts hd
  have hclosed := Setting.closedUnder_leads s roots
  rw [hdraft]
  refine ⟨htypes, ?_, hs.draws fun p hp => Build.draws_start hclosed (Setting.leads_of_start hp)⟩
  exact hs.lift (R := Draft.Covers s (s.Leads roots)) .refl (fun h1 h2 => h1.trans h2) fun p hp =>
    Build.covers_start hclosed (Setting.leads_of_start hp)

theorem made_of_build {name : String} (h : build s roots = .ok m) (ht : m.types.get? name = some t) :
    ∃ p, p.name = name ∧ m.MadeOf s roots p t := by
  obtain ⟨htypes, hcovers, -⟩ := finalDraft_of_build h
  rcases hcovers.entry name t (htypes ▸ ht) with hnone | ⟨p, hp, rfl, hmakes, hbacks⟩
  · cases hnone
  · exact ⟨p, rfl, hp, ht, hmakes, hbacks⟩

/-- Each declared field that a type shows is a place. -/
theorem MadeOf.place {f : Field} (hm : m.MadeOf s roots p t) (hf : f ∈ p.outputs) :
    ∃ ref, m.Place s roots f.type ref := by
  obtain ⟨fields, hfields, out, hout, hform⟩ := hm.made.form_of_mem hf
  exact ⟨out.type, .output ⟨p, t, fields, hm, hf, hfields, hout, hform⟩⟩

/-- So is each argument of such a field, whether it is declared or added for paging. -/
theorem ShowsField.place {f : Field} {out : WireField} (h : m.ShowsField s roots f out) :
    ∀ given ∈ out.arguments, ∃ type, m.Place s roots type given.type := by
  intro given hgiven
  obtain ⟨p, t, fields, -, -, -, -, hform⟩ := id h
  obtain ⟨declared, paging, harguments, hdeclared, hpaging⟩ := hform.arguments
  rcases List.mem_append.mp (harguments ▸ hgiven) with hmem | hmem
  · obtain ⟨a, ha, hargument⟩ := exists_of_mem_right hdeclared hmem
    exact ⟨a.type, .argument h ha hgiven hargument⟩
  · obtain ⟨a, ha, hargument⟩ := exists_of_mem_right hpaging hmem
    exact ⟨_, .paging h (Setting.pagingOf_eq hdeclared ▸ ha) hgiven hargument⟩

theorem MadeOf.maps (hm : m.MadeOf s roots p t) (h : build s roots = .ok m) (hmem : hostName ∈ s.scalarsOf p)
    (hneed : ∀ q ∈ s.scalarPiece? hostName, q ∈ s.needs false p) {wireName : String}
    (hwire : (s.scalar? hostName).map ScalarType.wireName = some wireName) : Maps s roots hostName := by
  obtain ⟨u, hu, -⟩ := Option.map_eq_some_iff.mp hwire
  have hstands : (finalDraft s roots).Stands (.scalar u.wireName) :=
    hm.backed _ (hneed _ (by rw [Setting.scalarPiece?, hu]; rfl))
  exact ⟨⟨u, hu, hstands⟩, p, hm.leads, ⟨rfl, t, (finalDraft_of_build h).1 ▸ hm.held, .inl hm.made⟩, hmem⟩

/-- At a place of a host scalar stands its name on the wire, and the build maps it. -/
theorem Place.maps (hp : m.Place s roots type ref) (h : build s roots = .ok m)
    (hscalar : type.scalarName? = some hostName) :
    Maps s roots hostName ∧ (s.scalar? hostName).map ScalarType.wireName = some ref.base := by
  cases hp with
  | @output f out hshows =>
    obtain ⟨p, t, fields, hm, hf, -, -, hform⟩ := hshows
    obtain ⟨ref, href, htype⟩ := hform.type
    have hwire := Setting.base_of_outputRef? hscalar href
    refine ⟨hm.maps h ?_ (fun q hq => ?_) hwire, ?_⟩
    · exact Setting.mem_scalarsOf.mpr (.inr (.inl ⟨f, hf, Setting.mem_scalarsOfField.mpr (.inl hscalar)⟩))
    · refine Setting.mem_needs.mpr (.inr (.inl ⟨f, hf, Setting.mem_fieldPieces.mpr (.inl ?_)⟩))
      rwa [(Setting.piece_of_scalarName? false hscalar).1]
    · rwa [htype, TypeRef.base_marked]
  | @argument f out a given hshows ha _ hgiven =>
    obtain ⟨p, t, fields, hm, hf, -, -, -⟩ := hshows
    obtain ⟨ref, ⟨mid, -, -, href⟩, htype⟩ := hgiven.type
    rw [Setting.inputRef?_of_scalarName? hscalar] at href
    have hwire := Setting.base_of_outputRef? hscalar href
    refine ⟨hm.maps h ?_ (fun q hq => ?_) hwire, ?_⟩
    · refine Setting.mem_scalarsOf.mpr (.inr (.inl ⟨f, hf, Setting.mem_scalarsOfField.mpr (.inr (.inl ?_))⟩))
      exact ⟨a, ha, hscalar⟩
    · refine Setting.mem_needs.mpr (.inr (.inl ⟨f, hf, Setting.mem_fieldPieces.mpr (.inr (.inl ⟨a, ha, ?_⟩))⟩))
      rwa [(Setting.piece_of_scalarName? false hscalar).2]
    · rwa [htype, TypeRef.base_marked]
  | @paging f out a given hshows ha _ hgiven =>
    obtain ⟨p, t, fields, hm, hf, -, -, -⟩ := hshows
    obtain ⟨u, hu, htype⟩ := hgiven.type
    cases hscalar
    have hwire : (s.scalar? a.2.1).map ScalarType.wireName = some given.type.base := by
      rw [hu, htype]
      rfl
    refine ⟨hm.maps h ?_ (fun q hq => ?_) hwire, hwire⟩
    · refine Setting.mem_scalarsOf.mpr (.inr (.inl ⟨f, hf, Setting.mem_scalarsOfField.mpr (.inr (.inr ?_))⟩))
      exact ⟨a, ha, rfl⟩
    · refine Setting.mem_needs.mpr (.inr (.inl ⟨f, hf, Setting.mem_fieldPieces.mpr (.inr (.inr ?_))⟩))
      rw [Setting.pagingPieces_eq]
      exact List.mem_filterMap.mpr ⟨a, ha, hq⟩
  | @input p t f out hm hf _ hform =>
    obtain ⟨ref, ⟨mid, -, -, href⟩, htype⟩ := hform.type
    rw [Setting.inputRef?_of_scalarName? hscalar] at href
    have hwire := Setting.base_of_outputRef? hscalar href
    refine ⟨hm.maps h ?_ (fun q hq => ?_) hwire, ?_⟩
    · exact Setting.mem_scalarsOf.mpr (.inr (.inr ⟨f, hf, hscalar⟩))
    · refine Setting.mem_needs.mpr (.inr (.inr ⟨f, hf, ?_⟩))
      rwa [(Setting.piece_of_scalarName? false hscalar).2]
    · rwa [htype, TypeRef.base_marked]

/-- A scalar that the build has registered is that of a host scalar that it maps. -/
theorem scalar_of_build {name : String} {u : ScalarType} (h : build s roots = .ok m)
    (hu : m.types.get? name = some (.scalar u)) :
    ∃ hostName, Maps s roots hostName ∧ s.scalar? hostName = some u ∧ u.wireName = name := by
  obtain ⟨htypes, -, hdraws⟩ := finalDraft_of_build h
  rw [← htypes] at hu
  rcases hdraws.entry hu with hnone | ⟨hostName, hconf, rfl, hno | ⟨p, hp, htakes, hmem⟩⟩
  · cases hnone
  · exact hno.elim
  · exact ⟨hostName, ⟨⟨u, hconf, _, hu, rfl⟩, p, hp, htakes, hmem⟩, hconf, rfl⟩

/-- Every type of a built model is made of a piece that the build comes to, every argument stands for a host type, and
where a host type is a host scalar, the name of this scalar on the wire stands in the model. All host scalars that a
build maps find their own codec there, exactly if no two of them have one name on the wire and different codecs. -/
theorem own_codecs_iff (h : build s roots = .ok m) :
    (∀ name t, m.types.get? name = some t → ∃ p, p.name = name ∧ m.MadeOf s roots p t) ∧
      (∀ f out, m.ShowsField s roots f out → ∀ given ∈ out.arguments, ∃ type, m.Place s roots type given.type) ∧
      (∀ type ref hostName, m.Place s roots type ref → type.scalarName? = some hostName →
        Maps s roots hostName ∧ (s.scalar? hostName).map ScalarType.wireName = some ref.base) ∧
      ((∀ hostName, Maps s roots hostName → m.OwnCodec s hostName) ↔ ¬ CodecsClash s roots) := by
  refine ⟨fun name t => made_of_build h, fun f out hshows => hshows.place, fun type ref hostName hp => hp.maps h, ?own, ?clash⟩
  case own =>
    rintro hown ⟨a, b, t, u, ha, hb, hta, hub, hname, hcodec⟩
    obtain ⟨t', v, ht, hv, htv⟩ := hown a ha
    obtain ⟨u', w, hu, hw, huw⟩ := hown b hb
    cases hta.symm.trans ht
    cases hub.symm.trans hu
    rw [hname, hw] at hv
    cases hv
    exact hcodec (htv.symm.trans huw)
  case clash =>
    intro hno hostName hmaps
    obtain ⟨t, ht, entry, hentry, hkind⟩ := hmaps.1
    rw [(finalDraft_of_build h).1] at hentry
    cases entry with
    | scalar u =>
      obtain ⟨other, hother, hu, hname⟩ := scalar_of_build h hentry
      refine ⟨t, u, ht, hentry, ?_⟩
      by_contra hcodec
      exact hno ⟨other, hostName, u, t, hother, hmaps, hu, ht, hname, hcodec⟩
    | _ => exact absurd hkind (by simp [WireType.kind])

/-- Codecs do not clash if scalars that are configured for one name on the wire have one codec. -/
theorem not_clash (h : ∀ t ∈ defaultScalars ++ s.options.scalars, ∀ u ∈ defaultScalars ++ s.options.scalars,
    t.wireName = u.wireName → t.codec = u.codec) : ¬ CodecsClash s roots := by
  rintro ⟨a, b, t, u, -, -, ht, hu, hname, hcodec⟩
  exact hcodec (h t (Setting.mem_of_scalar? ht) u (Setting.mem_of_scalar? hu) hname)

/-- Beside the default scalars, book numbers that go by the name of identifiers on the wire. -/
def isbnShop (codec : ScalarCodec) : Setting :=
  { catalogue := {}
    options := { scalars := [{ hostName := "Isbn", wireName := "ID", codec := codec }] } }

def isbnRoots : RootRecords :=
  { query := { name := "Shop", fields := [{ name := "isbn", type := .scalar "Isbn" },
                                          { name := "id", type := .scalar "ID" }] } }

def isbnRoot : Record := { isbnRoots.query with name := "Query" }

theorem isbnShop_leads {codec : ScalarCodec} {q : Piece} (h : (isbnShop codec).Leads isbnRoots q) :
    q = .object isbnRoot ∨ q = .scalar "ID" := by
  have hclosed : (isbnShop codec).ClosedUnder fun q => q = .object isbnRoot ∨ q = .scalar "ID" := by
    rintro p (rfl | rfl) q hq
    · have hq' : q ∈ [Piece.scalar "ID", .scalar "ID"] := hq
      exact .inr (by simpa using hq')
    · cases show q ∈ [] from hq
  refine hclosed.of_leads (fun p hp => .inl ?_) h
  exact List.mem_singleton.mp (show p ∈ [.object isbnRoot] from hp)

/-- Both fields have their place in the model. -/
theorem isbnShop_places {codec : ScalarCodec} (h : build (isbnShop codec) isbnRoots = .ok m)
    (hq : m.types.get? "Query" = some t) :
    ∀ f ∈ isbnRoot.fields, ∃ ref, m.Place (isbnShop codec) isbnRoots f.type ref := by
  obtain ⟨p, hname, hmade⟩ := made_of_build h hq
  rcases isbnShop_leads hmade.leads with rfl | rfl
  · exact fun f hf => hmade.place hf
  · exact absurd hname (by decide)

/-- Book numbers may share the name of identifiers if they share their codec. -/
theorem own_codecs_isbnShop : ∃ m, build (isbnShop .id) isbnRoots = .ok m ∧
    (∀ f ∈ isbnRoot.fields, ∃ ref, m.Place (isbnShop .id) isbnRoots f.type ref) ∧
      ∀ hostName, Maps (isbnShop .id) isbnRoots hostName → m.OwnCodec (isbnShop .id) hostName := by
  obtain ⟨m, q, hm, hq⟩ : ∃ m q, build (isbnShop .id) isbnRoots = .ok m ∧
      m.types.get? "Query" = some q := ⟨_, _, rfl, rfl⟩
  refine ⟨m, hm, isbnShop_places hm hq, (own_codecs_iff hm).2.2.2.mpr (not_clash ?_)⟩
  simp [isbnShop, defaultScalars]

/-- Book numbers that are texts come first, so identifiers are written as texts, too. -/
theorem isbn_hides_id : ∃ m ref t u, build (isbnShop .string) isbnRoots = .ok m ∧
    m.Place (isbnShop .string) isbnRoots (.scalar "ID") ref ∧ (isbnShop .string).scalar? "ID" = some t ∧
      m.types.get? ref.base = some (.scalar u) ∧ CodecsClash (isbnShop .string) isbnRoots ∧
        t.codec.serialize (.string "X") = .ok (.string "WA==") ∧
          u.codec.serialize (.string "X") = .ok (.string "X") := by
  obtain ⟨m, q, u, hm, hq, hu, hcodec⟩ : ∃ m q u, build (isbnShop .string) isbnRoots = .ok m ∧
      m.types.get? "Query" = some q ∧ m.types.get? "ID" = some (.scalar u) ∧ u.codec = .string :=
    ⟨_, _, _, rfl, rfl, rfl, rfl⟩
  obtain ⟨⟨isbnRef, hisbn⟩, ref, hid⟩ : (∃ ref, m.Place (isbnShop .string) isbnRoots (.scalar "Isbn") ref) ∧
      ∃ ref, m.Place (isbnShop .string) isbnRoots (.scalar "ID") ref := by
    have hplaces := isbnShop_places hm hq
    exact ⟨hplaces _ List.mem_cons_self, hplaces _ (List.mem_cons_of_mem _ List.mem_cons_self)⟩
  obtain ⟨hmapsIsbn, -⟩ := hisbn.maps hm rfl
  obtain ⟨hmaps, hbase⟩ := hid.maps hm rfl
  have hname : ref.base = "ID" := (Option.some.inj hbase).symm
  have hwritten : ScalarCodec.id.serialize (.string "X") = .ok (.string "WA==") := by rfl
  refine ⟨m, ref, _, u, hm, hid, rfl, hname ▸ hu, ⟨"Isbn", "ID", _, _, hmapsIsbn, hmaps, rfl, rfl, rfl, ?_⟩, hwritten,
    by rw [hcodec]; rfl⟩
  intro hsame
  have hwire := (congrArg (fun c => c.serialize (.string "X")) hsame).trans hwritten
  injection hwire with hwire
  injection hwire with hwire
  exact absurd hwire (by decide)

end Model

end RecordGraph
