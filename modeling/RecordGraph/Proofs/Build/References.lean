import RecordGraph.Proofs.Build.Tidy
/-! What a mapping finds. A reference by name takes whatever has its name, and leaves the draft; any other mapping
leaves its piece standing. In a tidy setting what a reference finds is what it stands for, but for a few cases,
and of two references at most one can find something else. -/

namespace RecordGraph

/-! What one mapping does. -/

namespace Walker

variable {s : Setting} {d d' : Draft} {steps : Nat} {ref : TypeRef} {t : HostType} {name : String}

/-- A reference by name finds something under its name and leaves the draft, or it leaves what it means
standing. -/
theorem output_reference (h : ((within s steps).output t).Gives d ref d') (hname : t.reference? = some name) :
    (∃ u, d.types.get? name = some u ∧ u.isOutput = true) ∧ d' = d ∨
      d.types.get? name = none ∧ ∀ p ∈ s.outputPiece? true t, d'.Stands p := by
  have hall : s.ClosedUnder fun _ => True := fun _ _ _ _ => trivial
  induction t generalizing steps d ref d' with
  | list element ih =>
    obtain ⟨steps, rfl⟩ := output_succ h
    obtain ⟨inner, hi, -⟩ := gives_output_list h
    exact ih hi hname
  | optional inner ih =>
    obtain ⟨steps, rfl⟩ := output_succ h
    exact ih h hname
  | named name' =>
    cases hname
    obtain ⟨steps, rfl⟩ := output_succ h
    exact (Build.covers_namedOutput hall (covers_within hall steps) (fun _ _ => trivial) h).2
  | _ => cases hname

theorem input_reference (h : ((within s steps).input t).Gives d ref d') (hname : t.reference? = some name) :
    (∃ u, d.types.get? name = some u ∧ u.isInput = true) ∧ d' = d ∨
      (∀ u, d.types.get? name = some u → u.isInput = false) ∧ ∀ p ∈ s.inputPiece? true t, d'.Stands p := by
  have hall : s.ClosedUnder fun _ => True := fun _ _ _ _ => trivial
  induction t generalizing steps d ref d' with
  | list element ih =>
    obtain ⟨steps, rfl⟩ := input_succ h
    obtain ⟨inner, hi, -⟩ := gives_input_list h
    exact ih hi hname
  | optional inner ih =>
    obtain ⟨steps, rfl⟩ := input_succ h
    exact ih h hname
  | named name' =>
    cases hname
    obtain ⟨steps, rfl⟩ := input_succ h
    exact (Build.covers_namedInput hall (covers_within hall steps) (fun _ _ => trivial) h).2
  | _ => cases hname

end Walker

namespace Mapping

variable {s : Setting} {m : Mapping} {ms : List Mapping} {d d' : Draft} {steps : Nat} {ref : TypeRef} {p q : Piece}

theorem covers_run (h : (m.run (.within s steps)).Gives d ref d') :
    d.Covers s (s.Reaches [m]) d' ∧ ∀ p ∈ m.piece? s false, d'.Stands p := by
  have hw := Walker.covers_within (s.closedUnder_reaches [m]) steps
  have hroot : ∀ p ∈ m.piece? s true, s.Reaches [m] p := Setting.reaches_of_piece? (List.mem_singleton_self m)
  cases m with
  | output t => exact hw.output hroot h
  | input t => exact hw.input hroot h

theorem Finds.mono (hg : d.Grows d') (h : m.Finds d) : m.Finds d' := by
  obtain ⟨name, hname, t, ht, hk⟩ := h
  exact ⟨name, hname, t, hg.types ht, hk⟩

theorem not_finds (hname : m.type.reference? = none) : ¬ m.Finds d :=
  fun ⟨_, hsome, _⟩ => Option.some_ne_none _ (hsome.symm.trans hname)

/-- A mapping finds what it refers to and leaves the draft, or it leaves its piece standing. -/
theorem finds_or_stands (h : (m.run (.within s steps)).Gives d ref d') :
    m.Finds d ∧ d' = d ∨ ¬ m.Finds d ∧ ∀ p ∈ m.piece? s true, d'.Stands p := by
  have hstands := (covers_run h).2
  cases hname : m.type.reference? with
  | none =>
    refine .inr ⟨not_finds hname, ?_⟩
    cases m with
    | output t =>
      rw [piece?, Setting.outputPiece?_direct (show t.reference? = none from hname)]
      exact hstands
    | input t =>
      rw [piece?, Setting.inputPiece?_direct (show t.reference? = none from hname)]
      exact hstands
  | some name =>
    cases m with
    | output t =>
      rcases Walker.output_reference h hname with ⟨hfound, rfl⟩ | ⟨hn, hs⟩
      · exact .inl ⟨⟨name, hname, hfound⟩, rfl⟩
      · refine .inr ⟨?_, hs⟩
        rintro ⟨name', hname', u, hu, -⟩
        cases hname.symm.trans hname'
        cases hn.symm.trans hu
    | input t =>
      rcases Walker.input_reference h hname with ⟨hfound, rfl⟩ | ⟨hno, hs⟩
      · exact .inl ⟨⟨name, hname, hfound⟩, rfl⟩
      · refine .inr ⟨?_, hs⟩
        rintro ⟨name', hname', u, hu, hk⟩
        cases hname.symm.trans hname'
        exact absurd ((hno u hu).symm.trans hk) Bool.false_ne_true

/-- What one mapping adds is what its piece leads to, and then the piece stands. -/
theorem added (h : (m.run (.within s steps)).Gives d ref d') {name : String} {t : WireType}
    (hnew : d.types.get? name = none) (ht : d'.types.get? name = some t) :
    ¬ m.Finds d ∧ ∃ p ∈ m.piece? s true, d'.Stands p ∧
      ∃ q, Relation.ReflTransGen s.Needs p q ∧ q.name = name ∧ q.Makes s d d' t := by
  rcases finds_or_stands h with ⟨-, rfl⟩ | ⟨hno, hstands⟩
  · cases hnew.symm.trans ht
  rcases (covers_run h).1.entry name t ht with hold | ⟨q, ⟨m', hm, p, hp, hpath⟩, hname, hmakes, -⟩
  · cases hnew.symm.trans hold
  · obtain rfl := List.mem_singleton.mp hm
    exact ⟨hno, p, hp, hstands p hp, q, hpath, hname, hmakes⟩

end Mapping

theorem Draft.Reached.sound {s : Setting} {ms : List Mapping} {d : Draft} (h : d.Reached s ms) : d.Sound s ms := by
  induction h with
  | start => exact .refl _
  | snoc _ hrun ih =>
    refine (ih.mono fun p hp => hp.mono (List.subset_append_left _ _)).trans ?_
    exact (Mapping.covers_run hrun).1.mono fun p hp => hp.mono (List.subset_append_right _ _)

/-! Pieces that a reference by name may find in place of its own. -/

/-- A name stands for one piece as a reference, and has another. -/
inductive Clash : Piece → Piece → Prop
  | forms (r : Record) : Clash (.interface r) (.object r)
  | scalar {name : String} : Build.isMarker name = true → Clash (.marker name) (.scalar name)

section
variable {s : Setting} {ms : List Mapping} {m : Mapping} {d d' e : Draft} {p q : Piece} {t : WireType}
  {name : String}

theorem Clash.not_stands (h : Clash p q) (hd : d.Sound s ms) (ht : s.Tidy ms) (hp : s.Reaches ms p)
    (hps : d.Stands p) (hqs : d.Stands q) : False := by
  cases h with
  | forms r => exact absurd (show "interface" = "object" from Registry.Has.kind_eq hps hqs) (by decide)
  | @scalar name hmarker =>
    have hkind : d.types.Has name "interface" :=
      ((hd.marked ht hp hps).1.holds_isMarker hmarker).has fun _ => WireType.kind_of_isInterface
    exact absurd (show "interface" = "scalar" from hkind.kind_eq hqs) (by decide)

/-- Nothing that paging generates for an element has the name of an interface of paging. -/
theorem Draft.Sound.not_marker_of_part (hd : d.Sound s ms) (ht : s.Tidy ms) (hq : s.Reaches ms q)
    {element : String} {part : Part} (hpart : q.IsPart element part) (hhas : d.types.Has q.name "object") :
    Build.isMarker q.name = false := by
  by_contra hmarker
  rw [Bool.not_eq_false] at hmarker
  have hkind : q.kind = "object" := by
    cases part with
    | pageInfo =>
      obtain ⟨-, rfl⟩ := hpart
      rfl
    | connection =>
      obtain ⟨kind, r, -, rfl⟩ := hpart
      rfl
    | _ =>
      obtain ⟨r, -, rfl⟩ := hpart
      rfl
  obtain ⟨t, -, -, hbacks⟩ := hd.made_of_has ht hq (hkind ▸ hhas)
  have hneeds : ∃ name, Piece.marker name ∈ s.parts q := by
    cases part with
    | pageInfo =>
      obtain ⟨-, rfl⟩ := hpart
      exact absurd hmarker (by decide)
    | connection =>
      obtain ⟨kind, r, -, rfl⟩ := hpart
      exact ⟨_, List.mem_cons_self⟩
    | _ =>
      obtain ⟨r, -, rfl⟩ := hpart
      exact ⟨_, List.mem_cons_self⟩
  obtain ⟨name, hneed⟩ := hneeds
  have hmarked := (hd.marked ht ((s.closedUnder_reaches ms).part hq hneed)
    (hbacks _ (Setting.mem_needs.mpr (.inl hneed)))).1
  have hinterface : d.types.Has q.name "interface" :=
    (hmarked.holds_isMarker hmarker).has fun _ => WireType.kind_of_isInterface
  exact absurd (hinterface.kind_eq hhas) (by decide)

/-- An interface is reached by its name. -/
theorem Setting.Reaches.interface? {r : Record} (h : s.Reaches ms (.interface r)) :
    s.interface? r.name = some r := by
  have hlookup {name : String} {r' : Record} (hr : s.interface? name = some r') :
      s.interface? r'.name = some r' := by rwa [Setting.name_of_interface? hr]
  have houtput {t : HostType} {r' : Record} (hr : s.outputPiece? true t = some (.interface r')) :
      s.interface? r'.name = some r' := by
    cases Setting.outputPiece?_cases hr with
    | interface hr => exact hlookup hr
  have hinput {t : HostType} {r' : Record} (hr : s.inputPiece? true t = some (.interface r')) : False := by
    cases Setting.inputPiece?_cases hr
  refine (Setting.ClosedUnder.of_reaches (T := fun p => ∀ r', p = .interface r' → s.interface? r'.name = some r')
    (fun p _ q hq r' hown => ?_) (fun m _ p hp r' hown => ?_) h) r rfl
  · subst hown
    obtain hq | ⟨f, -, hq⟩ | ⟨f, -, hq⟩ := Setting.mem_needs.mp hq
    · cases p with
      | object r'' =>
        obtain ⟨i, -, hi⟩ := List.mem_filterMap.mp hq
        rcases Setting.interfacePiece?_cases hi with hmarker | ⟨_, hr, hpiece⟩
        · cases hmarker
        · cases hpiece
          exact hlookup hr
      | _ => simp [Setting.parts, Setting.scalarPiece?] at hq
    · obtain hq | ⟨a, -, hq⟩ | hq := Setting.mem_fieldPieces.mp hq
      · exact houtput hq
      · exact (hinput hq).elim
      · obtain ⟨_, hpiece⟩ := Setting.pagingPieces_cases hq
        cases hpiece
    · exact (hinput hq).elim
  · subst hown
    cases m with
    | output t => exact houtput hp
    | input t => exact (hinput hp).elim

theorem Setting.outputPiece?_reference {t : HostType} (named : Bool) (h : t.reference? = some name) :
    s.outputPiece? named t = s.outputPiece? named (.named name) := by
  induction t with
  | list t ih => exact ih h
  | optional t ih => exact ih h
  | named name' => cases h; rfl
  | _ => cases h

theorem Setting.inputPiece?_reference {t : HostType} (named : Bool) (h : t.reference? = some name) :
    s.inputPiece? named t = s.inputPiece? named (.named name) := by
  induction t with
  | list t ih => exact ih h
  | optional t ih => exact ih h
  | named name' => cases h; rfl
  | _ => cases h

/-- What is registered under the name of an output type that a name stands for. -/
theorem Setting.Tidy.eq_or_clash_output (ht : s.Tidy ms) (hp : s.outputPiece? true (.named name) = some p)
    (hreach : s.Reaches ms p) (hdistinct : (s.record? name).isSome ∨ (s.interface? name).isSome →
      ¬ s.Reaches ms (.scalar name)) (hd : d.Sound s ms) (hq : s.Reaches ms q) (hqname : q.name = name)
    (hhas : d.types.Has q.name q.kind) (hkind : q.kind ≠ "input object") : q = p ∨ Clash p q := by
  rcases Setting.outputPiece?_name hp with ⟨r, hr, rfl⟩ | ⟨hno, r, hr, rfl⟩ | ⟨hmarker, rfl⟩
  case inl =>
    have hsame : q.name = r.name := hqname.trans (Setting.name_of_interface? hr).symm
    cases q with
    | scalar wireName => exact absurd (hqname ▸ hq) (hdistinct (.inr (by simp [hr])))
    | enum e => exact absurd hsame.symm (ht.apart ⟨_, hreach, rfl⟩ hq)
    | interface r' => exact .inl (by rw [ht.record_eq hq hreach rfl rfl hsame])
    | object r' =>
      obtain rfl := ht.record_eq hq hreach rfl rfl hsame
      exact .inr (.forms _)
    | input r' => exact absurd rfl hkind
    | _ => exact absurd hsame (ht.ne_of_generated hq hreach trivial rfl)
  case inr.inl =>
    have hsame : q.name = r.name := hqname.trans (Setting.name_of_record? hr).symm
    cases q with
    | scalar wireName => exact absurd (hqname ▸ hq) (hdistinct (.inl (by simp [hr])))
    | enum e => exact absurd hsame.symm (ht.apart ⟨_, hreach, rfl⟩ hq)
    | interface r' =>
      have hsome := hq.interface?
      rw [show r'.name = name from hqname, hno] at hsome
      cases hsome
    | object r' => exact .inl (by rw [ht.record_eq hq hreach rfl rfl hsame])
    | input r' => exact absurd rfl hkind
    | _ => exact absurd hsame (ht.ne_of_generated hq hreach trivial rfl)
  case inr.inr =>
    have hno (element : String) (part : Part) (hpart : q.IsPart element part) (hk : q.kind = "object") : False :=
      absurd (hqname ▸ hd.not_marker_of_part ht hq hpart (hk ▸ hhas)) (by simp [hmarker])
    cases q with
    | scalar wireName =>
      obtain rfl : wireName = name := hqname
      exact .inr (.scalar hmarker)
    | enum e => exact absurd hqname.symm ((ht.generated hreach trivial).2 e hq)
    | interface r' => exact absurd hqname.symm (ht.ne_of_generated hreach hq trivial rfl)
    | object r' => exact absurd hqname.symm (ht.ne_of_generated hreach hq trivial rfl)
    | input r' => exact absurd rfl hkind
    | marker name' => exact .inl (congrArg Piece.marker hqname)
    | node r' => exact (hno r'.name .node ⟨r', rfl, rfl⟩ rfl).elim
    | edge r' => exact (hno r'.name .edge ⟨r', rfl, rfl⟩ rfl).elim
    | connection kind r' => exact (hno r'.name .connection ⟨kind, r', rfl, rfl⟩ rfl).elim

/-- What is registered under the name of an input type that a name stands for, and taken. -/
theorem Setting.Tidy.not_taken_input (ht : s.Tidy ms) (hp : s.inputPiece? true (.named name) = some p)
    (hreach : s.Reaches ms p) (hdistinct : (s.record? name).isSome ∨ (s.interface? name).isSome →
      ¬ s.Reaches ms (.scalar name)) (hq : s.Reaches ms q) (hqname : q.name = name) (hkind : t.kind = q.kind) :
    t.isInput = false := by
  obtain ⟨r, hr, rfl⟩ := Setting.inputPiece?_name hp
  have hresolved : (s.record? name).isSome ∨ (s.interface? name).isSome := by
    rcases hr with hr | hr <;> simp [hr]
  have hsame : q.name = r.name :=
    hqname.trans (hr.elim Setting.name_of_record? Setting.name_of_interface?).symm
  cases t with
  | scalar u =>
    obtain ⟨wireName, rfl⟩ := Piece.scalar_of_kind hkind.symm
    exact absurd (hqname ▸ hq) (hdistinct hresolved)
  | enum u =>
    obtain ⟨e, rfl⟩ := Piece.enum_of_kind hkind.symm
    exact absurd hsame.symm (ht.apart ⟨_, hreach, rfl⟩ hq)
  | inputObject u =>
    obtain ⟨r', rfl⟩ := Piece.input_of_kind hkind.symm
    exact absurd hsame (ht.ne_of_generated hq hreach trivial rfl)
  | _ => rfl

/-- What a reference by name finds is the piece that it stands for, or one of few others. -/
theorem Setting.Tidy.eq_or_clash (ht : s.Tidy ms) (hm : m ∈ ms) (hdistinct : m.Distinct s ms)
    (hp : p ∈ m.piece? s true) (hname : m.type.reference? = some name) (hd : d.Sound s ms)
    (hget : d.types.get? name = some t) (htakes : m.takes t = true)
    (hq : s.Reaches ms q) (hqname : q.name = name) (hmakes : q.Makes s e d t) : q = p ∨ Clash p q := by
  have hreach : s.Reaches ms p := Setting.reaches_of_piece? hm p hp
  cases m with
  | input host =>
    rw [Mapping.piece?, Setting.inputPiece?_reference true (show host.reference? = some name from hname)] at hp
    have hno := ht.not_taken_input hp hreach (hdistinct name hname) hq hqname hmakes.kind_eq
    exact absurd (hno.symm.trans htakes) Bool.false_ne_true
  | output host =>
    rw [Mapping.piece?, Setting.outputPiece?_reference true (show host.reference? = some name from hname)] at hp
    have hkind : q.kind ≠ "input object" := by
      rw [← hmakes.kind_eq]
      rintro hk
      cases t with
      | inputObject u => exact Bool.false_ne_true htakes
      | _ => exact absurd hk (by simp [WireType.kind])
    exact ht.eq_or_clash_output hp hreach (hdistinct name hname) hd hq hqname
      ⟨t, hqname ▸ hget, hmakes.kind_eq⟩ hkind


/-! Neither mapping takes the place of what the other stands for. -/

/-- A record in both forms shows the same fields. -/
theorem Setting.needs_object_of_interface {r : Record} (h : s.Needs (.interface r) q) : s.Needs (.object r) q := by
  rw [Setting.Needs, Setting.mem_needs] at h ⊢
  exact h.imp_left fun hq => absurd hq List.not_mem_nil

theorem Setting.object_of_interface {r r' : Record}
    (h : Relation.ReflTransGen s.Needs (.interface r) (.object r')) :
    Relation.ReflTransGen s.Needs (.object r) (.object r') := by
  rcases Relation.ReflTransGen.cases_head h with heq | ⟨q, hq, hpath⟩
  · cases heq
  · exact .head (Setting.needs_object_of_interface hq) hpath

theorem Piece.Plain.of_path (hp : p.Plain) (h : Relation.ReflTransGen s.Needs p q) : q.Plain := by
  induction h with
  | refl => exact hp
  | tail _ hneed ih => exact Draft.plain_of_needs ih hneed

/-- Two references by name cannot each find what the other leads to in place of its own. -/
theorem Clash.not_mutual {p' q' : Piece} (h : Clash p q) (h' : Clash p' q') (hd : d.Sound s ms) (ht : s.Tidy ms)
    (hp : s.Reaches ms p) (hp' : s.Reaches ms p') (hstands : d.Stands p)
    (hpath : Relation.ReflTransGen s.Needs p q') (hpath' : Relation.ReflTransGen s.Needs p' q) : False := by
  cases h with
  | forms r =>
    cases h' with
    | forms r' =>
      -- The object of each record is led to by the other's interface, and so by the other's object.
      have hobject' : d.Stands (.object r') := hd.stands ht hp hstands hpath
      have hobject : d.Stands (.object r) :=
        hd.stands ht (hp.trans hpath) hobject' (Setting.object_of_interface hpath')
      exact (Clash.forms r).not_stands hd ht hp hstands hobject
    | scalar hmarker =>
      have hplain : (Piece.object r).Plain := Piece.Plain.of_path (p := .marker _) trivial hpath'
      exact hplain
  | scalar hmarker =>
    cases h' with
    | forms r' =>
      have hplain : (Piece.object r').Plain := Piece.Plain.of_path (p := .marker _) trivial hpath
      exact hplain
    | scalar hmarker' =>
      have hmarked : d.types.Has "Connection" "interface" :=
        (hd.marked ht hp hstands).1.connection.has fun _ => WireType.kind_of_isInterface
      exact (Clash.scalar hmarker').not_stands hd ht hp' (.inr hmarked) (hd.stands ht hp hstands hpath)

end

/-- What a mapping finds after another one, and did not find before, comes of what the other one stands for. -/
theorem Mapping.found {s : Setting} {ms : List Mapping} {m m' : Mapping} {d d' : Draft} {steps : Nat} {ref : TypeRef}
    (ht : s.Tidy ms) (hd' : d'.Sound s ms) (hm : m ∈ ms) (hm' : m' ∈ ms) (hdistinct : m.Distinct s ms)
    (hrun : (m'.run (.within s steps)).Gives d ref d') (hno : ¬ m.Finds d) (hfinds : m.Finds d') {p : Piece}
    (hp : p ∈ m.piece? s true) :
    ¬ m'.Finds d ∧ ∃ p' ∈ m'.piece? s true, d'.Stands p' ∧
      ∃ q, Relation.ReflTransGen s.Needs p' q ∧ d'.Stands q ∧ (q = p ∨ Clash p q) := by
  obtain ⟨name, hname, t, hget, htakes⟩ := hfinds
  have hnew : d.types.get? name = none := by
    by_contra hne
    obtain ⟨t', ht'⟩ := Option.ne_none_iff_exists'.mp hne
    cases ((covers_run hrun).1.grows.types ht').symm.trans hget
    exact hno ⟨name, hname, t, ht', htakes⟩
  obtain ⟨hno', p', hp', hstands, q, hpath, hqname, hmakes⟩ := added hrun hnew hget
  have hq : s.Reaches ms q := (Setting.reaches_of_piece? hm' p' hp').trans hpath
  refine ⟨hno', p', hp', hstands, q, hpath, hmakes.stands (hqname ▸ hget), ?_⟩
  exact ht.eq_or_clash hm hdistinct hp hname hd' hget htakes hq hqname hmakes

theorem Draft.Sound.run {s : Setting} {ms : List Mapping} {m : Mapping} {d d' : Draft} {steps : Nat} {ref : TypeRef}
    (hd : d.Sound s ms) (hm : m ∈ ms) (h : (m.run (.within s steps)).Gives d ref d') : d'.Sound s ms :=
  hd.trans ((Mapping.covers_run h).1.mono fun _ hp => hp.mono (List.cons_subset.mpr ⟨hm, List.nil_subset _⟩))

end RecordGraph
