import RecordGraph.Proofs.Client.Places
/-! Keys that reach the server. Keys of an object that have one name on the wire share one entry, and only the last of
them has its value there. All others are kept: each key has an entry of its own, with what is written for its own
value, at every depth. -/

namespace RecordGraph.Client

variable {d : Description} {c : Casing} {declared : String → Option InputDescription} {shape : TypeShape}
  {type : TypeDescription} {typeName : Option String} {j : Json} {w : WireValue} {members : List (String × Json)}
  {entries : Entries WireValue}

/-- Each key of an object has an entry of its own under its wire name, in the order of the keys, with what is written
for its own value; and so have the keys of objects of input fields inside these values. -/
def Kept (d : Description) (c : Casing) (declared : String → Option InputDescription)
    (members : List (String × Json)) (entries : Entries WireValue) : Prop :=
  FieldsWritten id d c declared members entries

/-- An object of input fields has no two keys with one name on the wire. -/
def Uncrowded (d : Description) (c : Casing) (shape : TypeShape) (j : Json) : Prop :=
  ∀ members type, j = .object members → d.Names shape type → type.kind = .inputObject →
    (members.map fun p => c.toWire p.1).Nodup

/-- The keys of an object are apart on the wire, and so are those of the objects of input fields inside its values. -/
def MembersApart (d : Description) (c : Casing) (declared : String → Option InputDescription)
    (members : List (String × Json)) : Prop :=
  (members.map fun p => c.toWire p.1).Nodup ∧ ∀ p ∈ members, ∀ input, declared (c.toWire p.1) = some input →
    Everywhere d c (Uncrowded d c) input.type p.2

/-! Which values are crowded. -/

theorem uncrowded_of_ne (hj : ∀ members, j ≠ .object members) : Uncrowded d c shape j :=
  fun members _ h => absurd h (hj members)

theorem uncrowded_of_not_names (hno : ∀ type, ¬ d.Names shape type) : Uncrowded d c shape j :=
  fun _ type _ ht => absurd ht (hno type)

theorem uncrowded_of_kind (ht : d.Names shape type) (hk : type.kind ≠ .inputObject) : Uncrowded d c shape j := by
  intro members type' _ ht' hk'
  exact absurd (ht.eq ht' ▸ hk') hk

theorem uncrowded_object (ht : d.Names shape type) (hk : type.kind = .inputObject) :
    Uncrowded d c shape (.object members) ↔ (members.map fun p => c.toWire p.1).Nodup := by
  constructor
  · intro h
    exact h members type rfl ht hk
  · rintro h _ _ ⟨⟩ - -
    exact h

/-! What is kept of a value, by what is kept of its parts. -/

section
variable {join : Entries WireValue → Entries WireValue}

theorem written_nonNull_iff {inner : TypeShape} :
    Written join d c (.mk .nonNull typeName (some inner)) j w ↔ Written join d c inner j w := by
  constructor
  · intro h
    cases h with
    | null hk => exact absurd rfl hk
    | nonNull h => exact h
    | scalar _ ht _ => exact absurd ht Description.not_names_nonNull
    | enum ht _ _ => exact absurd ht Description.not_names_nonNull
    | object ht _ _ => exact absurd ht Description.not_names_nonNull
  · exact .nonNull

theorem written_list_iff {inner : Option TypeShape} {items : List Json} {ws : List WireValue} :
    Written join d c (.mk .list typeName inner) (.array items) (.list ws) ↔ ItemsWritten join d c inner items ws := by
  constructor
  · intro h
    generalize hj : Json.array items = j at h
    generalize hw : WireValue.list ws = w at h
    cases h with
    | null => cases hj
    | list h =>
      cases hj
      cases hw
      exact h
    | single _ hno _ => exact absurd hj.symm (hno items)
    | scalar _ ht _ => exact absurd ht Description.not_names_list
    | enum ht _ _ => exact absurd ht Description.not_names_list
    | object ht _ _ => exact absurd ht Description.not_names_list
  · exact .list

theorem written_single_iff {inner : TypeShape} (hnull : j ≠ .null) (hj : ∀ items, j ≠ .array items) :
    Written join d c (.mk .list typeName (some inner)) j (.list [w]) ↔ Written join d c inner j w := by
  constructor
  · intro h
    generalize hw : WireValue.list [w] = v at h
    cases h with
    | null => cases hw
    | list _ => exact absurd rfl (hj _)
    | single _ _ h =>
      cases hw
      exact h
    | scalar _ ht _ => exact absurd ht Description.not_names_list
    | enum ht _ _ => exact absurd ht Description.not_names_list
    | object ht _ _ => exact absurd ht Description.not_names_list
  · exact .single hnull hj

end

theorem written_object_iff (ht : d.Names shape type) (hk : type.kind = .inputObject) :
    Written id d c shape (.object members) (.object entries) ↔ Kept d c type.inputField? members entries := by
  constructor
  · intro h
    generalize hw : WireValue.object entries = w at h
    cases h with
    | nonNull _ => exact absurd ht Description.not_names_nonNull
    | single _ _ _ => exact absurd ht Description.not_names_list
    | scalar _ ht' hk' => simp [← ht.eq ht', hk] at hk'
    | object ht' _ h =>
      cases hw
      exact ht.eq ht' ▸ h
  · exact .object ht hk

theorem forall₂_iff_forall_mem {α β : Type} {A : α → β → Prop} {B : α → Prop} {as : List α} {bs : List β}
    (h : List.Forall₂ (fun a b => A a b ↔ B a) as bs) : List.Forall₂ A as bs ↔ ∀ a ∈ as, B a := by
  induction h with
  | nil => simp
  | cons h _ ih => rw [List.forall₂_cons, List.forall_mem_cons, h, ih]

theorem map_fst_of_beside {R : TypeShape → Json → WireValue → Prop}
    (h : List.Forall₂ (Beside c declared R) members entries) :
    entries.map Prod.fst = members.map fun p => c.toWire p.1 := by
  induction h with
  | nil => rfl
  | cons h _ ih => rw [List.map_cons, List.map_cons, h.1, ih]

/-- Keys are kept if they are apart and their values are kept. -/
theorem kept_ofPairs_iff {B : TypeShape → Json → Prop}
    (h : List.Forall₂ (Beside c declared fun t j w => Written id d c t j w ↔ B t j) members entries) :
    Kept d c declared members (Entries.ofPairs entries) ↔ (members.map fun p => c.toWire p.1).Nodup ∧
      ∀ p ∈ members, ∀ input, declared (c.toWire p.1) = some input → B input.type p.2 := by
  have hnames := map_fst_of_beside h
  have hparts : Kept d c declared members entries ↔
      ∀ p ∈ members, ∀ input, declared (c.toWire p.1) = some input → B input.type p.2 := by
    rw [Kept, fieldsWritten_iff]
    refine forall₂_iff_forall_mem (h.imp ?_)
    rintro p ⟨name, w⟩ ⟨rfl, input, hi, hw⟩
    constructor
    · rintro ⟨-, input', hi', hkept⟩ input'' hi''
      cases hi.symm.trans hi'
      cases hi.symm.trans hi''
      exact hw.mp hkept
    · intro hB
      exact ⟨rfl, input, hi, hw.mpr (hB input hi)⟩
  constructor
  · intro hkept
    -- Entries that are joined have distinct names, so that there was nothing to join.
    have hnodup : (members.map fun p => c.toWire p.1).Nodup :=
      map_fst_of_beside (fieldsWritten_iff.mp hkept) ▸ Entries.nodup_ofPairs entries
    rw [Entries.ofPairs_of_nodup (hnames ▸ hnodup)] at hkept
    exact ⟨hnodup, hparts.mp hkept⟩
  · rintro ⟨hnodup, hB⟩
    rw [Entries.ofPairs_of_nodup (hnames ▸ hnodup)]
    exact hparts.mpr hB

theorem wireMembers_of_nodup (hn : (members.map fun p => c.toWire p.1).Nodup) :
    wireMembers c members = members.map fun p => (c.toWire p.1, p.2) := by
  apply Entries.ofPairs_of_nodup
  rwa [List.map_map]

/-- What the client writes for a value keeps all its keys exactly if they are apart. -/
theorem written_id_iff (h : Written Entries.ofPairs d c shape j w) :
    Written id d c shape j w ↔ Everywhere d c (Uncrowded d c) shape j := by
  induction h using Written.induction_parts with
  | null hk =>
    rw [everywhere_null hk]
    exact iff_of_true (.null hk) (uncrowded_of_ne fun _ h => by cases h)
  | nonNull _ ih =>
    rw [written_nonNull_iff, everywhere_nonNull, ih]
    exact (and_iff_right (uncrowded_of_not_names fun _ => Description.not_names_nonNull)).symm
  | @list _ inner items ws h ih =>
    rw [written_list_iff, everywhere_list, and_iff_right (uncrowded_of_ne fun _ h => by cases h)]
    cases inner with
    | none =>
      cases h
      exact iff_of_true .nil fun _ ht => by cases ht
    | some inner =>
      have hitems : List.Forall₂ (fun j w => Written id d c inner j w ↔ Everywhere d c (Uncrowded d c) inner j)
          items ws := by
        refine ih.imp ?_
        rintro j w ⟨t, ⟨⟩, -, hw⟩
        exact hw
      rw [itemsWritten_some, forall₂_iff_forall_mem hitems]
      simp
  | single hnull hj _ ih =>
    rw [written_single_iff hnull hj, everywhere_single hnull hj, ih]
    exact (and_iff_right (uncrowded_of_not_names fun _ => Description.not_names_list)).symm
  | scalar hnull ht hk =>
    have hkind := ne_of_eq_of_ne hk (by decide : TypeKind.scalar ≠ .inputObject)
    rw [everywhere_leaf ht hkind]
    exact iff_of_true (.scalar hnull ht hk) (uncrowded_of_kind ht hkind)
  | enum ht hk h =>
    have hkind := ne_of_eq_of_ne hk (by decide : TypeKind.enum ≠ .inputObject)
    rw [everywhere_leaf ht hkind]
    exact iff_of_true (.enum ht hk h) (uncrowded_of_kind ht hkind)
  | @object _ type members entries ht hk _ ih =>
    have hmembers : List.Forall₂ (Beside c type.inputField? fun t j w =>
        Written id d c t j w ↔ Everywhere d c (Uncrowded d c) t j) members entries :=
      ih.imp fun _ _ => Beside.imp fun ⟨_, hw⟩ => hw
    rw [written_object_iff ht hk, everywhere_object ht hk, uncrowded_object ht hk, kept_ofPairs_iff hmembers]
    refine and_congr_right fun hn => ?_
    rw [wireMembers_of_nodup hn, List.forall_mem_map]

/-! Arguments. -/

namespace Writer

variable {writer : Writer} {f : FieldDescription} {written : Entries WireValue} {key : String}

theorem argumentLiterals_cons : writer.argumentLiterals f written ((key, j) :: members) = .ok entries ↔
    ∃ argument w, f.argument? (writer.casing.toWire key) = some argument ∧
      literal writer.description writer.casing (writer.casing.toWire key) j argument.type = .ok w ∧
      writer.argumentLiterals f (Entries.insert written (writer.casing.toWire key) w) members = .ok entries := by
  rw [argumentLiterals]
  cases f.argument? (writer.casing.toWire key) with
  | none => simp
  | some argument => simp [bind_eq_ok]

/-- Arguments are written if each of them could be written alone, whatever names the others have. -/
theorem argumentLiterals_isOk_iff : (∃ entries, writer.argumentLiterals f written members = .ok entries) ↔
    ∀ p ∈ members, ∃ argument w, f.argument? (writer.casing.toWire p.1) = some argument ∧
      literal writer.description writer.casing (writer.casing.toWire p.1) p.2 argument.type = .ok w := by
  induction members generalizing written with
  | nil => simp [argumentLiterals]
  | cons p members ih =>
    obtain ⟨key, j⟩ := p
    simp only [argumentLiterals_cons, List.forall_mem_cons]
    constructor
    · rintro ⟨entries, argument, w, hargument, hw, hrest⟩
      exact ⟨⟨argument, w, hargument, hw⟩, ih.mp ⟨entries, hrest⟩⟩
    · rintro ⟨⟨argument, w, hargument, hw⟩, hall⟩
      obtain ⟨entries, hrest⟩ := ih.mpr hall
      exact ⟨entries, argument, w, hargument, hw, hrest⟩

/-- The entries of arguments keep all keys exactly if these are apart. -/
theorem kept_of_argumentLiterals (h : writer.argumentLiterals f [] members = .ok entries) :
    ∃ own, FieldsWritten Entries.ofPairs writer.description writer.casing f.argument? members own ∧
      entries = Entries.ofPairs own ∧
      (Kept writer.description writer.casing f.argument? members entries ↔
        MembersApart writer.description writer.casing f.argument? members) := by
  obtain ⟨own, hown, rfl⟩ := fieldsWritten_of_steps rfl argumentLiterals_cons.mp (fun p _ => written_of_literal p.2) h
  refine ⟨own, hown, rfl, kept_ofPairs_iff ?_⟩
  exact (fieldsWritten_iff.mp hown).imp fun _ _ => Beside.imp written_id_iff

/-- Arguments are written if each of them could be written alone: that two of them have one name on the wire is no
error. What is written joins the entries that the keys have each for itself, and keeps all keys exactly if these are
apart, in the object of arguments and in the objects of input fields inside of it. -/
theorem withArguments_kept_iff (writer : Writer) (f : WantedField) (members : List (String × Json)) :
    ((∃ g, writer.withArguments f (.object members) = .ok g) ↔
      ∀ p ∈ members, ∃ argument w, f.definition.argument? (writer.casing.toWire p.1) = some argument ∧
        literal writer.description writer.casing (writer.casing.toWire p.1) p.2 argument.type = .ok w) ∧
    ∀ g, writer.withArguments f (.object members) = .ok g → ∃ own,
      FieldsWritten Entries.ofPairs writer.description writer.casing f.definition.argument? members own ∧
      g = f.setArguments (Entries.ofPairs own) ∧
      (Kept writer.description writer.casing f.definition.argument? members (Entries.ofPairs own) ↔
        MembersApart writer.description writer.casing f.definition.argument? members) := by
  have hok {g : WantedField} : writer.withArguments f (.object members) = .ok g ↔
      ∃ entries, writer.argumentLiterals f.definition [] members = .ok entries ∧ g = f.setArguments entries := by
    constructor
    · intro hg
      obtain ⟨entries, h, hg⟩ := bind_eq_ok.mp hg
      cases hg
      exact ⟨entries, h, rfl⟩
    · rintro ⟨entries, h, rfl⟩
      exact bind_eq_ok.mpr ⟨entries, h, rfl⟩
  constructor
  · rw [← argumentLiterals_isOk_iff]
    constructor
    · rintro ⟨g, hg⟩
      obtain ⟨entries, h, -⟩ := hok.mp hg
      exact ⟨entries, h⟩
    · rintro ⟨entries, h⟩
      exact ⟨_, hok.mpr ⟨entries, h, rfl⟩⟩
  · intro g hg
    obtain ⟨entries, h, rfl⟩ := hok.mp hg
    obtain ⟨own, hown, rfl, hkept⟩ := kept_of_argumentLiterals h
    exact ⟨own, hown, rfl, hkept⟩

end Writer

/-- A client of a server that takes books. -/
def bookWriter : Writer := { description := bookDescription }

/-- Asks the server to take books and to put them on a shelf. -/
def takeBooks : WantedField :=
  .mk ⟨"takeBooks", [⟨"books", .mk .list none (some (.mk .inputObject (some "BookInput") none))⟩,
    ⟨"shelf", .mk .scalar (some "String") none⟩], .mk .scalar (some "String") none⟩ none [] []

/-- Keys that are apart, in the object of arguments and in the book inside of it. -/
def apartKeys : List (String × Json) :=
  [("books", .object [("author_id", .string "a"), ("title", .string "b")]), ("shelf", .string "2")]

theorem apartKeys_kept : ∃ g own, bookWriter.withArguments takeBooks (.object apartKeys) = .ok g ∧
    g = takeBooks.setArguments (Entries.ofPairs own) ∧
    g.text = "takeBooks(books: [\x7bauthorId: \"a\", title: \"b\"\x7d], shelf: \"2\")" ∧
    Kept bookWriter.description bookWriter.casing takeBooks.definition.argument? apartKeys (Entries.ofPairs own) ∧
    MembersApart bookWriter.description bookWriter.casing takeBooks.definition.argument? apartKeys := by
  obtain ⟨own, -, hown, hkept⟩ := (Writer.withArguments_kept_iff bookWriter takeBooks apartKeys).2 _ rfl
  have hentries : Entries.ofPairs own =
      [("books", .list [.object [("authorId", .string "a"), ("title", .string "b")]]), ("shelf", .string "2")] := by
    injection hown with _ _ hown _
    exact hown.symm
  rw [hentries] at hown hkept
  have h : Kept bookWriter.description bookWriter.casing takeBooks.definition.argument? apartKeys
      [("books", .list [.object [("authorId", .string "a"), ("title", .string "b")]]), ("shelf", .string "2")] :=
    .cons rfl (.single nofun nofun (.object names_bookInput rfl
      (.cons rfl (.scalar nofun names_string rfl) (.cons rfl (.nonNull (.scalar nofun names_string rfl)) .nil))))
      (.cons rfl (.scalar nofun names_string rfl) .nil)
  exact ⟨_, own, rfl, hentries ▸ hown, rfl, hentries ▸ h, hkept.mp h⟩

/-- Two keys of one name on the wire among the arguments. -/
def crowdedArguments : List (String × Json) := [("SHELF", .string "3"), ("shelf", .string "2")]

/-- Two keys of one name on the wire in a book among the arguments. -/
def crowdedBook : List (String × Json) := [("books", .object [("author_id", .string "a"), ("authorId", .string "b")])]

/-- Keys are lost among the arguments and in an object inside of them. -/
theorem crowded_keys_lost : ∃ arguments books : Entries WireValue,
    bookWriter.withArguments takeBooks (.object crowdedArguments) = .ok (takeBooks.setArguments arguments) ∧
    (takeBooks.setArguments arguments).text = "takeBooks(shelf: \"2\")" ∧
    ¬ Kept bookWriter.description bookWriter.casing takeBooks.definition.argument? crowdedArguments arguments ∧
    bookWriter.withArguments takeBooks (.object crowdedBook) = .ok (takeBooks.setArguments books) ∧
    (takeBooks.setArguments books).text = "takeBooks(books: [\x7bauthorId: \"b\"\x7d])" ∧
    ¬ Kept bookWriter.description bookWriter.casing takeBooks.definition.argument? crowdedBook books := by
  have harguments : bookWriter.argumentLiterals takeBooks.definition [] crowdedArguments =
      .ok [("shelf", .string "2")] := rfl
  have hbooks : bookWriter.argumentLiterals takeBooks.definition [] crowdedBook =
      .ok [("books", .list [.object [("authorId", .string "b")]])] := rfl
  obtain ⟨-, -, -, hkept⟩ := Writer.kept_of_argumentLiterals harguments
  obtain ⟨-, -, -, hkept'⟩ := Writer.kept_of_argumentLiterals hbooks
  refine ⟨_, [("books", .list [.object [("authorId", .string "b")]])], rfl, rfl, fun h => ?_, rfl, rfl, fun h => ?_⟩
  · exact absurd (hkept.mp h).1 (by decide)
  · have hplace : Place bookWriter.description bookWriter.casing
        (.mk .list none (some (.mk .inputObject (some "BookInput") none)))
        (.object [("author_id", .string "a"), ("authorId", .string "b")])
        (.mk .inputObject (some "BookInput") none) (.object [("author_id", .string "a"), ("authorId", .string "b")]) :=
      .single nofun nofun .self
    have h := (hkept'.mp h).2 _ List.mem_cons_self _ rfl _ _ hplace _ _ rfl names_bookInput rfl
    exact absurd h (by decide)

end RecordGraph.Client
