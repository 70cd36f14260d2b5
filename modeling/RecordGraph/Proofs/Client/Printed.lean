import Mathlib.Data.List.Forall2
import RecordGraph.Proofs.Client.Fields
/-! Documents written by a client are read back. The text of a document holds one operation without a name, of the
kind of the document, whose selections ask for the fields that the document was made of. -/

namespace RecordGraph

namespace Client

open Document

namespace ClientDocument

variable {d : ClientDocument} {fuel sets : Nat}

theorem toList_text (d : ClientDocument) : d.text.toList =
    (if d.kind = .query then "" else d.kind.text ++ " ").toList ++
      '\x7b' :: ((WantedField.texts d.selections).toList ++ [' ', '\x7d']) := by
  rw [text, String.toList_append, String.toList_append, String.toList_append, List.append_assoc, List.append_assoc]
  rfl

/-- The operation that a document asks for. -/
def operation (d : ClientDocument) : Operation :=
  { kind := d.kind, selections := WantedField.selections d.selections }

/-- What starts with a bracket does not start with the kind of an operation. -/
theorem kindOperation?_bracket (text : List Char) : kindOperation? fuel sets ('\x7b' :: text) = none := rfl

/-- After the kind of an operation its selections may follow at once. -/
theorem kindOperation?_kind (kind : OperationKind) (text : List Char) :
    kindOperation? fuel sets ((kind.text ++ " ").toList ++ '\x7b' :: text) =
      (selectionSet? fuel sets (' ' :: '\x7b' :: text)).map fun (found, rest) =>
        ({ kind := kind, selections := found }, rest) := by
  have hkind : operationKind? ((kind.text ++ " ").toList ++ '\x7b' :: text) =
      some (kind, ' ' :: '\x7b' :: text) := by
    cases kind <;> rfl
  have hname : name? (' ' :: '\x7b' :: text) = none := rfl
  have hvariables : variableList fuel (' ' :: '\x7b' :: text) = ([], ' ' :: '\x7b' :: text) := rfl
  have hmarks : directives fuel (' ' :: '\x7b' :: text) = ([], ' ' :: '\x7b' :: text) :=
    directives_eq_nil rfl (by decide)
  simp only [kindOperation?, hkind, hname, hvariables, hmarks, Option.bind_eq_bind, Option.bind_some]
  cases selectionSet? fuel sets (' ' :: '\x7b' :: text) <;> rfl

/-- The kind of an operation does not start like a selection set. -/
theorem selectionSet?_kind (kind : OperationKind) (text : List Char) :
    selectionSet? fuel sets (kind.text.toList ++ text) = none := by
  cases kind <;> exact selectionSet?_eq_none rfl (by decide)

/-- What is read of a document is what is read between its brackets. -/
theorem operation?_eq {found : Option (List Selection × List Char)}
    (h : ∀ {text}, skip text = '\x7b' :: ((WantedField.texts d.selections).toList ++ [' ', '\x7d']) →
      selectionSet? fuel sets text = found) :
    operation? fuel sets d.text.toList =
      found.map fun (found, rest) => ({ kind := d.kind, selections := found }, rest) := by
  rw [toList_text]
  by_cases hquery : d.kind = .query
  · rw [if_pos hquery, hquery, String.toList_empty, List.nil_append, operation?, kindOperation?_bracket, h rfl]
  · have hplain (text : List Char) : selectionSet? fuel sets ((d.kind.text ++ " ").toList ++ text) = none := by
      rw [String.toList_append, List.append_assoc]
      exact selectionSet?_kind d.kind _
    rw [if_neg hquery, operation?, kindOperation?_kind, h rfl, hplain]
    cases found <;> rfl

theorem operation?_text (hsome : d.selections ≠ []) (hlegible : ∀ f ∈ d.selections, f.Legible)
    (hfuel : d.text.toList.length < fuel) :
    operation? fuel sets d.text.toList =
      if WantedField.nestings d.selections ≤ sets then some (d.operation, []) else none := by
  rw [toList_text, List.length_append, List.length_cons, List.length_append] at hfuel
  rw [operation?_eq fun hskip => WantedField.selectionSet?_texts hskip hsome hlegible
    (fun f hf => (hlegible f hf).read) (by omega)]
  split <;> rfl

/-- The document that is read. -/
def document (d : ClientDocument) : Document := ⟨[d.operation], []⟩

/-- A document starts with a bracket or with the kind of its operation. -/
theorem text_starts (d : ClientDocument) : ∃ c more, skip d.text.toList = c :: more ∧ c ≠ 'f' := by
  rw [toList_text]
  by_cases hquery : d.kind = .query
  · rw [if_pos hquery]
    exact ⟨'\x7b', _, rfl, by decide⟩
  · rw [if_neg hquery]
    cases d.kind with
    | query => exact ⟨'q', _, rfl, by decide⟩
    | mutation => exact ⟨'m', _, rfl, by decide⟩
    | subscription => exact ⟨'s', _, rfl, by decide⟩

theorem fragmentDefinition?_text (d : ClientDocument) : fragmentDefinition? fuel sets d.text.toList = none := by
  obtain ⟨c, more, hskip, hc⟩ := d.text_starts
  rw [fragmentDefinition?, word?_eq_none hskip (rfl : "fragment".toList.head? = some 'f') hc]
  rfl

theorem definitions_nil : ∀ fuel, definitions sets fuel [] = (⟨[], []⟩, [])
  | 0 => rfl
  | fuel + 1 => by
    have hset : selectionSet? fuel sets [] = none := by
      cases fuel <;> cases sets <;> rfl
    have hoperation : operation? fuel sets [] = none := by
      rw [operation?, hset]
      rfl
    have hfragment : fragmentDefinition? fuel sets [] = none := rfl
    rw [definitions, hoperation, hfragment]

/-- A document is read, if there are few enough selection sets inside each other in it. -/
theorem readWithin?_text (hsome : d.selections ≠ []) (hlegible : ∀ f ∈ d.selections, f.Legible) :
    readWithin? sets d.text = if WantedField.nestings d.selections ≤ sets then some d.document else none := by
  have hoperation : operation? (2 * d.text.toList.length + 7) sets d.text.toList = _ :=
    operation?_text hsome hlegible (by omega)
  by_cases hsets : WantedField.nestings d.selections ≤ sets
  · rw [if_pos hsets] at hoperation ⊢
    have hread : definitions sets (2 * d.text.toList.length + 8) d.text.toList = (d.document, []) := by
      rw [definitions, hoperation]
      simp only [definitions_nil]
      rfl
    rw [readWithin?]
    simp only [hread]
    rfl
  · rw [if_neg hsets] at hoperation ⊢
    have hread : definitions sets (2 * d.text.toList.length + 8) d.text.toList = (⟨[], []⟩, d.text.toList) := by
      rw [definitions, hoperation, fragmentDefinition?_text]
    obtain ⟨c, more, hskip, -⟩ := d.text_starts
    rw [readWithin?]
    simp only [hread, hskip, reduceCtorEq, false_and, if_false]

end ClientDocument

/-- A selection asks for a field: under its wire name, under the other name that it is wanted under, with arguments
of the same names and values in the same order, and for the fields below it in the same order. -/
inductive Asks : WantedField → Selection → Prop
  | mk {definition : FieldDescription} {label : Option String} {arguments : Entries WireValue}
      {below : List WantedField} {given : List (String × Literal)} {inner : List Selection}
      (hgiven : List.Forall₂ (fun a l => l.1 = a.1 ∧ ∀ lookUp, l.2.value lookUp = .ok a.2) arguments given)
      (hbelow : List.Forall₂ Asks below inner) :
      Asks (.mk definition label arguments below) (.field label definition.name given [] inner)

theorem asks_selections {fields : List WantedField} (h : ∀ f ∈ fields, Asks f f.selection) :
    List.Forall₂ Asks fields (WantedField.selections fields) := by
  induction fields with
  | nil => exact .nil
  | cons f fields ih => exact .cons (h f List.mem_cons_self) (ih fun g hg => h g (List.mem_cons_of_mem f hg))

theorem WantedField.Legible.asks {f : WantedField} (h : f.Legible) : Asks f f.selection := by
  induction h with
  | mk hname hlabel hnames hvalues hbelow ih =>
    refine .mk (List.forall₂_map_right_iff.mpr (List.forall₂_same.mpr fun a ha => ⟨rfl, ?_⟩)) (asks_selections ih)
    exact (hvalues a ha).value_ofWire

/-- The document that a text holds, however many selection sets stand inside each other in it. -/
def parse? (text : String) : Option Document := readWithin? text.length text

namespace ClientDocument

/-- The text of a document is one operation without a name, of the kind of the document, that asks for its fields.
The engine reads it, if no more selection sets stand inside each other than it allows. -/
theorem parse?_text {d : ClientDocument} (hsome : d.selections ≠ [])
    (hlegible : ∀ f ∈ d.selections, f.Legible) :
    ∃ selections, List.Forall₂ Asks d.selections selections ∧
      parse? d.text = some ⟨[{ kind := d.kind, selections := selections }], []⟩ ∧
      read? d.text = if WantedField.nestings d.selections ≤ maxSets
        then some ⟨[{ kind := d.kind, selections := selections }], []⟩ else none := by
  refine ⟨_, asks_selections fun f hf => (hlegible f hf).asks, ?_, readWithin?_text hsome hlegible⟩
  have hsets : WantedField.nestings d.selections ≤ d.text.length := by
    have hfields := WantedField.nestings_le_length d.selections
    rw [← String.length_toList, toList_text, List.length_append, List.length_cons, List.length_append]
    omega
  rw [parse?, readWithin?_text hsome hlegible, if_pos hsets]
  rfl

/-- A field without arguments of a type that does not matter. -/
def plainField (name : String) (below : List WantedField) : WantedField :=
  .mk ⟨name, [], .mk .object none none⟩ none [] below

/-- A book as the server takes it, with quotes in its title. -/
def newBook : WireValue :=
  .object [("gender", .member "MALE"), ("title", .string "A \"new\" one")]

/-- Makes books, under another name for the field. -/
def newBooks : ClientDocument :=
  ⟨.mutation, [.mk ⟨"createBooks", [], .mk .object none none⟩ (some "made")
    [("books", .list [newBook, newBook]), ("first", .number (.ofUInt64 2))]
    [plainField "nodes" [plainField "title" []], plainField "totalCount" []]]⟩

theorem newBooks_legible : ∀ f ∈ newBooks.selections, f.Legible := by
  have hleaf {name : String} (hname : IsName name) : (plainField name []).Legible :=
    .mk hname nofun nofun nofun nofun
  have hnodes : (plainField "nodes" [plainField "title" []]).Legible :=
    .mk (by decide : IsName "nodes") nofun nofun nofun (List.forall_mem_singleton.mpr (hleaf (by decide)))
  have hgender : (WireValue.member "MALE").Legible := WireValue.legible_member (by decide) (by decide)
  have htitle : (WireValue.string "A \"new\" one").Legible := WireValue.legible_string (by decide)
  have hbook : newBook.Legible := .object (by decide) (by decide)
    (List.forall_mem_cons.mpr ⟨hgender, List.forall_mem_singleton.mpr htitle⟩)
  have hbooks : (WireValue.list [newBook, newBook]).Legible :=
    .list (List.forall_mem_cons.mpr ⟨hbook, List.forall_mem_singleton.mpr hbook⟩)
  have hfirst : (WireValue.number (.ofUInt64 2)).Legible := .number rfl
  exact List.forall_mem_singleton.mpr (.mk (by decide : IsName "createBooks") (by decide) (by decide)
    (List.forall_mem_cons.mpr ⟨hbooks, List.forall_mem_singleton.mpr hfirst⟩)
    (List.forall_mem_cons.mpr ⟨hnodes, List.forall_mem_singleton.mpr (hleaf (by decide))⟩))

theorem newBooks_read_back : newBooks.selections ≠ [] ∧ (∀ f ∈ newBooks.selections, f.Legible) ∧
    ∃ selections, List.Forall₂ Asks newBooks.selections selections ∧
      parse? newBooks.text = some ⟨[{ kind := .mutation, selections := selections }], []⟩ ∧
      read? newBooks.text = some ⟨[{ kind := .mutation, selections := selections }], []⟩ := by
  have hsome : newBooks.selections ≠ [] := List.cons_ne_nil _ _
  have hsets : WantedField.nestings newBooks.selections ≤ maxSets := by decide
  obtain ⟨selections, hasks, hparse, hread⟩ := parse?_text hsome newBooks_legible
  rw [if_pos hsets] at hread
  exact ⟨hsome, newBooks_legible, selections, hasks, hparse, hread⟩

end ClientDocument

end Client

end RecordGraph
