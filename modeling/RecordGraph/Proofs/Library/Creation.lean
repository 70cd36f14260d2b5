import RecordGraph.Proofs.Decode.RoundTrip
import RecordGraph.Proofs.Execute.Merging
import RecordGraph.Proofs.Execute.Queries
import RecordGraph.Proofs.Execute.Reference
import RecordGraph.Proofs.Library.Reading
import RecordGraph.Proofs.Resolve.Paging
/-! Creating books. A field that creates books appends what it is given to the store and answers the numbers
that follow the last one, unless its arguments cannot be decoded. So all fields of a mutation append together
what they are given, in the order of their execution, and they answer the numbers one after the other. -/

namespace RecordGraph

namespace WireValue

/-- The texts in a list. -/
def texts : WireValue → List String
  | .list items => items.filterMap fun item => match item with
    | .string text => some text
    | _ => none
  | _ => []

/-- The texts in the lists among some fields. -/
def textsOf (fields : List (String × WireValue)) : List String := fields.flatMap fun field => field.2.texts

theorem texts_strings (texts : List String) : (list (texts.map string)).texts = texts := by
  rw [WireValue.texts, List.filterMap_map]
  exact List.filterMap_some

end WireValue

/-- A field whose arguments cannot be decoded is not resolved, and the host is as it was. -/
theorem Model.resolveOutput_of_undecoded {σ : Type} {m : Model} {host : Host σ} {r : FieldRequest}
    {f : WireField} {e : FieldError} (hf : m.requestedField r = .ok f) (he : m.decodeArguments f r.arguments = .error e)
    (parent : Value) : m.resolveOutput host parent r = throw e := by
  rw [Model.resolveOutput, Model.resolveField, hf, Hosted.lift_ok_bind, he]
  rfl

namespace Library

variable {σ : Type}

/-! What is asked for. -/

/-- The books that a field is given, if its arguments can be decoded. -/
def booksGiven? (x : Execution σ) (f : WireField) (given : List (String × Literal)) : Option (List Value) := do
  let arguments ← (x.arguments f given).toOption
  let decoded ← (x.model.decodeArguments f arguments).toOption
  return (Arguments.list? decoded "books").getD []

mutual

/-- What the fields of a plan that create books are given, those left out whose arguments cannot be decoded. -/
def creations (x : Execution σ) (object : ObjectType) : Plan → List (List Value)
  | .field _ name given _ =>
    match object.fields.find? fun f => f.name == name with
    | some f => if f.hostName = "create_books" then (booksGiven? x f given).toList else []
    | none => []
  | .group condition members => if x.applies object condition then allCreations x object members else []

/-- What the fields of plans that create books are given, in the order of their execution. -/
def allCreations (x : Execution σ) (object : ObjectType) : List Plan → List (List Value)
  | [] => []
  | plan :: rest => creations x object plan ++ allCreations x object rest

end

mutual

/-- The response keys of the fields of a plan. -/
def responseKeys (x : Execution σ) (object : ObjectType) : Plan → List String
  | .field key _ _ _ => [key]
  | .group condition members => if x.applies object condition then allResponseKeys x object members else []

def allResponseKeys (x : Execution σ) (object : ObjectType) : List Plan → List String
  | [] => []
  | plan :: rest => responseKeys x object plan ++ allResponseKeys x object rest

end

namespace Store

/-- The numbers that new books get. -/
def numbers (store : Store) (more : List Value) : List Nat := List.range' (store.total + 1) more.length

theorem add_eq (store : Store) (more : List Value) : store.add more =
    ({ created := store.created ++ more }, (store.numbers more).map fun n => .string (toString n)) := rfl

theorem add_nil (store : Store) : (store.add []).1 = store := by
  rw [add_eq, List.append_nil]

theorem add_add (store : Store) (more others : List Value) :
    ((store.add more).1.add others).1 = (store.add (more ++ others)).1 := by
  simp only [add_eq, List.append_assoc]

theorem numbers_append (store : Store) (more others : List Value) :
    store.numbers (more ++ others) = store.numbers more ++ (store.add more).1.numbers others := by
  simp only [numbers, total, add_eq, List.length_append, ← Nat.add_assoc, ← List.range'_append_1,
    Nat.add_right_comm _ _ 1]

end Store

/-- The wire text of a number as an identifier. -/
def wireId (n : Nat) : String := ScalarCodec.encodeId (toString n)

/-- A computation creates books: it appends them to the store, and the fields that it adds, each under one of
the keys, have their identifiers. -/
structure Creates (run : StateM Store (List Occurrence)) (more : List Value) (keys : List String) : Prop where
  store (store : Store) : (run.run store).2 = (store.add more).1
  texts (store : Store) :
    WireValue.textsOf (Occurrence.allFields (run.run store).1) = (store.numbers more).map wireId
  keys (store : Store) : ((Occurrence.allFields (run.run store).1).map Prod.fst).Sublist keys
  kept (store : Store) : ∀ field ∈ Occurrence.allFields (run.run store).1, field.2.Kept

namespace Creates

/-- Fields without texts are added without the store. -/
theorem of_fields {os : List Occurrence} {fields : List (String × WireValue)} {keys : List String}
    (h : Occurrence.allFields os = fields) (htexts : WireValue.textsOf fields = [])
    (hkeys : (fields.map Prod.fst).Sublist keys) (hkept : ∀ field ∈ fields, field.2.Kept) :
    Creates (pure os) [] keys := by
  subst h
  exact ⟨fun store => store.add_nil.symm, fun _ => htexts, fun _ => hkeys, fun _ => hkept⟩

theorem nil : Creates (pure []) [] [] := of_fields rfl rfl (List.Sublist.refl []) nofun

/-- A field that adds nothing to its object. -/
theorem silent {o : Occurrence} (h : o.fields = []) (key : String) : Creates (pure [o]) [] [key] := by
  have hfields : Occurrence.allFields [o] = [] := by
    rw [Occurrence.allFields, h]
    rfl
  exact of_fields hfields rfl (List.nil_sublist _) nofun

/-- A field that adds a value without texts to its object. -/
theorem textless {o : Occurrence} {key : String} {w : WireValue} (h : o.fields = [(key, w)])
    (htexts : w.texts = []) (hkept : w.Kept) : Creates (pure [o]) [] [key] := by
  have hfields : Occurrence.allFields [o] = [(key, w)] := by
    rw [Occurrence.allFields, h]
    rfl
  have hnone : WireValue.textsOf [(key, w)] = [] := by
    rw [WireValue.textsOf, List.flatMap_singleton, htexts]
  refine of_fields hfields hnone (List.Sublist.refl _) fun field hfield => ?_
  rw [List.mem_singleton.mp hfield]
  exact hkept

/-- What a field answers that creates books. -/
def answer (store : Store) (books : List Value) : Content :=
  .list ((store.numbers books).map fun n => .value (.string (wireId n)))

theorem data_answer (store : Store) (books : List Value) :
    (answer store books).data = some (.list (((store.numbers books).map wireId).map .string)) := by
  have hall (ns : List Nat) : Content.allData (ns.map fun n => .value (.string (wireId n))) =
      some ((ns.map wireId).map .string) := by
    induction ns with
    | nil => rfl
    | cons n ns ih =>
      rw [List.map_cons, Content.allData, ih]
      rfl
  rw [answer, Content.data, hall]
  rfl

theorem answers {run : StateM Store (List Occurrence)} {books : List Value} {key : String}
    (h : ∀ store : Store, run.run store = ([.resolved key (answer store books)], (store.add books).1)) :
    Creates run books [key] := by
  have hfields (store : Store) : Occurrence.allFields (run.run store).1 =
      [(key, .list (((store.numbers books).map wireId).map .string))] := by
    rw [h]
    simp only [Occurrence.allFields, Occurrence.fields, data_answer, Option.map_some, Option.toList_some,
      List.append_nil]
  constructor
  · intro store
    rw [h]
  · intro store
    rw [hfields, WireValue.textsOf, List.flatMap_singleton, WireValue.texts_strings]
  · intro store
    rw [hfields]
    exact List.Sublist.refl _
  · intro store field hfield
    rw [hfields, List.mem_singleton] at hfield
    rw [hfield]
    exact WireValue.kept_strings _

variable {run rest : StateM Store (List Occurrence)} {more others : List Value} {keys keys' : List String}

theorem append (h : Creates run more keys) (hrest : Creates rest others keys') :
    Creates (do return (← run) ++ (← rest)) (more ++ others) (keys ++ keys') := by
  have hfirst (store : Store) : (run.run store).2 = (store.add more).1 := h.store store
  have hrun (store : Store) : StateT.run (do return (← run) ++ (← rest)) store =
      ((run.run store).1 ++ (rest.run (store.add more).1).1, (rest.run (store.add more).1).2) := by
    rw [← hfirst]
    rfl
  constructor
  · intro store
    rw [hrun, hrest.store, Store.add_add]
  · intro store
    rw [hrun, Occurrence.allFields_append, WireValue.textsOf, List.flatMap_append, Store.numbers_append,
      List.map_append, ← h.texts, ← hrest.texts]
    rfl
  · intro store
    rw [hrun, Occurrence.allFields_append, List.map_append]
    exact (h.keys store).append (hrest.keys _)
  · intro store
    rw [hrun, Occurrence.allFields_append, List.forall_mem_append]
    exact ⟨h.kept store, hrest.kept _⟩

end Creates

/-! The mutation root. -/

/-- The mutation root of a model has one field, which creates books and answers identifiers. -/
structure Serves (m : Model) (object : ObjectType) (f : WireField) : Prop where
  query : m.query = "Query"
  mutation : m.mutation = some "Mutation"
  type : m.type? "Mutation" = some (.object object)
  name : object.name = "Mutation"
  fields : object.fields = [f]
  hostName : f.hostName = "create_books"
  ne_typeName : f.name ≠ typeNameField
  fieldType : f.type = .nonNull (.list (.named "ID"))
  identifier : ∃ t : ScalarType, m.type? "ID" = some (.scalar t) ∧ t.wireName = "ID" ∧
    t.codec.serialize = ScalarCodec.id.serialize
  paged : Paged m

namespace Serves

variable {m : Model} {object : ObjectType} {f : WireField} (h : Serves m object f)
include h

theorem find?_fields (name : String) :
    (object.fields.find? fun f => f.name == name) = if f.name = name then some f else none := by
  rw [h.fields, List.find?_singleton]
  simp only [beq_iff_eq]

/-- The identifiers of books are encoded for the wire. -/
theorem encode_ids (ns : List Nat) : m.encode f.type (.list (ns.map fun n => .string (toString n))) =
    .ok (.list (ns.map fun n => .value (.string (wireId n)))) := by
  obtain ⟨t, ht, -, hcodec⟩ := h.identifier
  have hitem (n : Nat) : m.encode (.named "ID") (.string (toString n)) = .ok (.value (.string (wireId n))) := by
    rw [Model.encode, Model.encodeNamed, ht]
    · simp only [hcodec]
      rfl
    · rintro ⟨⟩
  have hitems : (ns.map fun n => Value.string (toString n)).mapM (m.encode (.named "ID")) =
      .ok (ns.map fun n => Output.value (.string (wireId n))) := by
    rw [mapM_eq_ok, List.forall₂_map_left_iff, List.forall₂_map_right_iff, List.forall₂_same]
    exact fun n _ => hitem n
  rw [h.fieldType, Model.encode, Model.encode, hitems]
  rfl

/-- They come to a list of their texts. -/
theorem contentOf_ids (expand : Expand Store) (ns : List Nat) :
    m.contentOfField expand f.type (.list (ns.map fun n => .value (.string (wireId n)))) =
      pure (.list (ns.map fun n => .value (.string (wireId n)))) := by
  obtain ⟨t, ht, hname, -⟩ := h.identifier
  have hcommon : TypeDefinition.isCommon t.wireName = true := by
    rw [hname]
    decide +kernel
  have hitem (n : Nat) : m.contentOf expand (.named "ID") (.value (.string (wireId n))) =
      pure (.value (.string (wireId n))) := by
    rw [Model.contentOf, Model.contentOfNamed, ht]
    simp only [Model.contentOfScalar, hcommon, Bool.true_or, if_true]
  have hitems : Model.contentOfItems (m.contentOf expand (.named "ID"))
      (ns.map fun n => .value (.string (wireId n))) = pure (ns.map fun n => .value (.string (wireId n))) := by
    induction ns with
    | nil => rfl
    | cons n ns ih =>
      simp only [List.map_cons, Model.contentOfItems, hitem, ih]
      rfl
  rw [h.fieldType]
  change Content.list <$> Model.contentOfItems (m.contentOf expand (.named "ID")) _ = _
  rw [hitems]
  rfl

variable {r : FieldRequest}

theorem requestedField (hparent : r.parentType = "Mutation") (hname : r.wireName = f.name) :
    m.requestedField r = .ok f := by
  have hget : m.field? r.parentType r.wireName = some f := by
    rw [hparent, hname, Model.field?, h.type]
    change (object.fields.find? fun g => g.name == f.name) = some f
    rw [h.find?_fields, if_pos rfl]
  rw [Model.requestedField, hget]

theorem run_resolveOutput (hparent : r.parentType = "Mutation") (hname : r.wireName = f.name)
    (hop : r.operation = .mutation) (store : Store) :
    (m.resolveOutput host rootValues.mutation r).run.run store = match m.decodeArguments f r.arguments with
      | .error e => (.error e, store)
      | .ok a => (.ok (.list ((store.numbers ((Arguments.list? a "books").getD [])).map fun n =>
            .value (.string (wireId n)))), (store.add ((Arguments.list? a "books").getD [])).1) := by
  have hfield := h.requestedField hparent hname
  have hroot : m.atMutationRoot r = true := by
    rw [Model.atMutationRoot, hop, hparent, h.mutation]
    decide
  have hhandler : rootValues.mutation.mutateHandler? f.hostName = some (.native "create_books") := by
    rw [h.hostName]
    rfl
  cases hdecode : m.decodeArguments f r.arguments with
  | error e =>
    rw [Model.resolveOutput_of_undecoded hfield hdecode]
    rfl
  | ok a =>
    have hresolve : m.resolveField host rootValues.mutation r =
        (Handler.native "create_books").value host (Model.infoOf f r) a := by
      simp only [Model.resolveField, hfield, Hosted.lift_ok_bind, hdecode, hroot, if_true, hhandler]
    rw [Model.resolveOutput, hresolve, hfield]
    have hvalue : ((Handler.native "create_books").value host (Model.infoOf f r) a).run store =
      (.ok (.list (store.add ((Arguments.list? a "books").getD [])).2),
        (store.add ((Arguments.list? a "books").getD [])).1) := rfl
    refine (Hosted.run_bind hvalue).trans ?_
    rw [Hosted.lift_ok_bind, Store.add_eq, h.encode_ids]
    rfl

end Serves

section
variable {x : Execution Store} {object : ObjectType} {f : WireField} (h : Serves x.model object f)
  (hhost : x.host = host) (hkind : x.kind = .mutation)
include h hhost hkind

/-- A field of the root creates the books that it is given, unless its arguments cannot be decoded. -/
theorem creates_occurrence (expand : Expand Store) (key : String) (given : List (String × Literal)) :
    Creates (do return [← x.occurrence expand object f key given rootValues.mutation])
      (booksGiven? x f given).toList.flatten [key] := by
  unfold Execution.occurrence
  cases hgiven : x.arguments f given with
  | error missing =>
    rw [booksGiven?, hgiven]
    exact Creates.silent rfl key
  | ok arguments =>
    have hresolve := h.run_resolveOutput
      (r := ⟨object.name, f.name, x.kind, arguments, x.context⟩) h.name rfl hkind
    rw [← hhost] at hresolve
    dsimp only at hresolve ⊢
    generalize (x.model.resolveOutput x.host rootValues.mutation _).run = resolve at hresolve ⊢
    cases hdecode : x.model.decodeArguments f arguments with
    | error e =>
      have hbooks : booksGiven? x f given = none := by
        simp only [booksGiven?, hgiven, hdecode, Except.toOption, Option.bind_eq_bind, Option.bind_some,
          Option.bind_none]
      rw [hdecode] at hresolve
      have hpure : resolve = pure (.error e) := funext hresolve
      rw [hpure, hbooks]
      refine Creates.silent (o := .failed key f.type e) ?_ key
      rw [Occurrence.fields, h.fieldType]
      rfl
    | ok a =>
      have hbooks : booksGiven? x f given = some ((Arguments.list? a "books").getD []) := by
        simp only [booksGiven?, hgiven, hdecode, Except.toOption, Option.bind_eq_bind, Option.bind_some]
        rfl
      rw [hdecode] at hresolve
      dsimp only at hresolve
      rw [hbooks, Option.toList_some, List.flatten_singleton]
      generalize (Arguments.list? a "books").getD [] = books at hresolve ⊢
      refine Creates.answers fun store => ?_
      rw [StateT.run_bind, StateT.run_bind, hresolve]
      change StateT.run (do return [← Occurrence.resolved key <$> x.model.contentOfField expand f.type
        (.list ((store.numbers books).map fun n => .value (.string (wireId n))))]) (store.add books).1 = _
      rw [h.contentOf_ids]
      rfl

/-- A field by name, which may be another one. -/
theorem creates_occurrenceNamed (plans : List Plan) (expand : Expand Store) (key name : String)
    (given : List (String × Literal)) :
    Creates (do return [← x.occurrenceNamed plans expand object key name given rootValues.mutation])
      (creations x object (.field key name given plans)).flatten [key] := by
  have htold : x.told? object name given plans = none := by
    have hself : x.selfField? object name given plans = none := by
      have hother : ¬ (object.name == x.model.query) = true := by
        rw [h.name, h.query]
        decide
      unfold Execution.selfField?
      cases x.self with
      | none => rfl
      | some view =>
        simp only [Option.bind_eq_bind, Option.bind_some, guard, if_neg hother, failure, Option.bind_none]
    simp only [Execution.told?, hself, Option.pmap_none]
  rw [creations, h.find?_fields, Execution.occurrenceNamed, htold]
  by_cases hname : name = typeNameField
  · rw [if_pos hname, if_neg (hname ▸ h.ne_typeName)]
    have hfields (w : WireValue) : (Occurrence.told key (.of (some w))).fields = [(key, w)] := rfl
    unfold Execution.typeName
    split
    · exact Creates.textless (hfields _) rfl (WireValue.kept_string _)
    · exact Creates.textless (hfields _) rfl WireValue.kept_null
  · rw [if_neg hname, h.find?_fields]
    by_cases hf : f.name = name
    · rw [if_pos hf]
      dsimp only
      rw [if_pos h.hostName]
      exact creates_occurrence h hhost hkind expand key given
    · rw [if_neg hf]
      exact Creates.silent rfl key

end

mutual

theorem creates_plan {x : Execution Store} {object : ObjectType} {f : WireField} (h : Serves x.model object f)
    (hhost : x.host = host) (hkind : x.kind = .mutation) (plan : Plan) :
    Creates (plan.occurrences x object rootValues.mutation) (creations x object plan).flatten
      (responseKeys x object plan) := by
  cases plan with
  | field key name given below =>
    exact creates_occurrenceNamed h hhost hkind below (Plan.allOccurrences x below) key name given
  | group condition members =>
    simp only [Plan.occurrences, creations, responseKeys]
    split
    · exact creates_plans h hhost hkind members
    · exact Creates.nil

theorem creates_plans {x : Execution Store} {object : ObjectType} {f : WireField} (h : Serves x.model object f)
    (hhost : x.host = host) (hkind : x.kind = .mutation) (plans : List Plan) :
    Creates (Plan.allOccurrences x plans object rootValues.mutation) (allCreations x object plans).flatten
      (allResponseKeys x object plans) := by
  cases plans with
  | nil => exact Creates.nil
  | cons plan rest =>
    rw [allCreations, allResponseKeys, List.flatten_append]
    exact (creates_plan h hhost hkind plan).append (creates_plans h hhost hkind rest)

end

end Library

end RecordGraph
