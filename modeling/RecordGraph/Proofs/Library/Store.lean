import Mathlib.Data.List.Flatten
import RecordGraph.Proofs.Library.Creation
/-! The store of the library over any run of requests. A mutation appends what its fields that create books are
given and is answered the numbers that follow the last one; any other request leaves the store as it is. So the
store holds, in order, what all of these fields were given, and the identifiers that clients see number the books
one after the other. Some numbers are seen by nobody: each of two fields under one response key creates its books,
but the response has the answer of the first of them only. -/

namespace RecordGraph

/-- The texts in the lists that a response has under its keys. -/
def Response.texts (r : Response) : List String :=
  match r.data with
  | .object fields => WireValue.textsOf fields
  | _ => []

namespace Library

variable {σ : Type}

/-- What is read off the fields that a mutation selects on its root. -/
def ofMutation {α : Type} (read : Execution σ → ObjectType → List Plan → List α) (s : Service σ) (r : Request) :
    List α :=
  match s.prepare r with
  | .ok p =>
    if p.kind = .mutation then
      match s.model.type? (s.rootName .mutation) with
      | some (.object object) => read (s.execution r p) object p.plans
      | _ => []
    else []
  | .error _ => []

/-- What the fields of a request that create books are given. -/
def requestCreations (s : Service σ) (r : Request) : List (List Value) := ofMutation allCreations s r

/-- The response keys of a mutation. -/
def mutationKeys (s : Service σ) (r : Request) : List String := ofMutation allResponseKeys s r

/-- The identifiers of books in the response to a request, which has some if it is a mutation. -/
def returned (r : Request) (response : Response) : List String :=
  if Document.kindOf r.text r.operationName = .mutation then response.texts else []

/-- The identifiers of books in the responses to some requests. -/
def allReturned (requests : List Request) (responses : List Response) : List String :=
  (List.zipWith returned requests responses).flatten

/-! The model. -/

/-- Whether the connections among the fields of a type are answered with pages or like any other field. -/
def isPaged (t : WireType) : Bool :=
  (t.fields?.getD []).all fun f => match f.connection.bind ConnectionBinding.resolver with
    | none | some .page => true
    | _ => false

theorem paged_of_all {m : Model} (h : m.types.values.all isPaged = true) : Paged m := by
  intro type name f hf binding resolver hbinding hresolver
  obtain ⟨t, ht, hf⟩ := Option.bind_eq_some_iff.mp hf
  obtain ⟨fields, hfields, hf⟩ := Option.bind_eq_some_iff.mp hf
  have hpaged := List.all_eq_true.mp h t (Registry.mem_values_of_get? ht)
  rw [isPaged, hfields] at hpaged
  have hfield := List.all_eq_true.mp hpaged f (List.mem_of_find?_eq_some hf)
  rw [hbinding, Option.bind_some, hresolver] at hfield
  cases resolver with
  | page => rfl
  | _ => cases hfield

theorem serves_of_build (camelCase : Bool) : ∃ m object f,
    Model.build ⟨catalogue, { camelCase := camelCase }⟩ source.records = .ok m ∧ m.check = .ok () ∧
      Serves m object f := by
  have hcheck {m : Model} (h : m.check.isOk = true) : m.check = .ok () := by
    cases hm : m.check with
    | ok _ => rfl
    | error e =>
      rw [hm] at h
      cases h
  cases camelCase with
  | false =>
    exact ⟨_, _, _, rfl, hcheck (by decide +kernel), rfl, rfl, rfl, rfl, rfl, rfl, by decide, rfl,
      ⟨_, rfl, rfl, rfl⟩, paged_of_all (by decide +kernel)⟩
  | true =>
    exact ⟨_, _, _, rfl, hcheck (by decide +kernel), rfl, rfl, rfl, rfl, rfl, rfl, by decide, rfl,
      ⟨_, rfl, rfl, rfl⟩, paged_of_all (by decide +kernel)⟩

/-- A service of the library. -/
structure Runs (s : Service Store) (object : ObjectType) (f : WireField) : Prop where
  host : s.host = host
  values : s.values = rootValues
  serves : Serves s.model object f

/-- The library can be put into service with any settings. -/
theorem exists_runs (settings : EngineSettings) : ∃ s object f, service settings = .ok s ∧ Runs s object f := by
  obtain ⟨m, object, f, hbuild, hcheck, h⟩ := serves_of_build settings.camelCase
  refine ⟨⟨m, settings, rootValues, host⟩, object, f, ?_, rfl, rfl, h⟩
  have hsetting : Service.settingOf settings source = ⟨catalogue, { camelCase := settings.camelCase }⟩ := rfl
  rw [service, Service.build, ← Service.settingOf, hsetting, hbuild]
  change (do m.check.mapError SchemaError.invalid; pure _) = Except.ok (_ : Service Store)
  rw [hcheck]
  rfl

/-! Responses. -/

section
variable {run : StateM Store (List Occurrence)} {more : List Value} {keys : List String}

theorem texts_ofOccurrences (os : List Occurrence) : (Response.ofOccurrences os).texts =
    WireValue.textsOf (WireValue.mergeFields (Occurrence.allFields os) []) := by
  rw [Response.texts, Response.ofOccurrences, Execution.object]
  cases Occurrence.allFields os with
  | nil => rfl
  | cons field fields => rfl

theorem Creates.texts_sublist (h : Creates run more keys) (store : Store) :
    (Response.ofOccurrences (run.run store).1).texts.Sublist ((store.numbers more).map wireId) := by
  have hmerged : (WireValue.mergeFields (Occurrence.allFields (run.run store).1) []).Sublist
      ([] ++ Occurrence.allFields (run.run store).1) := WireValue.mergeFields_sublist (h.kept store)
  rw [texts_ofOccurrences, ← h.texts]
  exact hmerged.flatMap _

theorem Creates.texts_eq (h : Creates run more keys) (hkeys : keys.Nodup) (store : Store) :
    (Response.ofOccurrences (run.run store).1).texts = (store.numbers more).map wireId := by
  rw [texts_ofOccurrences, WireValue.mergeFields_of_nodup ((h.keys store).nodup hkeys), List.nil_append, h.texts]

end

/-! Requests. -/

section
variable {s : Service Store} {object : ObjectType} {f : WireField} {r : Request} {p : Prepared}

theorem Runs.rootName (h : Runs s object f) : s.rootName .mutation = "Mutation" := by
  rw [Service.rootName, Service.table, TypeTable.ofModel, TypeTable.root?, h.serves.mutation]
  rfl

/-- A mutation reads what it creates off its plans. -/
theorem Runs.ofMutation_eq {α : Type} (h : Runs s object f) (hp : s.prepare r = .ok p) (hk : p.kind = .mutation)
    (read : Execution Store → ObjectType → List Plan → List α) :
    ofMutation read s r = read (s.execution r p) object p.plans := by
  -- `unfold` would have the text of a request read to prove the equation that it rewrites with.
  delta ofMutation
  simp only [hp, hk, if_true, h.rootName, h.serves.type]

theorem ofMutation_of_ne {α : Type} (hp : s.prepare r = .ok p) (hk : p.kind ≠ .mutation)
    (read : Execution Store → ObjectType → List Plan → List α) : ofMutation read s r = [] := by
  delta ofMutation
  simp only [hp, if_neg hk]

theorem ofMutation_of_error {α : Type} {cause : Rejection} (hp : s.prepare r = .error cause)
    (read : Execution Store → ObjectType → List Plan → List α) : ofMutation read s r = [] := by
  delta ofMutation
  simp only [hp]

/-- The fields of a mutation create the books that they are given. -/
theorem Runs.creates (h : Runs s object f) (hp : s.prepare r = .ok p) (hk : p.kind = .mutation) :
    Creates (s.occurrences { r with root := none } p) (requestCreations s r).flatten (mutationKeys s r) := by
  rw [requestCreations, mutationKeys, h.ofMutation_eq hp hk, h.ofMutation_eq hp hk]
  have hoccurrences : s.occurrences { r with root := none } p =
      Plan.allOccurrences (s.execution r p) p.plans object rootValues.mutation := by
    rw [Service.occurrences, hk, h.rootName, Execution.occurrences]
    change (match s.model.type? "Mutation" with
      | some (.object type) => Plan.allOccurrences (s.execution r p) p.plans type (s.values.get .mutation)
      | _ => pure []) = _
    rw [h.serves.type, h.values]
    rfl
  rw [hoccurrences]
  exact creates_plans h.serves h.host hk p.plans

end

/-- Books are appended to a store, and identifiers of them are seen: all of them, if keys are distinct. -/
structure Appends (before after : Store) (more : List Value) (ids : List String) (distinct : Prop) : Prop where
  store : after = (before.add more).1
  sublist : ids.Sublist ((before.numbers more).map wireId)
  eq : distinct → ids = (before.numbers more).map wireId

namespace Appends

variable {before between after : Store} {more others : List Value} {ids ids' : List String}
  {distinct distinct' : Prop}

theorem refl (store : Store) (distinct : Prop) : Appends store store [] [] distinct :=
  ⟨store.add_nil.symm, List.Sublist.refl [], fun _ => rfl⟩

theorem trans (h : Appends before between more ids distinct) (h' : Appends between after others ids' distinct') :
    Appends before after (more ++ others) (ids ++ ids') (distinct ∧ distinct') := by
  have hstore := h'.store
  have hsublist := h'.sublist
  have heq := h'.eq
  rw [h.store] at hstore hsublist heq
  constructor
  · rw [hstore, Store.add_add]
  · rw [Store.numbers_append, List.map_append]
    exact h.sublist.append hsublist
  · rintro ⟨hdistinct, hdistinct'⟩
    rw [Store.numbers_append, List.map_append, h.eq hdistinct, heq hdistinct']

end Appends

section
variable {s : Service Store} {object : ObjectType} {f : WireField} (h : Runs s object f)
include h

omit h in
theorem returned_rejected (r : Request) (cause : Rejection) : returned r (.rejected cause) = [] := by
  unfold returned
  split <;> rfl

/-- A mutation. -/
theorem Runs.appends_mutation {r : Request} {p : Prepared} (hp : s.prepare r = .ok p) (hk : p.kind = .mutation)
    (store : Store) :
    Appends store ((s.respond { r with root := none } p).run store).2 (requestCreations s r).flatten
      (returned r ((s.respond { r with root := none } p).run store).1) (mutationKeys s r).Nodup := by
  have hcreates := h.creates hp hk
  have hkind : Document.kindOf r.text r.operationName = .mutation := (Request.kindOf_prepared hp).trans hk
  rw [Service.respond_eq, returned, if_pos hkind]
  exact ⟨hcreates.store store, hcreates.texts_sublist store, fun hkeys => hcreates.texts_eq hkeys store⟩

/-- Any other operation. -/
theorem Runs.appends_other {r : Request} {p : Prepared} (hp : s.prepare r = .ok p) (hk : p.kind ≠ .mutation)
    (store : Store) :
    Appends store ((s.respond { r with root := none } p).run store).2 (requestCreations s r).flatten
      (returned r ((s.respond { r with root := none } p).run store).1) (mutationKeys s r).Nodup := by
  have hcalm : (s.execution { r with root := none } p).Calm Still := calm_execution h.host h.serves.paged hk
  have hroot : Still (s.rootValue { r with root := none } p.kind) := by
    rw [Service.rootValue, h.values]
    exact still_rootValues hk
  have hstore := (hcalm.respond (s.rootName p.kind) p.plans hroot store).2
  have hkind : Document.kindOf r.text r.operationName ≠ .mutation := by
    rw [Request.kindOf_prepared hp]
    exact hk
  rw [Service.respond, hstore, returned, if_neg hkind, requestCreations, ofMutation_of_ne hp hk]
  exact Appends.refl store _

/-- What a request does to the store, and what it is answered of it. -/
theorem Runs.appends (r : Request) (store : Store) :
    Appends store ((s.execute r).run store).2 (requestCreations s r).flatten
      (returned r ((s.execute r).run store).1) (mutationKeys s r).Nodup := by
  have hrejected (cause : Rejection) (hnone : requestCreations s r = []) :
      Appends store store (requestCreations s r).flatten (returned r (.rejected cause))
        (mutationKeys s r).Nodup := by
    rw [hnone, returned_rejected]
    exact Appends.refl store _
  have hprepare : s.prepare { r with root := none } = s.prepare r := rfl
  rw [Service.execute]
  delta Service.run
  rw [hprepare]
  cases hp : s.prepare r with
  | error cause => exact hrejected cause (ofMutation_of_error hp _)
  | ok p =>
    by_cases hk : p.kind = .mutation
    · have hsingle : p.kind ≠ .subscription := by
        rw [hk]
        nofun
      simp only [if_neg hsingle]
      exact h.appends_mutation hp hk store
    · dsimp only
      split
      · exact hrejected .needsStream (ofMutation_of_ne hp hk _)
      · exact h.appends_other hp hk store

/-- Requests do what each of them does, one after the other. -/
theorem Runs.appends_all (requests : List Request) (store : Store) :
    Appends store ((requests.mapM s.execute).run store).2 (requests.flatMap (requestCreations s)).flatten
      (allReturned requests ((requests.mapM s.execute).run store).1)
      (∀ r ∈ requests, (mutationKeys s r).Nodup) := by
  induction requests generalizing store with
  | nil => exact Appends.refl store _
  | cons r rest ih =>
    have hfirst := h.appends r store
    have hrest := hfirst.trans (ih ((s.execute r).run store).2)
    rw [List.mapM_cons, List.flatMap_cons, List.flatten_append]
    simp only [List.forall_mem_cons]
    exact hrest

end

/-! Identifiers. -/

theorem decodeId_wireId (n : Nat) : ScalarCodec.decodeId (wireId n) = .ok (toString n) :=
  ScalarCodec.decodeId_encodeId _

theorem wireId_injective : Function.Injective wireId := by
  intro n k h
  have htext := congrArg ScalarCodec.decodeId h
  rw [decodeId_wireId, decodeId_wireId] at htext
  have hdigits := congrArg String.toList (Except.ok.inj htext)
  rw [Nat.toString_eq_repr, Nat.toString_eq_repr, Nat.toList_repr, Nat.toList_repr] at hdigits
  rw [← Nat.ofDigitChars_ten_toDigits (n := n), hdigits, Nat.ofDigitChars_ten_toDigits]

theorem Appends.nodup {before after : Store} {more : List Value} {ids : List String} {distinct : Prop}
    (h : Appends before after more ids distinct) : ids.Nodup :=
  h.sublist.nodup ((List.nodup_range' 1).map wireId_injective)

/-- The numbers that new books get, as they are decoded from identifiers. -/
def decodedNumbers (store : Store) (more : List Value) : List (Except CodecError String) :=
  (store.numbers more).map fun n => .ok (toString n)

theorem decodeId_numbers (store : Store) (more : List Value) :
    ((store.numbers more).map wireId).map ScalarCodec.decodeId = decodedNumbers store more := by
  rw [List.map_map, decodedNumbers]
  refine List.map_congr_left fun n _ => ?_
  rw [Function.comp_apply, decodeId_wireId]

/-- Over any run of requests the store gets, at its end, what the fields that create books were given and could
decode, and nothing else. The identifiers that come back are those of the new books in order, each at most once;
none of them is missing unless some mutation has two fields under one response key. A field whose arguments
cannot be decoded fails and leaves the store as it is. -/
theorem store_appends (settings : EngineSettings) : ∃ s, service settings = .ok s ∧
    (∀ (requests : List Request) (store : Store), ∃ responses after given,
      (requests.mapM s.execute).run store = (responses, after) ∧
      given = (requests.flatMap (requestCreations s)).flatten ∧ after.created = store.created ++ given ∧
      ((allReturned requests responses).map ScalarCodec.decodeId).Sublist (decodedNumbers store given) ∧
      (allReturned requests responses).Nodup ∧
      ((∀ r ∈ requests, (mutationKeys s r).Nodup) →
        (allReturned requests responses).map ScalarCodec.decodeId = decodedNumbers store given)) ∧
    ∀ (r : FieldRequest) (f : WireField) (e : FieldError), s.model.requestedField r = .ok f →
      s.model.decodeArguments f r.arguments = .error e → ∀ (parent : Value) (store : Store),
        (s.model.resolveOutput s.host parent r).run.run store = (.error e, store) := by
  obtain ⟨s, object, f, hs, h⟩ := exists_runs settings
  refine ⟨s, hs, fun requests store => ?_, fun r f e hf he parent store => ?_⟩
  · have hall := h.appends_all requests store
    refine ⟨_, _, _, Prod.mk.eta.symm, rfl, ?_, ?_, hall.nodup, fun hkeys => ?_⟩
    · rw [hall.store, Store.add_eq]
    · rw [← decodeId_numbers]
      exact hall.sublist.map _
    · rw [hall.eq hkeys, decodeId_numbers]
  · rw [Model.resolveOutput_of_undecoded hf he]
    rfl

/-- Creates a book under two response keys, and one of an author whose identifier cannot be read in between. -/
def createApart : Request where
  text := "mutation($books: [BookInput]!, $broken: [BookInput]!) \x7b createBooks(books: $books) " ++
    "none: createBooks(books: $broken) more: createBooks(books: $books) \x7d"
  given := [("books", .list [.object [("title", .string "New"), ("authorId", .string "MQ==")]]),
    ("broken", .list [.object [("title", .string "New"), ("authorId", .string "?")]])]

/-- Creates a book twice under one response key. -/
def createTwice : Request where
  text := "mutation($books: [BookInput]!) { createBooks(books: $books) createBooks(books: $books) }"
  given := [("books", .list [.object [("title", .string "New"), ("authorId", .string "MQ==")]])]

/-- What can be computed of the library with its default settings. -/
theorem of_service {s : Service Store} {p : Service Store → Prop} [DecidablePred p] (hs : service {} = .ok s)
    (h : ((service {}).toOption.all fun s => decide (p s)) = true) : p s := by
  rw [hs] at h
  exact of_decide_eq_true h

/-- Two mutations with a query in between. -/
def apart : List Request := [createApart, { text := "{ authors { id } }" }, createApart]

theorem apart_consecutive : ∃ s, service {} = .ok s ∧ ∃ responses after,
    (apart.mapM s.execute).run {} = (responses, after) ∧ after.created.length = 4 ∧
      (allReturned apart responses).map ScalarCodec.decodeId = [.ok "3", .ok "4", .ok "5", .ok "6"] := by
  obtain ⟨s, hs, h, -⟩ := store_appends {}
  obtain ⟨responses, after, given, hrun, hgiven, hcreated, -, -, h⟩ := h apart {}
  have hboth := of_service (p := fun s => (∀ r ∈ apart, (mutationKeys s r).Nodup) ∧
    (apart.flatMap (requestCreations s)).flatten.length = 4) hs (by decide +kernel)
  obtain ⟨hkeys, hlength⟩ := hboth
  refine ⟨s, hs, responses, after, hrun, ?_, ?_⟩
  · rw [hcreated, hgiven, List.length_append, hlength]
    rfl
  · rw [h hkeys, decodedNumbers, Store.numbers, hgiven, hlength]
    rfl

/-- The second of two mutations is answered as if it were the third. -/
theorem createTwice_skips : ∃ s, service {} = .ok s ∧ ∃ responses after,
    ([createTwice, createTwice].mapM s.execute).run {} = (responses, after) ∧
      after.created.length = 4 ∧ allReturned [createTwice, createTwice] responses = ["Mw==", "NQ=="] ∧
      (allReturned [createTwice, createTwice] responses).map ScalarCodec.decodeId ≠
        decodedNumbers {} after.created := by
  obtain ⟨s, object, f, hs, h⟩ := exists_runs {}
  have hboth := of_service (p := fun s => (([createTwice, createTwice].mapM s.execute).run {}).2.created.length = 4 ∧
    allReturned [createTwice, createTwice] (([createTwice, createTwice].mapM s.execute).run {}).1 =
      ["Mw==", "NQ=="]) hs (by decide +kernel)
  obtain ⟨hlength, hids⟩ := hboth
  refine ⟨s, hs, _, _, Prod.mk.eta.symm, hlength, hids, fun hall => ?_⟩
  have hlengths := congrArg List.length hall
  rw [hids, decodedNumbers, Store.numbers, hlength] at hlengths
  exact absurd hlengths (by decide)

end Library

end RecordGraph
