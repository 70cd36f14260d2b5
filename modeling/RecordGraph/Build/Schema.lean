import RecordGraph.Build.Walk
/-!
Building the model of a schema from its root records. Each step of the walk either peels a layer off
a host type or registers a new type, so a walk as long as all types together, times the layers of
the thickest host type, reaches every type.
-/

namespace RecordGraph

/-- The records whose fields form the root types. -/
structure RootRecords where
  query : Record
  mutation : Option Record := none
  subscription : Option Record := none

namespace Setting

/-- The records that a walk may meet, roots aside. -/
def knownRecords (s : Setting) : List Record :=
  s.catalogue.records.map Prod.snd ++ s.options.interfaces ++ s.options.queryTypes ++
    s.options.mutationTypes

/-- The host types of a field and of its arguments. -/
def fieldTypes (f : Field) : List HostType := f.type :: f.arguments.map Argument.type

/-- The layers of the thickest host type of any field. -/
def thickness (s : Setting) (roots : List Record) : Nat :=
  let fields := (roots ++ s.knownRecords).flatMap Record.fields ++
    (s.catalogue.connections.map Prod.snd).flatMap ConnectionKind.fields
  (fields.flatMap fieldTypes).foldl (fun n t => max n t.depth) 1

/-- How many steps the walk is given: every record has at most an object, a node, a connection, an
interface and an input form. -/
def steps (s : Setting) (roots : List Record) : Nat :=
  (5 * (roots ++ s.knownRecords).length + 5) * (s.thickness roots + 1) + 5

/-- The walk that reaches every type of the setting and of some roots. -/
def walker (s : Setting) (roots : List Record) : Walker := .within s (s.steps roots)

end Setting

namespace Build

/-- Registers the types that the options name, whether or not the roots reach them. -/
def seeds (s : Setting) (w : Walker) : Build Unit := do
  s.options.enums.forM fun e => discard (enum e)
  s.options.interfaces.forM fun r => discard (interface s w r)
  s.options.queryTypes.forM fun r => discard (object s w r)
  s.options.mutationTypes.forM fun r => discard (inputObject s w r)

/-- The root type of an operation has the fields of its record under a name of its own. -/
def root (s : Setting) (w : Walker) (name : String) (r : Record) : Build String := do
  let _ ← object s w { r with name := name }
  return name

/-- The root type of an operation that a schema need not have. -/
def optionalRoot (s : Setting) (w : Walker) (name : String) :
    Option Record → Build (Option String)
  | none => return none
  | some r => return some (← root s w name r)

/-- The steps of a whole build: the names of the three roots. -/
def schema (s : Setting) (w : Walker) (roots : RootRecords) :
    Build (String × Option String × Option String) := do
  seeds s w
  let query ← root s w "Query" roots.query
  let mutation ← optionalRoot s w "Mutation" roots.mutation
  let subscription ← optionalRoot s w "Subscription" roots.subscription
  return (query, mutation, subscription)

end Build

namespace Model

/-- The records of roots, in order. -/
def rootList (roots : RootRecords) : List Record :=
  roots.query :: (roots.mutation.toList ++ roots.subscription.toList)

/-- Builds the model of a schema. -/
def build (s : Setting) (roots : RootRecords) : Except ModelError Model :=
  match (Build.schema s (s.walker (rootList roots)) roots).run.run {} with
  | (.ok (query, mutation, subscription), draft) =>
    .ok ⟨draft.types, query, mutation, subscription, s.casing⟩
  | (.error cause, _) => .error cause

end Model

end RecordGraph
