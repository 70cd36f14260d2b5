import RecordGraph.Build.Schema
import RecordGraph.Execute.Fields
import RecordGraph.Schema.Check
/-!
A schema in service: built from records, checked, and ready to answer requests. Operations ask for
the fields of a value of their root, which a request may replace by one of its own.
-/

namespace RecordGraph

/-- Why a schema cannot be put into service. -/
inductive SchemaError where
  | model (error : ModelError)
  | invalid (fault : SchemaFault)
  | setting (error : SettingError)
  deriving DecidableEq, Repr

/-- The wording of a schema error. -/
def SchemaError.message : SchemaError → String
  | .model error => error.message
  | .invalid fault => "Invalid schema: " ++ fault.message
  | .setting error => "Invalid configuration: " ++ error.message

/-- The values whose fields operations ask for. -/
structure RootValues where
  query : Value := .null
  mutation : Value := .null
  subscription : Value := .null

/-- The value for a kind of operation. -/
def RootValues.get (r : RootValues) : OperationKind → Value
  | .query => r.query
  | .mutation => r.mutation
  | .subscription => r.subscription

/-- What a schema is built from. -/
structure SchemaSource where
  catalogue : Catalogue := {}
  options : BuildOptions := {}
  records : RootRecords
  values : RootValues := {}

/-- A schema in service. -/
structure Service (σ : Type) where
  model : Model
  settings : EngineSettings
  values : RootValues
  host : Host σ

namespace Service

/-- Builds and checks a schema. -/
def build (host : Host σ) (settings : EngineSettings) (source : SchemaSource) :
    Except SchemaError (Service σ) := do
  let setting : Setting :=
    ⟨source.catalogue, { source.options with camelCase := settings.camelCase }⟩
  let model ← (Model.build setting source.records).mapError .model
  model.check.mapError .invalid
  return ⟨model, settings, source.values, host⟩

/-- The types of a schema as requests see them. -/
def table (s : Service σ) : TypeTable := .ofModel s.model s.settings.introspection

/-- The view of a schema on itself, unless it is kept hidden. -/
def self (s : Service σ) : Option SelfView :=
  if s.settings.introspection then some (.ofTable s.table) else none

/-- Prepares a request. -/
def prepare (s : Service σ) (r : Request) : Except Rejection Prepared :=
  r.prepare s.table s.settings

/-- The value whose fields a request asks for. -/
def rootValue (s : Service σ) (r : Request) (kind : OperationKind) : Value :=
  r.root.getD (s.values.get kind)

/-- The execution of a prepared request. -/
def execution (s : Service σ) (r : Request) (p : Prepared) : Execution σ :=
  { model := s.model, host := s.host, self := s.self, kind := p.kind, context := r.context
    lookUp := p.lookUp }

/-- The name of the root of an operation. -/
def rootName (s : Service σ) (kind : OperationKind) : String := (s.table.root? kind).getD ""

/-- Executes a prepared request. -/
def respond (s : Service σ) (r : Request) (p : Prepared) : StateM σ Response :=
  (s.execution r p).respond (s.rootName p.kind) p.plans (s.rootValue r p.kind)

/-- Answers a request with a single response, which a subscription does not have. -/
def run (s : Service σ) (r : Request) : StateM σ Response :=
  match s.prepare r with
  | .error cause => return .rejected cause
  | .ok p => if p.kind = .subscription then return .rejected .needsStream else s.respond r p

/-- Answers a request against the values of the roots, whatever root it brings along. -/
def execute (s : Service σ) (r : Request) : StateM σ Response := s.run { r with root := none }

end Service

end RecordGraph
