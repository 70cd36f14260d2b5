import RecordGraph.Request.Input
import RecordGraph.Request.Inquiry
import RecordGraph.Request.Merging
/-!
The rules that a request must keep. Each rule is a condition on a document, the types of a schema
and the variables given with the request; a request that breaks a rule is not executed at all.
-/

namespace RecordGraph

/-- The rules for requests. -/
inductive Rule where
  /-- Arguments hold values of their types. -/
  | argumentValues
  /-- Defaults of variables are values of their types, which allow null. -/
  | defaultValues
  | fieldsExist
  /-- Fragments are meant for types with fields. -/
  | compositeConditions
  | argumentNames
  | noFragmentCycles
  | fragmentsExist
  | typesExist
  | variablesDefined
  | fragmentsUsed
  | variablesUsed
  | argumentsOnce
  | variablesOnce
  /-- Variables have types that values can be given for. -/
  | inputVariables
  /-- Variables stand where their types are admitted. -/
  | variablePositions
  /-- Fields have selections below them if and only if their types have fields. -/
  | leafSelections
  /-- Fragments stand where objects of their types can occur. -/
  | possibleSpreads
  | requiredArguments
  /-- Directives are known, and stand where they may. -/
  | knownDirectives
  | directivesOnce
  | mergeableFields
  /-- Operations have roots in the schema. -/
  | rootsExist
  /-- The name of the type is not asked of a subscription root. -/
  | namedRoots
  deriving DecidableEq, Repr

/-- All rules. -/
def Rule.all : List Rule :=
  [.argumentValues, .defaultValues, .fieldsExist, .compositeConditions, .argumentNames,
   .noFragmentCycles, .fragmentsExist, .typesExist, .variablesDefined, .fragmentsUsed,
   .variablesUsed, .argumentsOnce, .variablesOnce, .inputVariables, .variablePositions,
   .leafSelections, .possibleSpreads, .requiredArguments, .knownDirectives, .directivesOnce,
   .mergeableFields, .rootsExist, .namedRoots]

/-- Whether a variable of the second type may stand where the first is expected. A mark on the
variable is dropped to meet an expected type without one; below an expected list that takes the
place of a layer. -/
def TypeRef.admits : TypeRef → TypeRef → Bool
  | .nonNull a, .nonNull b => a.admits b
  | .named a, .nonNull b => (TypeRef.named a).admits b
  | .named a, .named b => a == b
  | .list a, .list b => a.admits b
  | .list a, .nonNull b => a.admits b
  | _, _ => false

/-- The type that a variable has where it is used: with a default it is never null. -/
def VariableDefinition.usedType (v : VariableDefinition) : TypeRef :=
  if v.default.isSome then v.type.required else v.type

namespace TypeTable

mutual

/-- The variables of a literal with the types expected where they stand. -/
def positions (t : TypeTable) (expected : TypeRef) : Literal → List (String × TypeRef)
  | .variable name => [(name, expected)]
  | .list items =>
    match expected.unmarked with
    | .list element => itemPositions t element items
    | _ => []
  | .object fields =>
    match expected.unmarked with
    | .named name =>
      fieldPositions t (((t.type? name).map TypeDefinition.inputFields).getD []) fields
    | _ => []
  | _ => []

/-- The variables in the items of a list. -/
def itemPositions (t : TypeTable) (element : TypeRef) : List Literal → List (String × TypeRef)
  | [] => []
  | item :: rest => positions t element item ++ itemPositions t element rest

/-- The variables in the declared fields of an object. -/
def fieldPositions (t : TypeTable) (declared : List InputDefinition) :
    List (String × Literal) → List (String × TypeRef)
  | [] => []
  | (name, literal) :: rest =>
    (match InputDefinition.find? declared name with
      | some d => positions t d.type literal
      | none => []) ++ fieldPositions t declared rest

end

end TypeTable

/-- Whether no text stands twice in a list. -/
def distinct (names : List String) : Bool := names.eraseDups.length == names.length

namespace Inquiry

/-- The value of a literal, if all of its variables are given. -/
def givenValue? (q : Inquiry) (literal : Literal) : Option WireValue :=
  (literal.value (Entries.get? q.given)).toOption

/-- All variables of all operations. -/
def declarations (q : Inquiry) : List VariableDefinition :=
  q.document.operations.flatMap Operation.declarations

/-- The types that the conditions of fragments name. -/
def conditions (q : Inquiry) : List String :=
  q.document.fragments.map Fragment.condition ++ q.sites.filterMap fun
    | .inline _ condition _ => condition
    | _ => none

/-- Whether the schema knows the type with a name to have no fields. -/
def isFieldless (q : Inquiry) (name : String) : Bool :=
  match q.table.type? name with
  | some type => !type.isComposite
  | none => false

/-- Whether a fragment for a type may stand at a place, as far as both are known. -/
def maySpread (q : Inquiry) (here : Standpoint) (condition : Option String) : Bool :=
  match here.type, condition.bind q.table.type? with
  | some enclosing, some type => enclosing.overlaps type
  | _, _ => true

/-- The variables of an operation where they are used, with the types expected there. -/
def variableUses (q : Inquiry) (position : Nat) : List (String × TypeRef) :=
  let scopes := q.extent position
  q.declaredArguments.flatMap fun (scope, d, literal) =>
    if scopes.contains scope then q.table.positions d.type literal else []

/-- Whether the variables of an operation stand where their types are admitted. -/
def variablesAdmitted (q : Inquiry) (o : Operation) (position : Nat) : Bool :=
  (q.variableUses position).all fun (name, expected) =>
    match o.declarations.find? fun v => v.name == name with
    | some v => expected.admits v.usedType
    | none => true

/-- Whether what is selected below a field fits its type, as far as that is known. -/
def selectionsFit (q : Inquiry) (site : Site) : Bool :=
  match site, site.definition?.bind fun f => q.table.core? f.type with
  | .field _ _ _ _ selections, some type => type.isLeaf == selections.isEmpty
  | _, _ => true

end Inquiry

namespace Rule

/-- Whether a request keeps a rule. -/
def holds (q : Inquiry) : Rule → Bool
  | argumentValues =>
    q.declaredArguments.all fun (_, d, literal) =>
      match q.givenValue? literal with
      | some value => q.table.accepts value d.type
      | none => true
  | defaultValues =>
    q.declarations.all fun v =>
      match v.default with
      | some value => !v.type.isNonNull && q.table.accepts value v.type
      | none => true
  | fieldsExist =>
    q.sites.all fun
      | .field here name _ _ _ => here.type.all fun type => (type.field? name).isSome
      | _ => true
  | compositeConditions => !q.conditions.any q.isFieldless
  | argumentNames =>
    q.argumentSites.all fun s =>
      match s.declared with
      | some declared =>
        s.arguments.all fun (name, _) => (InputDefinition.find? declared name).isSome
      | none => true
  | noFragmentCycles =>
    q.fragmentNames.all fun name => !(q.reached (.fragment name)).contains name
  | fragmentsExist =>
    q.sites.all fun
      | .spread _ name _ => q.fragmentNames.contains name
      | _ => true
  | typesExist =>
    (q.conditions ++ q.declarations.map fun v => v.type.base).all fun name =>
      (q.table.type? name).isSome
  | variablesDefined =>
    q.operations.all fun (o, position) =>
      (q.usedVariables position).all fun name => o.declarations.any fun v => v.name == name
  | fragmentsUsed =>
    q.fragmentNames.all fun name =>
      q.operations.any fun (_, position) => (q.reached (.operation position)).contains name
  | variablesUsed =>
    q.operations.all fun (o, position) =>
      let used := q.usedVariables position
      o.declarations.all fun v => used.contains v.name
  | argumentsOnce => q.argumentSites.all fun s => distinct (s.arguments.map Prod.fst)
  | variablesOnce =>
    q.document.operations.all fun o => distinct (o.declarations.map VariableDefinition.name)
  | inputVariables => q.declarations.all fun v => (q.table.core? v.type).all TypeDefinition.isInput
  | variablePositions => q.operations.all fun (o, position) => q.variablesAdmitted o position
  | leafSelections => q.sites.all q.selectionsFit
  | possibleSpreads =>
    q.sites.all fun
      | .spread here name _ => q.maySpread here ((q.document.fragment? name).map Fragment.condition)
      | .inline here condition _ => q.maySpread here condition
      | _ => true
  | requiredArguments =>
    q.argumentSites.all fun s =>
      (s.declared.getD []).all fun d => !d.isRequired || Entries.contains s.arguments d.name
  | knownDirectives =>
    q.directiveSites.all fun s => s.directives.all fun d =>
      match DirectiveDefinition.find? d.name with
      | some known => known.locations.contains s.location
      | none => false
  | directivesOnce => q.directiveSites.all fun s => distinct (s.directives.map Directive.name)
  | mergeableFields =>
    q.sites.all fun
      | .selectionSet selections => q.document.mergeable selections
      | _ => true
  | rootsExist => q.document.operations.all fun o => (q.table.root? o.kind).isSome
  | namedRoots =>
    q.sites.all fun
      | .typeName here => here.type.all fun type => some type.name != q.table.subscription
      | _ => true

end Rule

/-- The rules that a request breaks. -/
def Inquiry.broken (q : Inquiry) : List Rule := Rule.all.filter fun rule => !rule.holds q

end RecordGraph
