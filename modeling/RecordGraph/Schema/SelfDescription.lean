import RecordGraph.Schema.Definition
/-!
The types in which a schema describes itself, and the scalars and directives that every schema has.
-/

namespace RecordGraph

/-- Where a directive may stand. -/
inductive DirectiveLocation where
  | query
  | mutation
  | subscription
  | field
  | fragmentDefinition
  | fragmentSpread
  | inlineFragment
  | variableDefinition
  | schema
  | scalar
  | object
  | fieldDefinition
  | argumentDefinition
  | interface
  | union
  | enum
  | enumValue
  | inputObject
  | inputFieldDefinition
  deriving DecidableEq, Repr

/-- The name of a location. -/
def DirectiveLocation.text : DirectiveLocation → String
  | .query => "QUERY"
  | .mutation => "MUTATION"
  | .subscription => "SUBSCRIPTION"
  | .field => "FIELD"
  | .fragmentDefinition => "FRAGMENT_DEFINITION"
  | .fragmentSpread => "FRAGMENT_SPREAD"
  | .inlineFragment => "INLINE_FRAGMENT"
  | .variableDefinition => "VARIABLE_DEFINITION"
  | .schema => "SCHEMA"
  | .scalar => "SCALAR"
  | .object => "OBJECT"
  | .fieldDefinition => "FIELD_DEFINITION"
  | .argumentDefinition => "ARGUMENT_DEFINITION"
  | .interface => "INTERFACE"
  | .union => "UNION"
  | .enum => "ENUM"
  | .enumValue => "ENUM_VALUE"
  | .inputObject => "INPUT_OBJECT"
  | .inputFieldDefinition => "INPUT_FIELD_DEFINITION"

/-- Every location. -/
def DirectiveLocation.all : List DirectiveLocation :=
  [.query, .mutation, .subscription, .field, .fragmentDefinition, .fragmentSpread, .inlineFragment,
   .variableDefinition, .schema, .scalar, .object, .fieldDefinition, .argumentDefinition, .interface,
   .union, .enum, .enumValue, .inputObject, .inputFieldDefinition]

/-- A directive. -/
structure DirectiveDefinition where
  name : String
  description : Option String := none
  locations : List DirectiveLocation
  arguments : List InputDefinition := []

namespace SelfDescription

/-- A type by name, never null. -/
def one (name : String) : TypeRef := .nonNull (.named name)

/-- A list of a type by name, neither it nor its items null. -/
def many (name : String) : TypeRef := .nonNull (.list (one name))

/-- A list of a type by name, which may be null. -/
def manyOrNull (name : String) : TypeRef := .list (one name)

/-- A text that may be null. -/
def textOrNull : TypeRef := .named "String"

/-- Where selections may stand that can be left out. -/
def executableLocations : List DirectiveLocation := [.field, .fragmentSpread, .inlineFragment]

/-- A condition. -/
def condition (description : String) : InputDefinition :=
  { name := "if", type := one "Boolean", description := some description }

/-- The directives of every schema. -/
def directives : List DirectiveDefinition :=
  [{ name := "skip"
     description :=
       some "Directs the executor to skip this field or fragment when the `if` argument is true."
     locations := executableLocations, arguments := [condition "Skipped when true."] },
   { name := "include"
     description :=
       some ("Directs the executor to include this field or fragment only when the `if` argument " ++
         "is true.")
     locations := executableLocations, arguments := [condition "Included when true."] },
   { name := "deprecated"
     description := some "Marks an element of a GraphQL schema as no longer supported."
     locations := [.fieldDefinition, .argumentDefinition, .inputFieldDefinition, .enumValue]
     arguments :=
       [{ name := "reason", type := textOrNull, default := some (.string "No longer supported") }] },
   { name := "specifiedBy"
     description :=
       some ("Provides a scalar specification URL for specifying the behavior of custom scalar " ++
         "types.")
     locations := [.scalar]
     arguments := [{ name := "url", type := one "String" }] },
   { name := "oneOf"
     description := some "Indicates that an Input Object is a OneOf Input Object."
     locations := [.inputObject] }]

/-- Whether a value is an integer of 64 bits. -/
def isInteger : WireValue → Bool
  | .number n => n.asInt64?.isSome
  | _ => false

/-- Whether a value is a number. -/
def isNumber : WireValue → Bool
  | .number _ => true
  | _ => false

/-- Whether a value is a text. -/
def isText : WireValue → Bool
  | .string _ => true
  | _ => false

/-- Whether a value is a truth value. -/
def isTruth : WireValue → Bool
  | .bool _ => true
  | _ => false

/-- The scalars of every schema. -/
def scalars : List TypeDefinition :=
  [.scalar "Int" (some "The `Int` scalar type represents non-fractional whole numeric values.")
     isInteger,
   .scalar "Float" none isNumber,
   .scalar "Boolean" (some "The `Boolean` scalar type represents `true` or `false`.") isTruth,
   .scalar "String"
     (some ("The `String` scalar type represents textual data, represented as UTF-8 character " ++
       "sequences. The String type is most often used by GraphQL to represent free-form " ++
       "human-readable text."))
     isText,
   .scalar "ID" none fun w => isText w || isInteger w]

/-- Says whether what is on its way out is wanted too. -/
def includeDeprecated : InputDefinition :=
  { name := "includeDeprecated", type := one "Boolean", default := some (.bool false) }

/-- The kinds of types by their names. -/
def kindNames : List String :=
  ["SCALAR", "OBJECT", "INTERFACE", "UNION", "ENUM", "INPUT_OBJECT", "LIST", "NON_NULL"]

/-- The types in which a schema describes itself. -/
def types : List TypeDefinition :=
  [.object "__Directive" none
     [⟨"name", one "String", none, []⟩, ⟨"description", textOrNull, none, []⟩,
      ⟨"locations", many "__DirectiveLocation", none, []⟩,
      ⟨"args", many "__InputValue", none, [includeDeprecated]⟩,
      ⟨"isRepeatable", one "Boolean", none, []⟩] [],
   .enum "__DirectiveLocation" none (DirectiveLocation.all.map DirectiveLocation.text),
   .object "__EnumValue" none
     [⟨"name", one "String", none, []⟩, ⟨"description", textOrNull, none, []⟩,
      ⟨"isDeprecated", one "Boolean", none, []⟩, ⟨"deprecationReason", textOrNull, none, []⟩] [],
   .object "__Field" none
     [⟨"name", one "String", none, []⟩, ⟨"description", textOrNull, none, []⟩,
      ⟨"args", many "__InputValue", none, [includeDeprecated]⟩, ⟨"type", one "__Type", none, []⟩,
      ⟨"isDeprecated", one "Boolean", none, []⟩, ⟨"deprecationReason", textOrNull, none, []⟩] [],
   .object "__InputValue" none
     [⟨"name", one "String", none, []⟩, ⟨"description", textOrNull, none, []⟩,
      ⟨"type", one "__Type", none, []⟩, ⟨"defaultValue", textOrNull, none, []⟩,
      ⟨"isDeprecated", one "Boolean", none, []⟩, ⟨"deprecationReason", textOrNull, none, []⟩] [],
   .object "__Schema" none
     [⟨"description", one "String", none, []⟩, ⟨"types", many "__Type", none, []⟩,
      ⟨"queryType", one "__Type", none, []⟩, ⟨"mutationType", .named "__Type", none, []⟩,
      ⟨"subscriptionType", .named "__Type", none, []⟩,
      ⟨"directives", many "__Directive", none, []⟩] [],
   .object "__Type" none
     [⟨"kind", one "__TypeKind", none, []⟩, ⟨"name", textOrNull, none, []⟩,
      ⟨"description", textOrNull, none, []⟩,
      ⟨"fields", manyOrNull "__Field", none, [includeDeprecated]⟩,
      ⟨"interfaces", manyOrNull "__Type", none, []⟩,
      ⟨"possibleTypes", manyOrNull "__Type", none, []⟩,
      ⟨"enumValues", manyOrNull "__EnumValue", none, [includeDeprecated]⟩,
      ⟨"inputFields", manyOrNull "__InputValue", none, [includeDeprecated]⟩,
      ⟨"ofType", .named "__Type", none, []⟩, ⟨"specifiedByURL", textOrNull, none, []⟩,
      ⟨"isOneOf", .named "Boolean", none, []⟩] [],
   .enum "__TypeKind" none kindNames]

/-- The fields of the query root that describe the schema. -/
def rootFields : List FieldDefinition :=
  [⟨"__schema", one "__Schema", none, []⟩,
   ⟨"__type", .named "__Type", none, [{ name := "name", type := one "String" }]⟩]

end SelfDescription

end RecordGraph
