import RecordGraph.Client.Description
/-!
The query by which a client learns about a schema.
-/

namespace RecordGraph.Client

/-- Selections below a head. -/
def block (head : String) (parts : List String) : String :=
  head ++ " \x7b " ++ " ".intercalate parts ++ " \x7d"

/-- The type inside a wrapper, and the types inside that, down to a number of levels. -/
def innerType : Nat → String
  | 0 => block "ofType" ["kind", "name"]
  | levels + 1 => block "ofType" ["kind", "name", innerType levels]

/-- The roots and types of a schema. -/
def rootSelections : List String :=
  [block "queryType" ["name"], block "mutationType" ["name"], block "subscriptionType" ["name"],
   block "types" ["...FullType"]]

/-- What is asked about a field. -/
def fieldSelections : List String :=
  ["name", "description", block "args" ["...InputValue"], block "type" ["...TypeRef"]]

/-- What is asked about a type. -/
def typeSelections : List String :=
  ["kind", "name", "description", block "fields(includeDeprecated: true)" fieldSelections,
   block "inputFields" ["...InputValue"], block "interfaces" ["...TypeRef"],
   block "enumValues(includeDeprecated: true)" ["name"], block "possibleTypes" ["...TypeRef"]]

/-- What is asked about an argument or an input field. -/
def inputSelections : List String :=
  ["name", "description", block "type" ["...TypeRef"], "defaultValue"]

/-- The query. -/
def introspectionQuery : String :=
  "\n".intercalate
    [block "query IntrospectionQuery" [block "__schema" rootSelections],
     block "fragment FullType on __Type" typeSelections,
     block "fragment InputValue on __InputValue" inputSelections,
     block "fragment TypeRef on __Type" ["kind", "name", innerType 4]]

end RecordGraph.Client
