import RecordGraph.Client.Literal
import RecordGraph.OperationKind
/-!
Documents written by a client. Names are given as the host has them and follow the naming policy of
the server; whatever the description of the schema does not know is an error. A finished document is
a text.
-/

namespace RecordGraph.Client

/-- Writes documents: what it knows about a schema, and the naming policy. -/
structure Writer where
  description : Description
  casing : Casing := .camel

/-- A field wanted from the server. -/
inductive WantedField where
  | mk (definition : FieldDescription) (label : Option String) (arguments : Entries WireValue)
      (selections : List WantedField)

/-- A document with one operation. -/
structure ClientDocument where
  kind : OperationKind
  selections : List WantedField

namespace WantedField

/-- The description of the field. -/
def definition : WantedField → FieldDescription
  | .mk definition _ _ _ => definition

/-- The wire name of the field. -/
def name (f : WantedField) : String := f.definition.name

/-- Asks for the field under another name. -/
def withAlias : WantedField → String → WantedField
  | .mk definition _ arguments selections, label => .mk definition (some label) arguments selections

/-- Asks for more fields of the value. -/
def select : WantedField → List WantedField → WantedField
  | .mk definition label arguments selections, more =>
    .mk definition label arguments (selections ++ more)

/-- Sets the arguments, in place of all set before. -/
def setArguments : WantedField → Entries WireValue → WantedField
  | .mk definition label _ selections, arguments => .mk definition label arguments selections

/-- The text of arguments, in parentheses if there are any. -/
def argumentText (arguments : Entries WireValue) : String :=
  let texts := arguments.map fun (name, value) => name ++ ": " ++ value.text
  if arguments.isEmpty then "" else "(" ++ ", ".intercalate texts ++ ")"

/-- A name before a field, with a colon. -/
def aliasText : Option String → String
  | some label => label ++ ": "
  | none => ""

mutual

/-- The text of a field. -/
def text : WantedField → String
  | .mk definition label arguments selections =>
    let head := aliasText label ++ definition.name ++ argumentText arguments
    if selections.isEmpty then head
    else head ++ " \x7b" ++ texts selections ++ " \x7d"

/-- The texts of fields, each after a blank. -/
def texts : List WantedField → String
  | [] => ""
  | field :: rest => " " ++ text field ++ texts rest

end

end WantedField

namespace ClientDocument

/-- The text of a document. A query goes without its kind. -/
def text (d : ClientDocument) : String :=
  (if d.kind = .query then "" else d.kind.text ++ " ") ++
    "\x7b" ++ WantedField.texts d.selections ++ " \x7d"

end ClientDocument

namespace Writer

/-- The field with a host name of a type. -/
def field (w : Writer) (typeName name : String) : Except ClientError WantedField := do
  let wireName := w.casing.toWire name
  let type ← w.description.type typeName
  match type.field? wireName with
  | some definition => return .mk definition none [] []
  | none => throw (.unknownField typeName wireName)

/-- The literals of arguments by host name, added to those written so far. -/
def argumentLiterals (w : Writer) (f : FieldDescription) (written : Entries WireValue) :
    List (String × Json) → Except ClientError (Entries WireValue)
  | [] => .ok written
  | (key, value) :: rest => do
    let name := w.casing.toWire key
    match f.argument? name with
    | none => throw (.unknownArgument f.name name)
    | some argument =>
      let value ← literal w.description w.casing name value argument.type
      argumentLiterals w f (Entries.insert written name value) rest

/-- Sets the arguments of a field from an object of values by host name. -/
def withArguments (w : Writer) (f : WantedField) (arguments : Json) :
    Except ClientError WantedField :=
  match arguments with
  | .object members => do
    return f.setArguments (← w.argumentLiterals f.definition [] members)
  | value => invalidValue f.name "an object of arguments" value

/-- A query. -/
def query (selections : List WantedField) : ClientDocument := ⟨.query, selections⟩

/-- A mutation, if the schema has any. -/
def mutation (w : Writer) (selections : List WantedField) :
    Except ClientError ClientDocument :=
  if w.description.mutation.isSome then .ok ⟨.mutation, selections⟩ else .error .noMutationType

end Writer

end RecordGraph.Client
