import RecordGraph.Document.Basic
import RecordGraph.Document.Lexeme
/-!
Reading documents. The grammar is read from left to right and never goes back behind a part that it
has taken: a fixed word is taken even where a longer name starts with it. Every round of a loop and
every step down takes at least a character, two rounds at most share one, so twice the length of a
text is fuel enough.
-/

namespace RecordGraph.Document

/-- How many selection sets may stand inside each other where the engine reads. -/
def maxSets : Nat := 65

/-- Adds the mark of a non-null type, if it follows at once. -/
def marked (type : TypeRef) : List Char → TypeRef × List Char
  | '!' :: rest => (.nonNull type, rest)
  | rest => (type, rest)

/-- A reference to a type at the very front of a text. No blanks stand inside it. -/
def typeRef? : Nat → List Char → Option (TypeRef × List Char)
  | 0, _ => none
  | fuel + 1, text =>
    match text with
    | '[' :: rest => do
      let (element, rest) ← typeRef? fuel rest
      match rest with
      | ']' :: rest => return marked (.list element) rest
      | _ => none
    | text => do
      let (name, rest) ← nameHere? text
      return marked (.named name) rest

/-- A literal that is one word: a truth value, null, or the name of a member. -/
def wordLiteral? (text : List Char) : Option (Literal × List Char) :=
  match word? "true" text, word? "false" text, word? "null" text with
  | some rest, _, _ => some (.bool true, rest)
  | none, some rest, _ => some (.bool false, rest)
  | none, none, some rest => some (.null, rest)
  | none, none, none => (name? text).map fun (name, rest) => (.member name, rest)

mutual

/-- A literal. A constant one has no variables. -/
def literal? (constant : Bool) : Nat → List Char → Option (Literal × List Char)
  | 0, _ => none
  | fuel + 1, text =>
    match skip text with
    | '$' :: rest =>
      if constant then none else (name? rest).map fun (name, rest) => (.variable name, rest)
    | '"' :: rest => (stringHere? ('"' :: rest)).map fun (s, rest) => (.string s, rest)
    | '[' :: rest =>
      let (items, rest) := literals constant fuel rest
      (symbol? ']' rest).map fun rest => (.list items, rest)
    | '\x7b' :: rest =>
      let (fields, rest) := namedLiterals constant fuel rest
      (symbol? '\x7d' rest).map fun rest => (.object (Entries.ofPairs fields), rest)
    | text =>
      match numberHere? text with
      | some (n, rest) => some (.number n, rest)
      | none => wordLiteral? text

/-- As many literals as there are. -/
def literals (constant : Bool) : Nat → List Char → List Literal × List Char
  | 0, text => ([], text)
  | fuel + 1, text =>
    match literal? constant fuel text with
    | none => ([], text)
    | some (item, rest) =>
      let (items, rest) := literals constant fuel rest
      (item :: items, rest)

/-- As many literals as there are, each after a name and a colon. -/
def namedLiterals (constant : Bool) : Nat → List Char → List (String × Literal) × List Char
  | 0, text => ([], text)
  | fuel + 1, text =>
    let first := do
      let (name, rest) ← name? text
      let rest ← symbol? ':' rest
      let (value, rest) ← literal? constant fuel rest
      return ((name, value), rest)
    match first with
    | none => ([], text)
    | some (field, rest) =>
      let (fields, rest) := namedLiterals constant fuel rest
      (field :: fields, rest)

end

/-- A list of arguments, if there is one; it is not empty. -/
def arguments (fuel : Nat) (text : List Char) : List (String × Literal) × List Char :=
  let list := do
    let rest ← symbol? '(' text
    let (given, rest) := namedLiterals false fuel rest
    let rest ← symbol? ')' rest
    if given.isEmpty then none else return (given, rest)
  list.getD ([], text)

/-- As many directives as there are. -/
def directives : Nat → List Char → List Directive × List Char
  | 0, text => ([], text)
  | fuel + 1, text =>
    match (symbol? '@' text).bind name? with
    | none => ([], text)
    | some (name, rest) =>
      let (given, rest) := arguments fuel rest
      let (more, rest) := directives fuel rest
      (⟨name, given⟩ :: more, rest)

/-- The type that selections are meant for. -/
def typeCondition? (text : List Char) : Option (String × List Char) :=
  (word? "on" text).bind name?

/-- The name under which the value of a field is wanted, if it is given. -/
def label? (text : List Char) : Option (String × List Char) := do
  let (name, rest) ← name? text
  let rest ← symbol? ':' rest
  return (name, rest)

mutual

/-- A selection set, which is not empty; `sets` says how many may be opened, this one included. -/
def selectionSet? : Nat → Nat → List Char → Option (List Selection × List Char)
  | 0, _, _ => none
  | _ + 1, 0, _ => none
  | fuel + 1, sets + 1, text => do
    let rest ← symbol? '\x7b' text
    let (found, rest) := selections fuel sets rest
    let rest ← symbol? '\x7d' rest
    if found.isEmpty then none else return (found, rest)

/-- As many selections as there are. -/
def selections : Nat → Nat → List Char → List Selection × List Char
  | 0, _, text => ([], text)
  | fuel + 1, sets, text =>
    match selection? fuel sets text with
    | none => ([], text)
    | some (first, rest) =>
      let (more, rest) := selections fuel sets rest
      (first :: more, rest)

/-- A field, the selections of a fragment, or selections for a type. -/
def selection? : Nat → Nat → List Char → Option (Selection × List Char)
  | 0, _, _ => none
  | fuel + 1, sets, text =>
    match ellipsis? text with
    | none => do
      let (label, rest) := match label? text with
        | some (label, rest) => (some label, rest)
        | none => (none, text)
      let (name, rest) ← name? rest
      let (given, rest) := arguments fuel rest
      let (marks, rest) := directives fuel rest
      let (below, rest) := (selectionSet? fuel sets rest).getD ([], rest)
      return (.field label name given marks below, rest)
    | some rest =>
      let condition := typeCondition? rest
      let inline := do
        let (condition, rest) := match condition with
          | some (name, rest) => (some name, rest)
          | none => (none, rest)
        let (marks, rest) := directives fuel rest
        let (below, rest) ← selectionSet? fuel sets rest
        return (.inline condition marks below, rest)
      match inline, condition with
      | some found, _ => some found
      | none, some _ => none
      | none, none => do
        let (name, rest) ← name? rest
        let (marks, rest) := directives fuel rest
        return (.spread name marks, rest)

end

/-- A variable of an operation. -/
def variableDefinition? (fuel : Nat) (text : List Char) :
    Option (VariableDefinition × List Char) := do
  let rest ← symbol? '$' text
  let (name, rest) ← name? rest
  let rest ← symbol? ':' rest
  let (type, rest) ← typeRef? fuel (skip rest)
  let (marks, rest) := directives fuel rest
  let (default, rest) := match (symbol? '=' rest).bind (literal? true fuel) with
    | some (literal, rest) => ((literal.value fun _ => none).toOption, rest)
    | none => (none, rest)
  return ({ name := name, type := type, directives := marks, default := default }, rest)

/-- As many variables as there are. -/
def variableDefinitions : Nat → List Char → List VariableDefinition × List Char
  | 0, text => ([], text)
  | fuel + 1, text =>
    match variableDefinition? fuel text with
    | none => ([], text)
    | some (first, rest) =>
      let (more, rest) := variableDefinitions fuel rest
      (first :: more, rest)

/-- The variables of an operation in parentheses, if they are there. -/
def variableList (fuel : Nat) (text : List Char) : List VariableDefinition × List Char :=
  let list := do
    let rest ← symbol? '(' text
    let (declarations, rest) := variableDefinitions fuel rest
    let rest ← symbol? ')' rest
    return (declarations, rest)
  list.getD ([], text)

/-- The kind that an operation starts with. -/
def operationKind? (text : List Char) : Option (OperationKind × List Char) :=
  [OperationKind.query, .mutation, .subscription].firstM fun kind =>
    (word? kind.text text).map fun rest => (kind, rest)

/-- An operation that starts with its kind. -/
def kindOperation? (fuel sets : Nat) (text : List Char) : Option (Operation × List Char) := do
  let (kind, rest) ← operationKind? text
  let (name, rest) := match name? rest with
    | some (name, rest) => (some name, rest)
    | none => (none, rest)
  let (declarations, rest) := variableList fuel rest
  let (marks, rest) := directives fuel rest
  let (found, rest) ← selectionSet? fuel sets rest
  return (⟨kind, name, declarations, marks, found⟩, rest)

/-- An operation; one that is only a selection set is a query. -/
def operation? (fuel sets : Nat) (text : List Char) : Option (Operation × List Char) :=
  match kindOperation? fuel sets text with
  | some found => some found
  | none => (selectionSet? fuel sets text).map fun (found, rest) =>
    ({ kind := .query, selections := found }, rest)

/-- A fragment. -/
def fragmentDefinition? (fuel sets : Nat) (text : List Char) : Option (Fragment × List Char) := do
  let rest ← word? "fragment" text
  let (name, rest) ← name? rest
  let (condition, rest) ← typeCondition? rest
  let (marks, rest) := directives fuel rest
  let (found, rest) ← selectionSet? fuel sets rest
  return (⟨name, condition, marks, found⟩, rest)

/-- As many operations and fragments as there are. -/
def definitions (sets : Nat) : Nat → List Char → Document × List Char
  | 0, text => (⟨[], []⟩, text)
  | fuel + 1, text =>
    match operation? fuel sets text, fragmentDefinition? fuel sets text with
    | some (operation, rest), _ =>
      let (d, rest) := definitions sets fuel rest
      ({ d with operations := operation :: d.operations }, rest)
    | none, some (fragment, rest) =>
      let (d, rest) := definitions sets fuel rest
      ({ d with fragments := fragment :: d.fragments }, rest)
    | none, none => (⟨[], []⟩, text)

/-- There is an operation; one without a name is the only one; no two operations and no two
fragments share a name. -/
def wellNamed (d : Document) : Bool :=
  let names := d.operations.map Operation.name
  !names.isEmpty && (names.all Option.isSome || names.length == 1) &&
    decide names.Nodup && decide (d.fragments.map Fragment.name).Nodup

/-- The document that a text holds, if the text is one in which at most `sets` selection sets stand
inside each other. -/
def readWithin? (sets : Nat) (text : String) : Option Document :=
  let chars := text.toList
  let (d, rest) := definitions sets (2 * chars.length + 8) chars
  if skip rest = [] ∧ d.wellNamed then some d else none

/-- The document that a text holds, if the text is one that the engine reads. -/
def read? (text : String) : Option Document := readWithin? maxSets text

end RecordGraph.Document
