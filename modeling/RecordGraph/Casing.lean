import RecordGraph.Text.Letter
/-!
Naming policies. Host names are written with underscores, wire names in lower camel case unless the
schema keeps names as they are. A name is cut into words at characters that are neither letters nor
digits, between a lower-case and an upper-case letter, and before the last capital of a run of
capitals that a lower-case letter follows.
-/

namespace RecordGraph

/-- How wire names derive from host names. It applies to fields and arguments, never to types. -/
inductive Casing where
  /-- Wire names in lower camel case. -/
  | camel
  /-- Wire names equal to host names. -/
  | verbatim
  deriving DecidableEq, Repr, Inhabited

namespace Casing

/-- What the letters of the current word were so far. -/
inductive Run where
  | start
  | lower
  | upper
  deriving DecidableEq, Repr

/-- The run after one more character: one without case leaves it as it was. -/
def Run.next (run : Run) (c : Char) : Run :=
  if Text.isLower c then .lower else if Text.isUpper c then .upper else run

/-- Cuts a piece of letters and digits into words; `word` holds the current one so far. -/
def cutPiece (run : Run) (word : List Char) : List Char → List (List Char)
  | [] => []
  | [c] => [word ++ [c]]
  | c :: d :: rest =>
    if run.next c = .lower ∧ Text.isUpper d then
      (word ++ [c]) :: cutPiece .start [] (d :: rest)
    else if run = .upper ∧ Text.isUpper c ∧ Text.isLower d then
      word :: cutPiece .start [c] (d :: rest)
    else cutPiece (run.next c) (word ++ [c]) (d :: rest)

/-- The maximal pieces of letters and digits of a name; `piece` holds the current one so far. -/
def pieces (piece : List Char) : List Char → List (List Char)
  | [] => [piece]
  | c :: rest =>
    if Text.isAlphanumeric c then pieces (piece ++ [c]) rest else piece :: pieces [] rest

/-- The words of a name, in order. -/
def words (name : List Char) : List (List Char) := (pieces [] name).flatMap (cutPiece .start [])

/-- A word in lower case. A capital sigma at its end takes the final form. -/
def lowerWord : List Char → List Char
  | [] => []
  | [c] => if c.toNat = 0x3A3 then [Char.ofNat 0x3C2] else Text.lowercase c
  | c :: rest => Text.lowercase c ++ lowerWord rest

/-- A word whose first letter is a capital and whose other letters are in lower case. -/
def capitalWord : List Char → List Char
  | [] => []
  | c :: rest => Text.uppercase c ++ lowerWord rest

/-- Joins words, all but the first one with a capital. -/
def joinWords : List (List Char) → List Char
  | [] => []
  | first :: rest => lowerWord first ++ rest.flatMap capitalWord

/-- A name in lower camel case. -/
def lowerCamel (name : String) : String := String.ofList (joinWords (words name.toList))

/-- One character of a name with underscores: a capital opens a new segment. -/
def snakeChar (c : Char) : List Char :=
  if Text.isUpper c then '_' :: Text.lowercase c else [c]

/-- A name in lower case with an underscore before each letter that was a capital, the first
excepted: `pointXY` is `point_x_y`. -/
def snake (name : String) : String :=
  match name.toList with
  | [] => ""
  | c :: rest =>
    String.ofList
      ((if Text.isUpper c then Text.lowercase c else [c]) ++ rest.flatMap snakeChar)

/-- The wire name of a host name. -/
def toWire : Casing → String → String
  | .camel, name => lowerCamel name
  | .verbatim, name => name

/-- The host name that a wire name suggests. -/
def toHost : Casing → String → String
  | .camel, name => snake name
  | .verbatim, name => name

/-- The policy chosen by a switch. -/
def ofSwitch (camelCase : Bool) : Casing := if camelCase then .camel else .verbatim

end Casing

end RecordGraph
