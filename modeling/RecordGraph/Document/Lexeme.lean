import RecordGraph.Json.Reader
/-!
The smallest parts of a document: names, numbers and texts, with blanks and comments between them.
Each reader takes its part off the front of a text and answers what is left.
-/

namespace RecordGraph.Document

/-- Line ends. -/
def isLineEnd (c : Char) : Bool := c == '\n' || c == '\r'

/-- What may stand between the parts of a document: blanks, commas and byte order marks. -/
def isBlank (c : Char) : Bool := c == ' ' || c == ',' || c == '\t' || c == '\ufeff' || isLineEnd c

mutual

/-- Drops blanks and comments. -/
def skip : List Char → List Char
  | [] => []
  | c :: rest => if c = '#' then skipComment rest else if isBlank c then skip rest else c :: rest

/-- Drops the rest of a comment, which ends with its line, and what may follow it. -/
def skipComment : List Char → List Char
  | [] => []
  | c :: rest => if isLineEnd c then skip rest else skipComment rest

end

/-- The characters a name may start with. -/
def isNameStart (c : Char) : Bool := c.isAlpha || c == '_'

/-- The characters a name may go on with. -/
def isNamePart (c : Char) : Bool := c.isAlphanum || c == '_'

/-- A name at the very front of a text. -/
def nameHere? : List Char → Option (String × List Char)
  | [] => none
  | c :: rest =>
    if isNameStart c then
      some (String.ofList (c :: rest.takeWhile isNamePart), rest.dropWhile isNamePart)
    else none

/-- A name. -/
def name? (text : List Char) : Option (String × List Char) := nameHere? (skip text)

/-- A sign of punctuation. -/
def symbol? (sign : Char) (text : List Char) : Option (List Char) :=
  match skip text with
  | [] => none
  | c :: rest => if c = sign then some rest else none

/-- The three points before a fragment. -/
def ellipsis? (text : List Char) : Option (List Char) :=
  match skip text with
  | '.' :: '.' :: '.' :: rest => some rest
  | _ => none

/-- A fixed word. It may run straight into what follows it. -/
def word? (word : String) (text : List Char) : Option (List Char) :=
  let text := skip text
  if word.toList.isPrefixOf text then some (text.drop word.length) else none

/-- The whole part of a number: a zero stands alone. -/
def wholePart? : List Char → Option (List Char × List Char)
  | '0' :: rest => some (['0'], rest)
  | text =>
    match Json.spanDigits text with
    | ([], _) => none
    | (digits, rest) => some (digits, rest)

/-- The point and the digits after it; nothing, when no digits follow a point. -/
def fractionPart : List Char → List Char × List Char
  | '.' :: rest =>
    match Json.spanDigits rest with
    | ([], _) => ([], '.' :: rest)
    | (digits, rest) => ('.' :: digits, rest)
  | text => ([], text)

/-- A minus, if there is one. -/
def minusPart : List Char → List Char × List Char
  | '-' :: rest => (['-'], rest)
  | text => ([], text)

/-- A sign, if there is one. -/
def signPart : List Char → List Char × List Char
  | '-' :: rest => (['-'], rest)
  | '+' :: rest => (['+'], rest)
  | text => ([], text)

/-- The exponent of a number; nothing, when it has no digits. -/
def exponentPart (text : List Char) : List Char × List Char :=
  match text with
  | [] => ([], [])
  | e :: rest =>
    if e = 'e' ∨ e = 'E' then
      let (sign, rest) := signPart rest
      match Json.spanDigits rest with
      | ([], _) => ([], text)
      | (digits, rest) => (e :: sign ++ digits, rest)
    else ([], text)

/-- The characters of a number at the very front of a text. No name may follow at once. -/
def numberSpan? (text : List Char) : Option (List Char × List Char) := do
  let (sign, rest) := minusPart text
  let (whole, rest) ← wholePart? rest
  let (fraction, rest) := fractionPart rest
  let (exponent, rest) := exponentPart rest
  if (rest.head?.map isNameStart).getD false then none
  else some (sign ++ whole ++ fraction ++ exponent, rest)

/-- A number at the very front of a text, unless it is too large for the wire. -/
def numberHere? (text : List Char) : Option (WireNumber × List Char) := do
  let (span, rest) ← numberSpan? text
  let (number, _) ← Json.number? span
  return (number, rest)

/-- The character of four hexadecimal digits, which may not name half of a pair. -/
def codeUnit? (a b c d : Char) : Option Char := do
  let (unit, _) ← Json.hexUnit? [a, b, c, d]
  if 0xD800 ≤ unit ∧ unit ≤ 0xDFFF then none else some (Char.ofNat unit)

/-- The character that a letter stands for after a backslash. -/
def escaped? : Char → Option Char
  | '"' => some '"'
  | '\\' => some '\\'
  | '/' => some '/'
  | 'b' => some '\x08'
  | 'f' => some '\x0c'
  | 'n' => some '\n'
  | 'r' => some '\r'
  | 't' => some '\t'
  | _ => none

/-- The characters of a text up to its closing quote, on one line. -/
def lineBody? : List Char → Option (List Char × List Char)
  | [] => none
  | '"' :: rest => some ([], rest)
  | '\\' :: 'u' :: a :: b :: c :: d :: rest => do
    let unit ← codeUnit? a b c d
    let (body, rest) ← lineBody? rest
    return (unit :: body, rest)
  | '\\' :: c :: rest => do
    let c ← escaped? c
    let (body, rest) ← lineBody? rest
    return (c :: body, rest)
  | c :: rest => do
    if isLineEnd c || c == '\\' then none
    let (body, rest) ← lineBody? rest
    return (c :: body, rest)

/-- The characters of a block up to its three closing quotes. Escaped quotes stay as they are. -/
def blockBody? : List Char → Option (List Char × List Char)
  | [] => none
  | '"' :: '"' :: '"' :: rest => some ([], rest)
  | '\\' :: '"' :: '"' :: '"' :: rest => do
    let (body, rest) ← blockBody? rest
    return ('\\' :: '"' :: '"' :: '"' :: body, rest)
  | c :: rest => do
    let (body, rest) ← blockBody? rest
    return (c :: body, rest)

/-- The lines of a block. -/
def lines : List Char → List (List Char)
  | [] => [[]]
  | '\r' :: '\n' :: rest => [] :: lines rest
  | c :: rest =>
    if isLineEnd c then [] :: lines rest
    else
      match lines rest with
      | [] => [[c]]
      | line :: more => (c :: line) :: more

/-- What lines are indented with. -/
def isIndent (c : Char) : Bool := c == ' ' || c == '\t'

/-- Whether a line holds anything. -/
def hasContent (line : List Char) : Bool := line.any fun c => !isIndent c

/-- How far a line is indented, if it holds anything. -/
def indent? (line : List Char) : Option Nat :=
  if hasContent line then some (line.takeWhile isIndent).length else none

/-- Takes indentation off a line that is long enough. -/
def outdent (n : Nat) (line : List Char) : List Char :=
  if n ≤ line.length then line.drop n else line

/-- The text of a block: without the indentation that all lines but the first share, and without
empty lines at both ends. -/
def blockText (body : List Char) : List Char :=
  match lines body with
  | [] => []
  | first :: more =>
    let shared := ((more.filterMap indent?).min?).getD 0
    let all := first :: more.map (outdent shared)
    let kept := ((all.dropWhile fun l => !hasContent l).reverse.dropWhile fun l => !hasContent l).reverse
    ['\n'].intercalate kept

/-- A text in quotes at the very front of a text. -/
def stringHere? (text : List Char) : Option (String × List Char) :=
  let block := match text with
    | '"' :: '"' :: '"' :: rest => blockBody? rest
    | _ => none
  match block, text with
  | some (body, rest), _ => some (String.ofList (blockText body), rest)
  | none, '"' :: rest => (lineBody? rest).map fun (body, rest) => (String.ofList body, rest)
  | none, _ => none

end RecordGraph.Document
