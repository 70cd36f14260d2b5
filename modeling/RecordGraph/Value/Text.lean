import RecordGraph.Value.Host
import RecordGraph.Text.Letter
import RecordGraph.Text.MarkTable
/-!
Two texts of a host value: a plain one for messages, in which strings stand in quotes as they are,
and a labelled one that names the kind of every leaf and quotes strings so that each character can
be told.
-/

namespace RecordGraph

namespace Text

/-- Whether a character is shown by number in a quoted text. -/
def isHidden (c : Char) : Bool :=
  if c.toNat < 128 then c.toNat < 32 || c.toNat == 127 else withinBounds hiddenBounds c.toNat

/-- A character of a quoted text. -/
def revealChar (c : Char) : String :=
  match c with
  | '\x00' => "\\0"
  | '\t' => "\\t"
  | '\r' => "\\r"
  | '\n' => "\\n"
  | '"' => "\\\""
  | '\\' => "\\\\"
  | c =>
    if isHidden c then "\\u\x7b" ++ String.ofList (Nat.toDigits 16 c.toNat) ++ "\x7d"
    else c.toString

/-- A text in quotes, with escapes for what would not show. -/
def reveal (text : String) : String := "\"" ++ String.join (text.toList.map revealChar) ++ "\""

end Text

namespace Value

mutual

/-- The plain text of a value. -/
def text : Value → String
  | .null => "null"
  | .bool b => if b then "true" else "false"
  | .number n => n.text
  | .string s => "\"" ++ s ++ "\""
  | .list items => "[" ++ ", ".intercalate (itemTexts items) ++ "]"
  | .mapping entries => "\x7b" ++ ", ".intercalate (entryTexts entries) ++ "\x7d"
  | .moment m => m.text
  | .decimal d => d.text
  | .member _ name => name
  | .source s => "<" ++ s.typeName ++ ">"
  | .callable _ => "<resolver>"

/-- The plain texts of the items of a list. -/
def itemTexts : List Value → List String
  | [] => []
  | item :: rest => text item :: itemTexts rest

/-- The plain texts of the entries of a mapping, each after its key. -/
def entryTexts : List (String × Value) → List String
  | [] => []
  | (key, value) :: rest => (key ++ ": " ++ text value) :: entryTexts rest

end

mutual

/-- The labelled text of a value. -/
def labelled : Value → String
  | .null => "Null"
  | .bool b => "Bool(" ++ (if b then "true" else "false") ++ ")"
  | .number n => "Number(" ++ n.text ++ ")"
  | .string s => "String(" ++ Text.reveal s ++ ")"
  | .list items => "[" ++ ", ".intercalate (labelledItems items) ++ "]"
  | .mapping entries => "\x7b" ++ ", ".intercalate (labelledEntries entries) ++ "\x7d"
  | .moment m => "DateTime(" ++ m.spacedText ++ ")"
  | .decimal d => "Decimal(" ++ d.text ++ ")"
  | .member enumName name => "Enum(" ++ enumName ++ "." ++ name ++ ")"
  | .source s => "Source(" ++ s.typeName ++ ")"
  | .callable _ => "Thunk"

/-- The labelled texts of the items of a list. -/
def labelledItems : List Value → List String
  | [] => []
  | item :: rest => labelled item :: labelledItems rest

/-- The labelled texts of the entries of a mapping, each after its quoted key. -/
def labelledEntries : List (String × Value) → List String
  | [] => []
  | (key, value) :: rest =>
    (Text.reveal key ++ ": " ++ labelled value) :: labelledEntries rest

end

end Value

end RecordGraph
