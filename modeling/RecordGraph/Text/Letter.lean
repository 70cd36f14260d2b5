import RecordGraph.Text.LetterTable
import RecordGraph.Text.CaseTable
/-!
Letter properties and case mappings of characters. Each is the ASCII rule below code point 128 and
a look-up in a table above it; a mapping may give several characters.
-/

namespace RecordGraph.Text

/-- Whether an odd number of bounds are at most the code point. -/
def withinBounds (bounds : Array Nat) (code : Nat) : Bool :=
  bounds.foldl (fun inside bound => if bound ≤ code then !inside else inside) false

/-- Whether a code point belongs to one of the strided ranges. -/
def withinRanges (ranges : Array (Nat × Nat × Nat)) (code : Nat) : Bool :=
  ranges.any fun (first, last, step) =>
    decide (first ≤ code) && decide (code ≤ last) && (code - first) % step == 0

/-- Moves a code point by the shift that covers it, or leaves it. -/
def shifted (shifts : Array (Nat × Nat × Nat × Int)) (code : Nat) : Nat :=
  match shifts.find? fun (first, last, step, _) =>
    decide (first ≤ code) && decide (code ≤ last) && (code - first) % step == 0 with
  | some (_, _, _, distance) => (code + distance).toNat
  | none => code

/-- Letters and digits of any script. -/
def isAlphanumeric (c : Char) : Bool :=
  if c.toNat < 128 then c.isAlphanum else withinBounds alphanumericBounds c.toNat

/-- Upper-case letters of any script. -/
def isUpper (c : Char) : Bool :=
  if c.toNat < 128 then c.isUpper else withinRanges upperRanges c.toNat

/-- Lower-case letters of any script. -/
def isLower (c : Char) : Bool :=
  if c.toNat < 128 then c.isLower else withinRanges lowerRanges c.toNat

/-- The lower-case form of a character. The dotted capital I keeps its dot as a mark of its own. -/
def lowercase (c : Char) : List Char :=
  if c.toNat < 128 then [c.toLower]
  else if c.toNat = 0x130 then ['i', Char.ofNat 0x307]
  else [Char.ofNat (shifted lowerShifts c.toNat)]

/-- The upper-case form of a character. -/
def uppercase (c : Char) : List Char :=
  if c.toNat < 128 then [c.toUpper]
  else match upperSequences.find? fun entry => entry.1 == c.toNat with
    | some (_, codes) => codes.map Char.ofNat
    | none => [Char.ofNat (shifted upperShifts c.toNat)]

/-- Blanks of any script. -/
def isBlank (c : Char) : Bool :=
  let code := c.toNat
  decide (9 ≤ code ∧ code ≤ 13) || code == 0x20 || code == 0x85 || code == 0xa0 || code == 0x1680 ||
    decide (0x2000 ≤ code ∧ code ≤ 0x200a) || code == 0x2028 || code == 0x2029 || code == 0x202f ||
    code == 0x205f || code == 0x3000

/-- A text without the blanks around it. -/
def trimBlanks (text : List Char) : List Char :=
  ((text.dropWhile isBlank).reverse.dropWhile isBlank).reverse

end RecordGraph.Text
