import RecordGraph.Number.Shortest
/-!
Texts of binary64 words: positional notation without exponent, the JSON notation with an exponent
for very large and very small numbers, and a reader of both.
-/

namespace RecordGraph

/-- `count` zeros. -/
def zeros (count : Nat) : String := String.ofList (List.replicate count '0')

/-- A positive decimal written positionally, without a point when it is an integer. -/
def Digits.positional (d : Digits) : String :=
  let text := toString d.digits
  let size := text.length
  if 0 ≤ d.exponent then text ++ zeros d.exponent.toNat
  else
    let places := (-d.exponent).toNat
    if places < size then
      String.ofList (text.toList.take (size - places)) ++ "." ++
        String.ofList (text.toList.drop (size - places))
    else "0." ++ zeros (places - size) ++ text

/-- The power of ten of the leading digit. -/
def Digits.order (d : Digits) : Int := (toString d.digits).length - 1 + d.exponent

/-- A positive decimal written with one digit before the point and an exponent with its sign. -/
def Digits.scientific (d : Digits) : String :=
  let mantissa := match (toString d.digits).toList with
    | [] => "0"
    | [c] => c.toString
    | c :: rest => c.toString ++ "." ++ String.ofList rest
  let order := d.order
  mantissa ++ (if order < 0 then "e-" else "e+") ++ toString order.natAbs

namespace Binary64

/-- The texts of the words that denote no finite number. -/
def specialText (x : Binary64) : String :=
  if x.isNaN then "NaN" else if x.negative then "-inf" else "inf"

/-- The sign of a finite word, written before its magnitude. -/
def signText (x : Binary64) : String := if x.negative then "-" else ""

/-- Positional text with the fewest digits that read back; an integer has no point. -/
def plainText (x : Binary64) : String :=
  if x.isFinite then x.signText ++ (x.shortest .away).positional else x.specialText

/-- JSON text with the fewest digits that read back: positional, with at least one decimal place,
from `10^-5` up to below `10^16`, else with an exponent. -/
def jsonText (x : Binary64) : String :=
  if !x.isFinite then x.specialText
  else
    let d := x.shortest .even
    let body :=
      if d.digits = 0 then "0.0"
      else if d.order < -5 || 16 ≤ d.order then d.scientific
      else if 0 ≤ d.exponent then d.positional ++ ".0"
      else d.positional
    x.signText ++ body

end Binary64

/-- Reads digits at the front of a text: their value, their number, and the rest. -/
def takeDigits : List Char → Nat → Nat → Nat × Nat × List Char
  | [], value, count => (value, count, [])
  | c :: rest, value, count =>
    if c.isDigit then takeDigits rest (value * 10 + (c.toNat - 48)) (count + 1)
    else (value, count, c :: rest)

namespace Binary64

/-- An exponent of the form `e`, an optional sign and digits; nothing at the end of the text. -/
def readExponent? : List Char → Option Int
  | [] => some 0
  | e :: rest =>
    if e ≠ 'e' ∧ e ≠ 'E' then none
    else
      let (negative, rest) := match rest with
        | '-' :: more => (true, more)
        | '+' :: more => (false, more)
        | more => (false, more)
      match takeDigits rest 0 0 with
      | (value, count, []) =>
        if count = 0 then none else some (if negative then -(value : Int) else value)
      | _ => none

/-- An unsigned decimal number, with at least one digit before or after the point. -/
def readMagnitude? (negative : Bool) (text : List Char) : Option Binary64 :=
  let (whole, wholeCount, rest) := takeDigits text 0 0
  let (value, fractionCount, rest) := match rest with
    | '.' :: more => takeDigits more whole 0
    | more => (whole, 0, more)
  if wholeCount + fractionCount = 0 then none
  else (readExponent? rest).map fun exponent => ofDecimal negative value (exponent - fractionCount)

/-- Reads a decimal number, or one of the words `inf`, `infinity` and `nan` in any case, after an
optional sign. The number is rounded once, to the nearest word. -/
def read? (text : String) : Option Binary64 :=
  let (negative, body) := match text.toList with
    | '-' :: rest => (true, rest)
    | '+' :: rest => (false, rest)
    | rest => (false, rest)
  match String.ofList (body.map Char.toLower) with
  | "inf" | "infinity" => some (infinity negative)
  | "nan" => some nan
  | _ => readMagnitude? negative body

end Binary64

end RecordGraph
