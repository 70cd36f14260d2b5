import RecordGraph.Number.FloatText
/-!
Decimal numbers of any precision, written as digits over a power of ten. Two forms of one number
(`1.5` and `1.50`) are different values of the type that denote the same number; the text keeps the
form, comparison looks through it.
-/

namespace RecordGraph

/-- The number `digits · 10^(-scale)`. -/
structure Decimal where
  digits : Int
  scale : Int
  deriving DecidableEq, Repr, Inhabited

/-- Why a text is no decimal number. -/
inductive DecimalFault where
  /-- Nothing stands before the exponent. -/
  | empty
  /-- A number is missing where one has to stand. -/
  | noDigits
  /-- A character is no digit. -/
  | badDigit
  /-- The exponent is beyond every machine range. -/
  | exponentTooLarge
  /-- The exponent is beyond every machine range, and negative. -/
  | exponentTooSmall
  /-- The scale does not fit a signed 64-bit integer. -/
  | scaleOverflow (text : String)
  deriving DecidableEq, Repr

/-- The wording of a fault. -/
def DecimalFault.message : DecimalFault → String
  | .empty => "Failed to parse empty string"
  | .noDigits => "cannot parse integer from empty string"
  | .badDigit => "invalid digit found in string"
  | .exponentTooLarge => "number too large to fit in target type"
  | .exponentTooSmall => "number too small to fit in target type"
  | .scaleOverflow text => "Exponent overflow when parsing '" ++ text ++ "'"

namespace Decimal

/-- The digits of an exponent, read from the left as a magnitude of at most `limit`. The first
character at fault decides the error. -/
def exponentDigits (tooFar : DecimalFault) (limit : Nat) :
    Nat → List Char → Except DecimalFault Nat
  | value, [] => .ok value
  | value, c :: rest =>
    if !c.isDigit then .error .badDigit
    else
      let next := value * 10 + (c.toNat - 48)
      if limit < next then .error tooFar else exponentDigits tooFar limit next rest

/-- An exponent with an optional sign, in the range of a signed 128-bit integer. -/
def readExponent : List Char → Except DecimalFault Int
  | [] => .error .noDigits
  | ['-'] | ['+'] => .error .badDigit
  | '-' :: rest =>
    (exponentDigits .exponentTooSmall (1 <<< 127) 0 rest).map fun n => -(n : Int)
  | '+' :: rest => (exponentDigits .exponentTooLarge ((1 <<< 127) - 1) 0 rest).map Int.ofNat
  | text => (exponentDigits .exponentTooLarge ((1 <<< 127) - 1) 0 text).map Int.ofNat

/-- The value of digits among which underscores may stand, but not in front. -/
def readDigits (text : List Char) : Except DecimalFault Nat :=
  let text := match text with
    | '+' :: '+' :: rest => '+' :: '+' :: rest
    | '+' :: rest => rest
    | rest => rest
  match text with
  | [] => .error .noDigits
  | '_' :: _ => .error .badDigit
  | text =>
    if text.all fun c => c.isDigit || c == '_' then
      .ok ((text.filter Char.isDigit).foldl (fun n c => n * 10 + (c.toNat - 48)) 0)
    else .error .badDigit

/-- Digits with an optional sign. -/
def readSigned : List Char → Except DecimalFault Int
  | '-' :: '+' :: rest => (readDigits ('-' :: '+' :: rest)).map Int.ofNat
  | '-' :: rest => (readDigits rest).map fun n => -(n : Int)
  | text => (readDigits text).map Int.ofNat

/-- Whether a character starts an exponent. -/
def isExponentMark (c : Char) : Bool := c == 'e' || c == 'E'

/-- Reads a decimal number: digits with an optional point and exponent. The digits after the point,
less the exponent, are the scale. -/
def read (text : String) : Except DecimalFault Decimal := do
  let chars := text.toList
  let base := chars.takeWhile (!isExponentMark ·)
  let exponent ← match chars.dropWhile (!isExponentMark ·) with
    | [] => pure 0
    | _ :: rest => readExponent rest
  if base = [] then throw .empty
  let whole := base.takeWhile (· != '.')
  let fraction := (base.dropWhile (· != '.')).drop 1
  let scale := ((fraction.filter (· != '_')).length : Int) - exponent
  if scale < -0x8000000000000000 ∨ 0x8000000000000000 ≤ scale then throw (.scaleOverflow text)
  let digits ← readSigned (whole ++ fraction)
  return ⟨digits, scale⟩

/-- The text of a decimal number. Zero is `0` at every scale. More than five zeros between point
and digits, or more than fifteen zeros after the digits, are written as an exponent. -/
def text (d : Decimal) : String :=
  if d.digits = 0 then "0"
  else
    let sign := if d.digits < 0 then "-" else ""
    let body := toString d.digits.natAbs
    let size : Int := body.length
    if 5 < d.scale - size then
      let mantissa := match body.toList with
        | c :: e :: rest => String.ofList (c :: '.' :: e :: rest)
        | _ => body
      sign ++ mantissa ++ "E-" ++ toString (d.scale - size + 1)
    else if 15 < -d.scale then sign ++ body ++ "e+" ++ toString (-d.scale)
    else sign ++ (Digits.mk d.digits.natAbs (-d.scale)).positional

/-- The nearest float. A positive scale rounds the number once; a negative one rounds the digits
and then the product with a power of ten. A scale beyond 32 bits gives an infinity. -/
def toBinary64 (d : Decimal) : Binary64 :=
  let negative := decide (d.digits < 0)
  if d.digits = 0 then .zero false
  else if d.scale = 0 then .ofRatio negative d.digits.natAbs 1
  else if 0x80000000 ≤ d.scale.natAbs then .infinity negative
  else if 0 < d.scale then .ofDecimal negative d.digits.natAbs (-d.scale)
  else
    (Binary64.ofRatio negative d.digits.natAbs 1).mul
      (Binary64.pow (.ofInt 10) (-d.scale).toNat)

/-- Moves trailing zeros of the digits into the scale. -/
def stripZeros : Nat → Nat → Int → Nat × Int
  | 0, digits, scale => (digits, scale)
  | rounds + 1, digits, scale =>
    if digits % 10 = 0 then stripZeros rounds (digits / 10) (scale - 1) else (digits, scale)

/-- The form of a number without trailing zeros; zero has scale zero. -/
def normal (d : Decimal) : Bool × Nat × Int :=
  if d.digits = 0 then (false, 0, 0)
  else
    let magnitude := d.digits.natAbs
    (decide (d.digits < 0), stripZeros (Nat.log2 magnitude + 1) magnitude d.scale)

/-- Whether two forms denote the same number. -/
def sameNumber (d e : Decimal) : Bool := d.normal == e.normal

end Decimal

end RecordGraph
