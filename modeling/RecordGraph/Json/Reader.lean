import RecordGraph.Json
/-!
Reading JSON text. A number that is written as an integer in the range of the wire stays one, any
other becomes a float by one multiplication or division of its leading digits with a power of ten.
Nesting is bounded, a repeated member keeps its first place and its last value.
-/

namespace RecordGraph

namespace Json

/-- How many arrays and objects may be open at once, plus one. -/
def maxDepth : Nat := 128

/-- The digits read so far as a 64-bit significand. -/
structure Significand where
  value : Nat
  /-- The power of ten by which the digits read exceed the significand. -/
  exponent : Int

/-- Takes a digit into the significand if it still fits. -/
def Significand.push? (s : Significand) (digit : Nat) : Option Significand :=
  let value := s.value * 10 + digit
  if value < 0x10000000000000000 then some ⟨value, s.exponent⟩ else none

/-- Digits before the point. Once one does not fit, it and all later ones only count. -/
def wholeDigits (s : Significand) : List Char → Significand
  | [] => s
  | c :: rest =>
    match s.push? (c.toNat - 48) with
    | some s => wholeDigits s rest
    | none => { s with exponent := rest.length + 1 }

/-- Digits after the point. The first that does not fit ends the significand. -/
def fractionDigits (s : Significand) : List Char → Significand
  | [] => s
  | c :: rest =>
    match s.push? (c.toNat - 48) with
    | some s => fractionDigits { s with exponent := s.exponent - 1 } rest
    | none => s

/-- Scales a float down by powers of ten of at most `10^308`, each division rounded. -/
def scaleDown : Nat → Binary64 → Nat → Binary64
  | 0, x, _ => x
  | rounds + 1, x, places =>
    if places ≤ 308 then x.div (.ofDecimal false 1 places)
    else if x.isZero then x
    else scaleDown rounds (x.div (.ofDecimal false 1 308)) (places - 308)

/-- The float of a significand: none when it is too large. -/
def Significand.toBinary64? (s : Significand) : Option Binary64 :=
  let x := Binary64.ofInt s.value
  if 0 ≤ s.exponent then
    if s.exponent ≤ 308 then
      let y := x.mul (.ofDecimal false 1 s.exponent)
      if y.isFinite then some y else none
    else if x.isZero then some x
    else none
  else some (scaleDown 8 x (-s.exponent).toNat)

/-- The digits at the front of a text, and the rest. -/
def spanDigits (text : List Char) : List Char × List Char :=
  (text.takeWhile Char.isDigit, text.dropWhile Char.isDigit)

/-- An exponent part at the front of a text, if there is one. -/
def exponentPart? : List Char → Option (Option Int × List Char)
  | 'e' :: rest | 'E' :: rest =>
    let (negative, rest) := match rest with
      | '-' :: more => (true, more)
      | '+' :: more => (false, more)
      | more => (false, more)
    match spanDigits rest with
    | ([], _) => none
    | (digits, rest) =>
      let value : Int := digits.foldl (fun n c => n * 10 + (c.toNat - 48)) 0
      some (some (if negative then -value else value), rest)
  | rest => some (none, rest)

/-- A float with its sign, if it is not too large. -/
def signedFloat? (negative : Bool) (s : Significand) : Option WireNumber :=
  s.toBinary64?.bind fun x => WireNumber.ofFloat? (if negative then x.neg else x)

/-- An unsigned number at the front of a text: no superfluous leading zero, and digits on both
sides of a point. -/
def magnitude? (negative : Bool) (text : List Char) : Option (WireNumber × List Char) :=
  match spanDigits text with
  | ([], _) => none
  | ('0' :: _ :: _, _) => none
  | (whole, rest) => do
    let start := wholeDigits ⟨0, 0⟩ whole
    let (fraction, rest) ← match rest with
      | '.' :: more =>
        match spanDigits more with
        | ([], _) => none
        | (digits, rest) => some (some digits, rest)
      | rest => some (none, rest)
    let (exponent, rest) ← exponentPart? rest
    match fraction, exponent with
    | none, none =>
      let asFloat := signedFloat? negative start
      let number ← if start.exponent ≠ 0 then asFloat
        else if negative then
          if start.value = 0 then asFloat else (WireNumber.ofInt? (-start.value)).or asFloat
        else WireNumber.ofInt? start.value
      some (number, rest)
    | fraction, exponent =>
      let s := fractionDigits start (fraction.getD [])
      let s := { s with exponent := s.exponent + exponent.getD 0 }
      let number ← signedFloat? negative s
      some (number, rest)

/-- A number at the front of a text. -/
def number? : List Char → Option (WireNumber × List Char)
  | '-' :: rest => magnitude? true rest
  | text => magnitude? false text

/-- The value of a hexadecimal digit. -/
def hexValue? (c : Char) : Option Nat :=
  if c.isDigit then some (c.toNat - 48)
  else if 'a' ≤ c ∧ c ≤ 'f' then some (c.toNat - 87)
  else if 'A' ≤ c ∧ c ≤ 'F' then some (c.toNat - 55)
  else none

/-- Four hexadecimal digits at the front of a text. -/
def hexUnit? : List Char → Option (Nat × List Char)
  | a :: b :: c :: d :: rest => do
    let a ← hexValue? a
    let b ← hexValue? b
    let c ← hexValue? c
    let d ← hexValue? d
    some (((a * 16 + b) * 16 + c) * 16 + d, rest)
  | _ => none

/-- The character of an escape, read after `\u`: two units for one outside the basic plane. -/
def unicodeEscape? (text : List Char) : Option (Char × List Char) := do
  let (unit, rest) ← hexUnit? text
  if 0xDC00 ≤ unit ∧ unit ≤ 0xDFFF then none
  else if 0xD800 ≤ unit ∧ unit ≤ 0xDBFF then
    match rest with
    | '\\' :: 'u' :: more =>
      let (low, rest) ← hexUnit? more
      if 0xDC00 ≤ low ∧ low ≤ 0xDFFF then
        some (Char.ofNat (0x10000 + (unit - 0xD800) * 0x400 + (low - 0xDC00)), rest)
      else none
    | _ => none
  else some (Char.ofNat unit, rest)

/-- The character of an escape, read after the backslash. -/
def escape? : List Char → Option (Char × List Char)
  | '"' :: rest => some ('"', rest)
  | '\\' :: rest => some ('\\', rest)
  | '/' :: rest => some ('/', rest)
  | 'b' :: rest => some ('\x08', rest)
  | 'f' :: rest => some ('\x0c', rest)
  | 'n' :: rest => some ('\n', rest)
  | 'r' :: rest => some ('\r', rest)
  | 't' :: rest => some ('\t', rest)
  | 'u' :: rest => unicodeEscape? rest
  | _ => none

/-- The characters of a string up to its closing quote; `taken` holds those read so far, the last
one first. Each step reads at least one character, so the length of the text is enough fuel. -/
def stringBody? : Nat → List Char → List Char → Option (String × List Char)
  | 0, _, _ => none
  | fuel + 1, taken, text =>
    match text with
    | [] => none
    | '"' :: rest => some (String.ofList taken.reverse, rest)
    | '\\' :: rest => (escape? rest).bind fun (c, rest) => stringBody? fuel (c :: taken) rest
    | c :: rest => if c.toNat < 32 then none else stringBody? fuel (c :: taken) rest

/-- A string at the front of a text, opening quote included. -/
def string? : List Char → Option (String × List Char)
  | '"' :: rest => stringBody? (rest.length + 1) [] rest
  | _ => none

/-- Drops blanks. -/
def skipBlanks : List Char → List Char
  | c :: rest =>
    if c = ' ' ∨ c = '\n' ∨ c = '\t' ∨ c = '\r' then skipBlanks rest else c :: rest
  | [] => []

/-- Drops a literal name from the front of a text. -/
def literal? (name : List Char) (value : Json) (text : List Char) : Option (Json × List Char) :=
  if name.isPrefixOf text then some (value, text.drop name.length) else none

mutual

/-- A value at the front of a text. The depth counts what may still be opened. -/
def value? : Nat → Nat → List Char → Option (Json × List Char)
  | 0, _, _ => none
  | fuel + 1, depth, text =>
    match skipBlanks text with
    | [] => none
    | 'n' :: rest => literal? ['u', 'l', 'l'] .null rest
    | 't' :: rest => literal? ['r', 'u', 'e'] (.bool true) rest
    | 'f' :: rest => literal? ['a', 'l', 's', 'e'] (.bool false) rest
    | '"' :: rest => (string? ('"' :: rest)).map fun (s, rest) => (.string s, rest)
    | '[' :: rest =>
      if depth ≤ 1 then none
      else match skipBlanks rest with
        | ']' :: rest => some (.array [], rest)
        | rest => items? fuel (depth - 1) [] rest
    | '\x7b' :: rest =>
      if depth ≤ 1 then none
      else match skipBlanks rest with
        | '\x7d' :: rest => some (.object [], rest)
        | rest => members? fuel (depth - 1) [] rest
    | text => (number? text).map fun (n, rest) => (.number n, rest)

/-- The items of an array up to its closing bracket; `taken` holds those read, the last first. -/
def items? : Nat → Nat → List Json → List Char → Option (Json × List Char)
  | 0, _, _, _ => none
  | fuel + 1, depth, taken, text => do
    let (item, rest) ← value? fuel depth text
    match skipBlanks rest with
    | ']' :: rest => some (.array (item :: taken).reverse, rest)
    | ',' :: rest => items? fuel depth (item :: taken) rest
    | _ => none

/-- The members of an object up to its closing brace, in the order of `taken`. -/
def members? : Nat → Nat → List (String × Json) → List Char → Option (Json × List Char)
  | 0, _, _, _ => none
  | fuel + 1, depth, taken, text => do
    let (name, rest) ← string? (skipBlanks text)
    match skipBlanks rest with
    | ':' :: rest =>
      let (value, rest) ← value? fuel depth rest
      let taken := Entries.insert taken name value
      match skipBlanks rest with
      | '\x7d' :: rest => some (.object taken, rest)
      | ',' :: rest => members? fuel depth taken rest
      | _ => none
    | _ => none

end

/-- Reads a text that holds one value and nothing else but blanks. -/
def read? (text : String) : Option Json :=
  let chars := text.toList
  match value? (2 * chars.length + 2) maxDepth chars with
  | some (value, rest) => if skipBlanks rest = [] then some value else none
  | none => none

end Json

end RecordGraph
