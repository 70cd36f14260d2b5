import RecordGraph.Time.Moment
import RecordGraph.Text.Letter
/-!
Reading moments: the format of RFC 3339, and a looser form without offset that stands for universal
time, in which fields may have fewer digits and blanks may precede numbers.
-/

namespace RecordGraph

/-- Why a text is no moment. -/
inductive MomentFault where
  | outOfRange
  | invalid
  | tooShort
  | tooLong
  deriving DecidableEq, Repr

/-- The wording of a fault. -/
def MomentFault.message : MomentFault → String
  | .outOfRange => "input is out of range"
  | .invalid => "input contains invalid characters"
  | .tooShort => "premature end of input"
  | .tooLong => "trailing input"

namespace Moment

/-- A reader takes what it reads from the front of a text. -/
abbrev Reader := StateT (List Char) (Except MomentFault)

/-- Reads up to `most` digits after those already in `value`. -/
def takeNumber : Nat → Nat → List Char → Nat × List Char
  | 0, value, text => (value, text)
  | _ + 1, value, [] => (value, [])
  | most + 1, value, c :: rest =>
    if c.isDigit then takeNumber most (value * 10 + (c.toNat - 48)) rest else (value, c :: rest)

/-- A number of `least` to `most` digits; `least` is at most two. A text with fewer octets than
`least` is too short, one with another character there is invalid. -/
def number (least most : Nat) : Reader Nat := fun text =>
  let digits := (text.takeWhile Char.isDigit).length
  if least ≤ digits then
    let (value, rest) := takeNumber most 0 text
    if value < 0x8000000000000000 then .ok (value, rest) else .error .outOfRange
  else if (String.ofList text).utf8ByteSize < least then .error .tooShort
  else .error .invalid

/-- A number within bounds. -/
def bounded (least most low high : Nat) : Reader Nat := do
  let n ← number least most
  if low ≤ n ∧ n ≤ high then return n else throw .outOfRange

/-- One given character. -/
def mark (c : Char) : Reader Unit := fun text =>
  match text with
  | [] => .error .tooShort
  | d :: rest => if c = d then .ok ((), rest) else .error .invalid

/-- Drops blanks. -/
def blanks : Reader Unit := modify fun text => text.dropWhile Text.isBlank

/-- A fraction of a second after its point, in nanoseconds. Digits after the ninth are dropped. -/
def fraction : Reader Nat := do
  let before ← get
  let n ← number 1 9
  let digits := min 9 (before.takeWhile Char.isDigit).length
  modify fun text => text.dropWhile Char.isDigit
  return n * Nat.pow 10 (9 - digits)

/-- A fraction of a second, if a point follows. -/
def optionalFraction : Reader Nat := do
  match ← get with
  | '.' :: rest => set rest; fraction
  | _ => return 0

/-- Nothing may be left. -/
def finish : Reader Unit := do
  match ← get with
  | [] => return ()
  | _ => throw .tooLong

/-- The date must exist. -/
def checkDay (year : Int) (month day : Nat) : Reader Unit :=
  if day ≤ daysInMonth year month then return () else throw .outOfRange

/-- The sign of an offset. The minus sign of typography counts as one. -/
def offsetSign : Reader Int := fun text =>
  match text with
  | [] => .error .tooShort
  | '+' :: rest => .ok (1, rest)
  | '-' :: rest => .ok (-1, rest)
  | c :: rest => if c.toNat = 0x2212 then .ok (-1, rest) else .error .invalid

/-- An offset: `Z`, or hours and minutes with a sign. -/
def offsetField : Reader Int := do
  match ← get with
  | 'Z' :: rest | 'z' :: rest => set rest; return 0
  | _ =>
    let sign ← offsetSign
    let hours ← bounded 2 2 0 23
    mark ':'
    let minutes ← bounded 2 2 0 59
    return sign * (hours * 60 + minutes)

/-- The separator between date and time. -/
def separator : Reader Unit := fun text =>
  match text with
  | [] => .error .tooShort
  | c :: rest => if c = 'T' ∨ c = 't' ∨ c = ' ' then .ok ((), rest) else .error .invalid

/-- The whole of a text by RFC 3339. -/
def strict : Reader Moment := do
  let year ← number 4 4
  mark '-'
  let month ← bounded 2 2 1 12
  mark '-'
  let day ← bounded 2 2 1 31
  separator
  let hour ← bounded 2 2 0 23
  mark ':'
  let minute ← bounded 2 2 0 59
  mark ':'
  let second ← bounded 2 2 0 60
  let nanos ← optionalFraction
  let offset ← offsetField
  finish
  checkDay year month day
  return ⟨year, month, day, hour, minute, second, nanos, offset⟩

/-- A year: up to four digits, or any number of digits after a sign. -/
def looseYear : Reader Int := do
  blanks
  let year : Int ← match ← get with
    | '-' :: rest => set rest; return -(← number 1 rest.length)
    | '+' :: rest => set rest; number 1 rest.length
    | _ => number 1 4
  return year

/-- A field of one or two digits after blanks. -/
def looseField (low high : Nat) : Reader Nat := do
  blanks
  bounded 1 2 low high

/-- The whole of a text without offset, taken as universal time. -/
def loose : Reader Moment := do
  let year ← looseYear
  if year < -0x80000000 ∨ 0x80000000 ≤ year then throw .outOfRange
  mark '-'
  let month ← looseField 1 12
  mark '-'
  let day ← looseField 1 31
  mark 'T'
  let hour ← looseField 0 23
  mark ':'
  let minute ← looseField 0 59
  mark ':'
  let second ← looseField 0 60
  let nanos ← optionalFraction
  finish
  if year < -262143 ∨ 262142 < year then throw .outOfRange
  checkDay year month day
  return ⟨year, month, day, hour, minute, second, nanos, 0⟩

/-- Reads a text by RFC 3339, if it is one. -/
def readStrict? (text : String) : Option Moment :=
  match strict text.toList with
  | .ok (moment, _) => some moment
  | .error _ => none

/-- Reads a text by RFC 3339, else as universal time without offset; the fault is that of the
second attempt. -/
def read (text : String) : Except MomentFault Moment :=
  match readStrict? text with
  | some moment => .ok moment
  | none => (loose text.toList).map Prod.fst

end Moment

end RecordGraph
