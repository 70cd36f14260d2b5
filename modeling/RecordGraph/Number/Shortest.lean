import RecordGraph.Number.Binary64
/-!
The fewest decimal digits that read back as a given binary64 word. The numbers that round to a word
form an interval; on the coarsest decimal grid that has a point in it, the point nearest to the
word is taken.
-/

namespace RecordGraph

/-- Which of two equally near decimals stands for a word. -/
inductive TieRule where
  /-- The one farther from zero. -/
  | away
  /-- The one whose last digit is even. -/
  | even
  deriving DecidableEq, Repr

/-- A positive decimal number `digits · 10^exponent`. -/
structure Digits where
  digits : Nat
  exponent : Int
  deriving DecidableEq, Repr

namespace Binary64

/-- The numbers that round to a positive finite word, in quarters of `2^-1074`: the ends belong to
the interval when the significand is even. -/
structure Basin where
  low : Nat
  high : Nat
  closed : Bool

/-- The interval around a word. Below a power of two the words lie twice as close. -/
def basin (x : Binary64) : Basin :=
  let step := 1 <<< x.lift
  let below := if x.significand = 0x10000000000000 && 0 < x.lift then step else 2 * step
  ⟨4 * x.magnitude - below, 4 * x.magnitude + 2 * step, x.significand % 2 = 0⟩

/-- Whether `num / den` quarters lie in the interval. -/
def Basin.holds (b : Basin) (num den : Nat) : Bool :=
  if b.closed then b.low * den ≤ num && num ≤ b.high * den
  else b.low * den < num && num < b.high * den

/-- The scale of the grid of multiples of `10^exponent` in quarters of `2^-1074`, as a ratio. -/
def gridScale (exponent : Int) : Nat × Nat :=
  if 0 ≤ exponent then (Nat.pow 10 exponent.toNat <<< 1076, 1)
  else (1 <<< 1076, Nat.pow 10 (-exponent).toNat)

/-- The point of the grid of multiples of `10^exponent` that lies in the interval of `x`, nearest
to `x`, if there is one. -/
def onGrid? (tie : TieRule) (x : Binary64) (exponent : Int) : Option Digits :=
  let (num, den) := gridScale exponent
  let target := 4 * x.magnitude * den
  let floor := target / num
  let rest := target % num
  let lower := x.basin.holds (floor * num) den
  let upper := x.basin.holds ((floor + 1) * num) den
  let preferUpper :=
    num < 2 * rest ||
      (2 * rest = num && match tie with
        | .away => true
        | .even => floor % 2 = 1)
  if lower && !(upper && preferUpper) then some ⟨floor, exponent⟩
  else if upper then some ⟨floor + 1, exponent⟩
  else none

/-- The first hit among `tries` grids, each ten times finer than the one before. -/
def firstGrid? (tie : TieRule) (x : Binary64) : Nat → Int → Option Digits
  | 0, _ => none
  | tries + 1, exponent =>
    match onGrid? tie x exponent with
    | some found => some found
    | none => firstGrid? tie x tries (exponent - 1)

/-- A power of ten above every point of the interval of `x`, from the position of its leading
bit: `30103 / 100000` exceeds the logarithm of two. -/
def gridStart (x : Binary64) : Int :=
  ((Nat.log2 x.magnitude : Int) + 1 - 1074) * 30103 / 100000 + 2

/-- The fewest digits that read back as the magnitude of a finite word; no digits for a zero. -/
def shortest (tie : TieRule) (x : Binary64) : Digits :=
  if x.magnitude = 0 then ⟨0, 0⟩ else (firstGrid? tie x 24 x.gridStart).getD ⟨0, 0⟩

end Binary64

end RecordGraph
