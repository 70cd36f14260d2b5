/-!
Binary floating point numbers of 64 bits, as words with exact integer views. A finite word denotes
`± significand · 2^lift` units, where the unit is `2^-1074`, the least positive number. Rounding
from a ratio of naturals goes to the nearest word, a tie to the even significand.
-/

namespace RecordGraph

/-- A word of one sign bit, eleven bits of exponent field and fifty-two bits of fraction. -/
structure Binary64 where
  bits : UInt64
  deriving DecidableEq, Repr, Inhabited

namespace Binary64

/-- The word as a natural number. -/
def word (x : Binary64) : Nat := x.bits.toNat

/-- Whether the sign bit is set, also on zeros and on words that denote no number. -/
def negative (x : Binary64) : Bool := decide (0x8000000000000000 ≤ x.word)

/-- The exponent field. -/
def field (x : Binary64) : Nat := x.word / 0x10000000000000 % 0x800

/-- The fraction field. -/
def fraction (x : Binary64) : Nat := x.word % 0x10000000000000

/-- A word with the largest exponent field is infinite or no number, any other is finite. -/
def isFinite (x : Binary64) : Bool := x.field != 2047

/-- The infinities have the largest exponent field and no fraction. -/
def isInfinite (x : Binary64) : Bool := x.field == 2047 && x.fraction == 0

/-- A word with the largest exponent field and a fraction denotes no number. -/
def isNaN (x : Binary64) : Bool := x.field == 2047 && x.fraction != 0

/-- The integral significand: normal words carry a hidden leading bit. -/
def significand (x : Binary64) : Nat :=
  if x.field = 0 then x.fraction else 0x10000000000000 + x.fraction

/-- The power of two that one step of the significand is worth, in units of `2^-1074`. -/
def lift (x : Binary64) : Nat := x.field - 1

/-- The magnitude of a finite word in units of `2^-1074`. -/
def magnitude (x : Binary64) : Nat := x.significand <<< x.lift

/-- A finite word in units of `2^-1074`. -/
def scaled (x : Binary64) : Int := if x.negative then -x.magnitude else x.magnitude

/-- The two zeros. -/
def isZero (x : Binary64) : Bool := x.isFinite && x.magnitude == 0

/-- The word with the given sign whose remaining bits are `magnitude`. -/
def ofParts (negative : Bool) (magnitude : Nat) : Binary64 :=
  ⟨UInt64.ofNat ((if negative then 0x8000000000000000 else 0) + magnitude)⟩

/-- The word that denotes no number. -/
def nan : Binary64 := ofParts false 0x7ff8000000000000

/-- The infinity of a sign. -/
def infinity (negative : Bool) : Binary64 := ofParts negative 0x7ff0000000000000

/-- The zero of a sign. -/
def zero (negative : Bool) : Binary64 := ofParts negative 0

/-- The quotient rounded to the nearest natural number, a tie to the even one. -/
def roundDiv (num den : Nat) : Nat :=
  let quotient := num / den
  let rest := num % den
  if 2 * rest < den || (2 * rest == den && quotient % 2 == 0) then quotient else quotient + 1

/-- The word of the given sign nearest to `num / den`, for a positive `den`. Adding the rounded
significand to the shifted lift lets a carry run into the exponent field; past the largest finite
word stands infinity. -/
def ofRatio (negative : Bool) (num den : Nat) : Binary64 :=
  let units := num <<< 1074
  let lift := Nat.log2 (units / den) - 52
  let rounded := lift * 0x10000000000000 + roundDiv units (den <<< lift)
  if rounded < 0x7ff0000000000000 then ofParts negative rounded else infinity negative

/-- The word nearest to an integer. -/
def ofInt (n : Int) : Binary64 := ofRatio (decide (n < 0)) n.natAbs 1

/-- How many digits the decimal form of a natural number has. -/
def decimalLength (n : Nat) : Nat := (Nat.toDigits 10 n).length

/-- The word of the given sign nearest to `digits · 10^exponent`. Exponents far out of range are
settled without computing the power. -/
def ofDecimal (negative : Bool) (digits : Nat) (exponent : Int) : Binary64 :=
  if digits = 0 then zero negative
  else
    let size : Int := decimalLength digits + exponent
    if 400 < size then infinity negative
    else if size < -400 then zero negative
    else if 0 ≤ exponent then ofRatio negative (digits * Nat.pow 10 exponent.toNat) 1
    else ofRatio negative digits (Nat.pow 10 (-exponent).toNat)

/-- The word with its sign turned over. -/
def neg (x : Binary64) : Binary64 := ⟨x.bits ^^^ 0x8000000000000000⟩

/-- The product, rounded once. -/
def mul (x y : Binary64) : Binary64 :=
  let negative := x.negative != y.negative
  if x.isNaN || y.isNaN then nan
  else if x.isInfinite || y.isInfinite then
    if x.isZero || y.isZero then nan else infinity negative
  else ofRatio negative (x.magnitude * y.magnitude) (1 <<< 2148)

/-- The quotient, rounded once. -/
def div (x y : Binary64) : Binary64 :=
  let negative := x.negative != y.negative
  if x.isNaN || y.isNaN then nan
  else if x.isInfinite then if y.isInfinite then nan else infinity negative
  else if y.isInfinite then zero negative
  else if y.isZero then if x.isZero then nan else infinity negative
  else ofRatio negative x.magnitude y.magnitude

/-- `x` raised to `n` by repeated squaring, each product rounded. -/
def pow (x : Binary64) (n : Nat) : Binary64 :=
  go 64 x n (ofInt 1)
where
  /-- Multiplies `result` by the squares of `base` that the bits of `n` select. -/
  go : Nat → Binary64 → Nat → Binary64 → Binary64
    | 0, _, _, result => result
    | rounds + 1, base, n, result =>
      let result := if n % 2 = 1 then result.mul base else result
      if n / 2 = 0 then result else go rounds (base.mul base) (n / 2) result

/-- Whether two words denote the same number: both zeros do, and a word that denotes no number
differs from every word. -/
def sameNumber (x y : Binary64) : Bool :=
  !x.isNaN && !y.isNaN && (x == y || (x.isZero && y.isZero))

/-- Whether a word denotes an integer. -/
def isIntegral (x : Binary64) : Bool := x.isFinite && x.magnitude % (1 <<< 1074) == 0

/-- The integer part of a finite word, cut toward zero. -/
def truncate (x : Binary64) : Int := x.scaled.tdiv (1 <<< 1074 : Nat)

/-- The integer part as a 64-bit integer; what lies outside its range becomes the nearest bound. -/
def toInt64Clamped (x : Binary64) : Int64 :=
  Int64.ofInt (max (-0x8000000000000000) (min 0x7fffffffffffffff x.truncate))

end Binary64

end RecordGraph
