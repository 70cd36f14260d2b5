/-!
Base 64 by RFC 4648: three octets as four symbols, the last group padded to four. Reading accepts
exactly the written forms: padding is required, and the bits of the last symbol that carry nothing
must be zero.
-/

namespace RecordGraph.Text.Base64

/-- The symbol of six bits. -/
def symbol (n : Nat) : Char :=
  if n < 26 then Char.ofNat (65 + n)
  else if n < 52 then Char.ofNat (71 + n)
  else if n < 62 then Char.ofNat (n - 4)
  else if n = 62 then '+'
  else '/'

/-- The six bits of a symbol, given by its octet. -/
def value? (o : UInt8) : Option Nat :=
  let n := o.toNat
  if 65 ≤ n ∧ n ≤ 90 then some (n - 65)
  else if 97 ≤ n ∧ n ≤ 122 then some (n - 71)
  else if 48 ≤ n ∧ n ≤ 57 then some (n + 4)
  else if n = 43 then some 62
  else if n = 47 then some 63
  else none

/-- The octet of the padding symbol. -/
def pad : UInt8 := 61

/-- The symbols of octets. -/
def encode : List UInt8 → List Char
  | [] => []
  | [a] =>
    let n := a.toNat * 16
    [symbol (n / 64), symbol (n % 64), '=', '=']
  | [a, b] =>
    let n := (a.toNat * 256 + b.toNat) * 4
    [symbol (n / 4096), symbol (n / 64 % 64), symbol (n % 64), '=']
  | a :: b :: c :: rest =>
    let n := (a.toNat * 256 + b.toNat) * 256 + c.toNat
    symbol (n / 262144) :: symbol (n / 4096 % 64) :: symbol (n / 64 % 64) :: symbol (n % 64) ::
      encode rest

/-- Why symbols stand for no octets. -/
inductive Fault where
  /-- An octet at an index is no symbol where it stands. -/
  | symbol (octet : UInt8) (index : Nat)
  /-- The last group has a single symbol. -/
  | length (count : Nat)
  /-- The last symbol carries bits that belong to no octet. -/
  | lastSymbol (octet : UInt8) (index : Nat)
  /-- The last group is not padded as it has to be. -/
  | padding
  deriving DecidableEq, Repr

/-- The wording of a fault. -/
def Fault.message : Fault → String
  | .symbol octet index =>
    "Invalid symbol " ++ toString octet.toNat ++ ", offset " ++ toString index ++ "."
  | .length count => "Invalid input length: " ++ toString count
  | .lastSymbol octet index =>
    "Invalid last symbol " ++ toString octet.toNat ++ ", offset " ++ toString index ++ "."
  | .padding => "Invalid padding"

/-- The six bits of the symbol at an index. -/
def valueAt (index : Nat) (o : UInt8) : Except Fault Nat :=
  match value? o with
  | some n => .ok n
  | none => .error (.symbol o index)

/-- What the last group holds: the six bits of its symbols and the number of padding symbols. -/
structure Tail where
  values : List Nat
  padded : Nat

/-- Reads the symbols of the last group, which starts at `start`. Padding may follow two symbols at
the earliest, and no symbol may follow padding. -/
def readTail (start : Nat) : Nat → Tail → List UInt8 → Except Fault Tail
  | _, tail, [] => .ok tail
  | position, tail, o :: rest =>
    if o = pad then
      if position < 2 then .error (.symbol o (start + position))
      else readTail start (position + 1) { tail with padded := tail.padded + 1 } rest
    else if 0 < tail.padded then .error (.symbol pad (start + tail.values.length))
    else do
      let n ← valueAt (start + position) o
      readTail start (position + 1) { tail with values := tail.values ++ [n] } rest

/-- The octets of the last group. -/
def tailOctets (start : Nat) (group : List UInt8) (tail : Tail) : Except Fault (List UInt8) :=
  match tail.values with
  | [] => .error (.length start)
  | [_] => .error (.length (start + 1))
  | values =>
    if (tail.padded + values.length) % 4 ≠ 0 then .error .padding
    else
      let last : Fault := .lastSymbol (group.getD (values.length - 1) 0) (start + values.length - 1)
      match values with
      | [a, b] =>
        let n := a * 64 + b
        if n % 16 = 0 then .ok [UInt8.ofNat (n / 16)] else .error last
      | [a, b, c] =>
        let n := (a * 64 + b) * 64 + c
        if n % 4 = 0 then .ok [UInt8.ofNat (n / 1024), UInt8.ofNat (n / 4)] else .error last
      | a :: b :: c :: d :: _ =>
        let n := ((a * 64 + b) * 64 + c) * 64 + d
        .ok [UInt8.ofNat (n / 65536), UInt8.ofNat (n / 256), UInt8.ofNat n]
      | _ => .ok []

/-- The octets of symbols that start at an index. All groups but the last hold four symbols. -/
def decodeFrom (start : Nat) : List UInt8 → Except Fault (List UInt8)
  | a :: b :: c :: d :: e :: rest => do
    let p ← valueAt start a
    let q ← valueAt (start + 1) b
    let r ← valueAt (start + 2) c
    let s ← valueAt (start + 3) d
    let n := ((p * 64 + q) * 64 + r) * 64 + s
    let more ← decodeFrom (start + 4) (e :: rest)
    return UInt8.ofNat (n / 65536) :: UInt8.ofNat (n / 256) :: UInt8.ofNat n :: more
  | group => do
    let tail ← readTail start 0 ⟨[], 0⟩ group
    tailOctets start group tail

/-- A single symbol left over is checked before all others. -/
def checkLone (symbols : List UInt8) : Except Fault Unit :=
  match symbols.getLast? with
  | some o =>
    if symbols.length % 4 = 1 ∧ o ≠ pad then (valueAt (symbols.length - 1) o).map fun _ => ()
    else .ok ()
  | none => .ok ()

/-- The octets that symbols stand for, the symbols given by their octets. -/
def decode (symbols : List UInt8) : Except Fault (List UInt8) :=
  match symbols with
  | [] => .ok []
  | symbols => do
    checkLone symbols
    decodeFrom 0 symbols

end RecordGraph.Text.Base64
