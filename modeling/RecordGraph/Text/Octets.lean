/-!
The octets of a text in UTF-8, and back. The first octet at fault is reported with its index and
with the number of octets that are wrong together, or with none when the text ends too early.
-/

namespace RecordGraph.Text

/-- The octets of a character. -/
def charOctets (c : Char) : List UInt8 := String.utf8EncodeChar c

/-- The octets of a text. -/
def octets (text : List Char) : List UInt8 := text.flatMap charOctets

/-- The first place where octets are no text. -/
inductive OctetFault where
  /-- So many octets from an index on belong to no character. -/
  | invalid (count index : Nat)
  /-- The octets end within a character that starts at an index. -/
  | incomplete (index : Nat)
  deriving DecidableEq, Repr

/-- The wording of a fault. -/
def OctetFault.message : OctetFault → String
  | .invalid count index =>
    "invalid utf-8 sequence of " ++ toString count ++ " bytes from index " ++ toString index
  | .incomplete index => "incomplete utf-8 byte sequence from index " ++ toString index

/-- Whether an octet continues a character. -/
def isTail (o : UInt8) : Bool := 0x80 ≤ o && o ≤ 0xBF

/-- The octets allowed after a leading octet of a character of three or four octets. They exclude
overlong forms, surrogates and code points beyond the last one. -/
def secondRange (lead : UInt8) : UInt8 × UInt8 :=
  if lead = 0xE0 then (0xA0, 0xBF)
  else if lead = 0xED then (0x80, 0x9F)
  else if lead = 0xF0 then (0x90, 0xBF)
  else if lead = 0xF4 then (0x80, 0x8F)
  else (0x80, 0xBF)

/-- Whether an octet may follow a leading octet. -/
def isSecond (lead o : UInt8) : Bool := (secondRange lead).1 ≤ o && o ≤ (secondRange lead).2

/-- The payload of an octet that continues a character. -/
def tailBits (o : UInt8) : Nat := o.toNat % 64

/-- One character from the front of octets that start at an index. -/
def takeChar (index : Nat) (lead : UInt8) (rest : List UInt8) :
    Except OctetFault (Char × List UInt8) :=
  if lead < 0x80 then .ok (Char.ofNat lead.toNat, rest)
  else if 0xC2 ≤ lead ∧ lead ≤ 0xDF then
    match rest with
    | [] => .error (.incomplete index)
    | b :: rest =>
      if isTail b then .ok (Char.ofNat (lead.toNat % 32 * 64 + tailBits b), rest)
      else .error (.invalid 1 index)
  else if 0xE0 ≤ lead ∧ lead ≤ 0xEF then
    match rest with
    | [] => .error (.incomplete index)
    | b :: rest =>
      if !isSecond lead b then .error (.invalid 1 index)
      else match rest with
        | [] => .error (.incomplete index)
        | c :: rest =>
          if isTail c then
            .ok (Char.ofNat (lead.toNat % 16 * 4096 + tailBits b * 64 + tailBits c), rest)
          else .error (.invalid 2 index)
  else if 0xF0 ≤ lead ∧ lead ≤ 0xF4 then
    match rest with
    | [] => .error (.incomplete index)
    | b :: rest =>
      if !isSecond lead b then .error (.invalid 1 index)
      else match rest with
        | [] => .error (.incomplete index)
        | c :: rest =>
          if !isTail c then .error (.invalid 2 index)
          else match rest with
            | [] => .error (.incomplete index)
            | d :: rest =>
              if isTail d then
                .ok (Char.ofNat
                  (lead.toNat % 8 * 262144 + tailBits b * 4096 + tailBits c * 64 + tailBits d),
                  rest)
              else .error (.invalid 3 index)
  else .error (.invalid 1 index)

/-- The characters of octets that start at an index. Each step takes at least one octet, so the
number of octets is enough fuel. -/
def takeChars : Nat → Nat → List UInt8 → Except OctetFault (List Char)
  | _, _, [] => .ok []
  | 0, _, _ => .ok []
  | fuel + 1, index, lead :: rest => do
    let (c, left) ← takeChar index lead rest
    let more ← takeChars fuel (index + (rest.length + 1 - left.length)) left
    return c :: more

/-- The text that octets stand for. -/
def ofOctets (octets : List UInt8) : Except OctetFault (List Char) :=
  takeChars octets.length 0 octets

end RecordGraph.Text
