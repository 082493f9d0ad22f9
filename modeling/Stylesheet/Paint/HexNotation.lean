import Stylesheet.Paint.Color

/-! Hexadecimal notation read by the positions of its bytes.

A part of a text is taken between two positions. There is none at a position inside of a
character or beyond the end, and then the program halts, as it does when a product does not
fit into a byte. -/
namespace Stylesheet

/-- A result, or none where the program halts. -/
abbrev Halting := ExceptT Error Option

def utf8Bytes (t : List Char) : List UInt8 := t.flatMap String.utf8EncodeChar

/-- The characters before and after a position. -/
def splitAtByte? : List Char → Nat → Option (List Char × List Char)
  | t, 0 => some ([], t)
  | [], _ + 1 => none
  | c :: t, n + 1 =>
    if c.utf8Size ≤ n + 1 then
      (splitAtByte? t (n + 1 - c.utf8Size)).map fun (before, after) => (c :: before, after)
    else none

def slice? (t : List Char) (start length : Nat) : Option (List Char) := do
  let (_, rest) ← splitAtByte? t start
  let (part, _) ← splitAtByte? rest length
  return part

def byteOfNat? (n : Nat) : Option UInt8 := if n < 256 then some n.toUInt8 else none

namespace Color

def isHexByte (b : UInt8) : Bool := 48 ≤ b && b ≤ 57 || 65 ≤ b && b ≤ 70 || 97 ≤ b && b ≤ 102

/-- A number in base 16, which may have a plus sign, if it fits into a byte. -/
def hexNumber? (t : List Char) : Option UInt8 :=
  let digits :=
    match t with
    | '+' :: rest => rest
    | all => all
  if digits.isEmpty then none
  else digits.foldlM (fun n c => do byteOfNat? (n.toNat * 16 + (← hexDigit? c).toNat)) 0

section
variable (text : String) (digits : List Char)

/-- Reads `length` digits from a position on. -/
def byteAt (start length : Nat) : Halting UInt8 := do
  let part ← (slice? digits start length : Option (List Char))
  match hexNumber? part with
  | some n => return n
  | none => throw (.invalidHexColor text)

/-- Reads one digit for two. -/
def doubledAt (position : Nat) : Halting UInt8 := do
  let n ← byteAt text digits position 1
  (byteOfNat? (n.toNat * 17) : Option UInt8)

/-- Takes the digits from their positions, where all bytes are digits. -/
def ofDigitBytes : Halting Color := do
  let single := doubledAt text digits
  let pair start := byteAt text digits start 2
  match (utf8Bytes digits).length with
  | 3 => return hex (← single 0) (← single 1) (← single 2) none
  | 4 => return hex (← single 0) (← single 1) (← single 2) (some (← single 3))
  | 6 => return hex (← pair 0) (← pair 2) (← pair 4) none
  | 8 => return hex (← pair 0) (← pair 2) (← pair 4) (some (← pair 6))
  | _ => throw (.invalidHexColor text)

end

def ofHexBytes (text : String) : Halting Color :=
  let digits :=
    match text.toList with
    | '#' :: rest => rest
    | all => all
  if (utf8Bytes digits).all isHexByte then ofDigitBytes text digits
  else throw (.invalidHexColor text)

end Color
end Stylesheet
