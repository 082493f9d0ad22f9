import Stylesheet.Text.Unprintable
import Stylesheet.Text.GraphemeExtend

/-! How messages quote author text: in double quotes, with a backslash before quotes and
backslashes, short escapes for the commonest controls, and the code point of every other
character that has no printed form or would attach itself to the one before it. -/
namespace Stylesheet

/-- Whether the code point is in one of the ranges, both ends included. -/
def inRanges (ranges : List (Nat × Nat)) (c : Char) : Bool :=
  ranges.any fun r => r.1 ≤ c.toNat && c.toNat ≤ r.2

/-- Whether a character has a form of its own. -/
def isPrintable (c : Char) : Bool := !inRanges unprintableRanges c

/-- Whether a character would attach itself to the one before it. -/
def extendsGrapheme (c : Char) : Bool := inRanges graphemeExtendRanges c

/-- A character as it stands inside of the quotes. -/
def quotedChar : Char → List Char
  | '\x00' => ['\\', '0']
  | '\t' => ['\\', 't']
  | '\r' => ['\\', 'r']
  | '\n' => ['\\', 'n']
  | '"' => ['\\', '"']
  | '\\' => ['\\', '\\']
  | c =>
    if isPrintable c && !extendsGrapheme c then [c]
    else '\\' :: 'u' :: '\x7b' :: (Nat.toDigits 16 c.toNat ++ ['\x7d'])

/-- A text as a message shows it. -/
def quoted (text : String) : String :=
  String.ofList ('"' :: (text.toList.flatMap quotedChar ++ ['"']))

end Stylesheet
