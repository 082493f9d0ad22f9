/-! Escaping author text into CSS names and strings.

In a name, letters, digits, `_`, `-` and everything beyond ASCII stand for themselves;
controls are written as hexadecimal escapes, each ended by one space, and any other
character behind a backslash. A name that begins like a number has its digit written in
hexadecimal. In a string only quotes, backslashes and controls are escaped. The null
character has no escape and becomes the replacement character. -/
namespace Stylesheet

/-- The code point in hexadecimal, with the space that ends the escape. -/
def hexEscape (c : Char) : List Char := '\\' :: (Nat.toDigits 16 c.toNat ++ [' '])

def isControl (c : Char) : Bool := c.toNat < 0x20 || c.toNat == 0x7f

/-- Characters that stand for themselves in a name. -/
def isNameChar (c : Char) : Bool := c.isAlphanum || c == '_' || c == '-' || 0x80 ≤ c.toNat

def escapeNameChar (c : Char) : List Char :=
  if c = '\x00' then ['\ufffd']
  else if isNameChar c then [c]
  else if isControl c then hexEscape c
  else ['\\', c]

def escapeName (text : List Char) : List Char := text.flatMap escapeNameChar

/-- A name whose first character could be read as the start of a number. -/
def escapeNameStart : List Char → List Char
  | [] => []
  | c :: rest => (if c.isDigit then hexEscape c else escapeNameChar c) ++ escapeName rest

def escapeIdentifier : List Char → List Char
  | '-' :: '-' :: rest => '-' :: '-' :: escapeName rest
  | ['-'] => ['\\', '-']
  | '-' :: rest => '-' :: escapeNameStart rest
  | text => escapeNameStart text

def escapeStringChar (c : Char) : List Char :=
  if c = '\x00' then ['\ufffd']
  else if c = '"' || c = '\\' then ['\\', c]
  else if isControl c then hexEscape c
  else [c]

/-- A string in double quotes. -/
def quoteString (text : List Char) : List Char := '"' :: (text.flatMap escapeStringChar ++ ['"'])

end Stylesheet
