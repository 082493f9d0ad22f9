import Stylesheet.Error
import Stylesheet.Paint.ColorName
import Stylesheet.Quantity.Number

/-! Colors, each in the notation it was given in.

Hexadecimal colors are written in lower case and in the short form when every channel
repeats its digit. Percentages and alpha are clamped when a color is built. -/
namespace Stylesheet

/-- How opaque a color is. -/
abbrev Alpha := Clamped unitRange

/-- Opacity is clamped and not refused. -/
def Alpha.of (x : Binary32) : Alpha := Clamped.of unitRange_valid x

/-- A color by hue, saturation and lightness. A hue goes round and has no bounds. -/
structure Hsl where
  hue : Binary32
  saturation : ClampedPercentage
  lightness : ClampedPercentage
  alpha : Option Alpha
  deriving BEq

/-- A color by hue and by how much white and black is mixed in. -/
structure Hwb where
  hue : Binary32
  whiteness : ClampedPercentage
  blackness : ClampedPercentage
  alpha : Option Alpha
  deriving BEq

/-- A color, in the notation that it was given in. -/
inductive Color where
  | currentColor
  | transparent
  | named (name : NamedColor)
  | system (name : SystemColor)
  | hex (r g b : UInt8) (a : Option UInt8)
  | rgb (r g b : UInt8)
  | rgba (r g b : UInt8) (alpha : Alpha)
  | hsl (channels : Hsl)
  | hwb (channels : Hwb)
  deriving BEq

namespace Color

/-! ### Building -/

/-- Everything but the hue is clamped. -/
def ofHsl (hue saturation lightness : Binary32) (alpha : Option Binary32) : Color :=
  hsl ⟨hue, .of saturation, .of lightness, alpha.map Alpha.of⟩

/-- Everything but the hue is clamped. -/
def ofHwb (hue whiteness blackness : Binary32) (alpha : Option Binary32) : Color :=
  hwb ⟨hue, .of whiteness, .of blackness, alpha.map Alpha.of⟩

/-- The value of a hexadecimal digit in either case. -/
def hexDigit? (c : Char) : Option UInt8 :=
  if '0' ≤ c && c ≤ '9' then some (c.toNat - 48).toUInt8
  else if 'a' ≤ c && c ≤ 'f' then some (c.toNat - 87).toUInt8
  else if 'A' ≤ c && c ≤ 'F' then some (c.toNat - 55).toUInt8
  else none

/-- The channels of three, four, six or eight hexadecimal digits. -/
def ofNibbles? : List UInt8 → Option Color
  | [r, g, b] => some (hex (r * 17) (g * 17) (b * 17) none)
  | [r, g, b, a] => some (hex (r * 17) (g * 17) (b * 17) (some (a * 17)))
  | [r, r', g, g', b, b'] => some (hex (r * 16 + r') (g * 16 + g') (b * 16 + b') none)
  | [r, r', g, g', b, b', a, a'] =>
    some (hex (r * 16 + r') (g * 16 + g') (b * 16 + b') (some (a * 16 + a')))
  | _ => none

/-- Reads hexadecimal notation, with or without the leading `#`. -/
def ofHex (text : String) : Result Color :=
  let digits :=
    match text.toList with
    | '#' :: rest => rest
    | all => all
  match digits.mapM hexDigit? >>= ofNibbles? with
  | some color => .ok color
  | none => .error (.invalidHexColor text)

/-! ### Text -/

/-- The short form is taken when it says the same, which is when both digits agree in every
channel. -/
def hexText (channels : List UInt8) : List Char :=
  let digit (n : UInt8) := Nat.digitChar n.toNat
  if channels.all fun c => c / 16 == c % 16 then '#' :: channels.map fun c => digit (c % 16)
  else '#' :: channels.flatMap fun c => [digit (c / 16), digit (c % 16)]

/-- The name of the function tells whether there is an alpha. -/
def hslText (c : Hsl) : List Char :=
  call (if c.alpha.isSome then "hsla" else "hsl")
    (css c.hue ++ ", ".toList ++ css c.saturation ++ ", ".toList ++ css c.lightness ++
      clause ", " c.alpha)

/-- The one notation that sets its alpha apart with a slash. -/
def hwbText (c : Hwb) : List Char :=
  call "hwb" (css c.hue ++ ' ' :: css c.whiteness ++ ' ' :: css c.blackness ++ clause " / " c.alpha)

instance : ToCss Hsl := ⟨hslText⟩

instance : ToCss Hwb := ⟨hwbText⟩

/-- The channels as numbers up to 255. -/
def channels (r g b : UInt8) : List Char := commaSeparated [r.toNat, g.toNat, b.toNat]

instance : ToCss Color where
  css
    | currentColor => "currentcolor".toList
    | transparent => "transparent".toList
    | named name => css name
    | system name => css name
    | hex r g b a => hexText ([r, g, b] ++ a.toList)
    | rgb r g b => call "rgb" (channels r g b)
    | rgba r g b alpha => call "rgba" (channels r g b ++ ", ".toList ++ css alpha)
    | hsl c => hslText c
    | hwb c => hwbText c

end Color
end Stylesheet
