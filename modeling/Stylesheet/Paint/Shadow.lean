import Stylesheet.Paint.Color
import Stylesheet.Quantity.NonNegative

/-! Shadows of boxes and of text.

A shadow is two offsets, then a blur radius, then a spread distance, then a color. A
spread is read as the fourth length, so a blur of nothing stands before it when the
shadow has none. -/
namespace Stylesheet

/-- A shadow of a text, which has no spread and is never inside. -/
structure TextShadow where
  x : Length
  y : Length
  blur : Option (NonNegative Length)
  color : Option Color
  deriving BEq

namespace TextShadow

/-- A sharp shadow in the color of the text. -/
def offset (x y : Length) : TextShadow := ⟨x, y, none, none⟩

/-- A blur may be nothing but not less. -/
def withBlur (s : TextShadow) (radius : Length) : Result TextShadow :=
  return {s with blur := some (← NonNegative.of radius)}

def withColor (s : TextShadow) (color : Color) : TextShadow := {s with color := some color}

instance : ToCss TextShadow where
  css s := css s.x ++ ' ' :: css s.y ++ clause " " s.blur ++ clause " " s.color

end TextShadow

/-- A shadow of a box, outside of it unless `inset` is set. -/
structure BoxShadow where
  inset : Bool
  x : Length
  y : Length
  blur : Option (NonNegative Length)
  spread : Option Length
  color : Option Color
  deriving BEq

namespace BoxShadow

/-- A sharp shadow of the size of the box. -/
def offset (x y : Length) : BoxShadow := ⟨false, x, y, none, none, none⟩

/-- A blur may be nothing but not less. -/
def withBlur (s : BoxShadow) (radius : Length) : Result BoxShadow :=
  return {s with blur := some (← NonNegative.of radius)}

/-- A shadow may be smaller than its box, so that the distance may be negative. -/
def withSpread (s : BoxShadow) (distance : Length) : BoxShadow :=
  {s with spread := some distance}

def withColor (s : BoxShadow) (color : Color) : BoxShadow := {s with color := some color}

/-- The same shadow, inside of the box. -/
def inside (s : BoxShadow) : BoxShadow := {s with inset := true}

/-- The lengths after the offsets. -/
def extent (s : BoxShadow) : List Length :=
  match s.blur, s.spread with
  | some blur, some spread => [blur.value, spread]
  | some blur, none => [blur.value]
  | none, some spread => [Length.px 0, spread]
  | none, none => []

instance : ToCss BoxShadow where
  css s :=
    (if s.inset then "inset ".toList else []) ++
      separated " " ([s.x, s.y] ++ s.extent) ++ clause " " s.color

end BoxShadow

/-- The layers of a shadow, the topmost first. -/
abbrev ShadowList := ListOrNone ", "

end Stylesheet
