import Stylesheet.Quantity.NonNegative

/-! Values for the four sides of a box, written in the shortest form that gives each
side its value: a missing left side is as the right one, a missing bottom as the top,
a missing right as the top. -/
namespace Stylesheet

structure Sides (α : Type) where
  top : α
  right : α
  bottom : α
  left : α
  deriving BEq

namespace Sides
variable {α β : Type}

def all (a : α) : Sides α := ⟨a, a, a, a⟩

def symmetric (vertical horizontal : α) : Sides α := ⟨vertical, horizontal, vertical, horizontal⟩

def map (f : α → β) (s : Sides α) : Sides β := ⟨f s.top, f s.right, f s.bottom, f s.left⟩

/-- Checks each side, from the top and clockwise. -/
def nonNegative [Signed α] (s : Sides α) : Result (Sides (NonNegative α)) :=
  return ⟨← NonNegative.of s.top, ← NonNegative.of s.right, ← NonNegative.of s.bottom,
    ← NonNegative.of s.left⟩

/-- Checks what the upper and lower sides get, then what the other two get. -/
def nonNegativeSymmetric [Signed α] (vertical horizontal : α) : Result (Sides (NonNegative α)) :=
  return symmetric (← NonNegative.of vertical) (← NonNegative.of horizontal)

/-- The sides that have to be written. -/
def shortest [BEq α] (s : Sides α) : List α :=
  if s.left == s.right then
    if s.top == s.bottom then
      if s.top == s.right then [s.top] else [s.top, s.right]
    else [s.top, s.right, s.bottom]
  else [s.top, s.right, s.bottom, s.left]

instance [ToCss α] [BEq α] : ToCss (Sides α) := ⟨fun s => separated " " s.shortest⟩

end Sides
end Stylesheet
