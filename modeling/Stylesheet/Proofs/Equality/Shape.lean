import Stylesheet.Proofs.Equality.Number

/-! Words, quantities and calls.

The values with several notations are written as a word, as a quantity or as a call of some
other function than the one of formulas. A text shows which of them it is, and a call shows
its name, so that no two notations have a text in common. -/
namespace Stylesheet

/-- What a text can be told apart by before it is read: a word, a quantity, or a call of a
function by its name. -/
inductive TextShape where
  | word (text : List Char)
  | quantity (text : List Char)
  | called (name : String) (arguments : List Char)
  deriving DecidableEq

namespace TextShape

/-- The text that has the shape. -/
def text : TextShape → List Char
  | word t => t
  | quantity t => t
  | called name arguments => call name arguments

/-- Whether it is a quantity. -/
def isQuantity : TextShape → Bool
  | quantity _ => true
  | _ => false

/-- Shapes that can be told from each other by their texts. -/
inductive Valid : TextShape → Prop where
  | word {t} : t.all (· != '(') → Stylesheet.isQuantity t = false → Valid (word t)
  | quantity {t} : Stylesheet.isQuantity t → Valid (quantity t)
  | called {name arguments} : name.toList.all (· != '(') →
      (∀ t, Stylesheet.isQuantity (name.toList ++ '(' :: t) = false) → Valid (called name arguments)

variable {s s' : TextShape}

/-- The text of a shape shows whether it is a quantity. -/
theorem Valid.isQuantity_text (h : s.Valid) : Stylesheet.isQuantity s.text = s.isQuantity := by
  cases h with
  | word _ hquantity => exact hquantity
  | quantity hquantity => exact hquantity
  | @called name arguments _ hname =>
    show Stylesheet.isQuantity (call name arguments) = false
    rw [call, List.append_assoc, List.cons_append]
    exact hname _

/-- **A text has one shape.** -/
theorem Valid.text_inj (h : s.Valid) (h' : s'.Valid) (heq : s.text = s'.text) : s = s' := by
  have hkind : s.isQuantity = s'.isQuantity := by
    rw [← h.isQuantity_text, heq, h'.isQuantity_text]
  cases h with
  | @word t hround hquantity =>
    cases h' with
    | word =>
      obtain rfl : t = _ := heq
      rfl
    | quantity => exact nomatch hkind
    | called => exact absurd heq (word_ne_call hround)
  | @quantity t =>
    cases h' with
    | quantity =>
      obtain rfl : t = _ := heq
      rfl
    | _ => exact nomatch hkind
  | called hround =>
    cases h' with
    | word hround' => exact absurd heq.symm (word_ne_call hround')
    | quantity => exact nomatch hkind
    | called hround' =>
      obtain ⟨rfl, rfl⟩ := call_inj hround hround' heq
      rfl

end TextShape

/-- Types whose values show by their texts which notation they have. -/
class Shaped (α : Type) [ToCss α] where
  shape : α → TextShape
  text_shape (a : α) : (shape a).text = css a
  valid (a : α) : (shape a).Valid

export Shaped (shape)

variable {α : Type} [ToCss α]

/-- Values with the same text have the same shape. -/
theorem shape_inj [Shaped α] {a b : α} (h : css a = css b) : shape a = shape b := by
  refine (Shaped.valid a).text_inj (Shaped.valid b) ?_
  rw [Shaped.text_shape, Shaped.text_shape, h]

end Stylesheet
