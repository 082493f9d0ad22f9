import Stylesheet.Error

/-! Lists with at least one item. -/
namespace Stylesheet

/-- A list that is known to have a first item. -/
structure NonEmpty (α : Type) where
  first : α
  rest : List α
  deriving BEq

namespace NonEmpty
variable {α : Type}

/-- The items in order. -/
def toList (xs : NonEmpty α) : List α := xs.first :: xs.rest

/-- `what` names the list in the message for the empty one. -/
def ofList (what : String) : List α → Result (NonEmpty α)
  | [] => .error (.emptyList what)
  | x :: xs => .ok ⟨x, xs⟩

/-- A list of one. -/
def single (x : α) : NonEmpty α := ⟨x, []⟩

/-- How many items there are. It is never nought. -/
def length (xs : NonEmpty α) : Nat := xs.rest.length + 1

/-- One more item at the end. -/
def push (xs : NonEmpty α) (x : α) : NonEmpty α := {xs with rest := xs.rest ++ [x]}

/-- The items of both, those of `xs` first. -/
def append (xs ys : NonEmpty α) : NonEmpty α := {xs with rest := xs.rest ++ ys.toList}

/-- Changes the first item and no other. -/
def modifyFirst (f : α → α) (xs : NonEmpty α) : NonEmpty α := {xs with first := f xs.first}

/-- Changes the last item, which is the first one when there is no other. -/
def modifyLast (f : α → α) (xs : NonEmpty α) : NonEmpty α := go xs.first xs.rest
where
  go (x : α) : List α → NonEmpty α
    | [] => ⟨f x, []⟩
    | y :: ys => ⟨x, (go y ys).toList⟩

end NonEmpty

end Stylesheet
