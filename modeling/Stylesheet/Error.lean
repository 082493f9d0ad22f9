import Stylesheet.Number.Shortest
import Stylesheet.Text.Quoted

/-! Why a value cannot be built, and what is said about it. -/
namespace Stylesheet

inductive Error where
  /-- A `kind` of quantity that has to be at least zero. -/
  | negative (kind : String) (value : Binary32)
  | invalidHexColor (text : String)
  | emptyIdentifier
  /-- A keyword that every property takes for itself. -/
  | reservedIdentifier (name : String)
  | invalidDashedIdentifier (name : String)
  | tooSmall (what : String) (value least : Nat)
  | emptyList (what : String)
  | zeroLine
  | invalidUnicodeRange (first last : Nat)

/-- A number in a message: the infinities have no formula here. -/
def Binary32.plain (x : Binary32) : String :=
  if x.isFinite then String.ofList x.digits
  else if x.isNaN then "NaN"
  else if x.negative then "-inf" else "inf"

def upperHex (n : Nat) : List Char := (Nat.toDigits 16 n).map Char.toUpper

namespace Error

def message : Error → String
  | negative kind value => kind ++ " must not be negative, got " ++ value.plain
  | invalidHexColor text => "Invalid hex color: " ++ quoted text
  | emptyIdentifier => "Identifier must not be empty"
  | reservedIdentifier name =>
    quoted name ++ " is a CSS-wide keyword and cannot be used as an identifier"
  | invalidDashedIdentifier name =>
    "Dashed identifier must start with \"--\": " ++ quoted name
  | tooSmall what value least =>
    what ++ " must be at least " ++ toString least ++ ", got " ++ toString value
  | emptyList what => "Empty list: " ++ what ++ " requires at least one entry"
  | zeroLine => "Grid line 0 does not exist"
  | invalidUnicodeRange first last =>
    "Invalid unicode range U+" ++ String.ofList (upperHex first) ++ "-" ++
      String.ofList (upperHex last)

end Error

/-- What building a value gives. -/
abbrev Result (α : Type) := Except Error α

/-- What succeeds in two steps succeeds in both. -/
theorem Result.of_bind_eq_ok {α β : Type} {x : Result α} {f : α → Result β} {b : β}
    (h : x >>= f = .ok b) : ∃ a, x = .ok a ∧ f a = .ok b := by
  cases x with
  | error e => exact nomatch h
  | ok a => exact ⟨a, rfl, h⟩

/-- The same for two arguments, each of which may fail. -/
theorem Result.of_pair_eq_ok {α β γ : Type} {x : Result α} {y : Result β} {f : α → β → γ} {c : γ}
    (h : (do return f (← x) (← y)) = .ok c) : ∃ a b, x = .ok a ∧ y = .ok b ∧ f a b = c := by
  obtain ⟨a, hx, h⟩ := of_bind_eq_ok h
  obtain ⟨b, hy, h⟩ := of_bind_eq_ok h
  exact ⟨a, b, hx, hy, Except.ok.inj h⟩

end Stylesheet
