import Stylesheet.NonEmpty

/-! Constructors that ask for enough.

A guarded constructor makes a value of exactly the input that is within its bounds, and
fails on all other. The bounds then hold of every value of the type, since its content is
an input that the constructor accepts; this is kept by wrapping the value, and by calls that
add to it. -/
namespace Stylesheet

/-! ### Guards -/

/-- Within its bounds the constructor makes a value that holds what is given; outside it
fails with the complaint; and whatever a value holds is within the bounds. A value of another
kind, with nothing of the sort in it, has no content. -/
structure Guards {Input Value : Type} (make : Input → Result Value) (Within : Input → Prop)
    (complaint : Input → Error) (content : Value → Option Input) : Prop where
  ok {i : Input} : Within i → ∃ a, make i = .ok a ∧ content a = some i
  error {i : Input} : ¬ Within i → make i = .error (complaint i)
  within {a : Value} {i : Input} : content a = some i → Within i

namespace Guards
variable {Input α β : Type} {make : Input → Result α} {Within : Input → Prop}
  {complaint : Input → Error} {content : α → Option Input}

/-- The value becomes a part of another one, which has the content of its part. -/
theorem wrap {f : α → β} {content' : β → Option Input} (h : Guards make Within complaint content)
    (hcontent : ∀ a, content' (f a) = content a)
    (hpart : ∀ b i, content' b = some i → ∃ a, content a = some i) :
    Guards (fun i => do return f (← make i)) Within complaint content' where
  ok hi := by
    obtain ⟨a, hmake, ha⟩ := h.ok hi
    refine ⟨f a, ?_, (hcontent a).trans ha⟩
    rw [hmake]
    rfl
  error hi := by
    rw [h.error hi]
    rfl
  within {b i} hb := by
    obtain ⟨a, ha⟩ := hpart b i hb
    exact h.within ha

/-- The same where every value has such a part. -/
theorem wrapAll {f : α → β} {g : β → α} (h : Guards make Within complaint content)
    (hpart : ∀ a, g (f a) = a) :
    Guards (fun i => do return f (← make i)) Within complaint (fun b => content (g b)) :=
  h.wrap (fun a => congrArg content (hpart a)) fun b _ hb => ⟨g b, hb⟩

/-- A guard on both sides of its bounds, where every value has a content. -/
theorem both_sides {g : α → Input} (h : Guards make Within complaint fun a => some (g a))
    {i j : Input} (hi : Within i) (hj : ¬ Within j) :
    (∃ a, make i = .ok a ∧ g a = i) ∧ make j = .error (complaint j) := by
  obtain ⟨a, hmake, ha⟩ := h.ok hi
  exact ⟨⟨a, hmake, Option.some.inj ha⟩, h.error hj⟩

end Guards

/-! ### Lists -/

/-- A list that is not empty, told by its length as the bounds of other values are. -/
def AtLeastOne {α : Type} (items : List α) : Prop := 1 ≤ items.length

theorem not_atLeastOne_nil {α : Type} : ¬ AtLeastOne ([] : List α) := by
  rw [AtLeastOne, List.length_nil]
  omega

theorem atLeastOne_iff {α : Type} {items : List α} : AtLeastOne items ↔ items ≠ [] := by
  cases items with
  | nil => simp [AtLeastOne]
  | cons a items => simp [AtLeastOne]

theorem atLeastOne_map {α β : Type} {f : α → β} {items : List α} :
    AtLeastOne (items.map f) ↔ AtLeastOne items := by
  rw [AtLeastOne, AtLeastOne, List.length_map]

namespace NonEmpty
variable {α : Type}

theorem guards_ofList (what : String) : Guards (ofList (α := α) what) AtLeastOne
    (fun _ => .emptyList what) (fun xs => some xs.toList) where
  ok {items} h := by
    cases items with
    | nil => exact absurd rfl (atLeastOne_iff.mp h)
    | cons x xs => exact ⟨⟨x, xs⟩, rfl, rfl⟩
  error {items} h := by
    cases items with
    | nil => rfl
    | cons x xs => exact absurd (atLeastOne_iff.mpr (List.cons_ne_nil x xs)) h
  within h := by
    cases h
    exact atLeastOne_iff.mpr (List.cons_ne_nil _ _)

end NonEmpty

/-- The calls that make a list. -/
inductive ListCalls (α : Type) where
  | ofList (items : List α)
  | single (x : α)
  | push (a : ListCalls α) (x : α)

namespace ListCalls
variable {α : Type}

def run (what : String) : ListCalls α → Result (NonEmpty α)
  | ofList items => NonEmpty.ofList what items
  | single x => return .single x
  | push a x => return (← a.run what).push x

/-- The items that the list is made of at first. -/
def start : ListCalls α → List α
  | ofList items => items
  | single x => [x]
  | push a _ => a.start

/-- The items that are added, in order. -/
def pushed : ListCalls α → List α
  | ofList _ | single _ => []
  | push a x => a.pushed ++ [x]

/-- A run fails as its start does, since adding to a list cannot fail. -/
theorem run_eq_error {a : ListCalls α} {what : String} (h : ¬ AtLeastOne a.start) :
    a.run what = .error (.emptyList what) := by
  induction a with
  | ofList items => exact (NonEmpty.guards_ofList what).error h
  | single x => exact absurd (Nat.le_refl 1) h
  | push a x ih =>
    rw [run, ih h]
    rfl

/-- **Calls keep what is in a list.** Nothing is ever taken out of it, so that its first item
is the one it was made with. -/
theorem exists_run {a : ListCalls α} (what : String) (h : AtLeastOne a.start) :
    ∃ xs, a.run what = .ok xs ∧ xs.toList = a.start ++ a.pushed := by
  induction a with
  | ofList items =>
    obtain ⟨xs, hrun, hitems⟩ := (NonEmpty.guards_ofList what).ok h
    exact ⟨xs, hrun, (Option.some.inj hitems).trans (List.append_nil _).symm⟩
  | single x => exact ⟨.single x, rfl, rfl⟩
  | push a x ih =>
    obtain ⟨xs, hrun, hitems⟩ := ih h
    refine ⟨xs.push x, ?_, ?_⟩
    · rw [run, hrun]
      rfl
    · show xs.toList ++ [x] = _
      rw [hitems, List.append_assoc]
      rfl

end ListCalls
end Stylesheet
