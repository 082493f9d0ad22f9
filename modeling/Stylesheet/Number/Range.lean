import Stylesheet.Number.Binary32

/-! Numbers kept inside a range.

Building one clamps: a number outside goes to the nearer end, and NaN to the value the
range falls back on. -/
namespace Stylesheet

/-- An interval of numbers, and what stands for a number that is none. -/
structure Range where
  low : Binary32
  high : Binary32
  /-- What NaN becomes. -/
  fallback : Binary32

namespace Range

/-- Whether a number lies in the range. Both ends do, and NaN does not. -/
def Contains (r : Range) (x : Binary32) : Prop :=
  x.isNaN = false ∧ x.lt r.low = false ∧ r.high.lt x = false

instance (r : Range) (x : Binary32) : Decidable (r.Contains x) :=
  inferInstanceAs (Decidable (_ ∧ _))

/-- The ends are in order and the fallback lies between them. -/
def Valid (r : Range) : Prop :=
  r.Contains r.low ∧ r.Contains r.high ∧ r.Contains r.fallback

instance (r : Range) : Decidable r.Valid := inferInstanceAs (Decidable (_ ∧ _))

/-- Whatever is clamped lies in the range, NaN included. -/
theorem Valid.contains_clamp {r : Range} (h : r.Valid) (x : Binary32) :
    r.Contains (x.clamp r.low r.high r.fallback) := by
  unfold Binary32.clamp
  split
  · exact h.2.2
  split
  · exact h.1
  split
  · exact h.2.1
  · simp_all [Contains]

end Range

/-- A number of the range `r`. -/
structure Clamped (r : Range) where
  value : Binary32
  contains : r.Contains value

namespace Clamped
variable {r : Range}

instance : BEq (Clamped r) := ⟨fun a b => a.value == b.value⟩

/-- Puts a number into the range. -/
def of (valid : r.Valid) (x : Binary32) : Clamped r :=
  ⟨x.clamp r.low r.high r.fallback, valid.contains_clamp x⟩

end Clamped

/-! ### The ranges in use -/

/-- A share, as of opacity. -/
def unitRange : Range := ⟨0, 1, 0⟩

/-- From none of it to all of it. -/
def percentRange : Range := ⟨0, 100, 0⟩

/-- How bold a font can be. NaN becomes the regular weight. -/
def weightRange : Range := ⟨1, 1000, 400⟩

theorem unitRange_valid : unitRange.Valid := by decide

theorem percentRange_valid : percentRange.Valid := by decide

theorem weightRange_valid : weightRange.Valid := by decide

end Stylesheet
