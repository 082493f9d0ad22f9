import Stylesheet.Proofs.Number.Interval

/-! The shortest decimal of a number.

It rounds to the number and ends in no zero, since the next coarser grid has no point in
the interval. A decimal with fewer digits would put a point of that grid there: itself, or
else the power of ten between the two. -/
namespace Stylesheet

attribute [local instance(2000)] instPowNat

open BinaryFormat RoundingInterval

namespace Decimal

variable {d : Decimal} {grid : Nat}

/-- A decimal as a multiple of a step of its grid. -/
theorem num_mul_step (d : Decimal) :
    d.num * step finestGrid = d.digits * step (finestGrid + d.exponent.toNat) := by
  rw [num, Nat.mul_assoc, step_add]

/-- The same with the denominator on the other side. -/
theorem step_mul_den (d : Decimal) (n grid : Nat) :
    n * step grid * d.den = n * step (grid + (-d.exponent).toNat) := by
  rw [den, Nat.mul_assoc, Nat.mul_comm (step grid), step_add]

end Decimal

namespace Binary32

variable {x : Binary32} {d : Decimal}

/-- A decimal whose last digit counts the steps of a grid is a point of it. -/
theorem isNearest_iff_contains {grid : Nat} (h : d.exponent = (grid : Int) - finestGrid) :
    single.IsNearest d.num d.den x.magnitude ↔ x.interval.contains (d.digits * step grid) := by
  have hgrid : finestGrid + d.exponent.toNat = grid + (-d.exponent).toNat := by omega
  rw [isNearest_iff_covers d.den_pos, contains_iff_covers d.den_pos, d.num_mul_step,
    d.step_mul_den, hgrid]

/-- The decimal is on the coarsest grid that has a point in the interval. -/
theorem shortest_spec (hfinite : x.isFinite) (h : x.magnitude ≠ 0) :
    ∃ grid : Nat, x.shortest.exponent = (grid : Int) - finestGrid ∧
      x.interval.contains (x.shortest.digits * step grid) ∧ x.interval.Misses (grid + 1) :=
  coarsest_spec (interval_searchable hfinite h)

/-- **The decimal that is written rounds to the number.** -/
theorem shortest_rounds (hfinite : x.isFinite) (h : x.magnitude ≠ 0) :
    Rounds x.negative x.shortest x := by
  obtain ⟨grid, hexponent, hcontains, -⟩ := shortest_spec hfinite h
  exact ⟨hfinite, rfl, (isNearest_iff_contains hexponent).mpr hcontains⟩

/-- Ten steps of a grid are one step of the next coarser grid. -/
theorem shortest_digits_mod_ten (hfinite : x.isFinite) (h : x.magnitude ≠ 0) :
    x.shortest.digits % 10 ≠ 0 := by
  obtain ⟨grid, -, hcontains, hmisses⟩ := shortest_spec hfinite h
  intro hten
  refine hmisses (x.shortest.digits / 10) ?_
  have hdigits : x.shortest.digits = x.shortest.digits / 10 * 10 := by omega
  rw [step_add, Nat.pow_one, ← Nat.mul_assoc, ← hdigits]
  exact hcontains

/-- A number is less than ten to the number of its digits. -/
theorem lt_pow_length (n : Nat) : n < 10 ^ (decimalDigits n).length :=
  (Nat.length_toDigits_le_iff (by omega) Nat.length_toDigits_pos).mp (Nat.le_refl _)

/-- **No decimal with fewer digits rounds to the number.** -/
theorem shortest_length_le (hfinite : x.isFinite) (h : x.magnitude ≠ 0)
    (hd : single.IsNearest d.num d.den x.magnitude) :
    (decimalDigits x.shortest.digits).length ≤ (decimalDigits d.digits).length := by
  obtain ⟨grid, -, hcontains, hmisses⟩ := shortest_spec hfinite h
  refine Nat.le_of_not_lt fun hlt => ?_
  have hshort := lt_pow_length d.digits
  have hpos : 0 < (decimalDigits d.digits).length := Nat.length_toDigits_pos
  have hlong : 10 ^ (decimalDigits d.digits).length ≤ x.shortest.digits :=
    Nat.le_of_not_lt fun hle =>
      Nat.not_le_of_lt hlt ((Nat.length_toDigits_le_iff (by omega) hpos).mpr hle)
  obtain ⟨more, hmore⟩ := Nat.exists_eq_succ_of_ne_zero (Nat.ne_of_gt hpos)
  rw [hmore] at hshort hlong
  rcases Int.lt_or_le ((grid : Int) - finestGrid) d.exponent with hcoarser | hfiner
  · -- The decimal itself is a point of a coarser grid.
    obtain ⟨further, hgrid⟩ : ∃ further : Nat,
        d.exponent = ((grid + 1 + further : Nat) : Int) - finestGrid :=
      ⟨(d.exponent + finestGrid - grid - 1).toNat, by omega⟩
    have hpoint := (isNearest_iff_contains hgrid).mp hd
    rw [step_add, ← Nat.mul_assoc] at hpoint
    exact hmisses _ hpoint
  · -- A power of ten lies between the decimal and the shortest one.
    have hcovers := (isNearest_iff_covers d.den_pos).mp hd
    rw [d.num_mul_step] at hcovers
    have hgrid : finestGrid + d.exponent.toNat ≤ grid + (-d.exponent).toNat := by omega
    have hlower : d.digits * step (finestGrid + d.exponent.toNat)
        ≤ 10 ^ (more + 1) * step grid * d.den := by
      rw [d.step_mul_den]
      exact Nat.mul_le_mul (Nat.le_of_lt hshort) (step_le hgrid)
    have hupper : 10 ^ (more + 1) * step grid * d.den ≤ x.shortest.digits * step grid * d.den :=
      Nat.mul_le_mul_right _ (Nat.mul_le_mul_right _ hlong)
    have hpoint := hcovers.convex ((contains_iff_covers d.den_pos).mp hcontains) hlower hupper
    refine hmisses (10 ^ more) ?_
    rw [step_add, ← Nat.mul_assoc, ← Nat.pow_add]
    exact (contains_iff_covers d.den_pos).mpr hpoint

end Binary32
end Stylesheet
