import Stylesheet.Number.Shortest
import Stylesheet.Proofs.Number.Bits

/-! The interval of a number, and the search for the coarsest grid with a point in it.

A decimal rounds to a number exactly when it lies in the number's interval. The search
goes from a grid without a point to finer ones, and what each step keeps is that the
next coarser grid has none; so where it stops, no coarser grid has a point at all. -/
namespace Stylesheet

attribute [local instance(2000)] instPowNat

open BinaryFormat

namespace RoundingInterval

variable {v : RoundingInterval} {n m : Nat}

/-- The quotient `num / den` lies in the interval. -/
def Covers (v : RoundingInterval) (num den : Nat) : Prop :=
  Between v.closed (v.lower * den) num (v.upper * den)

/-- What the interval contains is between its ends, which count if it is closed. -/
theorem contains_iff : v.contains n ↔ Between v.closed v.lower n v.upper := by
  unfold contains Between
  split <;> exact decide_eq_true_iff

/-- The same of numbers over a denominator. -/
theorem contains_iff_covers {den : Nat} (hden : 0 < den) :
    v.contains n ↔ v.Covers (n * den) den := by
  rw [contains_iff, Covers, Between.mul_right_iff hden]

/-- The interval has no holes. -/
theorem contains_convex {a b : Nat} (ha : v.contains a) (hb : v.contains b) (han : a ≤ n)
    (hnb : n ≤ b) : v.contains n := by
  rw [contains_iff] at ha hb ⊢
  exact ha.convex hb han hnb

/-! ### Grids -/

/-- The distance of the points on a grid. -/
def step (grid : Nat) : Nat := 2 ^ (151 : Nat) * 10 ^ grid

theorem step_pos (grid : Nat) : 0 < step grid :=
  Nat.mul_pos (Nat.two_pow_pos 151) (Nat.pow_pos (by omega))

/-- A coarser grid has its points at multiples of the finer one. -/
theorem step_add (grid more : Nat) : step (grid + more) = 10 ^ more * step grid := by
  unfold step
  rw [Nat.pow_add, ← Nat.mul_assoc, Nat.mul_comm]

theorem step_le {grid grid' : Nat} (h : grid ≤ grid') : step grid ≤ step grid' :=
  Nat.mul_le_mul_left _ (Nat.pow_le_pow_right (by omega) h)

/-- No point of the grid lies in the interval. -/
def Misses (v : RoundingInterval) (grid : Nat) : Prop := ∀ n, ¬ v.contains (n * step grid)

/-- What is found is in the interval. -/
theorem contains_of_multiple? {size digits : Nat} (h : v.multiple? size = some digits) :
    v.contains (digits * size) := by
  unfold multiple? at h
  simp only at h
  split at h
  case h_1 hbelow habove =>
    split at h <;> cases h
    · exact hbelow
    · exact habove
  case h_2 hbelow _ =>
    cases h
    exact hbelow
  case h_3 _ habove =>
    cases h
    exact habove
  case h_4 => exact nomatch h

/-- Beyond the number's two neighbours on a grid the interval need not be searched: it has
no gaps. -/
theorem misses_of_multiple? {grid : Nat} (hcenter : v.contains v.center)
    (h : v.multiple? (step grid) = none) : v.Misses grid := by
  have hneighbours : ¬ v.contains (v.center / step grid * step grid) ∧
      ¬ v.contains ((v.center / step grid + 1) * step grid) := by
    unfold multiple? at h
    simp only at h
    split at h
    case h_1 => split at h <;> exact nomatch h
    case h_2 => exact nomatch h
    case h_3 => exact nomatch h
    case h_4 hbelow habove => exact ⟨Bool.eq_false_iff.mp hbelow, Bool.eq_false_iff.mp habove⟩
  intro n hn
  have hfloor := Nat.div_mul_le_self v.center (step grid)
  have hceil := Nat.lt_div_mul_add (a := v.center) (step_pos grid)
  rcases Nat.lt_or_ge (v.center / step grid) n with hlt | hge
  · have hle : (v.center / step grid + 1) * step grid ≤ n * step grid :=
      Nat.mul_le_mul_right _ hlt
    refine hneighbours.2 (contains_convex hcenter hn ?_ hle)
    rw [Nat.succ_mul]
    omega
  · exact hneighbours.1 (contains_convex hn hcenter (Nat.mul_le_mul_right _ hge) hfloor)

/-- The search stops at the first grid with a point. -/
theorem coarsest_of_some {top digits : Nat} (h : v.multiple? (step (top + 1)) = some digits) :
    v.coarsest (top + 1) = ⟨digits, (top + 1 : Nat) - finestGrid⟩ := by
  rw [coarsest, show v.multiple? (2 ^ (151 : Nat) * 10 ^ (top + 1)) = some digits from h]

/-- It goes on to the next finer grid where there is none. -/
theorem coarsest_of_none {top : Nat} (h : v.multiple? (step (top + 1)) = none) :
    v.coarsest (top + 1) = v.coarsest top := by
  rw [coarsest, show v.multiple? (2 ^ (151 : Nat) * 10 ^ (top + 1)) = none from h]

/-- What the search relies on: the finest grid has a point just below the number, and the
grids beyond the coarsest one have none. -/
structure Searchable (v : RoundingInterval) (top : Nat) : Prop where
  center : v.contains v.center
  finest : v.contains (v.center / step 0 * step 0)
  misses : v.Misses (top + 1)

/-- The interval goes on for a unit at least on either side of the number, without zero and
within a bound. -/
structure Roomy (v : RoundingInterval) (unit bound : Nat) : Prop where
  below : v.lower + unit ≤ v.center
  above : v.center + unit ≤ v.upper
  positive : 0 < v.lower
  bounded : v.upper < bound

/-- A grid finer than the unit has a point near the number, and one as coarse as the bound has
none but zero below it. -/
theorem Roomy.searchable {unit bound top : Nat} (h : v.Roomy unit bound) (hfine : step 0 < unit)
    (hcoarse : bound ≤ step (top + 1)) : v.Searchable top := by
  obtain ⟨hbelow, habove, hpositive, hbounded⟩ := h
  refine ⟨contains_iff.mpr (.of_bounds (by omega) (by omega) fun hend => by omega), ?_,
    fun n hn => ?_⟩
  · have hfloor := Nat.div_mul_le_self v.center (step 0)
    have hceil := Nat.lt_div_mul_add (a := v.center) (step_pos 0)
    exact contains_iff.mpr (.of_bounds (by omega) (by omega) fun hend => by omega)
  · have hbounds := (contains_iff.mp hn).bounds
    have hpos : n ≠ 0 := by
      rintro rfl
      omega
    have hstep := Nat.le_mul_of_pos_left (step (top + 1)) (Nat.pos_of_ne_zero hpos)
    omega

/-- **The search stops on the coarsest grid with a point.** -/
theorem coarsest_spec {top : Nat} (h : v.Searchable top) :
    ∃ grid : Nat, (v.coarsest top).exponent = (grid : Int) - finestGrid ∧
      v.contains ((v.coarsest top).digits * step grid) ∧ v.Misses (grid + 1) := by
  induction top with
  | zero =>
    refine ⟨0, by simp [coarsest], ?_, h.misses⟩
    cases hdigits : v.multiple? (step 0) with
    | none => exact absurd h.finest (misses_of_multiple? h.center hdigits _)
    | some digits =>
      have hdigits' : v.multiple? (2 ^ (151 : Nat)) = some digits := hdigits
      rw [coarsest, hdigits', Option.getD_some]
      exact contains_of_multiple? hdigits
  | succ top ih =>
    cases hdigits : v.multiple? (step (top + 1)) with
    | none =>
      rw [coarsest_of_none hdigits]
      exact ih ⟨h.center, h.finest, misses_of_multiple? h.center hdigits⟩
    | some digits =>
      rw [coarsest_of_some hdigits]
      exact ⟨top + 1, rfl, contains_of_multiple? hdigits, h.misses⟩

end RoundingInterval

namespace Binary32

open RoundingInterval

variable {x : Binary32} {num den : Nat}

/-! ### The interval of a number -/

theorem interval_lower (x : Binary32) : x.interval.lower =
    (2 * x.magnitude - single.gapBelow x.significand x.scale) * (2 * 10 ^ finestGrid) := by
  have hhalf :
      (if x.significand = 2 ^ (23 : Nat) ∧ x.scale ≠ 0 then 2 ^ x.scale else 2 * 2 ^ x.scale)
        = 2 * single.gapBelow x.significand x.scale := by
    show _ = 2 *
      (if x.significand = 2 ^ (23 : Nat) ∧ x.scale ≠ 0 then 2 ^ (x.scale - 1) else 2 ^ x.scale)
    split
    case isTrue h =>
      obtain ⟨j, hj⟩ := Nat.exists_eq_succ_of_ne_zero h.2
      rw [hj, Nat.pow_succ, Nat.succ_sub_one, Nat.mul_comm]
    case isFalse => rfl
  show (4 * x.magnitude - _) * 10 ^ finestGrid = _
  rw [hhalf, ← Nat.mul_assoc, Nat.sub_mul (2 * x.magnitude), Nat.mul_right_comm 2,
    Nat.mul_comm (single.gapBelow _ _)]

/-- The upper end is halfway to the next number. -/
theorem interval_upper (x : Binary32) : x.interval.upper =
    (2 * x.magnitude + 2 ^ x.scale) * (2 * 10 ^ finestGrid) := by
  show (4 * x.magnitude + 2 * 2 ^ x.scale) * 10 ^ finestGrid = _
  rw [← Nat.mul_assoc, Nat.add_mul (2 * x.magnitude), Nat.mul_right_comm 2,
    Nat.mul_comm (2 ^ x.scale)]

/-- **A quotient rounds to a number exactly when it lies in the number's interval.** -/
theorem isNearest_iff_covers (hden : 0 < den) :
    single.IsNearest num den x.magnitude ↔ x.interval.Covers (num * step finestGrid) den := by
  have hunit : 0 < 2 * 10 ^ finestGrid := by decide
  have hnum : 2 * (num * 2 ^ single.fineness) * (2 * 10 ^ finestGrid) = num * step finestGrid := by
    show 2 * (num * 2 ^ (149 : Nat)) * (2 * 10 ^ finestGrid) =
      num * (2 * 2 ^ (149 : Nat) * 2 * 10 ^ finestGrid)
    rw [Nat.mul_left_comm 2 num, Nat.mul_assoc num, ← Nat.mul_assoc (2 * 2 ^ (149 : Nat))]
  rw [magnitude, x.normal.isNearest_iff (by decide) hden, Covers, interval_lower, interval_upper,
    ← Between.mul_right_iff hunit, hnum, Nat.mul_right_comm _ den (2 * 10 ^ finestGrid),
    Nat.mul_right_comm _ den (2 * 10 ^ finestGrid)]
  exact .rfl

/-- The gaps to the two neighbours are units at least, and no wider than the number. -/
theorem interval_roomy (hfinite : x.isFinite) (h : x.magnitude ≠ 0) :
    x.interval.Roomy (2 * 10 ^ finestGrid) (3 * infinityMagnitude * (2 * 10 ^ finestGrid)) := by
  have hcenter : x.interval.center = 2 * x.magnitude * (2 * 10 ^ finestGrid) := by
    show 4 * x.magnitude * _ = _
    rw [← Nat.mul_assoc, Nat.mul_right_comm 2]
  have hpos := single.gapBelow_pos x.significand x.scale
  have hgap := single.gapBelow_le x.significand x.scale
  have hscale : 2 ^ x.scale ≤ x.magnitude :=
    Nat.le_mul_of_pos_left _ (Nat.pos_of_ne_zero (significand_ne_zero h))
  have htop := magnitude_lt hfinite
  have hunit : 0 < 2 * 10 ^ finestGrid := by decide
  have hscalePos := Nat.two_pow_pos x.scale
  constructor
  case below =>
    rw [interval_lower, hcenter, ← Nat.succ_mul]
    exact Nat.mul_le_mul_right _ (by omega)
  case above =>
    rw [interval_upper, hcenter, ← Nat.succ_mul]
    exact Nat.mul_le_mul_right _ (by omega)
  case positive =>
    rw [interval_lower]
    exact Nat.mul_pos (by omega) hunit
  case bounded =>
    rw [interval_upper]
    exact Nat.mul_lt_mul_of_pos_right (by omega) hunit

theorem interval_searchable (hfinite : x.isFinite) (h : x.magnitude ≠ 0) :
    x.interval.Searchable (39 + finestGrid) :=
  (interval_roomy hfinite h).searchable (by decide) (by decide)

end Binary32
end Stylesheet
