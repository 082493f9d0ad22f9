import Stylesheet.Number.Rounding

/-! Rounding to the nearest value of a binary format.

What a format holds, and which of its magnitudes is nearest to a quotient, are said here
without the algorithm. A held magnitude has one normal form, its neighbours in the format
follow from that form, and being nearest comes down to lying between the two midpoints. -/
namespace Stylesheet

attribute [local instance(2000)] instPowNat

/-- `n` lies between two ends, which belong to the interval when it is closed. -/
def Between (closed : Bool) (lower n upper : Nat) : Prop :=
  if closed then lower ≤ n ∧ n ≤ upper else lower < n ∧ n < upper

namespace Between

variable {closed : Bool} {lower n upper : Nat}

/-- Whether the ends count or not. -/
theorem bounds (h : Between closed lower n upper) : lower ≤ n ∧ n ≤ upper := by
  unfold Between at h
  split at h <;> omega

/-- An end is between only if the ends count. -/
theorem closed_of_end (h : Between closed lower n upper) (hn : n = lower ∨ n = upper) :
    closed := by
  unfold Between at h
  split at h
  case isTrue hclosed => exact hclosed
  case isFalse => omega

/-- And the other way round. -/
theorem of_bounds (hlower : lower ≤ n) (hupper : n ≤ upper)
    (hclosed : n = lower ∨ n = upper → closed) : Between closed lower n upper := by
  unfold Between
  split
  case isTrue => exact ⟨hlower, hupper⟩
  case isFalse hopen =>
    have hinner : ¬ (n = lower ∨ n = upper) := fun hend => hopen (hclosed hend)
    omega

/-- Between two numbers that are between. -/
theorem convex {a b : Nat} (ha : Between closed lower a upper) (hb : Between closed lower b upper)
    (han : a ≤ n) (hnb : n ≤ b) : Between closed lower n upper := by
  unfold Between at ha hb ⊢
  cases closed
  · exact ⟨Nat.lt_of_lt_of_le ha.1 han, Nat.lt_of_le_of_lt hnb hb.2⟩
  · exact ⟨Nat.le_trans ha.1 han, Nat.le_trans hnb hb.2⟩

/-- Over another denominator. -/
theorem mul_right_iff {c : Nat} (hc : 0 < c) :
    Between closed (lower * c) (n * c) (upper * c) ↔ Between closed lower n upper := by
  unfold Between
  rw [Nat.mul_le_mul_right_iff hc, Nat.mul_le_mul_right_iff hc, Nat.mul_lt_mul_right hc,
    Nat.mul_lt_mul_right hc]

end Between

namespace BinaryFormat

variable {f : BinaryFormat} {num den n m s k : Nat}

/-- The magnitudes of the format, without a bound above. -/
def Holds (f : BinaryFormat) (n : Nat) : Prop := ∃ s k : Nat, s < 2 ^ f.precision ∧ n = s * 2 ^ k

/-- How far the magnitude `n` is from `num / den`, in units of `1 / den`. -/
def distance (f : BinaryFormat) (num den n : Nat) : Nat :=
  ((n * den : Nat) - (num * 2 ^ f.fineness : Nat) : Int).natAbs

/-- The magnitude `n` of the format is nearest to `num / den`; of two such, it is the one
whose significand is even. -/
structure IsNearest (f : BinaryFormat) (num den n : Nat) : Prop where
  holds : f.Holds n
  closest : ∀ m, f.Holds m → f.distance num den n ≤ f.distance num den m
  even : ∀ m, f.Holds m → m ≠ n → f.distance num den m = f.distance num den n →
    n / 2 ^ f.spareBits n % 2 = 0

/-! ### Normal form -/

/-- The significand `s` uses all its bits unless the exponent `k` is the least one. -/
structure Normal (f : BinaryFormat) (s k : Nat) : Prop where
  lt : s < 2 ^ f.precision
  full : k = 0 ∨ 2 ^ f.precision ≤ 2 * s

/-- **What a format holds has a normal form**, with the leading bit or the smallest scale. -/
theorem Holds.normal (h : f.Holds n) : ∃ s k, f.Normal s k ∧ n = s * 2 ^ k := by
  obtain ⟨s, k, hs, rfl⟩ := h
  induction k generalizing s with
  | zero => exact ⟨s, 0, ⟨hs, .inl rfl⟩, rfl⟩
  | succ k ih =>
    by_cases hfull : 2 ^ f.precision ≤ 2 * s
    · exact ⟨s, k + 1, ⟨hs, .inr hfull⟩, rfl⟩
    · obtain ⟨s', k', hnormal, heq⟩ := ih (2 * s) (by omega)
      refine ⟨s', k', hnormal, ?_⟩
      rw [← heq, Nat.pow_succ, Nat.mul_comm 2 s, Nat.mul_assoc, Nat.mul_comm 2]

/-- With two bits at least, the least normal significand is even. -/
theorem two_pow_precision (hp : 1 < f.precision) :
    ∃ q, 0 < q ∧ 2 ^ f.precision = 4 * q ∧ 2 ^ (f.precision - 1) = 2 * q := by
  obtain ⟨p, hp⟩ : ∃ p, f.precision = p + 2 := ⟨f.precision - 2, by omega⟩
  refine ⟨2 ^ p, Nat.two_pow_pos p, ?_, ?_⟩
  · rw [hp, Nat.pow_add, Nat.mul_comm]
  · rw [hp, Nat.add_sub_assoc (by omega), Nat.pow_succ, Nat.mul_comm]

namespace Normal

theorem holds (h : f.Normal s k) : f.Holds (s * 2 ^ k) := ⟨s, k, h.lt, rfl⟩

/-- The bits that are dropped are those of the scale. -/
theorem spareBits_eq (hp : 1 < f.precision) (h : f.Normal s k) :
    f.spareBits (s * 2 ^ k) = k := by
  obtain ⟨q, hq, hfour, htwo⟩ := two_pow_precision hp
  have hlt := h.lt
  have hfull := h.full
  unfold spareBits
  rcases Nat.eq_zero_or_pos s with rfl | hpos
  · rw [Nat.zero_mul, Nat.log2_zero]
    omega
  · have hne : s * 2 ^ k ≠ 0 := Nat.mul_ne_zero (by omega) (Nat.ne_of_gt (Nat.two_pow_pos k))
    rcases Nat.eq_zero_or_pos k with rfl | hk
    · have : (s * 2 ^ (0 : Nat)).log2 < f.precision := (Nat.log2_lt hne).mpr (by omega)
      omega
    · have hlog : (s * 2 ^ k).log2 = f.precision - 1 + k := by
        refine (Nat.log2_eq_iff hne).mpr ⟨?_, ?_⟩
        · rw [Nat.pow_add]
          exact Nat.mul_le_mul_right _ (by omega)
        · rw [show f.precision - 1 + k + 1 = f.precision + k by omega, Nat.pow_add]
          exact Nat.mul_lt_mul_of_pos_right hlt (Nat.two_pow_pos k)
      omega

theorem significand_eq (hp : 1 < f.precision) (h : f.Normal s k) :
    s * 2 ^ k / 2 ^ f.spareBits (s * 2 ^ k) = s := by
  rw [h.spareBits_eq hp, Nat.mul_div_cancel _ (Nat.two_pow_pos k)]

/-- A number has one normal form. -/
theorem inj {s' k' : Nat} (hp : 1 < f.precision) (h : f.Normal s k) (h' : f.Normal s' k')
    (heq : s * 2 ^ k = s' * 2 ^ k') : s = s' ∧ k = k' := by
  have hs := h.significand_eq hp
  have hk := h.spareBits_eq hp
  rw [heq] at hs hk
  exact ⟨hs.symm.trans (h'.significand_eq hp), hk.symm.trans (h'.spareBits_eq hp)⟩

end Normal

/-! ### Neighbours -/

/-- The distance to the held magnitude below; it is halved below a power of two, where the
significands start over. -/
def gapBelow (f : BinaryFormat) (s k : Nat) : Nat :=
  if s = 2 ^ (f.precision - 1) ∧ k ≠ 0 then 2 ^ (k - 1) else 2 ^ k

/-- The gap below is half of the one above at powers of two, and as large elsewhere. -/
theorem gapBelow_le (f : BinaryFormat) (s k : Nat) : f.gapBelow s k ≤ 2 ^ k := by
  unfold gapBelow
  split
  · exact Nat.pow_le_pow_right (by omega) (Nat.sub_le k 1)
  · exact Nat.le_refl _

theorem gapBelow_pos (f : BinaryFormat) (s k : Nat) : 0 < f.gapBelow s k := by
  unfold gapBelow
  split <;> exact Nat.two_pow_pos _

namespace Normal

/-- The next number above is one unit away. -/
theorem holds_above (hp : 1 < f.precision) (h : f.Normal s k) : f.Holds (s * 2 ^ k + 2 ^ k) := by
  obtain ⟨q, hq, hfour, htwo⟩ := two_pow_precision hp
  rw [← Nat.succ_mul]
  by_cases hs : s.succ < 2 ^ f.precision
  · exact ⟨s.succ, k, hs, rfl⟩
  · have hlt := h.lt
    refine ⟨2 * q, k + 1, by omega, ?_⟩
    rw [show s.succ = 2 * q * 2 by omega, Nat.pow_succ, Nat.mul_assoc, Nat.mul_comm 2 (2 ^ k)]

/-- The next one below is a gap away. -/
theorem holds_below (hp : 1 < f.precision) (h : f.Normal s k) (hs : s ≠ 0) :
    ∃ m, f.Holds m ∧ m + f.gapBelow s k = s * 2 ^ k := by
  obtain ⟨q, hq, hfour, htwo⟩ := two_pow_precision hp
  unfold gapBelow
  split
  case isTrue hnarrow =>
    obtain ⟨j, rfl⟩ := Nat.exists_eq_succ_of_ne_zero hnarrow.2
    refine ⟨_, ⟨4 * q - 1, j, by omega, rfl⟩, ?_⟩
    rw [Nat.succ_sub_one, ← Nat.succ_mul, hnarrow.1, htwo, Nat.pow_succ, Nat.mul_comm (2 ^ j),
      ← Nat.mul_assoc]
    exact congrArg (· * 2 ^ j) (by omega)
  case isFalse =>
    have hlt := h.lt
    refine ⟨_, ⟨s - 1, k, by omega, rfl⟩, ?_⟩
    rw [← Nat.succ_mul]
    exact congrArg (· * 2 ^ k) (by omega)

/-- On a finer scale than `k` all magnitudes are below those with full significands. -/
theorem finer_le {a j : Nat} (h : f.Normal s k) (ha : a < 2 ^ f.precision) (hj : j < k) :
    a * 2 ^ j + 2 ^ j ≤ s * 2 ^ k := by
  have hfull : 2 ^ f.precision ≤ s * 2 := by
    have := h.full
    omega
  calc a * 2 ^ j + 2 ^ j = (a + 1) * 2 ^ j := (Nat.succ_mul ..).symm
    _ ≤ s * 2 * 2 ^ j := Nat.mul_le_mul_right _ (Nat.le_trans ha hfull)
    _ = s * 2 ^ (j + 1) := by rw [Nat.pow_succ, Nat.mul_assoc, Nat.mul_comm 2]
    _ ≤ s * 2 ^ k := Nat.mul_le_mul_left _ (Nat.pow_le_pow_right (by omega) hj)

/-- Nothing is held in the gap above. -/
theorem add_le (h : f.Normal s k) (hm : f.Holds m) (hlt : s * 2 ^ k < m) :
    s * 2 ^ k + 2 ^ k ≤ m := by
  obtain ⟨a, j, ha, rfl⟩ := hm
  by_cases hj : k ≤ j
  · obtain ⟨i, rfl⟩ := Nat.exists_eq_add_of_le hj
    rw [Nat.pow_add, Nat.mul_comm (2 ^ k), ← Nat.mul_assoc] at hlt ⊢
    have := Nat.lt_of_mul_lt_mul_right hlt
    rw [← Nat.succ_mul]
    exact Nat.mul_le_mul_right _ this
  · have hfiner := h.finer_le ha (Nat.lt_of_not_le hj)
    exact absurd hlt (Nat.not_lt.mpr (Nat.le_of_add_right_le hfiner))

/-- Nothing is held in the gap below. -/
theorem add_gapBelow_le (hp : 1 < f.precision) (h : f.Normal s k) (hm : f.Holds m)
    (hlt : m < s * 2 ^ k) : m + f.gapBelow s k ≤ s * 2 ^ k := by
  obtain ⟨q, hq, hfour, htwo⟩ := two_pow_precision hp
  obtain ⟨a, j, ha, rfl⟩ := hm
  by_cases hj : k ≤ j
  · obtain ⟨i, rfl⟩ := Nat.exists_eq_add_of_le hj
    rw [Nat.pow_add, Nat.mul_comm (2 ^ k), ← Nat.mul_assoc] at hlt ⊢
    have hstep := Nat.mul_le_mul_right (2 ^ k) (Nat.lt_of_mul_lt_mul_right hlt)
    rw [Nat.succ_mul] at hstep
    exact Nat.le_trans (Nat.add_le_add_left (gapBelow_le ..) _) hstep
  · -- On a finer grid even a full significand stays one finer step below.
    have hfull := h.full
    obtain ⟨i, rfl⟩ := Nat.exists_eq_succ_of_ne_zero (show k ≠ 0 by omega)
    have hpow : 2 ^ j ≤ 2 ^ i := Nat.pow_le_pow_right (by omega) (by omega)
    have hlow : a * 2 ^ j + 2 ^ i ≤ 4 * q * 2 ^ i := by
      rw [show 4 * q = (4 * q - 1).succ by omega, Nat.succ_mul]
      exact Nat.add_le_add_right (Nat.mul_le_mul (by omega) hpow) _
    have hdouble : s * 2 ^ i.succ = 2 * s * 2 ^ i := by
      rw [Nat.pow_succ, Nat.mul_comm (2 ^ i), ← Nat.mul_assoc, Nat.mul_comm s]
    rw [hdouble]
    unfold gapBelow
    split
    case isTrue hnarrow =>
      rw [Nat.succ_sub_one, hnarrow.1, htwo, ← Nat.mul_assoc]
      exact hlow
    case isFalse hwide =>
      have hs : 4 * q + 1 + 1 ≤ 2 * s := by omega
      have hle := Nat.mul_le_mul_right (2 ^ i) hs
      rw [Nat.succ_mul, Nat.succ_mul] at hle
      omega

end Normal

/-! ### Midpoints -/

/-- The midpoint to the next magnitude; the quotient is not past it. -/
theorem IsNearest.le_above (hp : 1 < f.precision) (h : f.Normal s k) (hden : 0 < den)
    (hn : f.IsNearest num den (s * 2 ^ k)) :
    2 * (num * 2 ^ f.fineness) ≤ (2 * (s * 2 ^ k) + 2 ^ k) * den ∧
      (2 * (num * 2 ^ f.fineness) = (2 * (s * 2 ^ k) + 2 ^ k) * den → s % 2 = 0) := by
  have hgap : 0 < 2 ^ k * den := Nat.mul_pos (Nat.two_pow_pos k) hden
  have hclosest := hn.closest _ (h.holds_above hp)
  have heven := hn.even _ (h.holds_above hp) (Nat.ne_of_gt (Nat.lt_add_of_pos_right
    (Nat.two_pow_pos k)))
  rw [h.significand_eq hp] at heven
  unfold distance at hclosest heven
  rw [Nat.add_mul] at hclosest heven
  rw [Nat.add_mul, Nat.mul_assoc]
  exact ⟨by omega, fun htie => heven (by omega)⟩

/-- The midpoint to the magnitude before; the quotient is not short of it. -/
theorem IsNearest.below_le (hp : 1 < f.precision) (h : f.Normal s k) (hden : 0 < den)
    (hn : f.IsNearest num den (s * 2 ^ k)) (hs : s ≠ 0) :
    (2 * (s * 2 ^ k) - f.gapBelow s k) * den ≤ 2 * (num * 2 ^ f.fineness) ∧
      (2 * (num * 2 ^ f.fineness) = (2 * (s * 2 ^ k) - f.gapBelow s k) * den → s % 2 = 0) := by
  obtain ⟨m, hm, heq⟩ := h.holds_below hp hs
  have hpos := f.gapBelow_pos s k
  have hgap : 0 < f.gapBelow s k * den := Nat.mul_pos hpos hden
  have hclosest := hn.closest m hm
  have heven := hn.even m hm (by omega)
  rw [h.significand_eq hp] at heven
  rw [← heq] at hclosest heven ⊢
  unfold distance at hclosest heven
  rw [Nat.add_mul] at hclosest heven
  rw [Nat.sub_mul, Nat.mul_assoc, Nat.add_mul]
  exact ⟨by omega, fun htie => heven (by omega)⟩

/-- **A magnitude is nearest exactly between the midpoints to its two neighbours.** The
midpoints themselves belong to it when its significand is even. -/
theorem Normal.isNearest_iff (hp : 1 < f.precision) (h : f.Normal s k) (hden : 0 < den) :
    f.IsNearest num den (s * 2 ^ k) ↔
      Between (s % 2 == 0) ((2 * (s * 2 ^ k) - f.gapBelow s k) * den) (2 * (num * 2 ^ f.fineness))
        ((2 * (s * 2 ^ k) + 2 ^ k) * den) := by
  constructor
  · intro hn
    have habove := hn.le_above hp h hden
    by_cases hs : s = 0
    · subst hs
      exact .of_bounds (by simp) habove.1 fun _ => rfl
    · have hbelow := hn.below_le hp h hden hs
      exact .of_bounds hbelow.1 habove.1 fun hend =>
        beq_iff_eq.mpr (hend.elim hbelow.2 habove.2)
  · intro hbetween
    have hbounds := hbetween.bounds
    have hties : s % 2 = 0 ∨ ¬ _ := (Nat.decEq (s % 2) 0).em.imp_right fun hodd hend =>
      hodd (beq_iff_eq.mp (hbetween.closed_of_end hend))
    rw [Nat.add_mul, Nat.sub_mul, Nat.mul_assoc] at hbounds hties
    have hbelow : 0 < f.gapBelow s k * den := Nat.mul_pos (gapBelow_pos ..) hden
    have habove : 0 < 2 ^ k * den := Nat.mul_pos (Nat.two_pow_pos k) hden
    -- A competitor is at least one gap away, and the gap's middle is not passed.
    have hgap : ∀ m, f.Holds m → m ≠ s * 2 ^ k →
        s * 2 ^ k * den + 2 ^ k * den ≤ m * den ∨
        m * den + f.gapBelow s k * den ≤ s * 2 ^ k * den := by
      intro m hm hne
      rw [← Nat.add_mul, ← Nat.add_mul]
      rcases Nat.lt_or_gt_of_ne hne with hlt | hgt
      · exact .inr (Nat.mul_le_mul_right den (h.add_gapBelow_le hp hm hlt))
      · exact .inl (Nat.mul_le_mul_right den (h.add_le hm hgt))
    refine ⟨h.holds, fun m hm => ?_, fun m hm hne htie => ?_⟩
    · by_cases hne : m = s * 2 ^ k
      · exact Nat.le_of_eq (by rw [hne])
      · have := hgap m hm hne
        unfold distance
        omega
    · have := hgap m hm hne
      unfold distance at htie
      rw [h.significand_eq hp]
      omega

/-- Being nearest is about the quotient, not about its terms. -/
theorem IsNearest.congr {num' den' : Nat} (hp : 1 < f.precision) (hden : 0 < den)
    (hden' : 0 < den') (hn : f.IsNearest num den n) (hquotient : num * den' = num' * den) :
    f.IsNearest num' den' n := by
  obtain ⟨s, k, h, rfl⟩ := hn.holds.normal
  rw [h.isNearest_iff hp hden, ← Between.mul_right_iff hden'] at hn
  rw [h.isNearest_iff hp hden', ← Between.mul_right_iff hden]
  have hscaled : 2 * (num' * 2 ^ f.fineness) * den = 2 * (num * 2 ^ f.fineness) * den' := by
    rw [Nat.mul_assoc, Nat.mul_right_comm, ← hquotient, Nat.mul_right_comm, ← Nat.mul_assoc]
  rw [hscaled, Nat.mul_right_comm _ den' den, Nat.mul_right_comm _ den' den]
  exact hn

/-- No two values are nearest. Where two are equally near, only one of the neighbours is even. -/
theorem IsNearest.not_lt (hp : 1 < f.precision) (hden : 0 < den) (hn : f.IsNearest num den n)
    (hm : f.IsNearest num den m) : ¬ n < m := by
  intro hlt
  obtain ⟨s, k, h, rfl⟩ := hn.holds.normal
  obtain ⟨s', k', h', rfl⟩ := hm.holds.normal
  have hn := (h.isNearest_iff hp hden).mp hn
  have hm := (h'.isNearest_iff hp hden).mp hm
  have habove := h.add_le h'.holds hlt
  have hbelow := h'.add_gapBelow_le hp h.holds hlt
  have hmid := Nat.le_of_mul_le_mul_right (Nat.le_trans hm.bounds.1 hn.bounds.2) hden
  -- The two midpoints coincide, so both significands are even, and they are consecutive.
  have hnext : (s + 1) * 2 ^ k = s' * 2 ^ k' := by
    rw [Nat.succ_mul]
    omega
  have hends : (2 * (s * 2 ^ k) + 2 ^ k) * den
      = (2 * (s' * 2 ^ k') - f.gapBelow s' k') * den := by
    congr 1
    omega
  have hquotient := Nat.le_antisymm hn.bounds.2 (Nat.le_trans (Nat.le_of_eq hends) hm.bounds.1)
  have heven : s % 2 = 0 := beq_iff_eq.mp (hn.closed_of_end (.inr hquotient))
  have heven' : s' % 2 = 0 := beq_iff_eq.mp (hm.closed_of_end (.inl (hquotient.trans hends)))
  obtain ⟨q, hq, hfour, -⟩ := two_pow_precision hp
  have hlt := h.lt
  have hnormal : f.Normal (s + 1) k := ⟨by omega, by have := h.full; omega⟩
  have := (hnormal.inj hp h' hnext).1
  omega

/-- **At most one magnitude is nearest.** -/
theorem IsNearest.unique (hp : 1 < f.precision) (hden : 0 < den) (hn : f.IsNearest num den n)
    (hm : f.IsNearest num den m) : n = m :=
  Nat.le_antisymm (Nat.not_lt.mp (hm.not_lt hp hden hn)) (Nat.not_lt.mp (hn.not_lt hp hden hm))

/-! ### The algorithm -/

/-- The quotient rounded to a whole number is between the midpoints around it. -/
theorem roundDiv_between (num : Nat) (hden : 0 < den) :
    Between (roundDiv num den % 2 == 0) ((2 * roundDiv num den - 1) * den) (2 * num)
      ((2 * roundDiv num den + 1) * den) := by
  have hdiv := Nat.div_add_mod num den
  have hmod := Nat.mod_lt num hden
  unfold roundDiv
  generalize num / den = whole at *
  generalize num % den = rest at *
  rw [Nat.mul_comm den] at hdiv
  simp only
  split
  case isTrue =>
    rw [Nat.add_mul, Nat.sub_mul, Nat.mul_assoc]
    refine .of_bounds (by omega) (by omega) fun hend => ?_
    have hzero : whole * den = 0 := by omega
    rw [(Nat.mul_eq_zero.mp hzero).resolve_right (by omega)]
    rfl
  case isFalse =>
    split
    case isTrue =>
      rw [Nat.add_mul, Nat.sub_mul, Nat.mul_assoc, Nat.add_mul]
      exact .of_bounds (by omega) (by omega) fun hend => by omega
    case isFalse =>
      -- A tie goes to the even neighbour, which is the one below or the one above.
      refine .of_bounds ?_ ?_ fun _ => beq_iff_eq.mpr (by omega)
      · rcases Nat.mod_two_eq_zero_or_one whole with heven | hodd
        · rw [heven, Nat.add_zero whole, Nat.sub_mul, Nat.mul_assoc]
          omega
        · rw [hodd, Nat.sub_mul, Nat.mul_assoc, Nat.add_mul]
          omega
      · rcases Nat.mod_two_eq_zero_or_one whole with heven | hodd
        · rw [heven, Nat.add_zero whole, Nat.add_mul, Nat.mul_assoc]
          omega
        · rw [hodd, Nat.add_mul, Nat.mul_assoc, Nat.add_mul]
          omega

/-- Dropping the spare bits leaves a significand that fits and, unless nothing was
dropped, is full. -/
theorem spareBits_spec (hp : 1 < f.precision) (n : Nat) :
    n < 2 ^ f.precision * 2 ^ f.spareBits n ∧
      (f.spareBits n ≠ 0 → 2 ^ (f.precision - 1) * 2 ^ f.spareBits n ≤ n) := by
  unfold spareBits
  rcases Nat.eq_zero_or_pos n with rfl | hn
  · refine ⟨Nat.mul_pos (Nat.two_pow_pos _) (Nat.two_pow_pos _), fun h => ?_⟩
    rw [Nat.log2_zero] at h
    omega
  · rw [← Nat.pow_add, ← Nat.pow_add]
    refine ⟨(Nat.log2_lt (by omega)).mp (by omega), fun h => (Nat.le_log2 (by omega)).mp ?_⟩
    omega

/-- A significand is nearest to what lies between the midpoints around it on its own scale.
Below the least full one the scale is finer, but no quotient of this scale lies there. -/
theorem Normal.isNearest_of_between (hp : 1 < f.precision) (h : f.Normal s k) (hden : 0 < den)
    (hround : Between (s % 2 == 0) ((2 * s - 1) * (den * 2 ^ k)) (2 * (num * 2 ^ f.fineness))
      ((2 * s + 1) * (den * 2 ^ k)))
    (hfull : k ≠ 0 → 2 ^ (f.precision - 1) * (den * 2 ^ k) ≤ num * 2 ^ f.fineness) :
    f.IsNearest num den (s * 2 ^ k) := by
  have hunit : 2 ^ k * den = den * 2 ^ k := Nat.mul_comm ..
  have hscale : s * 2 ^ k * den = s * (den * 2 ^ k) := by rw [Nat.mul_assoc, hunit]
  refine (h.isNearest_iff hp hden).mpr ?_
  rw [Nat.add_mul, Nat.sub_mul, Nat.mul_assoc, Nat.one_mul] at hround
  rw [Nat.sub_mul, Nat.add_mul, Nat.mul_assoc 2, hscale, hunit]
  unfold gapBelow
  split
  case isTrue hnarrow =>
    obtain ⟨q, hq, -, htwo⟩ := two_pow_precision hp
    have hlower := hfull hnarrow.2
    have hupper := hround.bounds.2
    have hpos : 0 < den * 2 ^ k := Nat.mul_pos hden (Nat.two_pow_pos k)
    rw [← hnarrow.1] at hlower
    refine .of_bounds ?_ hupper fun _ => beq_iff_eq.mpr (by omega)
    exact Nat.le_trans (Nat.sub_le ..) (by omega)
  case isFalse =>
    rw [hunit]
    exact hround

/-- A quotient that is rounded up to one more bit: the significand starts over, one scale up. -/
theorem isNearest_of_carry (hp : 1 < f.precision) (hden : 0 < den)
    (hlower : (2 * 2 ^ f.precision - 1) * (den * 2 ^ k) ≤ 2 * (num * 2 ^ f.fineness))
    (hupper : num * 2 ^ f.fineness < 2 ^ f.precision * (den * 2 ^ k)) :
    f.IsNearest num den (2 ^ f.precision * 2 ^ k) := by
  obtain ⟨q, hq, hfour, htwo⟩ := two_pow_precision hp
  have hcarry : 2 ^ f.precision * 2 ^ k = 2 * q * 2 ^ (k + 1) := by
    rw [hfour, show 4 * q = 2 * q * 2 by omega, Nat.pow_succ, Nat.mul_assoc,
      Nat.mul_comm 2 (2 ^ k)]
  have hnormal : f.Normal (2 * q) (k + 1) := ⟨by omega, .inr (by omega)⟩
  have hgap : f.gapBelow (2 * q) (k + 1) = 2 ^ k := by
    unfold gapBelow
    rw [if_pos ⟨htwo.symm, k.succ_ne_zero⟩, Nat.add_sub_cancel]
  have hunit : 2 ^ k * den = den * 2 ^ k := Nat.mul_comm ..
  have hdouble : 2 ^ (k + 1) * den = 2 * (den * 2 ^ k) := by
    rw [Nat.pow_succ, Nat.mul_comm _ 2, Nat.mul_assoc, hunit]
  rw [Nat.sub_mul, Nat.mul_assoc, Nat.one_mul] at hlower
  rw [hcarry]
  refine (hnormal.isNearest_iff hp hden).mpr ?_
  rw [hgap, ← hcarry, Nat.sub_mul, Nat.add_mul, Nat.mul_assoc 2, Nat.mul_assoc (2 ^ f.precision),
    hunit, hdouble]
  exact .of_bounds hlower (by omega) fun _ => beq_iff_eq.mpr (by omega)

/-- **Rounding finds the nearest magnitude.** -/
theorem nearest_isNearest (num : Nat) (hp : 1 < f.precision) (hden : 0 < den) :
    f.IsNearest num den (f.nearest num den) := by
  unfold nearest
  simp only
  have hspare := spareBits_spec hp (num * 2 ^ f.fineness / den)
  rw [Nat.div_lt_iff_lt_mul hden, Nat.le_div_iff_mul_le hden] at hspare
  generalize f.spareBits (num * 2 ^ f.fineness / den) = k at *
  rw [Nat.mul_assoc, Nat.mul_assoc, Nat.mul_comm (2 ^ k)] at hspare
  have hround := roundDiv_between (num * 2 ^ f.fineness) (Nat.mul_pos hden (Nat.two_pow_pos k))
  generalize roundDiv (num * 2 ^ f.fineness) (den * 2 ^ k) = r at *
  -- From here on there are only the bounds of the shift and of the rounded significand.
  have hlower := hround.bounds.1
  have hupper := hround.bounds.2
  have hfits : r ≤ 2 ^ f.precision := by
    have hlt : (2 * r - 1) * (den * 2 ^ k) < 2 * 2 ^ f.precision * (den * 2 ^ k) := by
      rw [Nat.mul_assoc 2 (2 ^ f.precision)]
      omega
    have := Nat.lt_of_mul_lt_mul_right hlt
    omega
  rcases Nat.eq_or_lt_of_le hfits with rfl | hlt
  · exact isNearest_of_carry hp hden hlower hspare.1
  · obtain ⟨q, -, hfour, htwo⟩ := two_pow_precision hp
    -- With a bit to spare the significand fills its width, or one bit less would be spared.
    have hfull : k ≠ 0 → 2 * q ≤ r := by
      intro hk
      have hle : 2 * (2 * q) * (den * 2 ^ k) ≤ (2 * r + 1) * (den * 2 ^ k) := by
        have hq := hspare.2 hk
        rw [htwo] at hq
        rw [Nat.mul_assoc 2 (2 * q)]
        omega
      have := Nat.le_of_mul_le_mul_right hle (Nat.mul_pos hden (Nat.two_pow_pos k))
      omega
    have hnormal : f.Normal r k := ⟨hlt, by omega⟩
    exact hnormal.isNearest_of_between hp hden hround hspare.2

/-- A quotient that the format holds is rounded to itself. -/
theorem nearest_of_holds (hp : 1 < f.precision) (hden : 0 < den) (hn : f.Holds n)
    (heq : num * 2 ^ f.fineness = n * den) : f.nearest num den = n := by
  have hzero : f.distance num den n = 0 := by
    rw [distance, heq, Int.sub_self, Int.natAbs_zero]
  have hnearest : f.IsNearest num den n := by
    refine ⟨hn, fun m _ => hzero ▸ Nat.zero_le _, fun m _ hne hdistance => absurd ?_ hne⟩
    rw [hzero, distance, heq, Int.natAbs_eq_zero, Int.sub_eq_zero] at hdistance
    exact Nat.eq_of_mul_eq_mul_right hden (Int.ofNat_inj.mp hdistance)
  exact (nearest_isNearest num hp hden).unique hp hden hnearest

/-- What a format holds goes through a finer format unchanged. -/
theorem nearest_nearest {g : BinaryFormat} (hp : 1 < f.precision) (hle : f.precision ≤ g.precision)
    (hk : g.fineness = f.fineness + k) (h : f.Holds n) :
    f.nearest (g.nearest n (2 ^ f.fineness)) (2 ^ g.fineness) = n := by
  have hscale : n * 2 ^ k * 2 ^ f.fineness = n * 2 ^ g.fineness := by
    rw [hk, Nat.pow_add, Nat.mul_assoc, Nat.mul_comm (2 ^ k)]
  have hfiner : g.Holds (n * 2 ^ k) := by
    obtain ⟨s, j, hs, rfl⟩ := h
    refine ⟨s, j + k, Nat.lt_of_lt_of_le hs (Nat.pow_le_pow_right (by omega) hle), ?_⟩
    rw [Nat.mul_assoc, Nat.pow_add]
  rw [nearest_of_holds (by omega) (Nat.two_pow_pos _) hfiner hscale.symm]
  exact nearest_of_holds hp (Nat.two_pow_pos _) h hscale

end BinaryFormat
end Stylesheet
