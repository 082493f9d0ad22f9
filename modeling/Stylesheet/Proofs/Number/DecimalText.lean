import Stylesheet.Number.Decimal

/-! Decimal text: its shape, the decimal that it reads as, and its significant digits.

The layout without an exponent falls into a whole part and a fraction, and the digits of
the two together are those of the decimal between zeros. -/
namespace Stylesheet

attribute [local instance(2000)] instPowNat

/-! ### The shape of a number -/

/-- A lone zero, or digits that do not start with a zero. -/
inductive WholeShape : List Char → Prop where
  | zero : WholeShape ['0']
  | digits {c cs} : c.isDigit → c ≠ '0' → (∀ d ∈ cs, d.isDigit) → WholeShape (c :: cs)

/-- Nothing, or a point and digits that do not end in a zero. -/
inductive FractionShape : List Char → Prop where
  | none : FractionShape []
  | digits {cs c} : (∀ d ∈ cs, d.isDigit) → c.isDigit → c ≠ '0' → FractionShape ('.' :: (cs ++ [c]))

/-- A whole part and a fraction, behind a minus or not. -/
inductive NumberShape : List Char → Prop where
  | positive {whole fraction} : WholeShape whole → FractionShape fraction →
    NumberShape (whole ++ fraction)
  | negative {whole fraction} : WholeShape whole → FractionShape fraction →
    NumberShape ('-' :: (whole ++ fraction))

/-! ### Reading -/

/-- The decimal that text without a sign stands for; the digits after the point are its
places. -/
def readUnsigned (t : List Char) : Option Decimal :=
  match t.takeWhile Char.isDigit, t.dropWhile Char.isDigit with
  | [], _ => none
  | whole, [] => some ⟨Nat.ofDigitChars 10 whole 0, 0⟩
  | whole, point :: fraction =>
    if point = '.' ∧ fraction ≠ [] ∧ fraction.all Char.isDigit then
      some ⟨Nat.ofDigitChars 10 (whole ++ fraction) 0, -fraction.length⟩
    else none

/-- The point ends the whole part. -/
theorem not_isDigit_point : ¬ '.'.isDigit := by decide

/-- Digits alone have no negative exponent. -/
theorem readUnsigned_whole {whole : List Char} (hne : whole ≠ []) (hall : ∀ c ∈ whole, c.isDigit) :
    readUnsigned whole = some ⟨Nat.ofDigitChars 10 whole 0, 0⟩ := by
  have htake : (whole ++ []).takeWhile Char.isDigit = whole ++ [].takeWhile Char.isDigit :=
    List.takeWhile_append_of_pos hall
  have hdrop : (whole ++ []).dropWhile Char.isDigit = [].dropWhile Char.isDigit :=
    List.dropWhile_append_of_pos hall
  rw [List.append_nil, List.takeWhile_nil, List.append_nil] at htake
  rw [List.append_nil, List.dropWhile_nil] at hdrop
  obtain ⟨c, cs, rfl⟩ := List.exists_cons_of_ne_nil hne
  unfold readUnsigned
  rw [htake, hdrop]

/-- The exponent counts the digits behind the point. -/
theorem readUnsigned_parts {whole fraction : List Char} (hne : whole ≠ [])
    (hall : ∀ c ∈ whole, c.isDigit) (hne' : fraction ≠ []) (hall' : ∀ c ∈ fraction, c.isDigit) :
    readUnsigned (whole ++ '.' :: fraction) =
      some ⟨Nat.ofDigitChars 10 (whole ++ fraction) 0, -fraction.length⟩ := by
  have htake : (whole ++ '.' :: fraction).takeWhile Char.isDigit = whole := by
    rw [List.takeWhile_append_of_pos hall, List.takeWhile_cons_of_neg not_isDigit_point,
      List.append_nil]
  have hdrop : (whole ++ '.' :: fraction).dropWhile Char.isDigit = '.' :: fraction := by
    rw [List.dropWhile_append_of_pos hall, List.dropWhile_cons_of_neg not_isDigit_point]
  obtain ⟨c, cs, rfl⟩ := List.exists_cons_of_ne_nil hne
  unfold readUnsigned
  rw [htake, hdrop]
  exact if_pos ⟨rfl, hne', List.all_eq_true.mpr hall'⟩

/-- The sign and the decimal of a number's text. -/
def readNumber : List Char → Option (Bool × Decimal)
  | '-' :: t => (readUnsigned t).map (true, ·)
  | t => (readUnsigned t).map (false, ·)

/-- How many digits there are from the first to the last that is not a zero. -/
def significantDigits (t : List Char) : Nat :=
  (((t.filter Char.isDigit).dropWhile (· == '0')).reverse.dropWhile (· == '0')).length

/-! ### Digits -/

theorem isDigit_of_mem_decimalDigits {n : Nat} {c : Char} (h : c ∈ decimalDigits n) : c.isDigit :=
  Nat.isDigit_of_mem_toDigits (by omega) (by omega) h

/-- The last digit of a numeral is the remainder. -/
theorem decimalDigits_eq (n : Nat) :
    ∃ cs, decimalDigits n = cs ++ [(n % 10).digitChar] := by
  unfold decimalDigits
  rw [Nat.toDigits_eq_if (by omega)]
  split
  case isTrue h => exact ⟨[], by rw [Nat.mod_eq_of_lt h, List.nil_append]⟩
  case isFalse => exact ⟨_, rfl⟩

/-- A numeral does not begin with a nought unless it is nought. -/
theorem decimalDigits_cons {n : Nat} (h : n ≠ 0) :
    ∃ c cs, decimalDigits n = c :: cs ∧ c ≠ '0' := by
  induction n using Nat.strongRecOn with
  | ind n ih =>
    unfold decimalDigits at ih ⊢
    rw [Nat.toDigits_eq_if (by omega)]
    split
    case isTrue => exact ⟨_, [], rfl, mt Nat.digitChar_eq_zero.mp h⟩
    case isFalse hlarge =>
      obtain ⟨c, cs, heq, hc⟩ := ih (n / 10) (by omega) (by omega)
      exact ⟨c, cs ++ [(n % 10).digitChar], by rw [heq, List.cons_append], hc⟩

namespace Decimal

variable {d : Decimal}

/-! ### The two parts of the layout -/

/-- What stands before the point: a single nought if the decimal is less than one. -/
def whole (d : Decimal) : List Char :=
  let ds := decimalDigits d.digits
  let places := (-d.exponent).toNat
  if places = 0 then ds ++ List.replicate d.exponent.toNat '0'
  else if places < ds.length then ds.take (ds.length - places)
  else ['0']

/-- What stands behind it, with noughts in front to fill the places. -/
def fraction (d : Decimal) : List Char :=
  let ds := decimalDigits d.digits
  let places := (-d.exponent).toNat
  if places = 0 then []
  else if places < ds.length then ds.drop (ds.length - places)
  else List.replicate (places - ds.length) '0' ++ ds

/-- There are as many digits behind the point as the exponent asks for. -/
theorem fraction_length (d : Decimal) : d.fraction.length = (-d.exponent).toNat := by
  unfold fraction
  simp only
  split
  case isTrue h => rw [h, List.length_nil]
  case isFalse h =>
    split
    case isTrue => rw [List.length_drop]; omega
    case isFalse => rw [List.length_append, List.length_replicate]; omega

theorem fraction_eq_nil_iff : d.fraction = [] ↔ (-d.exponent).toNat = 0 := by
  rw [← List.length_eq_zero_iff, fraction_length]

/-- **The layout is its two parts with a point between them**, or the first alone. -/
theorem positional_eq (d : Decimal) :
    d.positional = d.whole ++ if d.fraction = [] then [] else '.' :: d.fraction := by
  by_cases hplaces : (-d.exponent).toNat = 0
  · rw [if_pos (fraction_eq_nil_iff.mpr hplaces), List.append_nil]
    simp only [positional, whole, if_pos hplaces]
  · rw [if_neg (mt fraction_eq_nil_iff.mp hplaces)]
    simp only [positional, whole, fraction, if_neg hplaces]
    split <;> rfl

/-- **The digits of the layout are those of the decimal between zeros.** -/
theorem whole_append_fraction (d : Decimal) : ∃ zeros, d.whole ++ d.fraction =
    List.replicate zeros '0' ++
      (decimalDigits d.digits ++ List.replicate d.exponent.toNat '0') := by
  unfold whole fraction
  simp only
  split
  case isTrue => exact ⟨0, by simp⟩
  case isFalse h =>
    have hexponent : d.exponent.toNat = 0 := by omega
    rw [hexponent]
    split
    case isTrue => exact ⟨0, by simp⟩
    case isFalse =>
      exact ⟨(-d.exponent).toNat - (decimalDigits d.digits).length + 1, by
        simp [List.replicate_succ]⟩

/-- Both parts are digits. -/
theorem isDigit_of_mem_parts {c : Char} (h : c ∈ d.whole ++ d.fraction) : c.isDigit := by
  obtain ⟨zeros, heq⟩ := d.whole_append_fraction
  rw [heq, List.mem_append, List.mem_append] at h
  rcases h with h | h | h
  · rw [List.eq_of_mem_replicate h]
    rfl
  · exact isDigit_of_mem_decimalDigits h
  · rw [List.eq_of_mem_replicate h]
    rfl

theorem isDigit_of_mem_whole {c : Char} (h : c ∈ d.whole) : c.isDigit :=
  isDigit_of_mem_parts (List.mem_append_left _ h)

theorem isDigit_of_mem_fraction {c : Char} (h : c ∈ d.fraction) : c.isDigit :=
  isDigit_of_mem_parts (List.mem_append_right _ h)

/-! ### The layout has the shape of a number -/

/-- The whole part has no nought in front, or is one. -/
theorem wholeShape (h : d.digits ≠ 0) : WholeShape d.whole := by
  obtain ⟨c, cs, hdigits, hc⟩ := decimalDigits_cons h
  have hall : ∀ e ∈ c :: cs, e.isDigit := by
    rw [← hdigits]
    exact fun e he => isDigit_of_mem_decimalDigits he
  have hrest : ∀ e ∈ cs, e.isDigit := fun e he => hall e (List.mem_cons_of_mem _ he)
  unfold whole
  simp only
  rw [hdigits]
  split
  case isTrue =>
    refine .digits (hall c (List.mem_cons_self ..)) hc fun e he => ?_
    rcases List.mem_append.mp he with he | he
    · exact hrest e he
    · rw [List.eq_of_mem_replicate he]
      rfl
  case isFalse =>
    split
    case isTrue hinside =>
      obtain ⟨kept, hkept⟩ := Nat.exists_eq_succ_of_ne_zero
        (show (c :: cs).length - (-d.exponent).toNat ≠ 0 by omega)
      rw [hkept, List.take_succ_cons]
      exact .digits (hall c (List.mem_cons_self ..)) hc fun e he =>
        hrest e (List.mem_of_mem_take he)
    case isFalse => exact .zero

/-- A fraction does not end in a nought if the digits do not. -/
theorem fractionShape (h : d.digits % 10 ≠ 0) :
    FractionShape (if d.fraction = [] then [] else '.' :: d.fraction) := by
  split
  case isTrue => exact .none
  case isFalse hfraction =>
    have hlast : ∃ cs, d.fraction = cs ++ [(d.digits % 10).digitChar] := by
      have hplaces := mt fraction_eq_nil_iff.mpr hfraction
      obtain ⟨cs, hdigits⟩ := decimalDigits_eq d.digits
      unfold fraction
      simp only
      rw [if_neg hplaces, hdigits]
      split
      case isTrue hinside =>
        rw [List.length_append, List.length_singleton] at hinside ⊢
        exact ⟨_, List.drop_append_of_le_length (by omega)⟩
      case isFalse => exact ⟨_, (List.append_assoc ..).symm⟩
    obtain ⟨cs, heq⟩ := hlast
    have hall : ∀ c ∈ cs ++ [(d.digits % 10).digitChar], c.isDigit := by
      rw [← heq]
      exact fun c hc => isDigit_of_mem_fraction hc
    rw [List.forall_mem_append, List.forall_mem_singleton] at hall
    rw [heq]
    exact .digits hall.1 hall.2 (mt Nat.digitChar_eq_zero.mp h)

/-! ### The layout reads back -/

/-- Without the point, the parts are the digits of the decimal. -/
theorem ofDigitChars_parts (d : Decimal) : Nat.ofDigitChars 10 (d.whole ++ d.fraction) 0 =
    d.digits * 10 ^ d.exponent.toNat := by
  obtain ⟨zeros, heq⟩ := d.whole_append_fraction
  rw [heq, Nat.ofDigitChars_append, Nat.ofDigitChars_replicate_zero, Nat.mul_zero,
    Nat.ofDigitChars_append, decimalDigits, Nat.ofDigitChars_ten_toDigits,
    Nat.ofDigitChars_replicate_zero, Nat.mul_comm]

theorem whole_ne_nil (d : Decimal) : d.whole ≠ [] := by
  have hdigits : (decimalDigits d.digits).length ≠ 0 := Nat.ne_of_gt Nat.length_toDigits_pos
  refine List.ne_nil_of_length_pos ?_
  unfold whole
  simp only
  split
  case isTrue => rw [List.length_append]; omega
  case isFalse =>
    split
    case isTrue => rw [List.length_take]; omega
    case isFalse => exact Nat.one_pos

/-- A positive exponent reads as zeros of a whole number, a negative one as places. -/
theorem readUnsigned_positional (d : Decimal) : readUnsigned d.positional =
    some ⟨d.digits * 10 ^ d.exponent.toNat, -((-d.exponent).toNat : Int)⟩ := by
  rw [positional_eq, ← ofDigitChars_parts, ← fraction_length]
  split
  case isTrue h =>
    rw [h, List.append_nil, readUnsigned_whole d.whole_ne_nil fun _ => isDigit_of_mem_whole]
    rfl
  case isFalse h =>
    exact readUnsigned_parts d.whole_ne_nil (fun _ => isDigit_of_mem_whole) h
      (fun _ => isDigit_of_mem_fraction)

theorem filter_positional (d : Decimal) :
    d.positional.filter Char.isDigit = d.whole ++ d.fraction := by
  rw [positional_eq, List.filter_append,
    List.filter_eq_self.mpr fun _ => isDigit_of_mem_whole]
  congr 1
  split
  case isTrue h => rw [h, List.filter_nil]
  case isFalse =>
    rw [List.filter_cons_of_neg not_isDigit_point,
      List.filter_eq_self.mpr fun _ => isDigit_of_mem_fraction]

theorem dropWhile_replicate_append (n : Nat) {t : List Char} (c : Char) (h : c ≠ '0') :
    (List.replicate n '0' ++ c :: t).dropWhile (· == '0') = c :: t := by
  rw [List.dropWhile_append_of_pos fun a ha => beq_iff_eq.mpr (List.eq_of_mem_replicate ha),
    List.dropWhile_cons_of_neg (by simpa using h)]

/-- The noughts that fill places are not significant. -/
theorem significantDigits_positional (h : d.digits % 10 ≠ 0) :
    significantDigits d.positional = (decimalDigits d.digits).length := by
  obtain ⟨zeros, hparts⟩ := d.whole_append_fraction
  obtain ⟨c, cs, hfirst, hc⟩ := decimalDigits_cons (n := d.digits) (by omega)
  obtain ⟨ds, hlast⟩ := decimalDigits_eq d.digits
  have hd : (d.digits % 10).digitChar ≠ '0' := mt Nat.digitChar_eq_zero.mp h
  unfold significantDigits
  rw [filter_positional, hparts, hfirst, List.cons_append, dropWhile_replicate_append _ _ hc,
    ← List.cons_append, ← hfirst, hlast, List.reverse_append, List.reverse_replicate,
    List.reverse_append, List.reverse_singleton, List.singleton_append,
    dropWhile_replicate_append _ _ hd, List.length_cons, List.length_reverse, List.length_append,
    List.length_singleton]

theorem readNumber_positional (d : Decimal) :
    readNumber d.positional = (readUnsigned d.positional).map (false, ·) := by
  unfold readNumber
  split
  case h_1 t hminus =>
    obtain ⟨c, cs, hwhole⟩ := List.exists_cons_of_ne_nil d.whole_ne_nil
    have hc : c.isDigit := isDigit_of_mem_whole (hwhole ▸ List.mem_cons_self ..)
    rw [positional_eq, hwhole] at hminus
    rw [(List.cons.inj hminus).1] at hc
    exact absurd hc (by decide)
  case h_2 => rfl

end Decimal

/-! ### Significant digits -/

/-- A sign is not significant. -/
theorem significantDigits_minus (t : List Char) :
    significantDigits ('-' :: t) = significantDigits t := by
  have hminus : ¬ '-'.isDigit := by decide
  unfold significantDigits
  rw [List.filter_cons_of_neg hminus]

/-- A power of ten adds noughts to a numeral. -/
theorem decimalDigits_mul_pow {n : Nat} (h : n ≠ 0) (zeros : Nat) :
    decimalDigits (n * 10 ^ zeros) = decimalDigits n ++ List.replicate zeros '0' := by
  induction zeros with
  | zero => rw [Nat.pow_zero, Nat.mul_one, List.replicate_zero, List.append_nil]
  | succ zeros ih =>
    have hpos : 0 < n * 10 ^ zeros := Nat.mul_pos (by omega) (Nat.pow_pos (by omega))
    have hstep := Nat.toDigits_append_toDigits (d := 0) (show 1 < 10 by omega) hpos (by omega)
    rw [Nat.toDigits_zero, Nat.add_zero, Nat.mul_comm 10, Nat.mul_assoc, ← Nat.pow_succ] at hstep
    rw [List.replicate_succ', ← List.append_assoc, ← ih]
    exact hstep.symm

/-- Without its last zeros a number has its significant digits only. -/
theorem exists_significant {n : Nat} (h : n ≠ 0) : ∃ a zeros : Nat, n = a * 10 ^ zeros ∧
    significantDigits (decimalDigits n) = (decimalDigits a).length := by
  have hstrip : ∃ a zeros : Nat, n = a * 10 ^ zeros ∧ a % 10 ≠ 0 := by
    induction n using Nat.strongRecOn with
    | ind n ih =>
      by_cases hten : n % 10 = 0
      · obtain ⟨a, zeros, heq, ha⟩ := ih (n / 10) (by omega) (by omega)
        refine ⟨a, zeros + 1, ?_, ha⟩
        rw [Nat.pow_succ, ← Nat.mul_assoc, ← heq]
        omega
      · exact ⟨n, 0, (Nat.mul_one n).symm, hten⟩
  obtain ⟨a, zeros, rfl, ha⟩ := hstrip
  refine ⟨a, zeros, rfl, ?_⟩
  have hpositional : (⟨a, zeros⟩ : Decimal).positional = decimalDigits (a * 10 ^ zeros) := by
    rw [decimalDigits_mul_pow (by omega)]
    simp [Decimal.positional]
  rw [← hpositional]
  exact Decimal.significantDigits_positional ha

end Stylesheet
