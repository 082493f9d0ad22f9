import Stylesheet.Selector.Nth
import Stylesheet.Proofs.Number.DecimalText
import Stylesheet.Proofs.Reading.Reader

/-! Positions counted in steps read back.

The letter `n` parts the step from the offset; without one, the number is an offset alone.
A step with no digits is one, of either sign, and a missing offset is zero. -/
namespace Stylesheet

/-! ### Integers -/

/-- A numeral with a digit at least. -/
def naturalOf? (w : List Char) : Option Nat :=
  if w ≠ [] ∧ w.all Char.isDigit then some (Nat.ofDigitChars 10 w 0) else none

/-- A numeral behind a minus, or without a sign. -/
def integerOf? : List Char → Option Int
  | '-' :: w => (naturalOf? w).map fun n : Nat => -(n : Int)
  | w => (naturalOf? w).map fun n : Nat => (n : Int)

theorem naturalOf?_decimalDigits (n : Nat) : naturalOf? (decimalDigits n) = some n := by
  have hall : (decimalDigits n).all Char.isDigit :=
    List.all_eq_true.mpr fun _ hc => isDigit_of_mem_decimalDigits hc
  rw [naturalOf?, if_pos ⟨Nat.toDigits_ne_nil, hall⟩, decimalDigits, Nat.ofDigitChars_ten_toDigits]

theorem head_decimalDigits (n : Nat) : ∃ c cs, decimalDigits n = c :: cs ∧ c.isDigit := by
  obtain ⟨c, cs, h⟩ := List.exists_cons_of_ne_nil (Nat.toDigits_ne_nil (n := n) (b := 10))
  exact ⟨c, cs, h, isDigit_of_mem_decimalDigits (h ▸ List.mem_cons_self ..)⟩

/-- An integer reads back from its text. -/
theorem integerOf?_integerText (i : Int) : integerOf? (integerText i) = some i := by
  unfold integerText
  by_cases h : i < 0
  · rw [if_pos h, integerOf?, naturalOf?_decimalDigits, Option.map_some]
    congr 1
    omega
  · rw [if_neg h]
    have hsome : integerOf? (decimalDigits i.natAbs) =
        (naturalOf? (decimalDigits i.natAbs)).map fun n : Nat => (n : Int) := by
      obtain ⟨c, cs, heq, hc⟩ := head_decimalDigits i.natAbs
      rw [heq]
      unfold integerOf?
      split
      case h_1 w hminus =>
        rw [(List.cons.inj hminus).1] at hc
        exact absurd hc (by decide)
      case h_2 => rfl
    rw [hsome, naturalOf?_decimalDigits, Option.map_some]
    congr 1
    omega

/-! ### Steps and offsets -/

namespace Nth

/-- A coefficient of one is left out, and its sign may be left over. -/
def stepOf? : List Char → Option Int
  | [] => some 1
  | ['-'] => some (-1)
  | w => integerOf? w

/-- A plus in front is taken off, and nothing at all is zero. -/
def offsetOf? : List Char → Option Int
  | [] => some 0
  | '+' :: w => integerOf? w
  | w => integerOf? w

/-- The two words, a number alone, or a step and an offset on the sides of the letter. -/
def of? (w : List Char) : Option Nth :=
  if w = "odd".toList then some odd
  else if w = "even".toList then some even
  else
    match w.dropWhile (· != 'n') with
    | [] => (integerOf? w).map (steps 0)
    | _ :: offset => do return steps (← stepOf? (w.takeWhile (· != 'n'))) (← offsetOf? offset)

/-- What an integer is written with. -/
def isIntegerChar (c : Char) : Bool := c.isDigit || c == '-'

theorem isIntegerChar_of_mem {i : Int} {c : Char} (h : c ∈ integerText i) : isIntegerChar c := by
  unfold integerText at h
  unfold isIntegerChar
  split at h
  · rcases List.mem_cons.mp h with rfl | h
    · rfl
    · rw [isDigit_of_mem_decimalDigits h, Bool.true_or]
  · rw [isDigit_of_mem_decimalDigits h, Bool.true_or]

theorem ne_of_isIntegerChar {c d : Char} (hc : isIntegerChar c) (hd : isIntegerChar d = false) :
    c ≠ d := by
  rintro rfl
  rw [hc] at hd
  exact nomatch hd

/-- A coefficient that is written out is no lone sign. -/
theorem stepOf?_integerText (a : Int) : stepOf? (integerText a) = some a := by
  have hread := integerOf?_integerText a
  unfold stepOf?
  split
  case h_1 hnil => simp [hnil, integerOf?, naturalOf?] at hread
  case h_2 hminus => simp [hminus, integerOf?, naturalOf?] at hread
  case h_3 => exact hread

/-- The text of a step ends in the only `n` it has. -/
theorem exists_stepText (a : Int) : ∃ front, stepText a = front ++ ['n'] ∧
    (∀ c ∈ front, isIntegerChar c) ∧ stepOf? front = some a := by
  unfold stepText
  split
  case isTrue h => exact ⟨[], rfl, nofun, by rw [h]; rfl⟩
  case isFalse =>
    split
    case isTrue h => exact ⟨['-'], rfl, List.forall_mem_singleton.mpr rfl, by rw [h]; rfl⟩
    case isFalse => exact ⟨_, rfl, fun _ => isIntegerChar_of_mem, stepOf?_integerText a⟩

/-- An offset reads back, whichever sign it has. -/
theorem offsetOf?_offsetText (b : Int) : offsetOf? (offsetText b) = some b := by
  unfold offsetText
  split
  case isTrue => exact integerOf?_integerText b
  case isFalse hpos =>
    split
    case isTrue hneg =>
      rw [← integerOf?_integerText b]
      rw [integerText, if_pos hneg]
      rfl
    case isFalse hneg =>
      have hzero : b = 0 := by omega
      rw [hzero]
      rfl

/-- Neither of the two words begins as a number or a step does. -/
theorem of?_of_head {w : List Char} (hw : ∀ c ∈ w.head?, isIntegerChar c ∨ c = 'n') :
    of? w =
      match w.dropWhile (· != 'n') with
      | [] => (integerOf? w).map (steps 0)
      | _ :: offset => do
        return steps (← stepOf? (w.takeWhile (· != 'n'))) (← offsetOf? offset) := by
  have hodd : w ≠ "odd".toList := by
    rintro rfl
    exact absurd (hw 'o' rfl) (by decide)
  have heven : w ≠ "even".toList := by
    rintro rfl
    exact absurd (hw 'e' rfl) (by decide)
  rw [of?, if_neg hodd, if_neg heven]

/-- **A position reads back from its text.** -/
theorem of?_css (n : Nth) : of? (css n) = some n := by
  have hne : ∀ front : List Char, (∀ c ∈ front, isIntegerChar c) → ∀ c ∈ front, c != 'n' :=
    fun front hfront c hc => bne_iff_ne.mpr (ne_of_isIntegerChar (hfront c hc) rfl)
  cases n with
  | odd => rfl
  | even => rfl
  | steps a b =>
    show of? (if a = 0 then integerText b else stepText a ++ offsetText b) = _
    split
    case isTrue h =>
      -- Without a step there is no `n`, and the whole text is the offset.
      have hdrop : (integerText b ++ []).dropWhile (· != 'n') = [].dropWhile (· != 'n') :=
        List.dropWhile_append_of_pos (hne _ fun _ => isIntegerChar_of_mem)
      rw [List.append_nil, List.dropWhile_nil] at hdrop
      have hhead : ∀ c ∈ (integerText b).head?, isIntegerChar c ∨ c = 'n' :=
        fun c hc => .inl (isIntegerChar_of_mem (List.mem_of_mem_head? hc))
      rw [of?_of_head hhead, hdrop, integerOf?_integerText, h]
      rfl
    case isFalse h =>
      -- The `n` parts the text. A step of one has nothing in front of it, or a sign alone.
      obtain ⟨front, htext, hfront, hstep⟩ := exists_stepText a
      have htake : (front ++ 'n' :: offsetText b).takeWhile (· != 'n') = front := by
        rw [List.takeWhile_append_of_pos (hne front hfront), List.takeWhile_cons_of_neg (by simp),
          List.append_nil]
      have hdrop : (front ++ 'n' :: offsetText b).dropWhile (· != 'n') = 'n' :: offsetText b := by
        rw [List.dropWhile_append_of_pos (hne front hfront), List.dropWhile_cons_of_neg (by simp)]
      have hhead : ∀ c ∈ (front ++ 'n' :: offsetText b).head?, isIntegerChar c ∨ c = 'n' := by
        cases front with
        | nil => exact fun c hc => .inr (Option.some.inj hc).symm
        | cons d front =>
          exact fun c hc => .inl (hfront c (Option.some.inj hc ▸ List.mem_cons_self ..))
      rw [htext, List.append_assoc, List.singleton_append, of?_of_head hhead, htake, hdrop, hstep]
      show (offsetOf? (offsetText b)).bind _ = _
      rw [offsetOf?_offsetText]
      rfl

/-- What positions are written with. -/
def isNthChar (c : Char) : Bool := c.isAlphanum || c == '+' || c == '-'

theorem isNthChar_of_isIntegerChar {c : Char} (h : isIntegerChar c) : isNthChar c := by
  simp only [isIntegerChar, Bool.or_eq_true, beq_iff_eq] at h
  obtain h | rfl := h
  · simp [isNthChar, Char.isAlphanum, h]
  · rfl

theorem isNthChar_of_mem_css {n : Nth} {c : Char} (h : c ∈ css n) : isNthChar c := by
  have hword : ∀ w : List Char, w.all isNthChar → c ∈ w → isNthChar c :=
    fun w hw hc => List.all_eq_true.mp hw c hc
  have hinteger : ∀ i : Int, c ∈ integerText i → isNthChar c :=
    fun i hc => isNthChar_of_isIntegerChar (isIntegerChar_of_mem hc)
  cases n with
  | odd => exact hword ['o', 'd', 'd'] (by decide) h
  | even => exact hword ['e', 'v', 'e', 'n'] (by decide) h
  | steps a b =>
    change c ∈ (if a = 0 then integerText b else stepText a ++ offsetText b) at h
    split at h
    case isTrue => exact hinteger b h
    case isFalse =>
      rcases List.mem_append.mp h with h | h
      · obtain ⟨front, htext, hfront, -⟩ := exists_stepText a
        rw [htext] at h
        rcases List.mem_append.mp h with h | h
        · exact isNthChar_of_isIntegerChar (hfront c h)
        · exact hword ['n'] (by decide) h
      · unfold offsetText at h
        split at h
        case isTrue =>
          rcases List.mem_cons.mp h with rfl | h
          · rfl
          · exact hinteger b h
        case isFalse =>
          split at h
          case isTrue => exact hinteger b h
          case isFalse => exact nomatch h

end Nth

def Reader.nth : Reader Nth := (span Nth.isNthChar).pick Nth.of?

theorem reads_nth (n : Nth) : Reads Reader.nth (css n) n (Ends fun c => !Nth.isNthChar c) :=
  (Reads.span (List.all_eq_true.mpr fun _ hc => Nth.isNthChar_of_mem_css hc)).pick n.of?_css

end Stylesheet
