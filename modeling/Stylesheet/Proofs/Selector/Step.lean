import Mathlib.Data.List.Chain
import Stylesheet.Proofs.Equality.Argument
import Stylesheet.Proofs.Reading.Escape
import Stylesheet.Proofs.Selector.Nth

/-! What positions counted in steps mean.

The notation allows more than is ever written: a sign in front of a number that needs none,
zeros before its digits, blanks around the sign of an offset and letters of either case. All
that it allows has one meaning, the step and the offset. What is written is in the notation
and means the step and the offset it was written for. It is exact, too: behind each of its
signs stands something other than nought. -/
namespace Stylesheet
namespace Nth

/-! ### The notation -/

/-- A sign, and what it multiplies by. -/
inductive Sign : Char → Int → Prop where
  | plus : Sign '+' 1
  | minus : Sign '-' (-1)

/-- Digits, and the number that they are. -/
inductive Digits : List Char → Nat → Prop where
  | intro {w} : w ≠ [] → w.all Char.isDigit → Digits w (Nat.ofDigitChars 10 w 0)

/-- Without digits a coefficient is one. -/
inductive Coefficient : List Char → Nat → Prop where
  | digits {w k} : Digits w k → Coefficient w k
  | one : Coefficient [] 1

/-- A number of some kind, with or without a sign. -/
inductive Numeral (Magnitude : List Char → Nat → Prop) : List Char → Int → Prop where
  | bare {w k} : Magnitude w k → Numeral Magnitude w k
  | signed {s w sign k} : Sign s sign → Magnitude w k → Numeral Magnitude (s :: w) (sign * k)

/-- An offset always has a sign, unless it is missing. -/
inductive Offset : List Char → Int → Prop where
  | zero : Offset [] 0
  | signed {u s v w sign k} : u.all isSpace → Sign s sign → v.all isSpace → Digits w k →
      Offset (u ++ s :: (v ++ w)) (sign * k)

/-- A number, and what stands behind it. Alone it is the offset of a single position, and in
front of the letter it is the step. -/
inductive Counts : (number rest : List Char) → (step offset : Int) → Prop where
  | offset {w b} : Numeral Digits w b → Counts w [] 0 b
  | step {w c u a b} : Numeral Coefficient w a → c.toLower = 'n' → Offset u b →
      Counts w (c :: u) a b

/-- The words for every second position. -/
inductive Word : List Char → (offset : Int) → Prop where
  | odd : Word "odd".toList 1
  | even : Word "even".toList 0

/-- The text stands for the positions `step * n + offset`. -/
inductive Means : List Char → (step offset : Int) → Prop where
  | word {t w b} : Word w b → t.map Char.toLower = w → Means t 2 b
  | number {w u a b} : Counts w u a b → Means (w ++ u) a b

/-! ### One meaning -/

variable {s c : Char} {t u v w : List Char} {a b a' b' x y : Int} {k l : Nat}
  {Magnitude : List Char → Nat → Prop}

/-- Either sign counts one way. -/
theorem Sign.unique (h : Sign s x) (h' : Sign s y) : x = y := by
  cases h <;> cases h' <;> rfl

theorem Sign.not_isSpace (h : Sign s x) : isSpace s = false := by
  cases h <;> rfl

/-- The characters of a number with its sign. -/
def isSigned (c : Char) : Bool := c.isDigit || c == '+' || c == '-'

theorem Sign.isSigned (h : Sign s x) : isSigned s := by
  cases h <;> rfl

/-- Digits are one number. -/
theorem Digits.unique (h : Digits w k) (h' : Digits w l) : k = l := by
  cases h
  cases h'
  rfl

theorem Coefficient.unique (h : Coefficient w k) (h' : Coefficient w l) : k = l := by
  cases h with
  | digits h =>
    cases h' with
    | digits h' => exact h.unique h'
    | one =>
      obtain ⟨hne, -⟩ := h
      exact absurd rfl hne
  | one =>
    cases h' with
    | digits h' =>
      obtain ⟨hne, -⟩ := h'
      exact absurd rfl hne
    | one => rfl

theorem Digits.all_isDigit (h : Digits w k) : w.all Char.isDigit := by
  obtain ⟨-, hall⟩ := h
  exact hall

theorem Coefficient.all_isDigit (h : Coefficient w k) : w.all Char.isDigit := by
  cases h with
  | digits h => exact h.all_isDigit
  | one => rfl

/-- A number has one sign at most, and no digit is one. -/
theorem Numeral.unique (hdigits : ∀ {w k}, Magnitude w k → w.all Char.isDigit)
    (hunique : ∀ {w k l}, Magnitude w k → Magnitude w l → k = l)
    (h : Numeral Magnitude w x) (h' : Numeral Magnitude w y) : x = y := by
  have hsign {s : Char} {w : List Char} {sign : Int} {k : Nat} (hs : Sign s sign)
      (hw : Magnitude (s :: w) k) : False := by
    have hdigit := List.all_eq_true.mp (hdigits hw) s (List.mem_cons_self ..)
    cases hs <;> exact absurd hdigit (by decide)
  cases h with
  | bare h =>
    cases h' with
    | bare h' => rw [hunique h h']
    | signed hs => exact (hsign hs h).elim
  | signed hs h =>
    cases h' with
    | bare h' => exact (hsign hs h').elim
    | signed hs' h' => rw [hs.unique hs', hunique h h']

/-- So is a numeral with a sign. -/
theorem Numeral.digits_unique (h : Numeral Digits w x) (h' : Numeral Digits w y) : x = y :=
  h.unique Digits.all_isDigit Digits.unique h'

theorem Numeral.coefficient_unique (h : Numeral Coefficient w x) (h' : Numeral Coefficient w y) :
    x = y :=
  h.unique Coefficient.all_isDigit Coefficient.unique h'

theorem not_isSpace_of_isDigit (h : c.isDigit) : isSpace c = false := by
  refine Bool.eq_false_iff.mpr fun hspace => ?_
  simp only [isSpace, isNewline, Bool.or_eq_true, beq_iff_eq] at hspace
  obtain (rfl | rfl) | (rfl | rfl) | rfl := hspace <;> exact absurd h (by decide)

/-- The blanks end at the sign, and behind it at the digits. -/
theorem Offset.unique (h : Offset t x) (h' : Offset t y) : x = y := by
  generalize ht : t = t' at h'
  cases h with
  | zero =>
    cases h' with
    | zero => rfl
    | signed => simp at ht
  | @signed u s v w sign k hu hs hv hw =>
    cases h' with
    | zero => simp at ht
    | @signed u' s' v' w' sign' k' hu' hs' hv' hw' =>
      have hsign {s : Char} {x : Int} {t : List Char} (hs : Sign s x) :
          Ends (!isSpace ·) (s :: t) := .cons (by simp [hs.not_isSpace])
      have hdigits {w : List Char} {k : Nat} (hw : Digits w k) : Ends (!isSpace ·) w := by
        intro c hc
        have hdigit := List.all_eq_true.mp hw.all_isDigit c (List.mem_of_mem_head? hc)
        simp [not_isSpace_of_isDigit hdigit]
      obtain ⟨-, hsigned⟩ := span_inj hu hu' (hsign hs) (hsign hs') ht
      obtain ⟨rfl, hnumber⟩ := List.cons.inj hsigned
      obtain ⟨-, rfl⟩ := span_inj hv hv' (hdigits hw) (hdigits hw') hnumber
      rw [hs.unique hs', hw.unique hw']

/-! Numbers are told from the letter behind them, and from the words, by their characters. -/

/-- A numeral has digits and a sign in it and nothing else. -/
theorem Numeral.all_isSigned (hdigits : ∀ {w k}, Magnitude w k → w.all Char.isDigit)
    (h : Numeral Magnitude w x) : w.all isSigned := by
  have hall {w : List Char} {k : Nat} (h : Magnitude w k) : w.all isSigned :=
    List.all_eq_true.mpr fun c hc => by simp [isSigned, List.all_eq_true.mp (hdigits h) c hc]
  cases h with
  | bare h => exact hall h
  | signed hs h => rw [List.all_cons, hs.isSigned, hall h, Bool.and_self]

/-- Such characters have no case. -/
theorem toLower_of_isSigned (h : isSigned c) : c.toLower = c := by
  have hlt : c.toNat < 128 := by
    simp only [isSigned, Bool.or_eq_true, beq_iff_eq] at h
    obtain (h | rfl) | rfl := h
    · simp only [Char.isDigit, Bool.and_eq_true, decide_eq_true_eq] at h
      exact Nat.lt_of_le_of_lt h.2 (by decide)
    · decide
    · decide
  exact of_ascii (p := fun c => isSigned c → c.toLower = c) (by decide) hlt h

theorem not_isSigned_of_toLower (h : isSigned c.toLower = false) : isSigned c = false := by
  cases hsigned : isSigned c with
  | false => rfl
  | true =>
    rw [toLower_of_isSigned hsigned, hsigned] at h
    exact nomatch h

/-- What stands behind a number, if anything does. -/
def AtLetter (t : List Char) : Prop := Ends (·.toLower == 'n') t

/-- The letter is no part of a number. -/
theorem AtLetter.ends (h : AtLetter t) : Ends (!isSigned ·) t := by
  refine h.mono fun c hc => ?_
  rw [not_isSigned_of_toLower (by rw [eq_of_beq hc]; rfl)]
  rfl

/-- Neither word begins with a number or with the letter behind one. -/
theorem Word.not_number (h : Word w b) (ht : t.map Char.toLower = w) (hu : u.all isSigned)
    (hv : AtLetter v) : t ≠ u ++ v := by
  rintro rfl
  have hhead : ∃ d ds, w = d :: ds ∧ isSigned d = false ∧ d ≠ 'n' := by
    cases h <;> exact ⟨_, _, rfl, by decide, by decide⟩
  obtain ⟨d, ds, rfl, hsigned, hd⟩ := hhead
  cases u with
  | nil =>
    cases v with
    | nil => exact nomatch ht
    | cons c v =>
      have hc := eq_of_beq (hv c rfl)
      exact hd ((List.cons.inj ht).1.symm.trans hc)
  | cons c u =>
    rw [List.all_cons, Bool.and_eq_true] at hu
    have hc := (List.cons.inj ht).1
    rw [toLower_of_isSigned hu.1] at hc
    rw [hc, hsigned] at hu
    exact nomatch hu.1

/-- The two words are different. -/
theorem Word.unique (h : Word w a) (h' : Word w b) : a = b := by
  generalize hw : w = w' at h'
  cases h with
  | odd =>
    cases h' with
    | odd => rfl
    | even => exact absurd hw (by decide)
  | even =>
    cases h' with
    | odd => exact absurd hw (by decide)
    | even => rfl

theorem Counts.all_isSigned (h : Counts w u a b) : w.all isSigned := by
  cases h with
  | offset hb => exact hb.all_isSigned Digits.all_isDigit
  | step ha => exact ha.all_isSigned Coefficient.all_isDigit

/-- Behind the number comes the letter, if anything. -/
theorem Counts.atLetter (h : Counts w u a b) : AtLetter u := by
  cases h with
  | offset => exact .nil
  | step _ hc => exact .cons (beq_iff_eq.mpr hc)

/-- The step and the offset are told apart by the letter. -/
theorem Counts.unique (h : Counts w u a b) (h' : Counts w u a' b') : a = a' ∧ b = b' := by
  cases h with
  | offset hb =>
    cases h' with
    | offset hb' => exact ⟨rfl, hb.digits_unique hb'⟩
  | step ha _ hb =>
    cases h' with
    | step ha' _ hb' => exact ⟨ha.coefficient_unique ha', hb.unique hb'⟩

/-- **A text of the notation has one meaning.** -/
theorem Means.unique (h : Means t a b) (h' : Means t a' b') : a = a' ∧ b = b' := by
  generalize ht : t = t' at h'
  cases h with
  | word hw htext =>
    cases h' with
    | word hw' htext' =>
      rw [ht, htext'] at htext
      rw [htext] at hw'
      exact ⟨rfl, hw.unique hw'⟩
    | number hn => exact absurd ht (hw.not_number htext hn.all_isSigned hn.atLetter)
  | number hn =>
    cases h' with
    | word hw htext => exact absurd ht.symm (hw.not_number htext hn.all_isSigned hn.atLetter)
    | number hn' =>
      obtain ⟨rfl, rfl⟩ := span_inj hn.all_isSigned hn'.all_isSigned hn.atLetter.ends
        hn'.atLetter.ends ht
      exact hn.unique hn'

/-! ### What is written -/

/-- The step, which the two words have in common. -/
def step : Nth → Int
  | odd | even => 2
  | steps a _ => a

/-- The offset of a position; that of `odd` is one. -/
def offset : Nth → Int
  | odd => 1
  | even => 0
  | steps _ b => b

/-- The digits of a number are that number. -/
theorem digits_decimalDigits (n : Nat) : Digits (decimalDigits n) n := by
  have hall : (decimalDigits n).all Char.isDigit :=
    List.all_eq_true.mpr fun _ hc => isDigit_of_mem_decimalDigits hc
  have hdigits : Digits (decimalDigits n) _ := .intro Nat.toDigits_ne_nil hall
  rwa [decimalDigits, Nat.ofDigitChars_ten_toDigits] at hdigits

/-- A minus in front makes the number negative. -/
theorem signed_minus (hmagnitude : Magnitude w k) (hx : x = -k) :
    Numeral Magnitude ('-' :: w) x := by
  have hsigned : Numeral Magnitude ('-' :: w) (-1 * k) := .signed .minus hmagnitude
  rwa [Int.neg_one_mul, ← hx] at hsigned

/-- An integer is written with a sign only when it is negative. -/
theorem numeral_integerText (hmagnitude : ∀ {w k}, Digits w k → Magnitude w k) (i : Int) :
    Numeral Magnitude (integerText i) i := by
  have hdigits := hmagnitude (digits_decimalDigits i.natAbs)
  unfold integerText
  split
  case isTrue h => exact signed_minus hdigits (by omega)
  case isFalse h =>
    have hbare : Numeral Magnitude (decimalDigits i.natAbs) i.natAbs := .bare hdigits
    rwa [Int.natAbs_of_nonneg (by omega)] at hbare

/-- A step of one, of either sign, is written without digits. -/
theorem numeral_stepText (a : Int) :
    ∃ w, stepText a = w ++ ['n'] ∧ Numeral Coefficient w a := by
  unfold stepText
  split
  case isTrue h => exact ⟨[], rfl, h ▸ .bare .one⟩
  split
  case isTrue h => exact ⟨['-'], rfl, signed_minus .one h⟩
  case isFalse => exact ⟨_, rfl, numeral_integerText .digits a⟩

/-- The offset is written with its sign always, or not at all if it is zero. -/
theorem offset_offsetText (b : Int) : Offset (offsetText b) b := by
  have hsigned {s : Char} {sign : Int} (hs : Sign s sign) (n : Nat) :
      Offset (s :: decimalDigits n) (sign * n) :=
    .signed (u := []) (v := []) rfl hs rfl (digits_decimalDigits n)
  unfold offsetText
  split
  case isTrue hpos =>
    have hplus := hsigned .plus b.natAbs
    rw [Int.one_mul, Int.natAbs_of_nonneg (by omega)] at hplus
    rwa [integerText, if_neg (by omega)]
  split
  case isTrue hneg =>
    have hminus := hsigned .minus b.natAbs
    rw [Int.neg_one_mul, show -(b.natAbs : Int) = b by omega] at hminus
    rwa [integerText, if_pos hneg]
  case isFalse hpos hneg =>
    rw [show b = 0 by omega]
    exact .zero

/-- What is written means what it is written for. -/
theorem means_css (n : Nth) : Means (css n) n.step n.offset := by
  cases n with
  | odd => exact .word .odd rfl
  | even => exact .word .even rfl
  | steps a b =>
    show Means (if a = 0 then integerText b else stepText a ++ offsetText b) a b
    split
    case isTrue h =>
      have hnumber : Means (integerText b ++ []) 0 b :=
        .number (.offset (numeral_integerText id b))
      rwa [List.append_nil, ← h] at hnumber
    case isFalse =>
      obtain ⟨w, hw, ha⟩ := numeral_stepText a
      rw [hw, List.append_assoc]
      exact .number (.step ha rfl (offset_offsetText b))

/-! ### Signs -/

/-- A sign stands before the letter or a digit other than nought. -/
def Leads (c d : Char) : Prop := c = '+' ∨ c = '-' → d = 'n' ∨ d.isDigit ∧ d ≠ '0'

instance (c d : Char) : Decidable (Leads c d) :=
  inferInstanceAs (Decidable (c = '+' ∨ c = '-' → d = 'n' ∨ d.isDigit ∧ d ≠ '0'))

/-- Text without signs. -/
theorem isChain_unsigned (h : t.all fun c => c != '+' && c != '-') : t.IsChain Leads := by
  refine (List.pairwise_of_forall_mem_list fun c hc d _ hsign => ?_).isChain
  have hne := List.all_eq_true.mp h c hc
  obtain rfl | rfl := hsign <;> exact nomatch hne

theorem isChain_decimalDigits (n : Nat) : (decimalDigits n).IsChain Leads := by
  refine isChain_unsigned (List.all_eq_true.mpr fun c hc => ?_)
  have hdigit := isDigit_of_mem_decimalDigits hc
  rw [Bool.and_eq_true, bne_iff_ne, bne_iff_ne]
  constructor <;> rintro rfl <;> exact absurd hdigit (by decide)

/-- Behind a sign stands the first digit, which is not nought. -/
theorem isChain_signed (s : Char) {n : Nat} (h : n ≠ 0) :
    (s :: decimalDigits n).IsChain Leads := by
  refine List.isChain_cons.mpr ⟨fun d hd _ => .inr ?_, isChain_decimalDigits n⟩
  obtain ⟨e, es, hdigits, he⟩ := decimalDigits_cons h
  have hdigit := isDigit_of_mem_decimalDigits (n := n) (c := d) (List.mem_of_mem_head? hd)
  rw [hdigits] at hd
  obtain rfl := Option.some.inj hd
  exact ⟨hdigit, he⟩

/-- The minus of an integer has a digit other than nought behind it. -/
theorem isChain_integerText (i : Int) : (integerText i).IsChain Leads := by
  unfold integerText
  split
  case isTrue h => exact isChain_signed '-' (by omega)
  case isFalse => exact isChain_decimalDigits _

/-- So has the sign of an offset, which is not written if it is nought. -/
theorem isChain_offsetText (b : Int) : (offsetText b).IsChain Leads := by
  unfold offsetText
  split
  case isTrue h =>
    rw [integerText, if_neg (by omega)]
    exact isChain_signed '+' (by omega)
  split
  case isTrue => exact isChain_integerText b
  case isFalse => exact .nil

/-- The sign of a step has such a digit behind it, or the letter. -/
theorem isChain_stepText (a : Int) : (stepText a).IsChain Leads := by
  unfold stepText
  split
  · exact .singleton _
  split
  · exact .cons_cons (fun _ => .inl rfl) (.singleton _)
  · refine (isChain_integerText a).append (.singleton _) fun c _ d hd _ => .inl ?_
    exact (Option.some.inj hd).symm

theorem isChain_css (n : Nth) : (css n).IsChain Leads := by
  cases n with
  | odd => exact isChain_unsigned rfl
  | even => exact isChain_unsigned rfl
  | steps a b =>
    show (if a = 0 then integerText b else stepText a ++ offsetText b).IsChain Leads
    split
    case isTrue => exact isChain_integerText b
    case isFalse =>
      refine (isChain_stepText a).append (isChain_offsetText b) fun c hc d _ hsign => ?_
      obtain ⟨w, hw, -⟩ := numeral_stepText a
      rw [hw, List.getLast?_concat] at hc
      obtain rfl := Option.some.inj hc
      exact absurd hsign (by decide)

/-! ### Exact texts -/

/-- **Positions are written exactly.** What is written is in the notation, and means the step
and the offset and nothing else. No sign in it stands before another sign or before a nought,
and no two positions are written alike. -/
theorem text_exact :
    (∀ a b a' b' : Int, Means (css (steps a b)) a' b' ↔ a' = a ∧ b' = b) ∧
    (∀ n : Nth, Means (css n) n.step n.offset) ∧
    (∀ n : Nth, ∀ w ∈ [['+', '-'], ['+', '0'], ['-', '0']], ¬w <:+: css n) ∧
    ∀ m n : Nth, css m = css n → m = n := by
  refine ⟨fun a b a' b' => ⟨fun h => h.unique (means_css (steps a b)), ?_⟩, means_css,
    fun n w hw hinfix => ?_, fun m n h => ?_⟩
  · rintro ⟨rfl, rfl⟩
    exact means_css (steps a' b')
  · have hnone : ∀ w ∈ [['+', '-'], ['+', '0'], ['-', '0']], ¬w.IsChain Leads := by decide
    have hchain := List.IsChain.infix n.isChain_css hinfix
    exact hnone w hw hchain
  · have hread := m.of?_css
    rw [h, n.of?_css] at hread
    exact (Option.some.inj hread).symm

/-- A step and an offset as far apart as thirty-two bits allow. -/
theorem text_exact_far : ∃ (n : Nth) (w : List Char), n = steps (-2147483648) 2147483647 ∧
    css n = "-2147483648n+2147483647".toList ∧ Means (css n) (-2147483648) 2147483647 ∧
    w = ['+', '-'] ∧ ¬w <:+: css n ∧
    ∀ m : Nth, css m = "-2147483648n+2147483647".toList → m = n := by
  obtain ⟨hmeans, -, hsigns, htexts⟩ := text_exact
  have htext : css (steps (-2147483648) 2147483647) = "-2147483648n+2147483647".toList := by decide
  exact ⟨_, _, rfl, htext, (hmeans _ _ _ _).mpr ⟨rfl, rfl⟩, rfl, hsigns _ _ (List.mem_cons_self ..),
    fun m hm => htexts m _ (hm.trans htext.symm)⟩

end Nth
end Stylesheet
