import Stylesheet.Proofs.Nesting.Basic

/-! Escaped names and strings are nested, whatever the author's text.

The classes of characters below grow from what one word of a value is made of to what may
stand in front of a block. The last leaves out only what ends a declaration or a rule. -/
namespace Stylesheet

/-! ### Classes of characters -/

/-- Names, numbers with their units, colors, and what opens a function or a list of names. -/
def wordChar (c : Char) : Bool := isNameChar c || ['#', '.', '%', '+', '(', '['].contains c

/-- Words with spaces between them. -/
def phraseChar (c : Char) : Bool := wordChar c || c == ' '

/-- Phrases with commas between them. -/
def listChar (c : Char) : Bool := phraseChar c || c == ','

/-- Everything but the brace that opens a block, the semicolon that ends a statement, and their
like. -/
def preludeChar (c : Char) : Bool := !(['!', ';', '\x7b', '\x7d'].contains c)

theorem phraseChar_of_wordChar {c : Char} (h : wordChar c) : phraseChar c := by
  simp [phraseChar, h]

theorem listChar_of_phraseChar {c : Char} (h : phraseChar c) : listChar c := by
  simp [listChar, h]

theorem preludeChar_of_listChar {c : Char} (h : listChar c) : preludeChar c := by
  unfold preludeChar
  rw [not_contains_of (by decide) h]
  rfl

/-- What holds of every character of ASCII, checked one by one. -/
theorem of_ascii {c : Char} {p : Char → Prop} (h : ∀ n < 128, p (Char.ofNat n))
    (hc : c.toNat < 128) : p c := by
  have hp := h c.toNat hc
  rwa [Char.ofNat_toNat] at hp

theorem isPlain_of_isNameChar {c : Char} (h : isNameChar c) : isPlain c := isPlain_of (by decide) h

theorem wordChar_of_isNameChar {c : Char} (h : isNameChar c) : wordChar c := by
  simp [wordChar, h]

theorem isNameChar_of_isDigit {c : Char} (h : c.isDigit) : isNameChar c := by
  simp [isNameChar, Char.isAlphanum, h]

theorem isAlpha_iff {c : Char} :
    c.isAlpha ↔ ('A' ≤ c ∧ c ≤ 'Z') ∨ ('a' ≤ c ∧ c ≤ 'z') := by
  change (decide ('A' ≤ c ∧ c ≤ 'Z') || decide ('a' ≤ c) && decide (c ≤ 'z')) = true ↔ _
  simp only [Bool.or_eq_true, Bool.and_eq_true, decide_eq_true_eq]

theorem isNameChar_of_isHexDigit {c : Char} (h : isHexDigit c) : isNameChar c := by
  simp only [isHexDigit, Bool.or_eq_true, Bool.and_eq_true, decide_eq_true_eq] at h
  obtain (h | ⟨hlo, hhi⟩) | ⟨hlo, hhi⟩ := h
  · exact isNameChar_of_isDigit h
  · have halpha : c.isAlpha := isAlpha_iff.mpr (.inr ⟨hlo, Char.le_trans hhi (by decide)⟩)
    simp [isNameChar, Char.isAlphanum, halpha]
  · have halpha : c.isAlpha := isAlpha_iff.mpr (.inl ⟨hlo, Char.le_trans hhi (by decide)⟩)
    simp [isNameChar, Char.isAlphanum, halpha]

/-! ### Escapes -/

/-- Checked for all sixteen. -/
theorem isHexDigit_digitChar {n : Nat} (h : n < 16) : isHexDigit n.digitChar := by
  have hall : ∀ m ∈ List.range 16, isHexDigit m.digitChar := by decide
  exact hall n (List.mem_range.mpr h)

/-- By strong induction, since the last digit is split off first. -/
theorem digitChar_of_mem_toDigits {n : Nat} {d : Char} (hd : d ∈ Nat.toDigits 16 n) :
    ∃ m < 16, d = m.digitChar := by
  induction n using Nat.strongRecOn with
  | ind n ih =>
    rw [Nat.toDigits_eq_if (by decide)] at hd
    split at hd
    · rename_i hlt
      exact ⟨n, hlt, List.mem_singleton.mp hd⟩
    · rename_i hge
      rcases List.mem_append.mp hd with hd | hd
      · exact ih (n / 16) (by omega) hd
      · exact ⟨n % 16, Nat.mod_lt n (by decide), List.mem_singleton.mp hd⟩

theorem isHexDigit_of_mem_toDigits (n : Nat) : ∀ d ∈ Nat.toDigits 16 n, isHexDigit d := by
  intro d hd
  obtain ⟨m, hm, rfl⟩ := digitChar_of_mem_toDigits hd
  exact isHexDigit_digitChar hm

/-- There is at least one digit. -/
theorem exists_hexDigits (c : Char) : ∃ d ds, Nat.toDigits 16 c.toNat = d :: ds ∧
    hexEscape c = '\\' :: d :: (ds ++ [' ']) ∧ isHexDigit d ∧ ∀ e ∈ ds, isHexDigit e := by
  have hall := isHexDigit_of_mem_toDigits c.toNat
  obtain ⟨d, ds, hdigits⟩ :=
    List.exists_cons_of_ne_nil (Nat.toDigits_ne_nil (n := c.toNat) (b := 16))
  rw [hdigits, List.forall_mem_cons] at hall
  refine ⟨d, ds, hdigits, ?_, hall⟩
  rw [hexEscape, hdigits]
  rfl

/-- The space that ends an escape belongs to it, so that it need not be allowed in `top`. -/
theorem nested_hexEscape {top : Char → Bool} (c : Char) : Nested top (hexEscape c) :=
  .hex Nat.toDigits_ne_nil (isHexDigit_of_mem_toDigits c.toNat) .nil

theorem nested_nameChar {c : Char} (h : isNameChar c) : Nested wordChar [c] :=
  .plain (isPlain_of_isNameChar h) (wordChar_of_isNameChar h) .nil

/-- A character of a name is kept, replaced, or escaped in one of the two ways. -/
theorem nested_escapeNameChar (c : Char) : Nested wordChar (escapeNameChar c) := by
  unfold escapeNameChar
  split
  · exact nested_nameChar (by decide)
  split
  · rename_i hname
    exact nested_nameChar hname
  split
  · exact nested_hexEscape c
  · exact .escape .nil

theorem nested_escapeName (text : List Char) : Nested wordChar (escapeName text) :=
  .flatMap fun c _ => nested_escapeNameChar c

/-- A leading digit has to be escaped by its code point. -/
theorem nested_escapeNameStart (text : List Char) : Nested wordChar (escapeNameStart text) := by
  cases text with
  | nil => exact .nil
  | cons c rest =>
    simp only [escapeNameStart]
    split
    · exact (nested_hexEscape c).append (nested_escapeName rest)
    · exact (nested_escapeNameChar c).append (nested_escapeName rest)

/-- **Any text at all is nested once it is escaped as an identifier.** -/
theorem nested_escapeIdentifier (text : List Char) : Nested wordChar (escapeIdentifier text) := by
  unfold escapeIdentifier
  -- two dashes, a dash alone, a dash in front of a name, and any other name
  split
  · exact (Nested.of_all (t := ['-', '-']) (by decide)).append (nested_escapeName _)
  · exact .escape .nil
  · exact (nested_nameChar (by decide)).append (nested_escapeNameStart _)
  · exact nested_escapeNameStart _

/-! ### Strings -/

/-- The digits and the space are neither quotes nor backslashes. -/
theorem stringBody_hexEscape (c : Char) : StringBody (hexEscape c) := by
  have hchar : ∀ d, isNameChar d → d ≠ '"' ∧ d ≠ '\\' := by
    intro d hd
    constructor <;> rintro rfl <;> exact absurd hd (by decide)
  have hdigits : ∀ ds : List Char, (∀ d ∈ ds, isHexDigit d) → StringBody (ds ++ [' ']) := by
    intro ds hds
    induction ds with
    | nil => exact .char (by decide) (by decide) .nil
    | cons d ds ih =>
      obtain ⟨hq, he⟩ := hchar d (isNameChar_of_isHexDigit (hds d (List.mem_cons_self ..)))
      exact .char hq he (ih fun e he => hds e (List.mem_cons_of_mem _ he))
  obtain ⟨d, ds, -, htext, -, hds⟩ := exists_hexDigits c
  rw [htext]
  exact .escape (hdigits ds hds)

theorem stringBody_escapeStringChar (c : Char) : StringBody (escapeStringChar c) := by
  unfold escapeStringChar
  split
  · exact .char (by decide) (by decide) .nil
  split
  · exact .escape .nil
  split
  · exact stringBody_hexEscape c
  · rename_i hquote _
    simp only [Bool.or_eq_true, decide_eq_true_eq, not_or] at hquote
    exact .char hquote.1 hquote.2 .nil

/-- **So is any text between quotes**, and it may stand where no other character is allowed. -/
theorem nested_quoteString {top : Char → Bool} (text : List Char) :
    Nested top (quoteString text) := by
  refine .string ?_ .nil
  induction text with
  | nil => exact .nil
  | cons c text ih => exact (stringBody_escapeStringChar c).append ih

end Stylesheet
