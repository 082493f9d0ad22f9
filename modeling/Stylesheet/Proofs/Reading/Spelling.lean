import Stylesheet.Name.Identifier
import Stylesheet.Proofs.Nesting.Escape

/-! What an escaped text spells.

The escaping functions leave some characters bare, put a backslash before others and write
the rest in hexadecimal, and each of the three stands for one character. `Spells` says so of
a whole text without saying how it is read, so that every reader of names and strings has
one lemma about `Spells` and none about escaping. -/
namespace Stylesheet

/-- What is written for the null character. -/
def replaced (c : Char) : Char := if c = '\x00' then '\ufffd' else c

/-- What a string cannot hold unescaped. -/
def isNewline (c : Char) : Bool := c == '\n' || c == '\r' || c == '\x0c'

/-- The text stands for the characters; `bare` are those that can stand for themselves. -/
inductive Spells (bare : Char → Bool) : List Char → List Char → Prop where
  | nil : Spells bare [] []
  | bare {c t cs} : bare c → c ≠ '\\' → Spells bare t cs → Spells bare (c :: t) (c :: cs)
  | escaped {c t cs} : isHexDigit c = false → isNewline c = false → Spells bare t cs →
      Spells bare ('\\' :: c :: t) (c :: cs)
  | hex {c t cs} : c ≠ '\x00' → Spells bare t cs → Spells bare (hexEscape c ++ t) (c :: cs)

/-- The text has no mark but behind a backslash. -/
inductive Guarded (mark : Char) : List Char → Prop where
  | nil : Guarded mark []
  | bare {c t} : c ≠ '\\' → c ≠ mark → Guarded mark t → Guarded mark (c :: t)
  | escaped {c t} : Guarded mark t → Guarded mark ('\\' :: c :: t)

variable {bare : Char → Bool} {c : Char} {t u cs ds : List Char}

namespace Spells

/-- Texts spell one after the other. -/
theorem append (h : Spells bare t cs) (h' : Spells bare u ds) :
    Spells bare (t ++ u) (cs ++ ds) := by
  induction h with
  | nil => exact h'
  | bare hc hne _ ih => exact .bare hc hne ih
  | escaped hhex hnewline _ ih => exact .escaped hhex hnewline ih
  | hex hnull _ ih =>
    rw [List.append_assoc]
    exact .hex hnull ih

/-- Text that is escaped character by character. -/
theorem flatMap {f : Char → List Char} (h : ∀ c, Spells bare (f c) [replaced c]) :
    ∀ cs : List Char, Spells bare (cs.flatMap f) (cs.map replaced)
  | [] => .nil
  | c :: cs => (h c).append (flatMap h cs)

/-- A character that needs no escape. -/
theorem one_bare (hc : bare c) (hne : c ≠ '\\') : Spells bare [c] [c] := .bare hc hne .nil

/-- A backslash in front. -/
theorem one_escaped (hhex : isHexDigit c = false) (hnewline : isNewline c = false) :
    Spells bare ['\\', c] [c] :=
  .escaped hhex hnewline .nil

/-- The code point in hexadecimal, with a space behind. -/
theorem one_hex (hnull : c ≠ '\x00') : Spells bare (hexEscape c) [c] := by
  have h : Spells bare (hexEscape c ++ []) [c] := .hex hnull .nil
  rwa [List.append_nil] at h

end Spells

theorem not_isNameChar_backslash : ¬isNameChar '\\' := by decide

/-- Name characters spell themselves. -/
theorem Spells.of_all (h : t.all isNameChar) : Spells isNameChar t t := by
  induction t with
  | nil => exact .nil
  | cons c t ih =>
    rw [List.all_cons, Bool.and_eq_true] at h
    refine .bare h.1 ?_ (ih h.2)
    rintro rfl
    exact not_isNameChar_backslash h.1

namespace Guarded
variable {mark : Char}

/-- Guarded texts one after the other. No escape goes from one into the next. -/
theorem append (ht : Guarded mark t) (hu : Guarded mark u) : Guarded mark (t ++ u) := by
  induction ht with
  | nil => exact hu
  | bare hescape hmark _ ih => exact .bare hescape hmark ih
  | escaped _ ih => exact .escaped ih

/-- Text without the mark and without backslashes. -/
theorem of_all (h : t.all fun c => c != '\\' && c != mark) : Guarded mark t := by
  induction t with
  | nil => exact .nil
  | cons c t ih =>
    rw [List.all_cons, Bool.and_eq_true, Bool.and_eq_true, bne_iff_ne, bne_iff_ne] at h
    exact .bare h.1.1 h.1.2 (ih h.2)

/-- An escape has nothing in it but a backslash, digits and a space. -/
theorem hexEscape (hname : isNameChar mark = false) (hspace : mark ≠ ' ') (c : Char) :
    Guarded mark (hexEscape c) := by
  obtain ⟨d, ds, -, htext, -, hds⟩ := exists_hexDigits c
  rw [htext]
  refine .escaped ((of_all (List.all_eq_true.mpr fun e he => ?_)).append
    (.bare (by decide) hspace.symm .nil))
  have hchar := isNameChar_of_isHexDigit (hds e he)
  rw [Bool.and_eq_true, bne_iff_ne, bne_iff_ne]
  constructor
  · rintro rfl
    exact not_isNameChar_backslash hchar
  · rintro rfl
    exact absurd hchar (Bool.eq_false_iff.mp hname)

end Guarded

/-- In a name every other mark is escaped; only a space can stand bare, behind digits. -/
theorem Spells.guarded {mark : Char} (h : Spells isNameChar t cs)
    (hname : isNameChar mark = false) (hspace : mark ≠ ' ') : Guarded mark t := by
  induction h with
  | nil => exact .nil
  | bare hc hescape _ ih =>
    refine .bare hescape ?_ ih
    rintro rfl
    exact absurd hc (Bool.eq_false_iff.mp hname)
  | escaped _ _ _ ih => exact .escaped ih
  | hex _ _ ih => exact (Guarded.hexEscape hname hspace _).append ih

/-! ### Escaping -/

/-- Every other character stays. -/
theorem replaced_of_ne (h : c ≠ '\x00') : replaced c = c := if_neg h

theorem isNewline_of_not_isControl (h : isControl c = false) : isNewline c = false := by
  cases hc : isNewline c
  · rfl
  · simp only [isNewline, Bool.or_eq_true, beq_iff_eq] at hc
    obtain (rfl | rfl) | rfl := hc <;> exact absurd h (by decide)

/-- Each way of escaping spells the character. -/
theorem spells_escapeNameChar (c : Char) : Spells isNameChar (escapeNameChar c) [replaced c] := by
  unfold escapeNameChar
  split
  case isTrue h =>
    subst h
    exact .one_bare (by decide) (by decide)
  case isFalse hnull =>
    rw [replaced_of_ne hnull]
    split
    case isTrue hname =>
      refine .one_bare hname ?_
      rintro rfl
      exact absurd hname (by decide)
    case isFalse hname =>
      split
      case isTrue => exact .one_hex hnull
      case isFalse hcontrol =>
        refine .one_escaped ?_ (isNewline_of_not_isControl (Bool.eq_false_iff.mpr hcontrol))
        exact Bool.eq_false_iff.mpr (mt isNameChar_of_isHexDigit hname)

theorem spells_escapeName (cs : List Char) :
    Spells isNameChar (escapeName cs) (cs.map replaced) :=
  .flatMap spells_escapeNameChar cs

/-- The digit that is escaped spells itself. -/
theorem spells_escapeNameStart (cs : List Char) :
    Spells isNameChar (escapeNameStart cs) (cs.map replaced) := by
  cases cs with
  | nil => exact .nil
  | cons c cs =>
    show Spells _ (_ ++ escapeName cs) ([replaced c] ++ cs.map replaced)
    refine .append ?_ (spells_escapeName cs)
    split
    case isTrue hdigit =>
      have hnull : c ≠ '\x00' := by
        rintro rfl
        exact absurd hdigit (by decide)
      rw [replaced_of_ne hnull]
      exact .one_hex hnull
    case isFalse => exact spells_escapeNameChar c

/-- **An escaped identifier spells the text that it was made from**, with null characters
replaced. -/
theorem spells_escapeIdentifier (cs : List Char) :
    Spells isNameChar (escapeIdentifier cs) (cs.map replaced) := by
  unfold escapeIdentifier
  split
  · exact .bare (by decide) (by decide) (.bare (by decide) (by decide) (spells_escapeName _))
  · exact .one_escaped (by decide) (by decide)
  · exact .bare (by decide) (by decide) (spells_escapeNameStart _)
  · exact spells_escapeNameStart cs

/-- The characters that a string in double quotes can hold. -/
def isStringChar (c : Char) : Bool := c != '"' && !isNewline c

/-- In strings the quote and the backslash are escaped, and so are control characters. -/
theorem spells_escapeStringChar (c : Char) :
    Spells isStringChar (escapeStringChar c) [replaced c] := by
  unfold escapeStringChar
  split
  case isTrue h =>
    subst h
    exact .one_bare (by decide) (by decide)
  case isFalse hnull =>
    rw [replaced_of_ne hnull]
    split
    case isTrue hquote =>
      simp only [Bool.or_eq_true, decide_eq_true_eq] at hquote
      obtain rfl | rfl := hquote
      · exact .one_escaped (by decide) (by decide)
      · exact .one_escaped (by decide) (by decide)
    case isFalse hquote =>
      simp only [Bool.or_eq_true, decide_eq_true_eq, not_or] at hquote
      split
      case isTrue => exact .one_hex hnull
      case isFalse hcontrol =>
        have hnewline := isNewline_of_not_isControl (Bool.eq_false_iff.mpr hcontrol)
        exact .one_bare (by simp [isStringChar, hquote.1, hnewline]) hquote.2

/-- What is between the quotes spells the text of the string. -/
theorem spells_stringBody (cs : List Char) :
    Spells isStringChar (cs.flatMap escapeStringChar) (cs.map replaced) :=
  .flatMap spells_escapeStringChar cs

end Stylesheet
