import Stylesheet.Proofs.Nesting.Scan
import Stylesheet.Text.Css

/-! Text in which brackets, strings and escapes are closed.

`Nested top` holds of a text made of plain characters, escapes, strings and bracketed
texts, in which no comment begins. Outside of all brackets only the characters of `top`
stand; inside brackets any may. Texts are joined, called and separated without leaving
`Nested`, so that a value's text is nested because its parts are. -/
namespace Stylesheet

/-- A call whose name is written out. -/
theorem call_ofList (name t : List Char) :
    call (String.ofList name) t = name ++ '(' :: (t ++ [')']) := by
  simp [call]

/-- What stands between the quotes of a string. -/
inductive StringBody : List Char → Prop where
  | nil : StringBody []
  | char {c t} : c ≠ '"' → c ≠ '\\' → StringBody t → StringBody (c :: t)
  | escape {c t} : StringBody t → StringBody ('\\' :: c :: t)

theorem StringBody.append {s t : List Char} (hs : StringBody s) (ht : StringBody t) :
    StringBody (s ++ t) := by
  induction hs with
  | nil => exact ht
  | char hq he _ ih => exact .char hq he ih
  | escape _ ih => exact .escape ih

/-- Either case, as a reader of escapes takes them. -/
def isHexDigit (c : Char) : Bool := c.isDigit || 'a' ≤ c && c ≤ 'f' || 'A' ≤ c && c ≤ 'F'

/-- Inside of brackets every character is allowed. -/
def anyChar (_ : Char) : Bool := true

/-- Plain characters of `top` throughout. -/
def areAll (top : Char → Bool) (t : List Char) : Bool := t.all fun c => isPlain c && top c

/-- Texts in which all that is opened is closed. `top` tells which characters stand outside of
brackets, strings and escapes. -/
inductive Nested : (Char → Bool) → List Char → Prop where
  | nil {top} : Nested top []
  | plain {top c t} : isPlain c → top c → Nested top t → Nested top (c :: t)
  /-- A solidus, with something after it that makes no comment of it. -/
  | solidus {top c t} : top '/' → c ≠ '*' → Nested top (c :: t) → Nested top ('/' :: c :: t)
  | escape {top c t} : Nested top t → Nested top ('\\' :: c :: t)
  /-- A code point in hexadecimal takes one space after it, whatever `top` is. -/
  | hex {top ds t} : ds ≠ [] → (∀ d ∈ ds, isHexDigit d) → Nested top t →
      Nested top ('\\' :: (ds ++ ' ' :: t))
  | string {top body t} : StringBody body → Nested top t → Nested top ('"' :: (body ++ '"' :: t))
  | bracketed {top t inner} (b : Bracket) : top b.opening → Nested anyChar inner → Nested top t →
      Nested top (b.opening :: (inner ++ b.closing :: t))
  /-- Any text that a scan finds closed, where nothing is asked of the characters. -/
  | closed {top u t} : (∀ c, top c) → Closed u → Nested top t → Nested top (u ++ t)

namespace Nested
variable {top top' : Char → Bool} {s t : List Char}

/-- Nothing that the first text opens is left for the second to close. -/
theorem append (hs : Nested top s) (ht : Nested top t) : Nested top (s ++ t) := by
  induction hs with
  | nil => exact ht
  | plain hp hc _ ih => exact .plain hp hc (ih ht)
  | solidus hc hne _ ih => exact .solidus hc hne (ih ht)
  | escape _ ih => exact .escape (ih ht)
  | hex hne hds _ ih => simpa using .hex hne hds (ih ht)
  | string hb _ ih => simpa using .string hb (ih ht)
  | bracketed b hc hi _ _ ih => simpa using .bracketed b hc hi (ih ht)
  | closed htop hu _ ih => simpa using .closed htop hu (ih ht)

/-- More characters may be allowed. -/
theorem mono (h : ∀ c, top c → top' c) (ht : Nested top t) : Nested top' t := by
  induction ht with
  | nil => exact .nil
  | plain hp hc _ ih => exact .plain hp (h _ hc) (ih h)
  | solidus hc hne _ ih => exact .solidus (h _ hc) hne (ih h)
  | escape _ ih => exact .escape (ih h)
  | hex hne hds _ ih => exact .hex hne hds (ih h)
  | string hb _ ih => exact .string hb (ih h)
  | bracketed b hc hi _ _ ih => exact .bracketed b (h _ hc) hi (ih h)
  | closed htop hu _ ih => exact .closed (fun c => h c (htop c)) hu (ih h)

theorem any (ht : Nested top t) : Nested anyChar t := ht.mono fun _ _ => rfl

/-- Plain characters throughout. -/
theorem cons {c : Char} (ht : Nested top t) (hc : isPlain c && top c := by decide) :
    Nested top (c :: t) := by
  rw [Bool.and_eq_true] at hc
  exact .plain hc.1 hc.2 ht

/-- A text without brackets, strings and escapes; for one that is written out, the check of its
characters is evaluated. -/
theorem of_all (h : areAll top t := by decide) : Nested top t := by
  induction t with
  | nil => exact .nil
  | cons c t ih =>
    rw [areAll, List.all_cons, Bool.and_eq_true] at h
    exact (ih h.2).cons h.1

/-- The words of the library are string literals; their characters are checked one by one. -/
theorem word {cs : List Char} (h : areAll top cs := by decide) :
    Nested top (String.ofList cs).toList := by
  rw [String.toList_ofList]
  exact of_all h

/-- A nested text in brackets may stand where the bracket itself may. -/
theorem enclosed (b : Bracket) (ht : Nested anyChar t) (hb : top b.opening := by decide) :
    Nested top (b.opening :: (t ++ [b.closing])) :=
  .bracketed b hb ht .nil

/-- A function nests in what its name and the parenthesis nest in, whatever its arguments have
at the top. -/
theorem call {name : List Char} (ht : Nested anyChar t) (hname : areAll top name := by decide)
    (hround : top '(' := by decide) : Nested top (Stylesheet.call (String.ofList name) t) := by
  rw [call_ofList]
  exact (of_all hname).append (ht.enclosed .round hround)

theorem joined {separator : List Char} {texts : List (List Char)} (hsep : Nested top separator)
    (h : ∀ t ∈ texts, Nested top t) : Nested top (joined separator texts) := by
  induction texts with
  | nil => exact .nil
  | cons a rest ih =>
    cases rest with
    | nil => exact h a (List.mem_cons_self ..)
    | cons b rest =>
      have hrest := ih fun t ht => h t (List.mem_cons_of_mem _ ht)
      exact ((h a (List.mem_cons_self ..)).append hsep).append hrest

theorem flatten {texts : List (List Char)} (h : ∀ t ∈ texts, Nested top t) :
    Nested top texts.flatten := by
  induction texts with
  | nil => exact .nil
  | cons a rest ih =>
    exact (h a (List.mem_cons_self ..)).append (ih fun t ht => h t (List.mem_cons_of_mem _ ht))

theorem flatMap {α : Type} {f : α → List Char} {items : List α}
    (h : ∀ a ∈ items, Nested top (f a)) :
    Nested top (items.flatMap f) := by
  rw [List.flatMap_def]
  exact flatten (by simpa using h)

end Nested

/-! ### Scanning -/

namespace Scan
variable {n : List Bracket} {t : List Char} {s : Scan} {isMark : Char → Bool}

/-- The body of a string neither ends the string nor meets a mark. -/
theorem Passes.string {body : List Char} (hb : StringBody body)
    (h : Passes isMark ⟨.bare, n⟩ t s) : Passes isMark ⟨.string, n⟩ (body ++ '"' :: t) s := by
  induction hb with
  | nil => exact .cons rfl (not_mark_protected rfl) h
  | char hq he _ ih =>
    refine .cons ?_ (not_mark_protected rfl) ih
    simp [step, hq, he]
  | escape _ ih =>
    exact .cons rfl (not_mark_protected rfl) (.cons rfl (not_mark_protected rfl) ih)

/-- The digits of an escape and the space behind them are plain. -/
theorem Passes.hexDigits {ds : List Char} (hds : ∀ d ∈ ds, isHexDigit d)
    (hmark : n = [] → isMark ' ' = false ∧ ∀ d, isHexDigit d → isMark d = false)
    (h : Passes isMark ⟨.bare, n⟩ t s) : Passes isMark ⟨.bare, n⟩ (ds ++ ' ' :: t) s := by
  induction ds with
  | nil => exact .plain (by decide) (fun hn => (hmark hn).1) h
  | cons d ds ih =>
    have hd := hds d (List.mem_cons_self ..)
    exact .plain (isPlain_of (by decide) hd) (fun hn => (hmark hn).2 d hd)
      (ih fun e he => hds e (List.mem_cons_of_mem _ he))

/-- What can be a mark is none of the characters that nested text has around its strings,
escapes and brackets, nor any in `top`. -/
structure Apart (isMark top : Char → Bool) : Prop where
  of_top {c} : top c → isMark c = false
  of_opening {b : Bracket} : top b.opening → isMark b.closing = false
  lexical {c} : c ∈ ['"', '\\', ' '] → isMark c = false
  hexDigit {c} : isHexDigit c → isMark c = false

end Scan

open Scan in
/-- **Over nested text the scan ends as it began and meets no mark**, inside of any
bracket, or when the marks are apart from what the text has outside. -/
theorem Nested.passes {isMark top : Char → Bool} {t : List Char} (ht : Nested top t)
    {n : List Bracket} (hn : n = [] → Apart isMark top) :
    Passes isMark ⟨.bare, n⟩ t ⟨.bare, n⟩ := by
  induction ht generalizing n with
  | nil => exact .nil
  | plain hp hc _ ih => exact .plain hp (fun h => (hn h).of_top hc) (ih hn)
  | solidus hc hne _ ih =>
    exact .cons rfl (not_mark rfl fun h => (hn h).of_top hc) (.solidus hne (ih hn))
  | escape _ ih =>
    exact .cons rfl (not_mark rfl fun h => (hn h).lexical (by decide))
      (.cons rfl (not_mark_protected rfl) (ih hn))
  | @hex _ ds _ hne hds _ ih =>
    cases ds with
    | nil => exact absurd rfl hne
    | cons d ds =>
      exact .cons rfl (not_mark rfl fun h => (hn h).lexical (by decide))
        (.cons rfl (not_mark_protected rfl)
          (.hexDigits (fun e he => hds e (List.mem_cons_of_mem _ he))
            (fun h => ⟨(hn h).lexical (by decide), fun _ => (hn h).hexDigit⟩) (ih hn)))
  | string hb _ ih =>
    exact .cons rfl (not_mark rfl fun h => (hn h).lexical (by decide)) (.string hb (ih hn))
  | bracketed b hc _ _ ihi ih =>
    have hinner := ihi (n := b :: n) nofun
    exact .opening b (fun h => (hn h).of_top hc)
      (hinner.append (.closing b (fun h => (hn h).of_opening hc) (ih hn)))
  | closed htop hu _ ih =>
    -- Outside of every bracket nothing is a mark, since `top` allows every character. Inside of
    -- one no mark counts.
    cases n with
    | nil =>
      have hmark : ∀ c, isMark c = false := fun c => (hn rfl).of_top (htop c)
      exact Passes.append ⟨hu, marks_eq_nil hmark ..⟩ (ih hn)
    | cons b n => exact Passes.append (.of_closed nofun hu) (ih hn)

end Stylesheet
