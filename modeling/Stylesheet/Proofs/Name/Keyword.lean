import Stylesheet.Grid.Line
import Stylesheet.Motion.Transition
import Stylesheet.Proofs.Image.Reading
import Stylesheet.Rule.CounterStyle

/-! Names that authors choose, among the keywords of the same grammar.

A value of such a grammar is a word of the grammar, a name, or something that is not written
like a name. Two values have one text only if they are of one kind and alike, or if a name is
spelled like a word. A custom identifier can be spelled like any word but those that every
property takes, and then nothing tells the two apart. -/
namespace Stylesheet

/-! ### Words -/

/-- The text is a name as it stands. -/
def isBareName (t : List Char) : Bool :=
  t.head?.any isNameStart && t.all isNameChar && !t.contains '\ufffd'

section
variable {t u : List Char} {n : CustomIdent}

/-- A bare name begins as a name may, and has no escapes and nothing to replace. -/
theorem exists_of_isBareName (h : isBareName t) :
    ∃ c w, t = c :: w ∧ isNameStart c ∧ (c :: w).all isNameChar ∧ '\ufffd' ∉ c :: w := by
  cases t with
  | nil => exact nomatch h
  | cons c w =>
    simp only [isBareName, Bool.and_eq_true, Bool.not_eq_true'] at h
    refine ⟨c, w, rfl, h.1.1, h.1.2, fun hmem => ?_⟩
    rw [List.contains_iff_mem.mpr hmem] at h
    exact nomatch h.2

theorem escapeNameChar_of_isNameChar {c : Char} (h : isNameChar c) : escapeNameChar c = [c] := by
  have hnull : c ≠ '\x00' := by
    rintro rfl
    exact absurd h (by decide)
  rw [escapeNameChar, if_neg hnull, if_pos h]

theorem escapeName_of_all (h : t.all isNameChar) : escapeName t = t := by
  have hchars : t.map escapeNameChar = t.map fun c => [c] :=
    List.map_congr_left fun c hc => escapeNameChar_of_isNameChar (List.all_eq_true.mp h c hc)
  rw [escapeName, List.flatMap_def, hchars, ← List.flatMap_def, List.flatMap_singleton']

/-- So it is written as it is. -/
theorem escapeIdentifier_of_isBareName (h : isBareName t) : escapeIdentifier t = t := by
  obtain ⟨c, w, rfl, hstart, hall, -⟩ := exists_of_isBareName h
  have hdash : c ≠ '-' := by
    rintro rfl
    exact absurd hstart (by decide)
  have hdigit : ¬c.isDigit := fun hdigit => by
    rw [OwnText.not_isNameStart_of_isDigit hdigit] at hstart
    exact nomatch hstart
  rw [escapeIdentifier_of_ne hdash, escapeNameStart, if_neg hdigit]
  exact escapeName_of_all hall

/-! ### Reading names -/

/-- And read as it is. -/
theorem whole_identToken_word (h : isBareName t) : Reader.identToken.whole t = some t := by
  obtain ⟨c, w, rfl, hstart, hall, -⟩ := exists_of_isBareName h
  exact (reads_word hstart hall).whole .nil

/-- A name that is escaped reads back. -/
theorem whole_identToken_css (n : CustomIdent) :
    Reader.identToken.whole (css n) = some (n.name.toList.map replaced) :=
  n.reads_token.whole .nil

theorem whole_identToken_of_not (h : startsIdentifier t = false) :
    Reader.identToken.whole t = none := by
  rw [Reader.whole, Reader.identToken, h]
  rfl

/-- A number is not read as a name. -/
theorem whole_identToken_of_startsNumber (h : OwnText.startsNumber t) :
    Reader.identToken.whole t = none := by
  have hstart := OwnText.not_startsIdentifier (u := []) h
  rw [List.append_nil] at hstart
  exact whole_identToken_of_not hstart

/-- A word that goes on with something else than a name. -/
theorem whole_identToken_append {d : Char} (h : isBareName t) (hd : nameEnd d) :
    Reader.identToken.whole (t ++ d :: u) = none := by
  obtain ⟨c, w, rfl, hstart, hall, -⟩ := exists_of_isBareName h
  rw [Reader.whole, reads_word hstart hall (d :: u) (.cons hd)]

instance : Readable CustomIdent where
  read? := Reader.customIdent.whole
  canonical := CustomIdent.normal
  read?_css n := (reads_customIdent n).whole .nil
  css_canonical := CustomIdent.css_normal

/-- Names read alike that have the null character where others have its replacement. -/
theorem CustomIdent.normal_eq_iff {m n : CustomIdent} :
    m.normal = n.normal ↔ m.name.toList.map replaced = n.name.toList.map replaced := by
  simp only [normal, Identifier.normal, mk.injEq, Identifier.mk.injEq, String.ofList_inj]

/-- **A name is written like a word** if it is spelled like it, and only then. -/
theorem CustomIdent.css_eq_word_iff (h : isBareName t) : css n = t ↔ n.name.toList = t := by
  constructor
  · intro htext
    have hread := whole_identToken_css n
    rw [htext, whole_identToken_word h] at hread
    have hspelled : t = n.name.toList.map replaced := Option.some.inj hread
    obtain ⟨c, w, rfl, -, -, hreplacement⟩ := exists_of_isBareName h
    -- a null character in the name would show as the replacement character in the word
    rw [hspelled] at hreplacement
    rw [hspelled]
    exact (map_replaced_of_not_mem fun hnull => hreplacement (List.mem_map_of_mem hnull)).symm
  · intro hname
    show escapeIdentifier n.name.toList = t
    rw [hname, escapeIdentifier_of_isBareName h]

/-- A word that is not set aside can be a name. -/
theorem exists_customIdent {w : String} (h : isBareName w.toList)
    (hreserved : isOneOf reservedWords w = false) :
    ∃ n, CustomIdent.of w = .ok n ∧ css n = w.toList := by
  have hne : w ≠ "" := by
    rintro rfl
    exact nomatch h
  let n : CustomIdent := ⟨⟨w, hne⟩, hreserved⟩
  exact ⟨n, n.of_name, (CustomIdent.css_eq_word_iff h).mpr rfl⟩

end

/-! ### Kinds of values -/

/-- What a value of a grammar may be written as: a word of the grammar, a name that an author
chose, or something that is no name. -/
inductive Wording where
  | word (w : String)
  | name (n : CustomIdent)
  | other (t : List Char)

namespace Wording
variable {s s' : Wording}

def text : Wording → List Char
  | word w => w.toList
  | name n => css n
  | other t => t

/-- A name is read with its null characters replaced. -/
def normal : Wording → Wording
  | word w => word w
  | name n => name n.normal
  | other t => other t

/-- A word stands for itself as a name, and a text of another kind is no name. -/
inductive Valid : Wording → Prop where
  | word {w : String} : isBareName w.toList → Valid (word w)
  | name {n} : Valid (name n)
  | other {t} : Reader.identToken.whole t = none → Valid (other t)

/-- A word, and a name that is spelled like it. -/
inductive Clash : Wording → Wording → Prop where
  | intro {w n} : n.name = w → Clash (word w) (name n)

/-- A word and a name that clash are written alike. -/
theorem Clash.text_eq (h : s.Clash s') (hs : s.Valid) : s.text = s'.text := by
  cases h with
  | @intro w n hname =>
    cases hs with
    | word hword => exact ((CustomIdent.css_eq_word_iff hword).mpr (by rw [hname])).symm

/-- Yet they are not the same. -/
theorem Clash.normal_ne (h : s.Clash s') : s.normal ≠ s'.normal := by
  cases h with
  | intro => exact nofun

theorem text_normal (s : Wording) : s.normal.text = s.text := by
  cases s with
  | name n => exact n.css_normal
  | word _ | other _ => rfl

theorem Valid.eq_other (hs : s.Valid) (h : Reader.identToken.whole s.text = none) :
    s = .other s.text := by
  cases hs with
  | word hw => exact nomatch (whole_identToken_word hw).symm.trans h
  | @name n => exact nomatch (whole_identToken_css n).symm.trans h
  | other => rfl

/-- Values have one text if they are alike or clash, and only then. -/
theorem text_eq_iff (hs : s.Valid) (hs' : s'.Valid) :
    s.text = s'.text ↔ s.normal = s'.normal ∨ s.Clash s' ∨ s'.Clash s := by
  constructor
  · intro h
    -- Words and names are single identifiers, everything else is not one.
    by_cases hother : Reader.identToken.whole s.text = none
    · have hother' : Reader.identToken.whole s'.text = none := h ▸ hother
      rw [hs.eq_other hother, hs'.eq_other hother', h]
      exact .inl rfl
    cases hs with
    | other hnone => exact absurd hnone hother
    | @word w hw =>
      cases hs' with
      | other hnone => exact absurd ((congrArg _ h).trans hnone) hother
      | word => exact .inl (congrArg word (String.toList_injective h))
      | name =>
        have hname := (CustomIdent.css_eq_word_iff hw).mp h.symm
        exact .inr (.inl ⟨String.toList_injective hname⟩)
    | @name n =>
      cases hs' with
      | other hnone => exact absurd ((congrArg _ h).trans hnone) hother
      | word hw =>
        have hname := (CustomIdent.css_eq_word_iff hw).mp h
        exact .inr (.inr ⟨String.toList_injective hname⟩)
      | name => exact .inl (congrArg name (canonical_inj.mpr h))
  · rintro (h | h | h)
    · rw [← text_normal s, h, text_normal]
    · exact h.text_eq hs
    · exact (h.text_eq hs').symm

end Wording

/-! ### Grammars -/

/-- Types whose values are words, names or neither. -/
class Worded (α : Type) [ToCss α] where
  wording : α → Wording
  ofWording? : Wording → Option α
  /-- The value as it reads back. -/
  normal : α → α
  text_wording (a : α) : (wording a).text = css a
  valid (a : α) : (wording a).Valid
  ofWording?_normal (a : α) : ofWording? (wording a).normal = some (normal a)
  wording_normal (a : α) : wording (normal a) = (wording a).normal

export Worded (wording)

namespace Worded
variable {α : Type} [ToCss α] [Worded α]

theorem normal_eq_iff (a b : α) :
    normal a = normal b ↔ (wording a).normal = (wording b).normal := by
  constructor
  · intro h
    rw [← wording_normal, h, wording_normal]
  · intro h
    have hread := ofWording?_normal a
    rw [h, ofWording?_normal] at hread
    exact (Option.some.inj hread).symm

/-- **Two values have one text exactly when they are the same or clash.** -/
theorem css_eq_iff (a b : α) : css a = css b ↔
    normal a = normal b ∨ (wording a).Clash (wording b) ∨ (wording b).Clash (wording a) := by
  rw [← text_wording a, ← text_wording b, Wording.text_eq_iff (valid a) (valid b), normal_eq_iff]

/-- The text tells the two values apart unless they clash. -/
theorem tells_apart_iff (a b : α) : (css a = css b → normal a = normal b) ↔
    ¬((wording a).Clash (wording b) ∨ (wording b).Clash (wording a)) := by
  rw [css_eq_iff, normal_eq_iff]
  constructor
  · rintro h (hclash | hclash)
    · exact hclash.normal_ne (h (.inr (.inl hclash)))
    · exact hclash.normal_ne (h (.inr (.inr hclash))).symm
  · intro h hcss
    exact hcss.resolve_right h

end Worded

/-! ### Grid lines -/

namespace GridLine

theorem css_span (n : SpanCount) :
    css (span n) = "span".toList ++ ' ' :: decimalDigits n.count := by
  have hword : "span ".toList = "span".toList ++ [' '] := by decide
  show "span ".toList ++ _ = _
  rw [hword, List.append_assoc]
  rfl

/-- The line or the number of tracks: only a number begins like one. -/
def ofNumber? (t : List Char) : Option GridLine :=
  if OwnText.startsNumber t then (integerOf? t).bind fun i => (ofIndex i).toOption
  else (read? (t.drop 5)).bind fun n : Nat => (ofSpan n).toOption

/-- The number of a line reads back. -/
theorem ofNumber?_line (i : LineIndex) : ofNumber? (css (line i)) = some (line i) := by
  have hindex : LineIndex.of i.index = .ok i := dif_neg i.ne_zero
  show ofNumber? (integerText i.index) = _
  rw [ofNumber?, if_pos (OwnText.startsNumber_integerText _), integerOf?_integerText,
    Option.bind_some, ofIndex, hindex]
  rfl

theorem ofNumber?_span (n : SpanCount) : ofNumber? (css (span n)) = some (span n) := by
  have hcount : SpanCount.of n.count = .ok n := dif_neg n.ne_zero
  have hstart : OwnText.startsNumber (css (span n)) = false := rfl
  have hdigits : (css (span n)).drop 5 = css n.count := rfl
  rw [ofNumber?, if_neg (Bool.eq_false_iff.mp hstart), hdigits, read?_css, Option.bind_some]
  show (ofSpan n.count).toOption = _
  rw [ofSpan, hcount]
  rfl

def normal : GridLine → GridLine
  | named n => named n.normal
  | l => l

instance : Worded GridLine where
  wording
    | auto => .word "auto"
    | named n => .name n
    | l => .other (css l)
  ofWording?
    | .word _ => some auto
    | .name n => some (named n)
    | .other t => ofNumber? t
  normal := normal
  text_wording a := by cases a <;> rfl
  valid
    | auto => .word (by decide)
    | named _ => .name
    | line i => .other (whole_identToken_of_startsNumber (OwnText.startsNumber_integerText i.index))
    | span n => .other (by
        rw [css_span]
        exact whole_identToken_append (by decide) (by decide))
  ofWording?_normal
    | auto | named _ => rfl
    | line i => ofNumber?_line i
    | span n => ofNumber?_span n
  wording_normal a := by cases a <;> rfl

/-- The keyword, and a name that is spelled like it. -/
inductive Clash : GridLine → GridLine → Prop where
  | intro {n : CustomIdent} : n.name = "auto" → Clash auto (named n)

/-- For lines of a grid, the words are `auto` and `span`. -/
theorem clash_iff {a b : GridLine} : (wording a).Clash (wording b) ↔ Clash a b := by
  constructor
  · intro h
    cases a with
    | auto =>
      cases b with
      | named n =>
        obtain ⟨hname⟩ := h
        exact ⟨hname⟩
      | _ => exact nomatch h
    | _ => exact nomatch h
  · rintro ⟨hname⟩
    exact ⟨hname⟩

end GridLine

/-! ### Animations and styles of counters -/

def AnimationName.normal : AnimationName → AnimationName
  | .keyword => .keyword
  | .value n => .value n.normal

instance : Worded AnimationName where
  wording
    | .keyword => .word "none"
    | .value n => .name n
  ofWording?
    | .word _ => some .keyword
    | .name n => some (.value n)
    | .other _ => none
  normal := AnimationName.normal
  text_wording a := by cases a <;> rfl
  valid
    | .keyword => .word (by decide)
    | .value _ => .name
  ofWording?_normal a := by cases a <;> rfl
  wording_normal a := by cases a <;> rfl

inductive AnimationName.Clash : AnimationName → AnimationName → Prop where
  | intro {n : CustomIdent} : n.name = "none" → Clash .keyword (.value n)

theorem AnimationName.clash_iff {a b : AnimationName} :
    (wording a).Clash (wording b) ↔ AnimationName.Clash a b := by
  constructor
  · intro h
    cases a with
    | keyword =>
      cases b with
      | value n =>
        obtain ⟨hname⟩ := h
        exact ⟨hname⟩
      | keyword => exact nomatch h
    | value => exact nomatch h
  · rintro ⟨hname⟩
    exact ⟨hname⟩

instance : LawfulKeyword SpeakAsKeyword := ⟨fun k => by cases k <;> rfl⟩

namespace SpeakAs

def normal : SpeakAs → SpeakAs
  | keyword k => keyword k
  | counterStyle n => counterStyle n.normal

instance : Worded SpeakAs where
  wording
    | keyword k => .word (Keyword.keyword k)
    | counterStyle n => .name n
  ofWording?
    | .word w => (read? w.toList).map keyword
    | .name n => some (counterStyle n)
    | .other _ => none
  normal := normal
  text_wording a := by cases a <;> rfl
  valid
    | keyword k => .word (by cases k <;> decide)
    | counterStyle _ => .name
  ofWording?_normal
    | keyword k => congrArg (Option.map keyword) (read?_css k)
    | counterStyle _ => rfl
  wording_normal a := by cases a <;> rfl

inductive Clash : SpeakAs → SpeakAs → Prop where
  | intro {k : SpeakAsKeyword} {n : CustomIdent} : n.name = Keyword.keyword k →
      Clash (keyword k) (counterStyle n)

theorem clash_iff {a b : SpeakAs} : (wording a).Clash (wording b) ↔ Clash a b := by
  constructor
  · intro h
    cases a with
    | keyword k =>
      cases b with
      | counterStyle n =>
        obtain ⟨hname⟩ := h
        exact ⟨hname⟩
      | keyword => exact nomatch h
    | counterStyle => exact nomatch h
  · rintro ⟨hname⟩
    exact ⟨hname⟩

end SpeakAs

/-! ### Symbols of counters -/

namespace CounterSymbol

def normal : CounterSymbol → CounterSymbol
  | string s => string (canonical s)
  | ident n => ident n.normal
  | image i => image (canonical i)

/-- Only a string begins with a quote. -/
def ofOther? (t : List Char) : Option CounterSymbol :=
  if t.head? = some '"' then (read? t).map string else (read? t).map image

/-- An image does not begin as a string does. -/
theorem ofOther?_image {i : Image} (h : (css i).head? ≠ some '"') :
    ofOther? (css i) = some (image (canonical i)) := by
  rw [ofOther?, if_neg h, read?_css]
  rfl

theorem head_url (u : Url) : (css (Image.url u)).head? ≠ some '"' := by
  show (css u).head? ≠ _
  rw [u.css_eq]
  exact nofun

theorem head_gradient (g : LinearGradient) : (css (Image.gradient g)).head? ≠ some '"' := by
  show (css g).head? ≠ _
  rw [g.css_eq_call, call_ofList]
  cases g.repeating <;> exact nofun

instance : Worded CounterSymbol where
  wording
    | image .none => .word "none"
    | ident n => .name n
    | s => .other (css s)
  ofWording?
    | .word _ => some (image .none)
    | .name n => some (ident n)
    | .other t => ofOther? t
  normal := normal
  text_wording
    | image .none | ident _ | string _ | image (.url _) | image (.gradient _) => rfl
  valid
    | image .none => .word (by decide)
    | ident _ => .name
    | string _ => .other (whole_identToken_of_not rfl)
    | image (.url u) => .other (by
        show Reader.identToken.whole (css u) = none
        rw [u.css_eq]
        exact whole_identToken_append (by decide) (by decide))
    | image (.gradient g) => .other (by
        show Reader.identToken.whole (css g) = none
        rw [g.css_eq_call, call_ofList]
        exact whole_identToken_append (by cases g.repeating <;> decide) (by decide))
  ofWording?_normal
    | ident _ | image .none => rfl
    | string s => (if_pos rfl).trans (congrArg (Option.map string) (read?_css s))
    | image (.url u) => ofOther?_image (head_url u)
    | image (.gradient g) => ofOther?_image (head_gradient g)
  wording_normal
    | ident _ | image .none => rfl
    | string s => congrArg Wording.other (css_canonical s)
    | image (.url u) => congrArg Wording.other (css_canonical (Image.url u))
    | image (.gradient g) => congrArg Wording.other (css_canonical (Image.gradient g))

inductive Clash : CounterSymbol → CounterSymbol → Prop where
  | intro {n : CustomIdent} : n.name = "none" → Clash (image .none) (ident n)

theorem clash_iff {a b : CounterSymbol} : (wording a).Clash (wording b) ↔ Clash a b := by
  constructor
  · intro h
    cases a with
    | image i =>
      cases b with
      | ident n =>
        cases i with
        | none =>
          obtain ⟨hname⟩ := h
          exact ⟨hname⟩
        | _ => exact nomatch h
      | string => cases i <;> exact nomatch h
      | image j => cases i <;> cases j <;> exact nomatch h
    | _ => exact nomatch h
  · rintro ⟨hname⟩
    exact ⟨hname⟩

end CounterSymbol

/-! ### Telling values apart -/

/-- **Only a name spelled like a keyword is confused with it.** In each of the grammars one
text means one value, but for null characters, the sign of zero and the payload of NaN,
unless one of the two is a keyword and the other a name with its spelling. -/
theorem texts_tell_apart (l l' : GridLine) (a a' : AnimationName) (s s' : SpeakAs)
    (c c' : CounterSymbol) :
    ((css l = css l' → l.normal = l'.normal) ↔ ¬(l.Clash l' ∨ l'.Clash l)) ∧
    ((css a = css a' → a.normal = a'.normal) ↔ ¬(a.Clash a' ∨ a'.Clash a)) ∧
    ((css s = css s' → s.normal = s'.normal) ↔ ¬(s.Clash s' ∨ s'.Clash s)) ∧
    ((css c = css c' → c.normal = c'.normal) ↔ ¬(c.Clash c' ∨ c'.Clash c)) := by
  rw [← GridLine.clash_iff, ← GridLine.clash_iff, ← AnimationName.clash_iff,
    ← AnimationName.clash_iff, ← SpeakAs.clash_iff, ← SpeakAs.clash_iff,
    ← CounterSymbol.clash_iff, ← CounterSymbol.clash_iff]
  exact ⟨Worded.tells_apart_iff l l', Worded.tells_apart_iff a a', Worded.tells_apart_iff s s',
    Worded.tells_apart_iff c c'⟩

/-- None of the grammars sets its keywords aside, so that a name can be spelled like any. -/
theorem keywords_taken_as_names :
    (∃ n, CustomIdent.of "auto" = .ok n ∧ css (GridLine.named n) = css GridLine.auto ∧
      (GridLine.named n).normal ≠ GridLine.auto.normal) ∧
    (∃ n, CustomIdent.of "none" = .ok n ∧
      css (.value n : AnimationName) = css (.keyword : AnimationName) ∧
      AnimationName.normal (.value n) ≠ AnimationName.normal .keyword) ∧
    (∀ k, ∃ n, CustomIdent.of (Keyword.keyword k) = .ok n ∧
      css (SpeakAs.counterStyle n) = css (SpeakAs.keyword k) ∧
      (SpeakAs.counterStyle n).normal ≠ (SpeakAs.keyword k).normal) ∧
    ∃ n, CustomIdent.of "none" = .ok n ∧
      css (CounterSymbol.ident n) = css (CounterSymbol.image .none) ∧
      (CounterSymbol.ident n).normal ≠ (CounterSymbol.image .none).normal := by
  have hauto := exists_customIdent (w := "auto") (by decide) (by decide)
  have hnone := exists_customIdent (w := "none") (by decide) (by decide)
  have hkeyword (k : SpeakAsKeyword) :=
    exists_customIdent (w := Keyword.keyword k) (by cases k <;> decide) (by cases k <;> decide)
  exact ⟨hauto.imp fun _ h => ⟨h.1, h.2, nofun⟩, hnone.imp fun _ h => ⟨h.1, h.2, nofun⟩,
    fun k => (hkeyword k).imp fun _ h => ⟨h.1, h.2, nofun⟩,
    hnone.imp fun _ h => ⟨h.1, h.2, nofun⟩⟩

end Stylesheet
