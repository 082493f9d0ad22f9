import Stylesheet.Proofs.Reading.Quantity
import Stylesheet.Proofs.Reading.Token
import Stylesheet.Proofs.Selector.Normal
import Stylesheet.Rule.Registration

/-! Reading the grammar of a registered property back.

Two layers of escapes lie over each other. The names in the grammar are escaped first, and
what comes of that is quoted. Escaped names have no control characters, so the string gives
back character for character what was quoted. That is cut at the bars between the terms,
since a bar in a name stands behind a backslash, and so does whatever else could be taken
for the end of a name. -/
namespace Stylesheet

/-! ### The readers -/

/-- The texts between bars with a space on either side; a backslash protects what is behind
it. -/
def cutBars : List Char → NonEmpty (List Char)
  | [] => .single []
  | '\\' :: c :: t => (cutBars t).modifyFirst ('\\' :: c :: ·)
  | ' ' :: '|' :: ' ' :: t => ⟨[], (cutBars t).toList⟩
  | c :: t => (cutBars t).modifyFirst (c :: ·)

namespace Reader

/-- A data type in its angle brackets. -/
def dataType : Reader DataType := keyword (!oneOf ['+', '#'] ·)

/-- A name, which is no keyword of all properties. -/
def identTerm : Reader CustomIdent :=
  identToken.pick fun cs => (CustomIdent.of (String.ofList cs)).toOption

/-- At most one, with nothing behind it. -/
def multiplier : Reader (Option Multiplier) := opt (fun _ => true) (keyword fun _ => true)

/-- A type or a name, with a multiplier or without. -/
def grammarTerm : Reader GrammarTerm :=
  fork (· == '<') (do let type ← dataType; return .type type (← multiplier))
    (do let name ← identTerm; return .ident name (← multiplier))

end Reader

/-- The term as it reads back, with the replacement character for null characters. -/
def GrammarTerm.normal : GrammarTerm → GrammarTerm
  | type t m => type t m
  | ident n m => ident n.normal m

/-! ### Cutting at bars -/

theorem Guarded.head_append_ne {t u : List Char} (h : Guarded '|' t) (hu : u.head? ≠ some '|') :
    (t ++ u).head? ≠ some '|' := by
  cases h with
  | nil => exact hu
  | bare _ hbar => exact fun heq => hbar (Option.some.inj heq)
  | escaped => exact fun heq => absurd (Option.some.inj heq) (by decide)

/-- A text that guards its bars stays whole, and a space at its end is not taken for the one
before a bar if none follows. -/
theorem Guarded.cutBars_append {t u : List Char} (h : Guarded '|' t) (hu : u.head? ≠ some '|') :
    cutBars (t ++ u) = (cutBars u).modifyFirst (t ++ ·) := by
  induction h with
  | nil => rfl
  | bare hescape _ htail ih =>
    rw [List.cons_append, cutBars, ih]
    · rfl
    · exact fun _ _ heq _ => hescape heq
    · intro v _ heq
      have hhead := htail.head_append_ne hu
      rw [heq] at hhead
      exact hhead rfl
  | escaped _ ih =>
    rw [List.cons_append, List.cons_append, cutBars, ih]
    rfl

/-- **Texts joined by bars are cut where they were joined.** -/
theorem cutBars_joined {t : List Char} {ts : List (List Char)} (h : ∀ u ∈ t :: ts, Guarded '|' u) :
    cutBars (joined [' ', '|', ' '] (t :: ts)) = ⟨t, ts⟩ := by
  refine cut_joined (fun u hu => ?_) (fun u v hu => ?_) h
  · have hcut := hu.cutBars_append (u := []) nofun
    rw [List.append_nil] at hcut
    rw [hcut]
    simp [cutBars, NonEmpty.single, NonEmpty.modifyFirst]
  · have hspace : ([' ', '|', ' '] ++ v).head? ≠ some '|' :=
      fun heq => absurd (Option.some.inj heq) (by decide)
    have hbar : cutBars ([' ', '|', ' '] ++ v) = ⟨[], (cutBars v).toList⟩ := rfl
    rw [hu.cutBars_append hspace, hbar]
    simp [NonEmpty.modifyFirst]

/-- Only bars between terms have no backslash before them. -/
theorem GrammarTerm.guarded (t : GrammarTerm) : Guarded '|' (css t) := by
  have hmultiplier (m : Option Multiplier) : Guarded '|' (clause "" m) := by
    match m with
    | none | some .spaceList | some .commaList => exact .of_all rfl
  cases t with
  | type t m =>
    refine Guarded.append (.of_all ?_) (hmultiplier m)
    cases t <;> decide
  | ident n m =>
    have hname : Guarded '|' (css n) :=
      (spells_escapeIdentifier n.name.toList).guarded rfl (by decide)
    exact hname.append (hmultiplier m)

/-! ### Reading terms -/

instance : LawfulKeyword DataType := ⟨fun t => by cases t <;> rfl⟩

instance : LawfulKeyword Multiplier := ⟨fun m => by cases m <;> rfl⟩

theorem ends_multiplier {e : Char → Bool} (m : Option Multiplier) (hspace : e '+')
    (hcomma : e '#') : Ends e (clause "" m) := by
  match m with
  | none => exact .nil
  | some .spaceList => exact .cons hspace
  | some .commaList => exact .cons hcomma

/-- A multiplier is the last of a term. -/
theorem reads_multiplier (m : Option Multiplier) :
    Reads Reader.multiplier (clause "" m) m (· = []) := by
  have hend : ∀ rest, rest = [] → Ends (fun c => !(fun _ => true) c) rest := by
    rintro _ rfl
    exact .nil
  cases m with
  | none => exact Reads.opt_none.mono hend
  | some m =>
    have hread : Reads (Reader.keyword fun _ => true) (css m) m _ :=
      .keyword (List.all_eq_true.mpr fun _ _ => rfl)
    cases m <;> exact (Reads.opt_some hread rfl).mono hend

/-- A multiplier, or none, behind a text that ends at either. -/
theorem reads_before_multiplier {α : Type} {p : Reader α} {t : List Char} {a : α} {e : Char → Bool}
    (hp : Reads p t a (Ends e)) (hspace : e '+') (hcomma : e '#')
    (f : α → Option Multiplier → GrammarTerm) (m : Option Multiplier) :
    Reads (do let a ← p; return f a (← Reader.multiplier)) (t ++ clause "" m) (f a m) (· = []) := by
  refine hp.bind (f := fun a => f a <$> Reader.multiplier) ((reads_multiplier m).map (f a)) ?_
  rintro _ rfl
  rw [List.append_nil]
  exact ends_multiplier m hspace hcomma

theorem reads_identTerm (n : CustomIdent) :
    Reads Reader.identTerm (css n) n.normal (Ends nameEnd) :=
  n.reads_token.pick (congrArg Except.toOption n.normal.of_name)

/-- **A term is read back**: no name begins like a data type. -/
theorem reads_grammarTerm (t : GrammarTerm) :
    Reads Reader.grammarTerm (css t) t.normal (· = []) := by
  cases t with
  | type t m =>
    have htype : Reads Reader.dataType (css t) t _ := .keyword (by cases t <;> decide)
    have hread := reads_before_multiplier htype rfl rfl .type m
    obtain ⟨u, htext⟩ : ∃ u, css t ++ clause "" m = '<' :: u := by cases t <;> exact ⟨_, rfl⟩
    show Reads _ (css t ++ clause "" m) _ _
    rw [htext] at hread ⊢
    exact .fork_left hread rfl
  | ident n m =>
    have hread := reads_before_multiplier (reads_identTerm n) (by decide) (by decide) .ident m
    obtain ⟨d, u, htext, hd⟩ := head_identifier n.toIdentifier
    have hhead : (d == '<') = false := by
      rw [beq_eq_false_iff_ne]
      rintro rfl
      exact absurd hd (by decide)
    show Reads _ (css n.toIdentifier ++ clause "" m) _ _
    change Reads _ (css n.toIdentifier ++ clause "" m) _ _ at hread
    rw [htext] at hread ⊢
    exact .fork_right_cons hread hhead

instance : Readable GrammarTerm where
  read? := Reader.grammarTerm.whole
  canonical := GrammarTerm.normal
  read?_css t := (reads_grammarTerm t).whole rfl
  css_canonical
    | .type _ _ => rfl
    | .ident n m => congrArg (· ++ clause "" m) n.css_normal

/-! ### What is quoted -/

/-- What a string holds without an escape. -/
def isTextChar (c : Char) : Bool := !isControl c

theorem isTextChar_of_isNameChar {c : Char} (h : isNameChar c) : isTextChar c := by
  by_cases hlt : c.toNat < 0x80
  · exact of_ascii (p := fun c => isNameChar c → isTextChar c) (by decide) hlt h
  · have hwide : ¬c.toNat < 0x20 ∧ c.toNat ≠ 0x7f := by omega
    simp [isTextChar, isControl, hwide.1, hwide.2]

theorem all_isTextChar_hexEscape (c : Char) : (hexEscape c).all isTextChar := by
  have hdigits : (Nat.toDigits 16 c.toNat).all isTextChar := List.all_eq_true.mpr fun d hd =>
    isTextChar_of_isNameChar (isNameChar_of_isHexDigit (isHexDigit_of_mem_toDigits _ d hd))
  rw [hexEscape, List.all_cons, List.all_append, hdigits]
  rfl

theorem all_isTextChar_escapeNameChar (c : Char) : (escapeNameChar c).all isTextChar := by
  unfold escapeNameChar
  split
  · rfl
  split
  case isTrue hname =>
    rw [List.all_cons, isTextChar_of_isNameChar hname]
    rfl
  split
  case isTrue => exact all_isTextChar_hexEscape c
  case isFalse hcontrol =>
    rw [List.all_cons, List.all_cons, isTextChar, isTextChar, Bool.eq_false_iff.mpr hcontrol]
    rfl

theorem all_isTextChar_escapeName (cs : List Char) : (escapeName cs).all isTextChar := by
  rw [escapeName, List.all_flatMap]
  exact List.all_eq_true.mpr fun c _ => all_isTextChar_escapeNameChar c

theorem all_isTextChar_escapeNameStart (cs : List Char) :
    (escapeNameStart cs).all isTextChar := by
  cases cs with
  | nil => rfl
  | cons c cs =>
    rw [escapeNameStart, List.all_append, all_isTextChar_escapeName, Bool.and_true]
    split
    · exact all_isTextChar_hexEscape c
    · exact all_isTextChar_escapeNameChar c

/-- Escaped names have no control characters. -/
theorem all_isTextChar_escapeIdentifier (cs : List Char) :
    (escapeIdentifier cs).all isTextChar := by
  unfold escapeIdentifier
  split
  · rw [List.all_cons, List.all_cons, all_isTextChar_escapeName]
    rfl
  · rfl
  · rw [List.all_cons, all_isTextChar_escapeNameStart]
    rfl
  · exact all_isTextChar_escapeNameStart _

theorem all_joined {separator : List Char} {ts : List (List Char)} {p : Char → Bool}
    (hseparator : separator.all p) (h : ∀ t ∈ ts, t.all p) : (joined separator ts).all p := by
  cases ts with
  | nil => rfl
  | cons t ts =>
    rw [List.forall_mem_cons] at h
    rw [joined_cons, List.all_append, h.1, Bool.true_and, List.all_flatMap]
    refine List.all_eq_true.mpr fun u hu => ?_
    rw [List.all_append, hseparator, h.2 u hu]
    rfl

namespace GrammarTerm

/-- A term is written without control characters, since names escape them. -/
theorem all_isTextChar (t : GrammarTerm) : (css t).all isTextChar := by
  have hmultiplier (m : Option Multiplier) : (clause "" m).all isTextChar := by
    match m with
    | none | some .spaceList | some .commaList => rfl
  cases t with
  | type t m =>
    show (css t ++ clause "" m).all isTextChar = true
    rw [List.all_append, hmultiplier]
    cases t <;> rfl
  | ident n m =>
    show (escapeIdentifier n.name.toList ++ clause "" m).all isTextChar = true
    rw [List.all_append, hmultiplier, all_isTextChar_escapeIdentifier]
    rfl

/-- No term begins with a star, which is kept for the universal grammar. -/
theorem head_ne_star (t : GrammarTerm) (u : List Char) : (css t ++ u).head? ≠ some '*' := by
  cases t with
  | type t m => cases t <;> exact fun h => absurd (Option.some.inj h) (by decide)
  | ident n m =>
    obtain ⟨d, v, htext, hd⟩ := head_identifier n.toIdentifier
    show (css n.toIdentifier ++ clause "" m ++ u).head? ≠ _
    rw [htext]
    intro h
    rw [Option.some.inj h] at hd
    exact absurd hd (by decide)

end GrammarTerm

namespace ValueGrammar

theorem plain_alternatives (terms : NonEmpty GrammarTerm) :
    (alternatives terms).plain = joined [' ', '|', ' '] (css terms.first :: terms.rest.map css) :=
  rfl

/-- **Only the universal grammar is a star.** -/
theorem plain_eq_star {g : ValueGrammar} : g.plain = ['*'] ↔ g = universal := by
  cases g with
  | universal => exact iff_of_true rfl rfl
  | alternatives terms =>
    refine iff_of_false (fun h => ?_) nofun
    have hhead := terms.first.head_ne_star ((terms.rest.map css).flatMap ([' ', '|', ' '] ++ ·))
    rw [← joined_cons, ← plain_alternatives, h] at hhead
    exact hhead rfl

theorem all_isTextChar (g : ValueGrammar) : g.plain.all isTextChar := by
  cases g with
  | universal => rfl
  | alternatives terms =>
    exact all_joined rfl (List.forall_mem_map.mpr fun t _ => t.all_isTextChar)

/-- The string gives back what was quoted. -/
theorem reads_string (g : ValueGrammar) : Reads Reader.stringToken (css g) g.plain Anything := by
  have hnull : '\x00' ∉ g.plain := fun h =>
    absurd (List.all_eq_true.mp g.all_isTextChar _ h) (by decide)
  have hread := reads_stringToken g.plain
  rwa [map_replaced_of_not_mem hnull] at hread

/-- Terms are cut at the bars, since a bar in a name is escaped. -/
theorem cutBars_plain (terms : NonEmpty GrammarTerm) :
    cutBars (alternatives terms).plain = ⟨css terms.first, terms.rest.map css⟩ := by
  rw [plain_alternatives]
  exact cutBars_joined (List.forall_mem_cons.mpr
    ⟨terms.first.guarded, List.forall_mem_map.mpr fun t _ => t.guarded⟩)

/-- The grammar that is quoted. -/
def ofContent? (t : List Char) : Option ValueGrammar :=
  if t = ['*'] then some universal
  else do return alternatives ⟨← read? (cutBars t).first, ← (cutBars t).rest.mapM read?⟩

/-- The grammar as it reads back. -/
def normal : ValueGrammar → ValueGrammar
  | universal => universal
  | alternatives terms => alternatives ⟨terms.first.normal, terms.rest.map .normal⟩

/-- **A grammar reads back from its text.** -/
theorem ofContent?_plain (g : ValueGrammar) : ofContent? g.plain = some g.normal := by
  cases g with
  | universal => exact if_pos rfl
  | alternatives terms =>
    have hne : (alternatives terms).plain ≠ ['*'] := fun h => nomatch plain_eq_star.mp h
    rw [ofContent?, if_neg hne, cutBars_plain, read?_css, mapM_read?_css]
    rfl

/-- **A grammar survives both layers of escapes.** Its text is one string. What that holds is
a single star for the grammar of everything, and otherwise the terms between bars, each of
which reads back as itself. -/
theorem grammar_reads_back :
    (∀ g : ValueGrammar, Reads Reader.stringToken (css g) g.plain Anything) ∧
    (∀ g : ValueGrammar, g.plain = ['*'] ↔ g = universal) ∧
    (∀ terms, (cutBars (alternatives terms).plain).toList = terms.toList.map css) ∧
    (∀ t : GrammarTerm, Reader.grammarTerm.whole (css t) = some t.normal) ∧
    ∀ g : ValueGrammar, (Reader.stringToken.whole (css g)).bind ofContent? = some g.normal := by
  refine ⟨reads_string, fun g => plain_eq_star, fun terms => ?_, read?_css, fun g => ?_⟩
  · rw [cutBars_plain]
    rfl
  · rw [g.reads_string.whole trivial, Option.bind_some, ofContent?_plain]

end ValueGrammar
end Stylesheet
