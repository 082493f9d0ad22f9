import Stylesheet.Proofs.Reading.Escape

/-! Splitting a list at its separators.

The scan knows which brackets are open, and whether it stands in a string or in an escape. A
code point in hexadecimal takes the one space behind its digits, so that this space is never
the one between two items. A separator counts where nothing is open. Texts that leave nothing
open come apart again where a separator joined them, if its first character stands nowhere
outside in them. -/
namespace Stylesheet

/-! ### The scan -/

/-- What the next character belongs to. -/
inductive Place where
  | bare
  | escape
  /-- Behind so many digits of a code point. -/
  | hex (count : Nat)
  | string (quote : Char)
  | stringEscape (quote : Char)
  deriving DecidableEq

/-- What comes after a character that belongs to a string or to an escape. A code point has at
most six digits and at most one space behind them. -/
def Place.within : Place → Char → Option Place
  | bare, _ => none
  | escape, c => some (if isHexDigit c then hex 1 else bare)
  | hex count, c =>
    if isHexDigit c && decide (count < 6) then some (hex (count + 1))
    else if isSpace c then some bare
    else none
  | string quote, c =>
    some (if c = quote then bare else if c = '\\' then stringEscape quote else string quote)
  | stringEscape quote, _ => some (string quote)

/-- The brackets that are open stand with the innermost first. -/
structure ItemScan where
  place : Place
  opened : List Bracket
  deriving DecidableEq

namespace ItemScan

/-- Nothing is open. -/
def start : ItemScan := ⟨.bare, []⟩

/-- A character outside of strings and escapes. -/
def stepBare (opened : List Bracket) (c : Char) : Option ItemScan :=
  if c = '"' ∨ c = '\x27' then some ⟨.string c, opened⟩
  else if c = '\\' then some ⟨.escape, opened⟩
  else match Bracket.opened? c, Bracket.closed? c with
    | some b, _ => some ⟨.bare, b :: opened⟩
    | none, none => some ⟨.bare, opened⟩
    | none, some b => if opened.head? = some b then some ⟨.bare, opened.tail⟩ else none

def step (s : ItemScan) (c : Char) : Option ItemScan :=
  match s.place.within c with
  | some place => some ⟨place, s.opened⟩
  | none => stepBare s.opened c

/-- Nothing when a bracket closes that is not the innermost open one. -/
def run (s : ItemScan) : List Char → Option ItemScan
  | [] => some s
  | c :: t => (s.step c).bind fun s' => s'.run t

/-- Whether a character stands outside of all strings, escapes and brackets. -/
def isOuter (s : ItemScan) (c : Char) : Bool := s.opened.isEmpty && (s.place.within c).isNone

/-- The characters that stand outside. -/
def outer (s : ItemScan) : List Char → List Char
  | [] => []
  | c :: t =>
    let rest := ((s.step c).map fun s' => s'.outer t).getD []
    if s.isOuter c then c :: rest else rest

/-- The texts between the outer separators; `skip` characters of one are still ahead. -/
def split (separator : List Char) : (skip : Nat) → ItemScan → List Char → NonEmpty (List Char)
  | _, _, [] => .single []
  | skip + 1, s, _ :: t => split separator skip s t
  | 0, s, c :: t =>
    if s.isOuter c && separator.isPrefixOf (c :: t) then
      ⟨[], (split separator (separator.length - 1) start t).toList⟩
    else
      match s.step c with
      | none => .single (c :: t)
      | some s' => (split separator 0 s' t).modifyFirst (c :: ·)

end ItemScan

def splitSeparated (separator : String) (t : List Char) : NonEmpty (List Char) :=
  ItemScan.split separator.toList 0 .start t

/-- The text leaves nothing open, and the mark stands nowhere outside. -/
structure IsItem (mark : Char) (t : List Char) : Prop where
  run_eq : ItemScan.start.run t = some .start
  not_mem : mark ∉ ItemScan.start.outer t

variable {mark c : Char} {t u cs : List Char} {ts : List (List Char)}

/-- An item is closed, and has no mark outside. -/
theorem isItem_iff : IsItem mark t ↔
    ItemScan.start.run t = some .start ∧ mark ∉ ItemScan.start.outer t :=
  ⟨fun h => ⟨h.run_eq, h.not_mem⟩, fun h => ⟨h.1, h.2⟩⟩

instance : Decidable (IsItem mark t) := decidable_of_iff' _ isItem_iff

/-! ### Passing over an item -/

namespace ItemScan
variable {s s' s'' : ItemScan} {n : List Bracket}

/-- The scan goes over the text from `s` to `s'`, and no outer character of it is the mark. -/
inductive Passes (mark : Char) : ItemScan → List Char → ItemScan → Prop where
  | nil {s : ItemScan} : Passes mark s [] s
  | cons {s s' s'' : ItemScan} {c : Char} {t : List Char} : s.step c = some s' →
      (s.isOuter c → c ≠ mark) → Passes mark s' t s'' → Passes mark s (c :: t) s''

theorem passes_iff : Passes mark s t s' ↔ s.run t = some s' ∧ mark ∉ s.outer t := by
  constructor
  · intro h
    induction h with
    | nil => exact ⟨rfl, List.not_mem_nil⟩
    | cons hstep hmark _ ih =>
      rw [run, outer, hstep, Option.bind_some]
      refine ⟨ih.1, ?_⟩
      split
      case isTrue houter => exact List.not_mem_cons_of_ne_of_not_mem (hmark houter).symm ih.2
      case isFalse => exact ih.2
  · rintro ⟨hrun, hmem⟩
    induction t generalizing s with
    | nil =>
      obtain rfl := Option.some.inj hrun
      exact .nil
    | cons c t ih =>
      obtain ⟨s₁, hstep, hrun⟩ := Option.bind_eq_some_iff.mp hrun
      rw [outer, hstep] at hmem
      split at hmem
      case isTrue =>
        obtain ⟨hne, hmem⟩ := not_or.mp (mt List.mem_cons.mpr hmem)
        exact .cons hstep (fun _ => Ne.symm hne) (ih hrun hmem)
      case isFalse houter => exact .cons hstep (fun h => absurd h houter) (ih hrun hmem)

/-- One text after the other. -/
theorem Passes.append (h : Passes mark s t s') (h' : Passes mark s' u s'') :
    Passes mark s (t ++ u) s'' := by
  induction h with
  | nil => exact h'
  | cons hstep hmark _ ih => exact .cons hstep hmark (ih h')

/-- A character of a string or of an escape is never the mark. -/
theorem Passes.within {place : Place} (hplace : s.place.within c = some place)
    (h : Passes mark ⟨place, s.opened⟩ t s') : Passes mark s (c :: t) s' := by
  refine .cons ?_ (fun houter => ?_) h
  · rw [step, hplace]
  · rw [isOuter, hplace, Option.isNone_some, Bool.and_false] at houter
    exact nomatch houter

/-! ### Splitting -/

/-- A text that is passed over stays whole. -/
theorem Passes.split_append (h : Passes mark s t s') (lead u : List Char) :
    split (mark :: lead) 0 s (t ++ u) =
      (split (mark :: lead) 0 s' u).modifyFirst (t ++ ·) := by
  induction h with
  | nil => rfl
  | @cons s _ _ c t hstep hmark _ ih =>
    -- a separator that counts would begin with an outer mark
    have hsep : ¬(s.isOuter c && (mark :: lead).isPrefixOf (c :: (t ++ u))) := by
      rw [Bool.and_eq_true, List.isPrefixOf_cons_cons, Bool.and_eq_true, beq_iff_eq]
      exact fun h => hmark h.1 h.2.1.symm
    rw [List.cons_append, split, if_neg hsep, hstep]
    simp only [ih]
    rfl

theorem split_skip (separator u t : List Char) :
    split separator u.length s (u ++ t) = split separator 0 s t := by
  induction u with
  | nil => rfl
  | cons c u ih => exact ih

theorem split_separator (mark : Char) (lead t : List Char) :
    start.split (mark :: lead) 0 (mark :: lead ++ t) =
      ⟨[], (start.split (mark :: lead) 0 t).toList⟩ := by
  have hbegins : (mark :: lead).isPrefixOf (mark :: (lead ++ t)) :=
    List.isPrefixOf_iff_prefix.mpr (List.prefix_append (mark :: lead) t)
  have hsep : start.isOuter mark && (mark :: lead).isPrefixOf (mark :: (lead ++ t)) := by
    rw [hbegins]
    rfl
  rw [List.cons_append, split, if_pos hsep]
  exact congrArg (fun u : NonEmpty (List Char) => (⟨[], u.toList⟩ : NonEmpty (List Char)))
    (split_skip (mark :: lead) lead t)

end ItemScan

theorem isItem_iff_passes : IsItem mark t ↔ ItemScan.Passes mark .start t .start :=
  isItem_iff.trans ItemScan.passes_iff.symm

/-- An item ends at the separator behind it. -/
theorem IsItem.splitSeparated_append {separator : String} (h : IsItem mark t)
    (hmark : separator.toList.head? = some mark) (u : List Char) :
    splitSeparated separator (t ++ (separator.toList ++ u)) =
      ⟨t, (splitSeparated separator u).toList⟩ := by
  obtain ⟨lead, hseparator⟩ := List.head?_eq_some_iff.mp hmark
  have hpasses := isItem_iff_passes.mp h
  rw [splitSeparated, splitSeparated, hseparator, hpasses.split_append, ItemScan.split_separator]
  simp [NonEmpty.modifyFirst]

/-- An item on its own is not split. -/
theorem IsItem.splitSeparated_self {separator : String} (h : IsItem mark t)
    (hmark : separator.toList.head? = some mark) : splitSeparated separator t = ⟨t, []⟩ := by
  obtain ⟨lead, hseparator⟩ := List.head?_eq_some_iff.mp hmark
  have hpasses := isItem_iff_passes.mp h
  have hsplit := hpasses.split_append lead []
  rw [List.append_nil] at hsplit
  rw [splitSeparated, hseparator, hsplit]
  simp [ItemScan.split, NonEmpty.single, NonEmpty.modifyFirst]

/-- **Items come apart where a separator joined them.** -/
theorem splitSeparated_joined {separator : String} (hmark : separator.toList.head? = some mark)
    (h : ∀ u ∈ t :: ts, IsItem mark u) :
    splitSeparated separator (joined separator.toList (t :: ts)) = ⟨t, ts⟩ :=
  cut_joined (fun _ hu => hu.splitSeparated_self hmark)
    (fun _ v hu => hu.splitSeparated_append hmark v) h

/-! ### Names -/

namespace ItemScan
variable {s : ItemScan} {n : List Bracket}

theorem stepBare_nameChar (h : isNameChar c) : stepBare n c = some ⟨.bare, n⟩ := by
  have hplain := isPlain_of_isNameChar h
  have hquote : ¬(c = '"' ∨ c = '\x27') := by
    rintro (rfl | rfl) <;> exact absurd h (by decide)
  rw [stepBare, if_neg hquote, if_neg (ne_of_isPlain hplain (by decide)),
    Scan.opened?_plain hplain, Scan.closed?_plain hplain]

theorem Passes.nameChar (h : isNameChar c) (hmark : c ≠ mark)
    (ht : Passes mark ⟨.bare, n⟩ t s) : Passes mark ⟨.bare, n⟩ (c :: t) s :=
  .cons (stepBare_nameChar h) (fun _ => hmark) ht

theorem Passes.backslash (hmark : mark ≠ '\\') (ht : Passes mark ⟨.escape, n⟩ t s) :
    Passes mark ⟨.bare, n⟩ ('\\' :: t) s :=
  .cons rfl (fun _ => hmark.symm) ht

/-- The digits that are left of a code point, and the space behind them. -/
theorem Passes.hexDigits {ds : List Char} {count : Nat} (hds : ∀ d ∈ ds, isHexDigit d)
    (hcount : count + ds.length ≤ 6) :
    Passes mark ⟨.hex count, n⟩ (ds ++ [' ']) ⟨.bare, n⟩ := by
  induction ds generalizing count with
  | nil =>
    have hspace : Place.within (.hex count) ' ' = some .bare := rfl
    exact .within hspace .nil
  | cons d ds ih =>
    rw [List.forall_mem_cons] at hds
    rw [List.length_cons] at hcount
    have hlt : count < 6 := by omega
    have hdigit : Place.within (.hex count) d = some (.hex (count + 1)) := by
      simp [Place.within, hds.1, hlt]
    exact .within hdigit (ih hds.2 (by omega))

/-- An escape is passed over, whatever the character. -/
theorem Passes.hexEscape (hmark : mark ≠ '\\') (c : Char) :
    Passes mark ⟨.bare, n⟩ (hexEscape c) ⟨.bare, n⟩ := by
  have hlength := length_toDigits_toNat_le c
  obtain ⟨d, ds, hdigits, htext, hd, hds⟩ := exists_hexDigits c
  rw [hdigits, List.length_cons] at hlength
  have hdigit : Place.within .escape d = some (.hex 1) := by simp [Place.within, hd]
  rw [htext]
  exact .backslash hmark (.within hdigit (.hexDigits hds (by omega)))

/-- What spells a name is passed over: the space behind digits belongs to the escape, and every
other character that could end a name stands behind a backslash. -/
theorem Passes.of_spells (h : Spells isNameChar t cs) (hmark : nameEnd mark) :
    Passes mark ⟨.bare, n⟩ t ⟨.bare, n⟩ := by
  rw [nameEnd, Bool.and_eq_true, Bool.not_eq_true', bne_iff_ne] at hmark
  obtain ⟨hname, hescape⟩ := hmark
  induction h with
  | nil => exact .nil
  | bare hc _ _ ih =>
    refine .nameChar hc ?_ ih
    rintro rfl
    exact absurd hc (Bool.eq_false_iff.mp hname)
  | @escaped c t cs hhex _ _ ih =>
    have hchar : Place.within .escape c = some .bare := by simp [Place.within, hhex]
    exact .backslash hescape (.within hchar ih)
  | hex _ _ ih => exact (Passes.hexEscape hescape _).append ih

end ItemScan

/-- **A name is an item** for every mark that can end a name. -/
theorem CustomIdent.isItem (i : CustomIdent) (hmark : nameEnd mark) : IsItem mark (css i) :=
  isItem_iff_passes.mpr (.of_spells (spells_escapeIdentifier i.name.toList) hmark)

end Stylesheet
