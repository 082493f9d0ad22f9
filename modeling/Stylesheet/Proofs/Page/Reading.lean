import Stylesheet.Proofs.Reading.Cut
import Stylesheet.Proofs.Reading.Escape
import Stylesheet.Rule.Page

/-! Reading the selectors of a page rule back.

The names of pages are escaped, so that the commas between the selectors are those without a
backslash before them. A selector is then read by making it again: from its name, with one
pseudo-class after the other. Both may be missing, and a selector without either is written as
nothing at all. -/
namespace Stylesheet

/-! ### Cutting at marks without a backslash -/

/-- The texts between the marks; a backslash protects what is behind it. -/
def splitUnescaped (mark : Char) : List Char → NonEmpty (List Char)
  | [] => .single []
  | '\\' :: c :: t => (splitUnescaped mark t).modifyFirst ('\\' :: c :: ·)
  | c :: t =>
    if c = mark then ⟨[], (splitUnescaped mark t).toList⟩
    else (splitUnescaped mark t).modifyFirst (c :: ·)

variable {mark : Char} {t u : List Char} {ts : List (List Char)}

/-- A text that guards its marks stays whole. -/
theorem Guarded.splitUnescaped_append (h : Guarded mark t) (u : List Char) :
    splitUnescaped mark (t ++ u) = (splitUnescaped mark u).modifyFirst (t ++ ·) := by
  induction h with
  | nil => rfl
  | bare hescape hmark _ ih =>
    rw [List.cons_append, splitUnescaped, if_neg hmark, ih]
    · rfl
    · exact fun _ _ heq _ => hescape heq
  | escaped _ ih =>
    rw [List.cons_append, List.cons_append, splitUnescaped, ih]
    rfl

theorem Guarded.joined {separator : List Char} (hseparator : Guarded mark separator)
    (h : ∀ u ∈ ts, Guarded mark u) : Guarded mark (joined separator ts) := by
  induction ts with
  | nil => exact .nil
  | cons t ts ih =>
    rw [List.forall_mem_cons] at h
    cases ts with
    | nil => exact h.1
    | cons => exact (h.1.append hseparator).append (ih h.2)

/-- A text is split at the first mark that has no backslash in front. -/
theorem Guarded.splitUnescaped_mark (h : Guarded mark t) (hmark : mark ≠ '\\') (u : List Char) :
    splitUnescaped mark (t ++ mark :: u) = ⟨t, (splitUnescaped mark u).toList⟩ := by
  have hcut : splitUnescaped mark (mark :: u) = ⟨[], (splitUnescaped mark u).toList⟩ := by
    rw [splitUnescaped, if_pos rfl]
    exact fun _ _ heq _ => hmark heq
  rw [h.splitUnescaped_append, hcut]
  simp [NonEmpty.modifyFirst]

/-- A guarded text has none. -/
theorem Guarded.splitUnescaped_self (h : Guarded mark t) : splitUnescaped mark t = ⟨t, []⟩ := by
  have hcut := h.splitUnescaped_append []
  rw [List.append_nil] at hcut
  rw [hcut]
  simp [splitUnescaped, NonEmpty.single, NonEmpty.modifyFirst]

/-- A list is split where it was joined. -/
theorem splitUnescaped_joined (lead : List Char) (hmark : mark ≠ '\\')
    (hlead : Guarded mark lead) (h : ∀ u ∈ t :: ts, Guarded mark u) :
    splitUnescaped mark (joined (mark :: lead) (t :: ts)) = ⟨t, ts.map (lead ++ ·)⟩ :=
  split_joined lead (fun _ hu => hu.splitUnescaped_self)
    (fun _ v hu => hu.splitUnescaped_mark hmark v) (fun _ hu => hlead.append hu) h

/-! ### Making a selector -/

namespace PageSelector

/-- What a selector is made from. -/
inductive Origin where
  | empty
  | named (name : CustomIdent)
  | pseudo (pseudo : PagePseudo)
  deriving DecidableEq

/-- The selector that the calls begin with. -/
def Origin.selector : Origin → PageSelector
  | empty => .empty
  | named name => .named name
  | pseudo p => .ofPseudo p

/-- The calls that make a selector. -/
structure Calls where
  origin : Origin
  pseudos : List PagePseudo
  deriving DecidableEq

/-- Pseudo-classes are added at the end. -/
theorem foldl_withPseudo (s : PageSelector) (pseudos : List PagePseudo) :
    pseudos.foldl withPseudo s = ⟨s.name, s.pseudos ++ pseudos⟩ := by
  induction pseudos generalizing s with
  | nil => rw [List.foldl_nil, List.append_nil]
  | cons p pseudos ih =>
    rw [List.foldl_cons, ih, withPseudo, List.append_assoc]
    rfl

namespace Calls

/-- The selector that the calls make. -/
def run (c : Calls) : PageSelector := c.pseudos.foldl withPseudo c.origin.selector

/-- What the text tells of the calls: the name with the replacement character for null
characters, and the pseudo-classes in the order of the calls. -/
def told : Calls → PageSelector
  | ⟨.empty, pseudos⟩ => ⟨none, pseudos⟩
  | ⟨.named name, pseudos⟩ => ⟨some name.normal, pseudos⟩
  | ⟨.pseudo p, pseudos⟩ => ⟨none, p :: pseudos⟩

end Calls

/-- The selector without a name and without pseudo-classes is made in one way. -/
theorem Calls.run_eq_empty_iff {c : Calls} : c.run = .empty ↔ c = ⟨.empty, []⟩ := by
  obtain ⟨origin, pseudos⟩ := c
  rw [run, foldl_withPseudo]
  cases origin <;> simp [Origin.selector, empty, named, ofPseudo]

/-- The selector as it reads back. -/
def normal (s : PageSelector) : PageSelector := ⟨s.name.map .normal, s.pseudos⟩

/-- What the calls tell is the selector with its name as it reads back. -/
theorem Calls.told_eq (c : Calls) : c.told = c.run.normal := by
  obtain ⟨origin, pseudos⟩ := c
  rw [run, foldl_withPseudo]
  cases origin <;> rfl

end PageSelector

/-! ### Reading a selector -/

instance : LawfulKeyword PagePseudo := ⟨fun p => by cases p <;> rfl⟩

namespace Reader

/-- A pseudo-class goes on as far as the next one. -/
def pagePseudo : Reader PagePseudo := keyword (· != ':')

def pagePseudos (limit : Nat) (s : PageSelector) : Reader PageSelector :=
  loop (fun t => t.head? == some ':') (fun s => do expect [':']; s.withPseudo <$> pagePseudo)
    limit s

/-- There is no name where a pseudo-class begins. -/
def pageName : Reader (Option CustomIdent) := opt (· != ':') customIdent

/-- A name, which may be missing, and pseudo-classes up to the limit. -/
def pageSelector (limit : Nat) : Reader PageSelector := do
  let name ← pageName
  pagePseudos limit ⟨name, []⟩

end Reader

namespace PageSelector

def ofText? (t : List Char) : Option PageSelector := (Reader.pageSelector t.length).whole t

theorem reads_pagePseudo (p : PagePseudo) :
    Reads Reader.pagePseudo (css p) p (Ends (· == ':')) := by
  have hread : Reads Reader.pagePseudo (css p) p _ := .keyword (by cases p <;> decide)
  exact hread.mono fun rest hrest => hrest.mono fun c hc => by simpa using hc

theorem reads_pagePseudos {limit : Nat} (s : PageSelector) (pseudos : List PagePseudo)
    (h : pseudos.length ≤ limit) :
    Reads (Reader.pagePseudos limit s) (pseudos.flatMap fun p => ':' :: css p)
      ⟨s.name, s.pseudos ++ pseudos⟩ (· = []) := by
  have heach : ReadsEach Reader.pagePseudo (Ends (· == ':')) (pseudos.map css) pseudos := by
    induction pseudos with
    | nil => exact .nil
    | cons p pseudos ih => exact .cons (reads_pagePseudo p) (ih (Nat.le_of_succ_le h))
  have hloop : Reads (Reader.pagePseudos limit s) ((pseudos.map css).flatMap ([':'] ++ ·))
      (pseudos.foldl withPseudo s) (· = []) := by
    refine heach.loop s (by rwa [List.length_map])
      (fun s t p ht => (ht.map s.withPseudo).after [':']) (fun _ _ _ => rfl)
      (fun _ _ _ => .cons rfl) ?_ ?_
    · rintro _ rfl
      rfl
    · rintro _ rfl
      exact .nil
  rw [foldl_withPseudo, List.flatMap_map] at hloop
  exact hloop

theorem length_le_flatMap (pseudos : List PagePseudo) :
    pseudos.length ≤ (pseudos.flatMap fun p => ':' :: css p).length := by
  induction pseudos with
  | nil => exact Nat.le_refl 0
  | cons p pseudos ih =>
    rw [List.flatMap_cons, List.length_append, List.length_cons, List.length_cons]
    omega

/-- A colon ends the name, and shows that there is none. -/
theorem reads_pageName (name : Option CustomIdent) :
    Reads Reader.pageName (clause "" name) (name.map .normal) (Ends (· == ':')) := by
  cases name with
  | none => exact Reads.opt_none.mono fun rest hrest => hrest.mono fun c hc => by simpa using hc
  | some n =>
    obtain ⟨d, ds, htext, hd⟩ := head_identifier n.toIdentifier
    have hcolon : d != ':' := by
      refine bne_iff_ne.mpr ?_
      rintro rfl
      exact absurd hd (by decide)
    have hread := reads_customIdent n
    change Reads _ (css n.toIdentifier) _ _ at hread
    show Reads _ (css n.toIdentifier) _ _
    rw [htext] at hread ⊢
    refine (Reads.opt_some hread hcolon).mono fun rest hrest => hrest.mono fun c hc => ?_
    rw [beq_iff_eq.mp hc]
    decide

theorem reads_pageSelector {limit : Nat} (s : PageSelector) (h : s.pseudos.length ≤ limit) :
    Reads (Reader.pageSelector limit) (css s) s.normal (· = []) := by
  obtain ⟨name, pseudos⟩ := s
  refine (reads_pageName name).bind (reads_pagePseudos ⟨_, []⟩ pseudos h) ?_
  -- a name ends where the first pseudo-class begins
  rintro _ rfl
  cases pseudos with
  | nil => exact .nil
  | cons => exact .cons rfl

/-- **A selector of pages reads back.** -/
theorem ofText?_css (s : PageSelector) : ofText? (css s) = some s.normal := by
  refine (s.reads_pageSelector ?_).whole rfl
  show _ ≤ (clause "" s.name ++ s.pseudos.flatMap fun p => ':' :: css p).length
  rw [List.length_append]
  exact Nat.le_trans (length_le_flatMap s.pseudos) (Nat.le_add_left ..)

/-- Only a selector without a name and without pseudo-classes is written as nothing. -/
theorem css_eq_nil_iff {s : PageSelector} : css s = [] ↔ s = empty := by
  obtain ⟨name, pseudos⟩ := s
  constructor
  · intro h
    obtain ⟨hname, hpseudos⟩ := List.append_eq_nil_iff.mp h
    obtain rfl : name = none := by
      cases name with
      | none => rfl
      | some n =>
        obtain ⟨d, ds, htext, -⟩ := head_identifier n.toIdentifier
        exact absurd (htext.symm.trans hname) (List.cons_ne_nil d ds)
    cases pseudos with
    | nil => rfl
    | cons => exact absurd hpseudos (List.cons_ne_nil _ _)
  · intro h
    rw [h]
    rfl

/-- In a selector every mark but spaces and colons is escaped. -/
theorem guarded_css (s : PageSelector) (hchar : isNameChar mark = false) (hspace : mark ≠ ' ')
    (hcolon : ':' ≠ mark) : Guarded mark (css s) := by
  obtain ⟨name, pseudos⟩ := s
  refine Guarded.append ?_ ?_
  · cases name with
    | none => exact .nil
    | some n => exact (spells_escapeIdentifier n.name.toList).guarded hchar hspace
  · induction pseudos with
    | nil => exact .nil
    | cons p pseudos ih =>
      have hword : Guarded mark (css p) :=
        (Spells.of_all (by cases p <;> decide)).guarded hchar hspace
      exact (Guarded.bare (by decide) hcolon hword).append ih

end PageSelector

/-! ### Rules -/

inductive PageStep where
  | selector (calls : PageSelector.Calls)
  | size (size : PageSize)
  | declare (property : Property)
  | margin (margin : MarginRule)

namespace PageStep

/-- One call on a rule of pages. -/
def apply (r : PageRule) : PageStep → PageRule
  | selector calls => r.withSelector calls.run
  | size s => r.withSize s
  | declare p => r.declare p
  | margin m => r.withMargin m

def selector? : PageStep → Option PageSelector.Calls
  | selector calls => some calls
  | _ => none

end PageStep

namespace PageRule

/-- The rule that the calls make. -/
def build (steps : List PageStep) : PageRule := steps.foldl PageStep.apply empty

/-- The selectors are those that were added, one after the other, whatever else is set. -/
theorem selectors_foldl (r : PageRule) (steps : List PageStep) :
    (steps.foldl PageStep.apply r).selectors =
      r.selectors ++ (steps.filterMap PageStep.selector?).map PageSelector.Calls.run := by
  induction steps generalizing r with
  | nil => exact (List.append_nil _).symm
  | cons step steps ih =>
    rw [List.foldl_cons, ih]
    cases step with
    | selector calls => exact List.append_assoc r.selectors [calls.run] _
    | _ => rfl

/-- What stands between the name of the rule and its block. -/
def prelude (t : List Char) : List Char := (splitUnescaped '\x7b' t).first.drop "@page ".length

/-- The texts between the commas, without the space behind each of them and at the end. -/
def entries (prelude : List Char) : List (List Char) :=
  if prelude = [] then []
  else
    let cut := splitUnescaped ',' prelude.dropLast
    cut.first :: cut.rest.map (·.drop 1)

theorem selectorText_cons (s : PageSelector) (ss : List PageSelector) :
    selectorText (s :: ss) = joined [',', ' '] (css s :: ss.map css) ++ [' '] := by
  have hcomma : ", ".toList = [',', ' '] := String.toList_ofList
  rw [selectorText, commaSeparated, separated, hcomma]
  · rfl
  · exact List.cons_ne_nil s ss

theorem guarded_selectors (mark : Char) (ss : List PageSelector) (hchar : isNameChar mark = false)
    (hspace : mark ≠ ' ') (hcolon : ':' ≠ mark) : ∀ t ∈ ss.map css, Guarded mark t :=
  List.forall_mem_map.mpr fun s _ => PageSelector.guarded_css s hchar hspace hcolon

/-- Nothing is written only without selectors. -/
theorem selectorText_eq_nil_iff {ss : List PageSelector} : selectorText ss = [] ↔ ss = [] := by
  cases ss with
  | nil => exact iff_of_true rfl rfl
  | cons s ss =>
    rw [selectorText_cons]
    exact iff_of_false (List.concat_ne_nil _ _) (List.cons_ne_nil s ss)

/-- The block begins at the first brace that is not escaped. -/
theorem prelude_css (r : PageRule) : prelude (css r) = selectorText r.selectors := by
  have hlead : Guarded '\x7b' "@page ".toList := .of_all (by decide)
  have hselectors : Guarded '\x7b' (selectorText r.selectors) := by
    cases r.selectors with
    | nil => exact .nil
    | cons s ss =>
      have hall := guarded_selectors '\x7b' (s :: ss) rfl (by decide) (by decide)
      rw [selectorText_cons]
      exact (Guarded.joined (.of_all rfl) hall).append (.of_all rfl)
  have hcut (body : List Char) : (splitUnescaped '\x7b' ("@page ".toList ++
      selectorText r.selectors ++ '\x7b' :: body)).first =
        "@page ".toList ++ selectorText r.selectors := by
    rw [(hlead.append hselectors).splitUnescaped_mark (by decide)]
  exact (congrArg (List.drop "@page ".length) (hcut _)).trans List.drop_left

/-- **The entries are the texts of the selectors**, which have commas in them only behind a
backslash. -/
theorem entries_selectorText (ss : List PageSelector) :
    entries (selectorText ss) = ss.map css := by
  cases ss with
  | nil => rfl
  | cons s ss =>
    have hall := guarded_selectors ',' (s :: ss) rfl (by decide) (by decide)
    have hcut : splitUnescaped ',' (joined [',', ' '] (css s :: ss.map css)) =
        ⟨css s, (ss.map css).map (' ' :: ·)⟩ :=
      splitUnescaped_joined [' '] (by decide) (.of_all rfl) hall
    have hne : selectorText (s :: ss) ≠ [] :=
      mt selectorText_eq_nil_iff.mp (List.cons_ne_nil s ss)
    rw [entries, if_neg hne, selectorText_cons, List.dropLast_concat, hcut]
    show css s :: List.map (·.drop 1) ((ss.map css).map (' ' :: ·)) = _
    rw [List.map_map]
    exact congrArg (css s :: ·) (List.map_id _)

end PageRule

/-- **What the selectors of a page rule read back as.** The text before the block is empty if
no selector was added, and only then. Otherwise its commas that are not escaped cut it into
one entry for each selector, in order, which gives back the name and the pseudo-classes. But
a selector may have neither, and its entry is empty: all entries have something in them
exactly if no such selector was added. -/
theorem page_selectors_read_back (steps : List PageStep) :
    let calls := steps.filterMap PageStep.selector?
    let prelude := PageRule.prelude (css (PageRule.build steps))
    (prelude = [] ↔ calls = []) ∧
    PageRule.entries prelude = calls.map (css ·.run) ∧
    (PageRule.entries prelude).map PageSelector.ofText? = calls.map (some ·.told) ∧
    ((∀ t ∈ PageRule.entries prelude, t ≠ []) ↔ ⟨.empty, []⟩ ∉ calls) := by
  intro calls prelude
  have hselectors : (PageRule.build steps).selectors = calls.map PageSelector.Calls.run :=
    PageRule.selectors_foldl .empty steps
  have hprelude : prelude = PageRule.selectorText (calls.map PageSelector.Calls.run) := by
    rw [← hselectors]
    exact PageRule.prelude_css _
  have hentries : PageRule.entries prelude = calls.map (css ·.run) := by
    rw [hprelude, PageRule.entries_selectorText, List.map_map]
    rfl
  refine ⟨?_, hentries, ?_, ?_⟩
  · rw [hprelude, PageRule.selectorText_eq_nil_iff, List.map_eq_nil_iff]
  · rw [hentries, List.map_map]
    exact List.map_congr_left fun c _ => c.told_eq ▸ c.run.ofText?_css
  · have hempty (c : PageSelector.Calls) : css c.run = [] ↔ c = ⟨.empty, []⟩ :=
      PageSelector.css_eq_nil_iff.trans PageSelector.Calls.run_eq_empty_iff
    rw [hentries, List.forall_mem_map]
    simp only [ne_eq, hempty]
    exact ⟨fun h hmem => h _ hmem rfl, fun h c hc heq => h (heq ▸ hc)⟩

/-- The selector without a name and without pseudo-classes leaves nothing before a comma. -/
theorem empty_page_selector_written :
    let rule := PageRule.build [.selector ⟨.empty, []⟩, .selector ⟨.pseudo .first, []⟩]
    css rule = "@page , :first \x7b \x7d".toList ∧
    ¬∀ t ∈ PageRule.entries (PageRule.prelude (css rule)), t ≠ [] := by
  intro rule
  have htext : css rule = "@page , :first \x7b \x7d".toList := rfl
  refine ⟨htext, fun h => h [] ?_ rfl⟩
  rw [htext]
  decide

end Stylesheet
