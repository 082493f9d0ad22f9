import Stylesheet.Proofs.Nesting.Block
import Stylesheet.Proofs.Reading.Spelling

/-! Reading a block of declarations back.

The reader takes off the braces, cuts the text between them at the semicolons that stand
outside of strings, escapes and brackets, and each entry at its first colon without a
backslash. An ending in `!important` is a flag when its exclamation mark stands outside as
well. A block reads back as its declarations if their names are spelled by escapes and
their values are nested and have neither mark outside. -/
namespace Stylesheet

/-! ### The reader -/

/-- The texts between the outer marks of one kind. -/
def Scan.split (isMark : Char → Bool) (s : Scan) : List Char → NonEmpty (List Char)
  | [] => .single []
  | c :: t =>
    match s.step c with
    | none => .single (c :: t)
    | some s' =>
      if s.outer c && isMark c then ⟨[], (s'.split isMark t).toList⟩
      else (s'.split isMark t).modifyFirst (c :: ·)

/-- What stands between the brackets that a text begins and ends with. -/
def unwrap? (opening closing : Char) : List Char → Option (List Char)
  | [] => none
  | c :: t => if c = opening ∧ t.getLast? = some closing then some t.dropLast else none

/-- The texts before and after the first `mark` without a backslash. -/
def cutUnescaped (mark : Char) : List Char → Option (List Char × List Char)
  | [] => none
  | '\\' :: c :: t =>
    (cutUnescaped mark t).map fun (front, rest) => ('\\' :: c :: front, rest)
  | c :: t =>
    if c = mark then some ([], t)
    else (cutUnescaped mark t).map fun (front, rest) => (c :: front, rest)

/-- The mark, as it is written. -/
def importance : List Char := "!important".toList

/-- A value's text and whether it is important. -/
def cutImportance (t : List Char) : List Char × Bool :=
  let front := t.take (t.length - importance.length)
  if front ++ importance = t ∧ (Scan.start.run front).any (·.outer '!') then (front, true)
  else (t, false)

/-- A name up to its colon, and a value with the mark or without. -/
def readDeclaration (t : List Char) : Option Declaration :=
  (cutUnescaped ':' t).map fun (name, value) =>
    ⟨name, (cutImportance value).1, (cutImportance value).2⟩

/-- Nothing but space stands behind the last semicolon. -/
def readBlock (t : List Char) : Option (List Declaration) :=
  (unwrap? '\x7b' '\x7d' t).bind fun body =>
    let entries := (Scan.start.split (· == ';') body).toList.map (·.dropWhile (· == ' '))
    (entries.filter (· != [])).mapM readDeclaration

/-! ### Marks -/

variable {isMark top : Char → Bool} {c : Char} {t u cs : List Char} {s s' : Scan}

/-- A text that is passed over is never split. -/
theorem Scan.Passes.split_append (h : Passes isMark s u s') :
    s.split isMark (u ++ t) = (s'.split isMark t).modifyFirst (u ++ ·) := by
  obtain ⟨hrun, hmarks⟩ := h
  induction u generalizing s with
  | nil =>
    obtain rfl := Option.some.inj hrun
    rfl
  | cons c u ih =>
    obtain ⟨s₁, hstep, hrun⟩ := Option.bind_eq_some_iff.mp hrun
    simp only [marks, hstep, Option.map_some, Option.getD_some] at hmarks
    split at hmarks
    case isTrue => exact absurd hmarks (List.cons_ne_nil _ _)
    case isFalse hmark =>
      rw [List.cons_append, split, hstep]
      simp only
      rw [if_neg hmark, ih hrun hmarks]
      rfl

/-- The two marks of a declaration are none of the characters that nested values have. -/
theorem apart_preludeChar {mark : Char} (h : mark ∈ [';', '!']) :
    Scan.Apart (· == mark) preludeChar where
  of_top hc := by
    refine beq_eq_false_iff_ne.mpr ?_
    rintro rfl
    rw [preludeChar] at hc
    simp only [List.mem_cons, List.not_mem_nil, or_false] at h
    obtain rfl | rfl := h <;> exact absurd hc (by decide)
  of_opening {b} _ := by
    simp only [List.mem_cons, List.not_mem_nil, or_false] at h
    obtain rfl | rfl := h <;> cases b <;> rfl
  lexical hc := by
    simp only [List.mem_cons, List.not_mem_nil, or_false] at h hc
    obtain rfl | rfl := h <;> obtain rfl | rfl | rfl := hc <;> rfl
  hexDigit hc := by
    refine beq_eq_false_iff_ne.mpr ?_
    rintro rfl
    simp only [List.mem_cons, List.not_mem_nil, or_false] at h
    obtain rfl | rfl := h <;> exact absurd hc (by decide)

/-- No semicolon and no exclamation mark stands outside. -/
theorem Nested.passes_start (mark : Char) (ht : Nested preludeChar t)
    (h : mark ∈ [';', '!']) : Scan.Passes (· == mark) .start t .start :=
  ht.passes fun _ => apart_preludeChar h

/-! ### Names -/

/-- Spelled by escapes, a name is nested. -/
theorem Spells.nested (h : Spells isNameChar t cs) : Nested wordChar t := by
  induction h with
  | nil => exact .nil
  | bare hc _ _ ih => exact .plain (isPlain_of_isNameChar hc) (wordChar_of_isNameChar hc) ih
  | escaped _ _ _ ih => exact .escape ih
  | hex _ _ ih => exact (nested_hexEscape _).append ih

/-- Cutting a text with no bare colon leaves it in front of what comes after. -/
def Uncut (t : List Char) : Prop :=
  ∀ u, cutUnescaped ':' (t ++ u) =
    (cutUnescaped ':' u).map fun (front, rest) => (t ++ front, rest)

/-- A colon in a name is escaped, and so the name is not cut there. -/
theorem Guarded.uncut (h : Guarded ':' t) : Uncut t := by
  induction h with
  | nil => exact fun u => by simp
  | bare hescape hcolon _ ih =>
    intro u
    rw [List.cons_append, Stylesheet.cutUnescaped, if_neg hcolon, ih, Option.map_map]
    · rfl
    · rintro d v rfl
      exact absurd rfl hescape
  | escaped _ ih =>
    intro u
    rw [List.cons_append, List.cons_append, Stylesheet.cutUnescaped, ih, Option.map_map]
    rfl

/-- A colon in a name stands behind a backslash, so that the first other ends the name. -/
theorem Spells.cutUnescaped (h : Spells isNameChar t cs) :
    cutUnescaped ':' (t ++ ':' :: u) = some (t, u) := by
  rw [(h.guarded (by decide) (by decide)).uncut]
  simp [Stylesheet.cutUnescaped]

/-! ### Importance -/

/-- Nested values have no exclamation mark outside, so that none of them ends in a flag. -/
theorem cutImportance_of_nested (ht : Nested preludeChar t) : cutImportance t = (t, false) := by
  refine if_neg ?_
  rintro ⟨hsplit, houter⟩
  generalize t.take (t.length - importance.length) = front at hsplit houter
  have hmarks := (ht.passes_start '!' (by decide)).marks_eq
  cases hrun : Scan.start.run front with
  | none =>
    rw [hrun] at houter
    exact absurd houter Bool.false_ne_true
  | some s =>
    have hs : s.outer '!' = true := by rwa [hrun] at houter
    rw [← hsplit, Scan.marks_append hrun, List.append_eq_nil_iff] at hmarks
    have hmark : (s.outer '!' && '!' == '!') = true := by rw [hs]; rfl
    have hfirst : s.marks (· == '!') ('!' :: importance.tail) = [] := hmarks.2
    rw [Scan.marks, if_pos hmark] at hfirst
    exact absurd hfirst (List.cons_ne_nil _ _)

/-- The mark is cut off, and the value is what was before it. -/
theorem cutImportance_importance (ht : Nested preludeChar t) :
    cutImportance (t ++ importance) = (t, true) := by
  have hfront : (t ++ importance).take ((t ++ importance).length - importance.length) = t := by
    simp
  unfold cutImportance
  simp only [hfront, (ht.passes_start '!' (by decide)).run_eq]
  rfl

/-! ### Declarations -/

theorem Declaration.css_ne_nil (d : Declaration) : css d ≠ [] := by
  have hcolon : d.name ++ ':' :: d.value ≠ [] := by simp
  exact List.append_ne_nil_of_left_ne_nil hcolon _

/-- The name is spelled by escapes, and the value is nested and there. -/
structure Declaration.Clean (d : Declaration) : Prop where
  name_spells : ∃ cs, Spells isNameChar d.name cs
  value_nested : Nested preludeChar d.value
  value_ne_nil : d.value ≠ []

namespace Declaration.Clean
variable {d : Declaration}

/-- The mark is read exactly when it was written. -/
theorem cutImportance_eq (h : d.Clean) :
    cutImportance (d.value ++ if d.important then "!important".toList else []) =
      (d.value, d.important) := by
  cases d.important with
  | false =>
    rw [if_neg Bool.false_ne_true, List.append_nil]
    exact cutImportance_of_nested h.value_nested
  | true => exact cutImportance_importance h.value_nested

/-- **A declaration reads back.** -/
theorem readDeclaration_css (h : d.Clean) : readDeclaration (css d) = some d := by
  obtain ⟨cs, hname⟩ := h.name_spells
  show (cutUnescaped ':' (d.name ++ ':' :: d.value ++ _)).map _ = _
  rw [List.append_assoc, List.cons_append, hname.cutUnescaped, Option.map_some]
  simp only [h.cutImportance_eq]

/-- No semicolon stands outside in a declaration. -/
theorem passes_css (h : d.Clean) : Scan.Passes (· == ';') .start (css d) .start := by
  obtain ⟨cs, hspells⟩ := h.name_spells
  have hname : Nested preludeChar d.name := hspells.nested.mono fun _ hc =>
    preludeChar_of_listChar (listChar_of_phraseChar (phraseChar_of_wordChar hc))
  have hflag : Scan.Passes (· == ';') .start
      (if d.important then "!important".toList else []) .start := by
    split
    case isTrue => exact ⟨by decide, by decide⟩
    case isFalse => exact .nil
  have hvalue := (h.value_nested.passes_start ';' (by decide)).append hflag
  show Scan.Passes _ _ (d.name ++ ':' :: d.value ++ _) _
  rw [List.append_assoc, List.cons_append]
  exact (hname.passes_start ';' (by decide)).append (.plain (by decide) (fun _ => rfl) hvalue)

/-- A name does not begin with a space. -/
theorem dropWhile_css (h : d.Clean) : (' ' :: css d).dropWhile (· == ' ') = css d := by
  obtain ⟨cs, hspells⟩ := h.name_spells
  show (d.name ++ ':' :: d.value ++ _).dropWhile _ = d.name ++ ':' :: d.value ++ _
  generalize d.name = name at hspells
  cases hspells with
  | nil => rfl
  | @bare c _ _ hc _ _ =>
    have hspace : ¬c == ' ' := by
      rw [beq_iff_eq]
      rintro rfl
      exact absurd hc (by decide)
    exact List.dropWhile_cons_of_neg hspace
  | escaped => rfl
  | hex => rfl

end Declaration.Clean

/-! ### Blocks -/

/-- Brackets that are there come off. -/
theorem unwrap?_enclosed (opening closing : Char) (t : List Char) :
    unwrap? opening closing (opening :: (t ++ [closing])) = some t := by
  rw [unwrap?, List.getLast?_concat, if_pos ⟨rfl, rfl⟩, List.dropLast_concat]

theorem unwrap?_eq_none {opening closing : Char} {t : List Char} (h : t.head? ≠ some opening) :
    unwrap? opening closing t = none := by
  cases t with
  | nil => rfl
  | cons c t => exact if_neg fun hopen => h (congrArg some hopen.1)

/-- The braces of a block come off. -/
theorem unwrap?_blockText (parts : List (List Char)) :
    unwrap? '\x7b' '\x7d' (blockText parts) = some (parts.flatMap (' ' :: ·) ++ [' ']) := by
  rw [blockText_eq, unwrap?_enclosed]

/-- **Cut at its outer semicolons, the inside of a block falls into its declarations**, each
behind a space, and one more space. -/
theorem split_entries {ds : List Declaration} (h : ∀ d ∈ ds, d.Clean) :
    (Scan.start.split (· == ';')
      ((ds.map Declaration.entry).flatMap (' ' :: ·) ++ [' '])).toList =
        ds.map (fun d => ' ' :: css d) ++ [[' ']] := by
  induction ds with
  | nil => rfl
  | cons d ds ih =>
    rw [List.forall_mem_cons] at h
    have hpasses : Scan.Passes (· == ';') .start (' ' :: css d) .start :=
      .plain (by decide) (fun _ => rfl) h.1.passes_css
    have htext : ((d :: ds).map Declaration.entry).flatMap (' ' :: ·) ++ [' '] =
        (' ' :: css d) ++ ';' :: ((ds.map Declaration.entry).flatMap (' ' :: ·) ++ [' ']) := by
      simp [Declaration.entry]
    have hsplit : ∀ t, Scan.start.split (· == ';') (';' :: t) =
        ⟨[], (Scan.start.split (· == ';') t).toList⟩ := fun _ => rfl
    rw [htext, hpasses.split_append, hsplit, ih h.2]
    simp [NonEmpty.modifyFirst, NonEmpty.toList]

theorem mapM_readDeclaration {ds : List Declaration} (h : ∀ d ∈ ds, d.Clean) :
    (ds.map css).mapM readDeclaration = some ds := by
  induction ds with
  | nil => rfl
  | cons d ds ih =>
    rw [List.forall_mem_cons] at h
    rw [List.map_cons, List.mapM_cons, h.1.readDeclaration_css, ih h.2]
    rfl

/-- **A block reads back as the declarations in it**, in order and with repetitions. -/
theorem readBlock_css {b : DeclarationBlock} (h : ∀ d ∈ b.declarations, d.Clean) :
    readBlock (css b) = some b.declarations := by
  have hentries : (b.declarations.map (fun d => ' ' :: css d) ++ [[' ']]).map
      (·.dropWhile (· == ' ')) = b.declarations.map css ++ [[]] := by
    rw [List.map_append, List.map_map]
    congr 1
    exact List.map_congr_left fun d hd => (h d hd).dropWhile_css
  have hfilter : (b.declarations.map css ++ [[]]).filter (· != []) = b.declarations.map css := by
    rw [List.filter_append, List.filter_eq_self.mpr]
    · exact List.append_nil _
    · intro t ht
      obtain ⟨d, _, rfl⟩ := List.mem_map.mp ht
      exact bne_iff_ne.mpr d.css_ne_nil
  show (unwrap? _ _ (blockText (b.declarations.map Declaration.entry))).bind _ = _
  rw [unwrap?_blockText, Option.bind_some]
  show ((((Scan.start.split _ _).toList).map _).filter _).mapM _ = _
  rw [split_entries h, hentries, hfilter]
  exact mapM_readDeclaration h

end Stylesheet
