import Stylesheet.Proofs.Media.Composing
import Stylesheet.Proofs.Media.Feature

/-! Reading lists of media queries back.

A list is cut at its outer commas, and a query at its outer spaces. The modifiers are the
first words of a query; behind them come the kind of device and the features, with the word
`and` between any two. -/
namespace Stylesheet

instance : LawfulKeyword MediaType := ⟨by intro t; cases t <;> rfl⟩

instance : LawfulKeyword MediaModifier := ⟨by intro m; cases m <;> rfl⟩

theorem all_isNameChar_type (t : MediaType) : (css t).all isNameChar := by
  cases t <;> exact all_toList rfl

theorem all_isNameChar_modifier (m : MediaModifier) : (css m).all isNameChar := by
  cases m <;> exact all_toList rfl

/-! ### Words that spell nothing -/

section
variable {α : Type} [Keyword α]

/-- A word spells a keyword only if it is its text. -/
theorem css_of_spelled? {w : List Char} {a : α} (h : Reader.spelled? α w = some a) : css a = w := by
  have hkeyword := List.find?_some h
  rw [beq_iff_eq] at hkeyword
  show (Keyword.keyword a).toList = w
  rw [hkeyword, String.toList_ofList]

/-- No name begins with a parenthesis. -/
theorem spelled?_parenthesis (hname : ∀ a : α, (css a).all isNameChar) (t : List Char) :
    Reader.spelled? α ('(' :: t) = none := by
  cases h : Reader.spelled? α ('(' :: t) with
  | none => rfl
  | some a =>
    have hfirst := hname a
    rw [css_of_spelled? h, List.all_cons, Bool.and_eq_true] at hfirst
    exact absurd hfirst.1 (by decide)

end

/-- No type of media is spelled like a modifier. -/
theorem spelled?_modifier_type (t : MediaType) : Reader.spelled? MediaModifier (css t) = none := by
  cases t <;> rfl

/-- Features stand in parentheses. -/
theorem MediaFeature.exists_css (f : MediaFeature) : ∃ t, css f = '(' :: t := by
  obtain ⟨bound, k, value, h⟩ | ⟨t, rfl⟩ := f.named_or_range
  · exact ⟨_, h.css_eq⟩
  · exact ⟨_, css_range t⟩

/-! ### Words of a query -/

theorem intersperse_ne_nil {word : List Char} {ts : List (List Char)} (h : ts ≠ []) :
    ts.intersperse word ≠ [] := by
  obtain ⟨t, ts, rfl⟩ := List.exists_cons_of_ne_nil h
  cases ts <;> exact List.cons_ne_nil _ _

/-- A word between the terms, or one of the terms. -/
theorem mem_intersperse {word w : List Char} {ts : List (List Char)}
    (h : w ∈ ts.intersperse word) : w = word ∨ w ∈ ts := by
  induction ts with
  | nil => exact nomatch h
  | cons t ts ih =>
    cases ts with
    | nil => exact .inr h
    | cons u us =>
      change w ∈ t :: word :: (u :: us).intersperse word at h
      rcases List.mem_cons.mp h with rfl | h
      · exact .inr (List.mem_cons_self ..)
      rcases List.mem_cons.mp h with rfl | h
      · exact .inl rfl
      · exact (ih h).imp id (List.mem_cons_of_mem t)

/-- A word between spaces separates as the text of the three does. -/
theorem joined_intersperse (word : List Char) (ts : List (List Char)) :
    joined [' '] (ts.intersperse word) = joined ([' '] ++ (word ++ [' '])) ts := by
  induction ts with
  | nil => rfl
  | cons t ts ih =>
    cases ts with
    | nil => rfl
    | cons u us =>
      have hrest : (u :: us).intersperse word ≠ [] := intersperse_ne_nil (List.cons_ne_nil _ _)
      show joined [' '] (t :: word :: (u :: us).intersperse word) = _
      rw [joined_cons_of_ne_nil (List.cons_ne_nil _ _), joined_cons_of_ne_nil hrest, ih,
        joined_cons_of_ne_nil (List.cons_ne_nil _ _)]
      simp only [List.append_assoc]

/-- Words in front, each with a space behind. -/
theorem joined_words {ms ts : List (List Char)} (h : ts ≠ []) :
    joined [' '] (ms ++ ts) = ms.flatMap (· ++ [' ']) ++ joined [' '] ts := by
  induction ms with
  | nil => rfl
  | cons m ms ih =>
    rw [List.cons_append, joined_cons_of_ne_nil (List.append_ne_nil_of_right_ne_nil _ h), ih,
      List.flatMap_cons]
    simp only [List.append_assoc]

namespace MediaQuery
variable {q : MediaQuery}

/-- The modifiers, and the terms with `and` between them. -/
def words (q : MediaQuery) : List (List Char) :=
  q.modifiers.map css ++ q.terms.intersperse "and".toList

/-- A query is its words with spaces between them. -/
theorem css_eq_joined_words (h : q.Filled) : css q = joined [' '] q.words := by
  rw [words, joined_words (intersperse_ne_nil h.terms_ne_nil), joined_intersperse,
    List.flatMap_map]
  rfl

theorem isArgument_of_mem_terms {t : List Char} (ht : t ∈ q.terms) : IsArgument t := by
  rcases List.mem_append.mp ht with ht | ht
  · obtain ⟨type, -, rfl⟩ := Option.map_eq_some_iff.mp (Option.mem_toList.mp ht)
    exact .of_isNameChar (all_isNameChar_type type)
  · obtain ⟨f, -, rfl⟩ := List.mem_map.mp ht
    exact isArgument f

/-- No word has a space outside of its parentheses. -/
theorem isArgument_of_mem_words {w : List Char} (hw : w ∈ q.words) : IsArgument w := by
  rcases List.mem_append.mp hw with hw | hw
  · obtain ⟨m, -, rfl⟩ := List.mem_map.mp hw
    exact .of_isNameChar (all_isNameChar_modifier m)
  · rcases mem_intersperse hw with rfl | hw
    · exact .of_isNameChar (all_toList rfl)
    · exact isArgument_of_mem_terms hw

/-- **A query falls into its words** at the spaces outside of brackets. -/
theorem cutAt_css (h : q.Filled) : (cutAt ' ' (css q)).toList = q.words := by
  have hne : q.words ≠ [] :=
    List.append_ne_nil_of_right_ne_nil _ (intersperse_ne_nil h.terms_ne_nil)
  obtain ⟨w, ws, hwords⟩ := List.exists_cons_of_ne_nil hne
  rw [css_eq_joined_words h, hwords]
  exact cutAt_words fun u hu => isArgument_of_mem_words (hwords ▸ hu)

/-! ### Reading a query -/

/-- The modifiers in front, and the words behind them. -/
def cutModifiers : List (List Char) → List MediaModifier × List (List Char)
  | [] => ([], [])
  | w :: ws =>
    match Reader.spelled? MediaModifier w with
    | some m => (m :: (cutModifiers ws).1, (cutModifiers ws).2)
    | none => ([], w :: ws)

/-- Every other word, if those between are `and`. -/
def cutTerms? : List (List Char) → Option (List (List Char))
  | [] => none
  | [t] => some [t]
  | t :: w :: ws => if w = "and".toList then (cutTerms? ws).map (t :: ·) else none

/-- The first term may be a type, and the others are features. -/
def ofTerms? (modifiers : List MediaModifier) : List (List Char) → Option MediaQuery
  | [] => none
  | t :: ts =>
    match Reader.spelled? MediaType t with
    | some type => (ts.mapM read?).map fun features => ⟨modifiers, some type, features⟩
    | none => ((t :: ts).mapM read?).map fun features => ⟨modifiers, none, features⟩

/-- A query is cut at its spaces, first into modifiers and then into terms. -/
def ofText? (t : List Char) : Option MediaQuery :=
  let (modifiers, words) := cutModifiers (cutAt ' ' t).toList
  (cutTerms? words).bind (ofTerms? modifiers)

/-- The query with its numbers as they are read back. -/
def canonicalNumbers (q : MediaQuery) : MediaQuery :=
  {q with features := q.features.map canonical}

/-- The modifiers are taken off the front as long as there are any. -/
theorem cutModifiers_append (ms : List MediaModifier) {ws : List (List Char)}
    (h : ∀ w ∈ ws.head?, Reader.spelled? MediaModifier w = none) :
    cutModifiers (ms.map css ++ ws) = (ms, ws) := by
  induction ms with
  | nil =>
    cases ws with
    | nil => rfl
    | cons w ws =>
      show cutModifiers (w :: ws) = _
      rw [cutModifiers, h w rfl]
  | cons m ms ih =>
    rw [List.map_cons, List.cons_append, cutModifiers, spelled?_css, ih]

/-- Every second word is `and`, and what is left are the terms. -/
theorem cutTerms?_intersperse {ts : List (List Char)} (h : ts ≠ []) :
    cutTerms? (ts.intersperse "and".toList) = some ts := by
  induction ts with
  | nil => exact absurd rfl h
  | cons t ts ih =>
    cases ts with
    | nil => rfl
    | cons u us =>
      show cutTerms? (t :: "and".toList :: (u :: us).intersperse "and".toList) = _
      rw [cutTerms?, if_pos rfl, ih (List.cons_ne_nil _ _)]
      rfl

/-- No kind of device and no feature is a modifier. -/
theorem spelled?_modifier_of_mem_terms {t : List Char} (ht : t ∈ q.terms) :
    Reader.spelled? MediaModifier t = none := by
  rcases List.mem_append.mp ht with ht | ht
  · obtain ⟨type, -, rfl⟩ := Option.map_eq_some_iff.mp (Option.mem_toList.mp ht)
    exact spelled?_modifier_type type
  · obtain ⟨f, -, rfl⟩ := List.mem_map.mp ht
    obtain ⟨t, htext⟩ := f.exists_css
    rw [htext]
    exact spelled?_parenthesis all_isNameChar_modifier t

/-- A query that is not empty has terms to be read. -/
theorem ofTerms?_terms (h : q.Filled) : ofTerms? q.modifiers q.terms = some q.canonicalNumbers := by
  obtain ⟨modifiers, type, features⟩ := q
  cases type with
  | some type =>
    show ofTerms? modifiers (css type :: features.map css) = _
    rw [ofTerms?, spelled?_css, mapM_read?_css]
    rfl
  | none =>
    cases features with
    | nil => exact absurd rfl h.terms_ne_nil
    | cons f features =>
      obtain ⟨t, htext⟩ := f.exists_css
      have htype : Reader.spelled? MediaType (css f) = none := by
        rw [htext]
        exact spelled?_parenthesis all_isNameChar_type t
      have hread := mapM_read?_css (f :: features)
      rw [List.map_cons] at hread
      show ofTerms? modifiers (css f :: features.map css) = _
      rw [ofTerms?, htype]
      simp only [hread]
      rfl

/-- **A query is read back**, if it names a kind of device or a feature. -/
theorem ofText?_css (h : q.Filled) : ofText? (css q) = some q.canonicalNumbers := by
  -- the words behind the modifiers begin with a term, so that the reader stops there
  have hhead : ∀ w ∈ (q.terms.intersperse "and".toList).head?,
      Reader.spelled? MediaModifier w = none := by
    intro w hw
    rcases mem_intersperse (List.mem_of_mem_head? hw) with rfl | hw
    · rfl
    · exact spelled?_modifier_of_mem_terms hw
  rw [ofText?, cutAt_css h, words, cutModifiers_append _ hhead]
  simp only [cutTerms?_intersperse h.terms_ne_nil, Option.bind_some]
  exact ofTerms?_terms h

theorem css_canonicalNumbers (q : MediaQuery) : css q.canonicalNumbers = css q := by
  have hterms : q.canonicalNumbers.terms = q.terms := by
    rw [terms, terms, canonicalNumbers, List.map_map]
    congr 1
    exact List.map_congr_left fun f _ => css_canonical f
  show _ ++ joined _ q.canonicalNumbers.terms = _
  rw [hterms]
  rfl

/-- No comma stands outside in a query. -/
theorem passes_css (h : q.Filled) : Scan.Passes (· == ',') .start (css q) .start := by
  rw [css_eq_joined_words h]
  refine .joined ⟨rfl, rfl⟩ fun w hw => (isArgument_of_mem_words hw).mono fun c hc => ?_
  rw [argumentEnd, hc, Bool.or_true]

end MediaQuery

/-! ### Reading a list of queries -/

namespace Media
variable {m : Media}

/-- Every text but the first stands behind a space. -/
def ofText? (t : List Char) : Option Media :=
  let texts := cutAt ',' t
  (MediaQuery.ofText? texts.first).bind fun first =>
    (texts.rest.mapM fun u => MediaQuery.ofText? u.tail).map fun rest => ⟨⟨first, rest⟩⟩

def canonicalNumbers (m : Media) : Media :=
  ⟨⟨m.queries.first.canonicalNumbers, m.queries.rest.map MediaQuery.canonicalNumbers⟩⟩

/-- **A list of queries falls into its queries** at the commas outside of brackets. -/
theorem cutAt_list (h : m.Filled) : cutAt ',' m.list =
    ⟨css m.queries.first, m.queries.rest.map fun q => ' ' :: css q⟩ := by
  have hpasses : ∀ t ∈ css m.queries.first :: m.queries.rest.map css,
      Scan.Passes (· == ',') .start t .start := by
    intro t ht
    obtain ⟨q, hq, rfl⟩ := List.mem_map.mp (show t ∈ m.queries.toList.map css from ht)
    exact MediaQuery.passes_css (h q hq)
  have hcut := cutAt_joined [' '] (by decide) ⟨rfl, rfl⟩ hpasses
  rw [List.map_map] at hcut
  exact hcut

/-- Behind each comma is a space, which is no part of the query. -/
theorem mapM_ofText?_css {qs : List MediaQuery} (h : ∀ q ∈ qs, q.Filled) :
    (qs.map fun q => ' ' :: css q).mapM (fun u => MediaQuery.ofText? u.tail) =
      some (qs.map MediaQuery.canonicalNumbers) := by
  induction qs with
  | nil => rfl
  | cons q qs ih =>
    rw [List.forall_mem_cons] at h
    rw [List.map_cons, List.mapM_cons, List.tail_cons, MediaQuery.ofText?_css h.1, ih h.2]
    rfl

/-- **A list of queries reads back.** -/
theorem ofText?_list (h : m.Filled) : ofText? m.list = some m.canonicalNumbers := by
  have hcons : m.queries.first.Filled ∧ ∀ q ∈ m.queries.rest, q.Filled := List.forall_mem_cons.mp h
  rw [ofText?, cutAt_list h]
  simp only [MediaQuery.ofText?_css hcons.1, mapM_ofText?_css hcons.2, Option.bind_some]
  rfl

theorem css_canonicalNumbers (m : Media) : css m.canonicalNumbers = css m := by
  have hqueries : m.canonicalNumbers.queries.toList.map css = m.queries.toList.map css := by
    show (m.queries.toList.map MediaQuery.canonicalNumbers).map css = _
    rw [List.map_map]
    exact List.map_congr_left fun q _ => q.css_canonicalNumbers
  show "@media ".toList ++ joined _ (m.canonicalNumbers.queries.toList.map css) = _
  rw [hqueries]
  rfl

/-- Lists have the same text exactly when they are the same up to how numbers are written. -/
theorem css_eq_iff {m n : Media} (hm : m.Filled) (hn : n.Filled) :
    css m = css n ↔ m.canonicalNumbers = n.canonicalNumbers := by
  constructor
  · intro h
    have hlist : m.list = n.list := List.append_cancel_left h
    have hread := ofText?_list hm
    rw [hlist, ofText?_list hn] at hread
    exact (Option.some.inj hread).symm
  · intro h
    rw [← m.css_canonicalNumbers, h, n.css_canonicalNumbers]

end Media

/-! ### Runs of calls -/

/-- **The text of a list of media queries determines the list**, but for the sign of zero and
the payload of NaN. Cut at its outer commas it falls into its queries; a query is its
modifiers, its kind of device and its features, with `and` between; and a feature is read
back, where its text has the name that it is known by. -/
theorem MediaCalls.queries_read_back :
    (∀ a b : MediaCalls,
      css a.media = css b.media ↔ a.media.canonicalNumbers = b.media.canonicalNumbers) ∧
    (∀ a : MediaCalls, css a.media = "@media ".toList ++ a.media.list ∧
      Media.ofText? a.media.list = some a.media.canonicalNumbers ∧
      cutAt ',' a.media.list =
        ⟨css a.media.queries.first, a.media.queries.rest.map fun q => ' ' :: css q⟩ ∧
      ∀ q ∈ a.media.queries.toList,
        MediaQuery.ofText? (css q) = some q.canonicalNumbers ∧
        (cutAt ' ' (css q)).toList = q.modifiers.map css ++
          ((q.type.map css).toList ++ q.features.map css).intersperse "and".toList) ∧
    (∀ f : MediaFeature, read? (css f) = some f.canonicalNumbers) ∧
    (∀ (f : MediaFeature) (n : List Char), f.name? = some n ↔
      n.all isNameChar ∧ (css f = '(' :: (n ++ [')']) ∨
        ∃ value, css f = '(' :: (n ++ ": ".toList ++ value ++ [')']))) ∧
    (∀ f : MediaFeature, f.name? = none ↔ ∃ t, f = .range t) ∧
    ∀ x y : Binary32, x.canonical = y.canonical ↔ x.eq y ∨ x.isNaN ∧ y.isNaN := by
  refine ⟨fun a b => Media.css_eq_iff a.filled_media b.filled_media, fun a => ⟨rfl,
    Media.ofText?_list a.filled_media, Media.cutAt_list a.filled_media, fun q hq =>
      ⟨MediaQuery.ofText?_css (a.filled_media q hq), MediaQuery.cutAt_css (a.filled_media q hq)⟩⟩,
    read?_css, fun f n => ?_, MediaFeature.name?_eq_none_iff, Binary32.canonical_eq_iff⟩
  rw [f.name?_eq_some_iff, Option.exists]
  simp only [MediaFeature.valueText, Option.map_none, Option.map_some, Option.getD_none,
    Option.getD_some, List.append_nil, List.append_assoc]

/-- The two zeros are written alike, and so are any two NaN. -/
theorem MediaCalls.queries_read_back_zeros : ∃ a b : MediaCalls,
    a.media.queries.first.features =
      [.width .atLeast ⟨⟨0x80000000⟩, .px⟩, .resolution .exactly ⟨⟨0x7fc00001⟩, .x⟩] ∧
    b.media.queries.first.features =
      [.width .atLeast ⟨⟨0⟩, .px⟩, .resolution .exactly ⟨⟨0xffc00000⟩, .x⟩] ∧
    a.media.canonicalNumbers = b.media.canonicalNumbers ∧
    (cutAt ' ' (css a.media.queries.first)).toList = ["screen".toList, "and".toList,
      "(min-width: 0px)".toList, "and".toList, "(resolution: calc(NaN * 1x))".toList] := by
  let calls (zero nan : Binary32) : MediaCalls :=
    ((type .screen).and (.width .atLeast ⟨zero, .px⟩)).and (.resolution .exactly ⟨nan, .x⟩)
  obtain ⟨hdetermined, hread, -⟩ := queries_read_back
  obtain ⟨-, -, -, hqueries⟩ := hread (calls ⟨0x80000000⟩ ⟨0x7fc00001⟩)
  have hwords := (hqueries _ (List.mem_cons_self ..)).2
  exact ⟨calls ⟨0x80000000⟩ ⟨0x7fc00001⟩, calls ⟨0⟩ ⟨0xffc00000⟩, rfl, rfl,
    (hdetermined _ _).mp (by decide), hwords.trans (by decide)⟩

/-- The spaces inside of parentheses are not cut. -/
example : (cutAt ' ' "only screen and (2/3 < aspect-ratio)".toList).toList =
    ["only".toList, "screen".toList, "and".toList, "(2/3 < aspect-ratio)".toList] := by decide

end Stylesheet
