import Stylesheet.Query.Media
import Stylesheet.Proofs.Reading.Reader

/-! Composing media queries is composing their texts.

Where neither a kind of device nor a feature is named, there would be nothing in front of
the `and` of a further feature. The calls never make such a query, so that each of them adds
its own piece of text at one end of the list and leaves the rest as it stands. -/
namespace Stylesheet

/-! ### Lists with at least one item -/

namespace NonEmpty
variable {α : Type} {f : α → α}

theorem toList_append (xs ys : NonEmpty α) : (xs.append ys).toList = xs.toList ++ ys.toList :=
  rfl

/-- Putting lists together associates. -/
theorem append_assoc (xs ys zs : NonEmpty α) :
    (xs.append ys).append zs = xs.append (ys.append zs) := by
  unfold append
  rw [toList, List.append_assoc]
  rfl

/-- Only the last item is changed. -/
theorem exists_toList_modifyLast (xs : NonEmpty α) (f : α → α) : ∃ front last,
    xs.toList = front ++ [last] ∧ (xs.modifyLast f).toList = front ++ [f last] := by
  obtain ⟨x, ys⟩ := xs
  induction ys generalizing x with
  | nil => exact ⟨[], x, rfl, rfl⟩
  | cons y ys ih =>
    obtain ⟨front, last, hlist, hmodified⟩ := ih y
    exact ⟨x :: front, last, congrArg (x :: ·) hlist, congrArg (x :: ·) hmodified⟩

end NonEmpty

/-! ### Joined texts -/

variable {separator t u : List Char} {ts us : List (List Char)}

/-- A list of texts in two halves, neither of them empty. -/
theorem joined_append (ht : ts ≠ []) (hu : us ≠ []) :
    joined separator (ts ++ us) = joined separator ts ++ separator ++ joined separator us := by
  obtain ⟨t, ts, rfl⟩ := List.exists_cons_of_ne_nil ht
  obtain ⟨u, us, rfl⟩ := List.exists_cons_of_ne_nil hu
  rw [List.cons_append, joined_cons, joined_cons, joined_cons, List.flatMap_append,
    List.flatMap_cons]
  simp only [List.append_assoc]

/-- The separator follows the first text if anything does. -/
theorem joined_cons_of_ne_nil (h : ts ≠ []) :
    joined separator (t :: ts) = t ++ (separator ++ joined separator ts) := by
  rw [← List.append_assoc]
  exact joined_append (List.cons_ne_nil t []) h

/-- More text at the end of the last item is more text at the end. -/
theorem joined_concat_append :
    joined separator (ts ++ [t ++ u]) = joined separator (ts ++ [t]) ++ u := by
  by_cases hts : ts = []
  · subst hts
    rfl
  · rw [joined_append hts (List.cons_ne_nil _ _), joined_append hts (List.cons_ne_nil _ _)]
    exact (List.append_assoc ..).symm

/-- More text in front of the first item is more text in front. -/
theorem joined_append_cons :
    joined separator ((u ++ t) :: ts) = u ++ joined separator (t :: ts) := by
  rw [joined_cons, joined_cons, List.append_assoc]

/-! ### One query -/

namespace MediaQuery
variable {q : MediaQuery}

/-- A kind of device or a feature is named. -/
def Filled (q : MediaQuery) : Prop := q.type.isSome ∨ q.features ≠ []

/-- What `and` does to the last query. -/
def withFeature (q : MediaQuery) (f : MediaFeature) : MediaQuery :=
  {q with features := q.features ++ [f]}

/-- What `not` and `only` do to the first query. A modifier is put in front of those that are
there. -/
def withModifier (q : MediaQuery) (modifier : MediaModifier) : MediaQuery :=
  {q with modifiers := modifier :: q.modifiers}

/-- A query with one more feature is not empty, whatever it was. -/
theorem filled_withFeature (q : MediaQuery) (f : MediaFeature) : (q.withFeature f).Filled :=
  .inr (List.concat_ne_nil _ _)

/-- A query that is not empty has something to write. -/
theorem Filled.terms_ne_nil (h : q.Filled) : q.terms ≠ [] := by
  intro hterms
  rw [terms, List.append_eq_nil_iff, List.map_eq_nil_iff] at hterms
  obtain htype | hfeatures := h
  · obtain ⟨type, htype⟩ := Option.isSome_iff_exists.mp htype
    rw [htype] at hterms
    exact List.cons_ne_nil _ _ hterms.1
  · exact hfeatures hterms.2

theorem terms_withFeature (f : MediaFeature) : (q.withFeature f).terms = q.terms ++ [css f] := by
  simp [terms, withFeature]

/-- **One more feature adds `and` and its test at the end**, as long as the query was not empty. -/
theorem css_withFeature (h : q.Filled) (f : MediaFeature) :
    css (q.withFeature f) = css q ++ (" and ".toList ++ css f) := by
  show _ ++ joined _ (q.withFeature f).terms = q.modifiers.flatMap _ ++ joined _ q.terms ++ _
  rw [terms_withFeature, joined_append h.terms_ne_nil (List.cons_ne_nil _ _), List.append_assoc,
    List.append_assoc]
  rfl

/-- A modifier comes first, with a space. -/
theorem css_withModifier (modifier : MediaModifier) :
    css (q.withModifier modifier) = css modifier ++ [' '] ++ css q :=
  List.append_assoc ..

end MediaQuery

/-! ### A list of queries -/

namespace Media
variable {m n : Media}

/-- None of the queries is empty. -/
def Filled (m : Media) : Prop := ∀ q ∈ m.queries.toList, q.Filled

theorem filled_ofType (type : MediaType) : (ofType type).Filled :=
  List.forall_mem_singleton.mpr (.inl rfl)

theorem filled_ofFeature (f : MediaFeature) : (ofFeature f).Filled :=
  List.forall_mem_singleton.mpr (.inr (List.cons_ne_nil _ _))

/-- A feature goes to the last query. -/
theorem exists_toList_and (m : Media) (f : MediaFeature) : ∃ front last,
    m.queries.toList = front ++ [last] ∧
      (m.and f).queries.toList = front ++ [last.withFeature f] :=
  m.queries.exists_toList_modifyLast fun q => q.withFeature f

theorem toList_or (m n : Media) :
    (m.or n).queries.toList = m.queries.toList ++ n.queries.toList :=
  m.queries.toList_append n.queries

/-- A modifier goes to the first query. -/
theorem toList_modify (m : Media) (modifier : MediaModifier) :
    (m.modify modifier).queries.toList =
      m.queries.first.withModifier modifier :: m.queries.rest :=
  rfl

/-- The calls keep every query filled. -/
theorem Filled.and (h : m.Filled) (f : MediaFeature) : (m.and f).Filled := by
  obtain ⟨front, last, hlist, hand⟩ := m.exists_toList_and f
  rw [Filled, hlist, List.forall_mem_append] at h
  rw [Filled, hand, List.forall_mem_append]
  exact ⟨h.1, List.forall_mem_singleton.mpr (last.filled_withFeature f)⟩

theorem Filled.or (hm : m.Filled) (hn : n.Filled) : (m.or n).Filled := by
  rw [Filled, toList_or, List.forall_mem_append]
  exact ⟨hm, hn⟩

theorem Filled.modify (h : m.Filled) (modifier : MediaModifier) : (m.modify modifier).Filled := by
  have hcons : m.queries.first.Filled ∧ ∀ q ∈ m.queries.rest, q.Filled := List.forall_mem_cons.mp h
  rw [Filled, toList_modify, List.forall_mem_cons]
  exact ⟨hcons.1, hcons.2⟩

/-- `and` adds to the text at its end, since it adds to the last query. -/
theorem list_and (h : m.Filled) (f : MediaFeature) :
    (m.and f).list = m.list ++ " and ".toList ++ css f := by
  obtain ⟨front, last, hlist, hand⟩ := m.exists_toList_and f
  have hlast : last.Filled := h last (by simp [hlist])
  rw [list, list, commaSeparated, commaSeparated, separated, separated, hand, hlist,
    List.map_append, List.map_append, List.map_singleton, List.map_singleton,
    MediaQuery.css_withFeature hlast, joined_concat_append, List.append_assoc]

/-- `or` puts a comma between the two lists. -/
theorem list_or (m n : Media) : (m.or n).list = m.list ++ ", ".toList ++ n.list := by
  have hne : ∀ o : Media, o.queries.toList.map css ≠ [] := fun _ => List.cons_ne_nil _ _
  rw [list, commaSeparated, separated, toList_or, List.map_append, joined_append (hne m) (hne n)]
  rfl

/-- A modifier goes in front of the text, since it goes to the first query. -/
theorem list_modify (m : Media) (modifier : MediaModifier) :
    (m.modify modifier).list = css modifier ++ [' '] ++ m.list := by
  rw [list, commaSeparated, separated, toList_modify, List.map_cons,
    MediaQuery.css_withModifier, joined_append_cons]
  rfl

/-- Alternatives associate, and not only in their texts. -/
theorem or_assoc (m n o : Media) : (m.or n).or o = m.or (n.or o) :=
  congrArg Media.mk (NonEmpty.append_assoc ..)

end Media

/-! ### Runs of calls -/

/-- The calls that make a list of queries, and the operators that stand for them. -/
inductive MediaCalls where
  | type (t : MediaType)
  | feature (f : MediaFeature)
  | and (a : MediaCalls) (f : MediaFeature)
  | or (a b : MediaCalls)
  | not (a : MediaCalls)
  | only (a : MediaCalls)
  | ampersand (a : MediaCalls) (f : MediaFeature)
  | bar (a b : MediaCalls)
  | exclamation (a : MediaCalls)

namespace MediaCalls

/-- The value that the calls make. -/
def media : MediaCalls → Media
  | type t => .ofType t
  | feature f => .ofFeature f
  | and a f => a.media.and f
  | or a b => a.media.or b.media
  | not a => a.media.not
  | only a => a.media.only
  | ampersand a f => a.media &&& f
  | bar a b => a.media ||| b.media
  | exclamation a => ~~~a.media

/-- The calls never leave a query without a kind of device and without features. -/
theorem filled_media (a : MediaCalls) : a.media.Filled := by
  induction a with
  | type t => exact Media.filled_ofType t
  | feature f => exact Media.filled_ofFeature f
  | and a f ih => exact ih.and f
  | or a b iha ihb => exact iha.or ihb
  | not a ih => exact ih.modify .not
  | only a ih => exact ih.modify .only
  | ampersand a f ih => exact ih.and f
  | bar a b iha ihb => exact iha.or ihb
  | exclamation a ih => exact ih.modify .not

/-- **Composing media queries is composing their texts.** However a list was made, it has
queries, and each of them names a kind of device or a feature; every further call adds one
piece of text in front or behind and changes the query there only; and the operators are
the calls. -/
theorem composes (a : MediaCalls) :
    a.media.queries.toList ≠ [] ∧
    (∀ q ∈ a.media.queries.toList, q.type.isSome ∨ q.features ≠ []) ∧
    css a.media = "@media ".toList ++ a.media.list ∧
    (∀ f : MediaFeature, (a.media.and f).list = a.media.list ++ " and ".toList ++ css f ∧
      (a.media &&& f) = a.media.and f ∧
      ∃ front last, a.media.queries.toList = front ++ [last] ∧
        (a.media.and f).queries.toList =
          front ++ [{last with features := last.features ++ [f]}]) ∧
    (∀ b : MediaCalls, (a.media.or b.media).list = a.media.list ++ ", ".toList ++ b.media.list ∧
      (a.media ||| b.media) = a.media.or b.media ∧
      (a.media.or b.media).queries.toList = a.media.queries.toList ++ b.media.queries.toList ∧
      ∀ c : MediaCalls, (a.media.or b.media).or c.media = a.media.or (b.media.or c.media)) ∧
    a.media.not.list = "not ".toList ++ a.media.list ∧
    (~~~a.media) = a.media.not ∧
    a.media.only.list = "only ".toList ++ a.media.list ∧
    ∃ first rest, a.media.queries.toList = first :: rest ∧
      a.media.not.queries.toList = {first with modifiers := .not :: first.modifiers} :: rest ∧
      a.media.only.queries.toList = {first with modifiers := .only :: first.modifiers} :: rest := by
  refine ⟨List.cons_ne_nil _ _, a.filled_media, rfl,
    fun f => ⟨Media.list_and a.filled_media f, rfl, a.media.exists_toList_and f⟩,
    fun b => ⟨Media.list_or .., rfl, Media.toList_or .., fun c => Media.or_assoc ..⟩,
    ?_, rfl, ?_, a.media.queries.first, a.media.queries.rest, rfl, rfl, rfl⟩
  · rw [Media.not, Media.list_modify]
    rfl
  · rw [Media.only, Media.list_modify]
    rfl

/-- A feature behind a list goes to its last query, and a modifier to its first. -/
theorem composes_two_types :
    ∃ a : MediaCalls, a.media.list = "only screen, print".toList ∧
      (a.media.and (.color none)).list = "only screen, print and (color)".toList ∧
      (a.media &&& MediaFeature.color none) = a.media.and (.color none) ∧
      ∀ q ∈ a.media.queries.toList, q.type.isSome ∨ q.features ≠ [] := by
  let a : MediaCalls := (bar (type .screen) (type .print)).only
  obtain ⟨-, hfilled, -, hand, -⟩ := composes a
  obtain ⟨htext, hampersand, -⟩ := hand (.color none)
  exact ⟨a, by decide, htext.trans (by decide), hampersand, hfilled⟩

end MediaCalls
end Stylesheet
