import Stylesheet.Proofs.Nesting.Built
import Stylesheet.Proofs.Nesting.Prelude
import Stylesheet.Proofs.Nesting.Property

/-! The values that rules hold are nested, and so are conditions with nested tests. -/
namespace Stylesheet

/-! ### Values in rules -/

instance : Nests wordChar FontDisplay := ⟨fun d => by cases d <;> exact .word⟩

instance : Nests wordChar FontFormat := ⟨fun f => by cases f <;> exact .word⟩

instance : Nests wordChar FontTech := ⟨fun t => by cases t <;> exact .word⟩

/-- A call written out with the space before it. -/
theorem spaced_call {name spaced : List Char} (h : spaced = ' ' :: (name ++ ['(']))
    (t : List Char) :
    (String.ofList spaced).toList ++ t ++ [')'] = ' ' :: call (String.ofList name) t := by
  simp [call, h]

/-- The hint of a format is a call behind a space. -/
theorem FontSource.formatText_eq (f : FontFormat) :
    formatText f = ' ' :: call "format" (quoteString (css f)) :=
  spaced_call (by decide) _

/-- So is the list of technologies, unless it is empty. -/
theorem FontSource.techText_cons (t : FontTech) (ts : List FontTech) :
    techText (t :: ts) = ' ' :: call "tech" (commaSeparated (t :: ts)) :=
  spaced_call (by decide) _

theorem nested_formatText (f : FontFormat) : Nested listChar (FontSource.formatText f) := by
  rw [FontSource.formatText_eq]
  exact .cons (.call (nested_quoteString _))

/-- An empty list writes nothing. -/
theorem nested_techText (tech : List FontTech) : Nested listChar (FontSource.techText tech) := by
  cases tech with
  | nil => exact .nil
  | cons t ts =>
    rw [FontSource.techText_cons]
    exact .cons (.call (nested_separated (t :: ts)))

instance : Nests listChar FontSource where
  nested
    | .url u format tech => by
      have hformat : Nested listChar ((format.map FontSource.formatText).getD []) := by
        cases format with
        | none => exact .nil
        | some f => exact nested_formatText f
      exact ((nested u).append hformat).append (nested_techText tech)
    | .installed name => .call (nested name)

theorem isNameChar_toUpper_digitChar {n : Nat} (h : n < 16) : isNameChar n.digitChar.toUpper := by
  have hall : ∀ m ∈ List.range 16, isNameChar m.digitChar.toUpper := by decide
  exact hall n (List.mem_range.mpr h)

/-- The digits of code points are letters and digits, and so characters of names. -/
theorem nested_upperHex (n : Nat) : Nested wordChar (upperHex n) := by
  refine .of_all ?_
  simp only [areAll, upperHex, List.all_map, List.all_eq_true]
  intro c hc
  obtain ⟨m, hm, rfl⟩ := digitChar_of_mem_toDigits hc
  have hname := isNameChar_toUpper_digitChar hm
  simp [isPlain_of_isNameChar hname, wordChar_of_isNameChar hname]

instance : Nests wordChar UnicodeRange where
  nested r := by
    show Nested wordChar ("U+".toList ++ upperHex r.first ++
      if r.last = r.first then [] else '-' :: upperHex r.last)
    refine ((Nested.word).append (nested_upperHex r.first)).append ?_
    split
    · exact .nil
    · exact .cons (nested_upperHex r.last)

instance : Nests wordChar FeatureKind := ⟨fun k => by cases k <;> exact .word⟩

instance : Nests wordChar PagePseudo := ⟨fun p => by cases p <;> exact .word⟩

instance : Nests preludeChar PageSelector where
  nested s :=
    (nested_optional s.name).append (.flatMap fun p _ => .cons (nested p))

instance : Nests wordChar PaperSize := ⟨fun s => by cases s <;> exact .word⟩

instance : Nests phraseChar PageSize where
  nested
    | .auto => .word
    | .dimensions width height => (nested width).append (nested_clause height)
    | .paper size o => (nested size).append (nested_clause o)
    | .orientation o => nested o

instance : Nests wordChar MarginBox := ⟨fun b => by cases b <;> exact .word⟩

instance : Nests phraseChar CounterSystem where
  nested
    | .cyclic => .word
    | .numeric => .word
    | .alphabetic => .word
    | .symbolic => .word
    | .additive => .word
    | .fixed first => (Nested.word).append (nested_clause first)
    | .extending style => (Nested.word).append (nested style)

instance : Nests wordChar CounterSymbol where
  nested
    | .string text => nested text
    | .ident name => nested name
    | .image image => nested image

instance : Nests phraseChar WeightedSymbol :=
  ⟨fun s => (nested s.weight).append (.cons (nested s.symbol))⟩

instance : Nests listChar AdditiveSymbols :=
  ⟨fun s => nested_separated s.tuples.toList⟩

instance : Nests wordChar CounterBound where
  nested
    | ⟨some value⟩ => nested value
    | ⟨none⟩ => .word

instance : Nests phraseChar CounterSpan :=
  ⟨fun s => (nested s.lower).append (.cons (nested s.upper))⟩

instance : Nests listChar CounterRange where
  nested
    | .auto => .word
    | .spans list => nested_separated list.toList

instance : Nests wordChar SpeakAsKeyword := ⟨fun k => by cases k <;> exact .word⟩

instance : Nests wordChar SpeakAs where
  nested
    | .keyword keyword => nested keyword
    | .counterStyle style => nested style

instance : Nests preludeChar DataType := ⟨fun t => by cases t <;> exact .word⟩

instance : Nests wordChar Multiplier := ⟨fun m => by cases m <;> exact .word⟩

instance : Nests preludeChar GrammarTerm where
  nested
    | .type type multiplier => (nested type).append (nested_optional multiplier)
    | .ident name multiplier => (nested name).append (nested_optional multiplier)

instance : Nests wordChar ValueGrammar := ⟨fun g => nested_quoteString g.plain⟩

instance : Nests wordChar KeyframeOffset where
  nested
    | .start => .word
    | .finish => .word
    | .percent offset => nested offset

instance : Nests wordChar ImportLayer where
  nested
    | .anonymous => .word
    | .named name => .call (nested name)

/-! ### Conditions -/

namespace Condition
variable {Test : Type} {P Q : Test → Prop} {b c : Condition Test} {top : Char → Bool}

/-- A weaker property of the tests. -/
theorem Forall.mono (h : ∀ t, P t → Q t) (hc : c.Forall P) : c.Forall Q := by
  induction hc with
  | test ht => exact .test (h _ ht)
  | not _ ih => exact .not ih
  | and _ ih => exact .and ih
  | or _ ih => exact .or ih

/-- A well-formed condition has all its tests with `P`. -/
theorem Formed.forall_tests (hc : c.Formed P) : c.Forall P := by
  induction hc with
  | test ht => exact .test ht
  | not _ ih => exact .not ih
  | and _ _ ih => exact .and ih
  | or _ _ ih => exact .or ih

theorem Formed.pair (hb : b.Formed P) (hc : c.Formed P) : ∀ d ∈ [b, c], d.Formed P :=
  List.forall_mem_cons.mpr ⟨hb, List.forall_mem_singleton.mpr hc⟩

/-- The operators keep chains at two conditions at least. A chain of the kind on the left takes
the other condition as its last. -/
theorem Formed.conjoin (hb : b.Formed P) (hc : c.Formed P) : (b.conjoin c).Formed P := by
  cases hb with
  | @and cs hlength hcs =>
    refine .and ?_ (List.forall_mem_append.mpr ⟨hcs, List.forall_mem_singleton.mpr hc⟩)
    rw [List.length_append]
    exact Nat.le_add_right_of_le hlength
  | test ht => exact .and (Nat.le_refl 2) (Formed.pair (.test ht) hc)
  | not hd => exact .and (Nat.le_refl 2) (Formed.pair (.not hd) hc)
  | or hlength hcs => exact .and (Nat.le_refl 2) (Formed.pair (.or hlength hcs) hc)

theorem Formed.disjoin (hb : b.Formed P) (hc : c.Formed P) : (b.disjoin c).Formed P := by
  cases hb with
  | @or cs hlength hcs =>
    refine .or ?_ (List.forall_mem_append.mpr ⟨hcs, List.forall_mem_singleton.mpr hc⟩)
    rw [List.length_append]
    exact Nat.le_add_right_of_le hlength
  | test ht => exact .or (Nat.le_refl 2) (Formed.pair (.test ht) hc)
  | not hd => exact .or (Nat.le_refl 2) (Formed.pair (.not hd) hc)
  | and hlength hcs => exact .or (Nat.le_refl 2) (Formed.pair (.and hlength hcs) hc)

/-- Parentheses around a condition, or none. -/
theorem nested_enclose {text : List Char} (hround : top '(') (h : Nested top text) :
    Nested top (c.enclose text) := by
  unfold enclose
  split
  · exact h
  · exact .enclosed .round h.any hround

/-- Each term of a chain is the text of one of its conditions, in parentheses where it needs
them. -/
theorem mem_termTexts [ToCss Test] {t : List Char} {cs : List (Condition Test)}
    (ht : t ∈ termTexts cs) : ∃ c ∈ cs, t = c.enclose c.text := by
  induction cs with
  | nil => exact nomatch ht
  | cons c cs ih =>
    rcases List.mem_cons.mp ht with rfl | ht
    · exact ⟨c, List.mem_cons_self .., rfl⟩
    · obtain ⟨d, hd, rfl⟩ := ih ht
      exact ⟨d, List.mem_cons_of_mem _ hd, rfl⟩

/-- A condition is nested when its tests are, with the characters of its operators. -/
theorem Forall.nested [ToCss Test] (htop : ∀ c, phraseChar c → top c)
    (hc : c.Forall fun t => Nested top (css t)) : Nested top c.text := by
  have hround : top '(' := htop _ (by decide)
  have hterms : ∀ cs : List (Condition Test), (∀ c ∈ cs, Nested top c.text) →
      ∀ t ∈ termTexts cs, Nested top t := by
    intro cs hcs t ht
    obtain ⟨c, hc, rfl⟩ := mem_termTexts ht
    exact nested_enclose hround (hcs c hc)
  have hword : ∀ {w : List Char}, Nested phraseChar w → Nested top w := fun hw => hw.mono htop
  induction hc with
  | test ht => exact ht
  | not _ ih => exact (hword .word).append (nested_enclose hround ih)
  | and _ ih => exact .joined (hword .word) (hterms _ ih)
  | or _ ih => exact .joined (hword .word) (hterms _ ih)

end Condition
end Stylesheet
