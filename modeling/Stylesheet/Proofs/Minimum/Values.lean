import Stylesheet.Font.Face
import Stylesheet.Font.Family
import Stylesheet.Grid.Line
import Stylesheet.Grid.Track
import Stylesheet.Motion.Easing
import Stylesheet.Motion.Keyframes
import Stylesheet.Paint.Image
import Stylesheet.Proofs.Condition.Reading
import Stylesheet.Proofs.Importance.Calls
import Stylesheet.Proofs.Minimum.Guards
import Stylesheet.Query.Feature
import Stylesheet.Rule.CounterStyle
import Stylesheet.Rule.Layer
import Stylesheet.Rule.Registration
import Stylesheet.Selector.Basic

/-! The least that values are made of: how many items a list has, how many stops a gradient,
how many terms a junction, and the bounds of the numbers that count or divide. -/
namespace Stylesheet

/-! ### Lists -/

namespace LayerName

theorem guards_of : Guards of AtLeastOne (fun _ => .emptyList "layer name")
    (fun l => some l.path.toList) :=
  (NonEmpty.guards_ofList "layer name").wrapAll fun _ => rfl

/-- The calls that make the name of a layer. -/
def ofCalls : ListCalls CustomIdent → Result LayerName
  | .ofList path => of path
  | .single name => return single name
  | .push a name => return (← ofCalls a).sublayer name

/-- The name of a layer is the list of its parts. -/
theorem ofCalls_eq (a : ListCalls CustomIdent) :
    ofCalls a = do return ⟨← a.run "layer name"⟩ := by
  induction a with
  | ofList path => rfl
  | single name => rfl
  | push a name ih =>
    rw [ofCalls, ih, ListCalls.run]
    cases a.run "layer name" with
    | error e => rfl
    | ok xs => rfl

end LayerName

namespace PseudoElement

/-- The names of the parts that are selected. -/
def parts? : PseudoElement → Option (List CustomIdent)
  | part names => some names.toList
  | _ => none

theorem guards_ofParts : Guards ofParts AtLeastOne (fun _ => .emptyList "::part()") parts? := by
  refine (NonEmpty.guards_ofList "::part()").wrap (fun _ => rfl) fun e names h => ?_
  cases e with
  | part names => exact ⟨names, h⟩
  | _ => exact nomatch h

end PseudoElement

namespace PseudoClass

/-- The selectors of what an element has. -/
def relatives? : PseudoClass → Option (List RelativeSelector)
  | has selectors => some selectors.toList
  | _ => none

theorem guards_ofRelative : Guards ofRelative AtLeastOne (fun _ => .emptyList ":has()")
    relatives? := by
  refine (NonEmpty.guards_ofList ":has()").wrap (fun _ => rfl) fun p selectors h => ?_
  cases p with
  | has selectors => exact ⟨selectors, h⟩
  | _ => exact nomatch h

/-- The languages, one of which an element has to be in. -/
def ranges? : PseudoClass → Option (List String)
  | lang ranges => some (ranges.toList.map Identifier.name)
  | _ => none

theorem ofRanges_of_empty {ranges : List String} (h : "" ∈ ranges) :
    ranges.mapM Identifier.of = .error .emptyIdentifier := by
  induction ranges with
  | nil => exact absurd h List.not_mem_nil
  | cons r ranges ih =>
    rw [List.mapM_cons]
    by_cases hr : r = ""
    · rw [hr]
      rfl
    · have hof : Identifier.of r = .ok ⟨r, hr⟩ := dif_neg hr
      rw [hof]
      show ranges.mapM Identifier.of >>= _ = _
      rw [ih ((List.mem_cons.mp h).resolve_left (Ne.symm hr))]
      rfl

/-- Languages are identifiers, of which only the empty one fails. -/
theorem exists_ofRanges {ranges : List String} (h : "" ∉ ranges) :
    ∃ names, ranges.mapM Identifier.of = .ok names ∧ names.map Identifier.name = ranges := by
  induction ranges with
  | nil => exact ⟨[], rfl, rfl⟩
  | cons r ranges ih =>
    rw [List.mem_cons, not_or] at h
    obtain ⟨names, hnames, hranges⟩ := ih h.2
    have hof : Identifier.of r = .ok ⟨r, Ne.symm h.1⟩ := dif_neg (Ne.symm h.1)
    refine ⟨⟨r, Ne.symm h.1⟩ :: names, ?_, congrArg (r :: ·) hranges⟩
    rw [List.mapM_cons, hof, hnames]
    rfl

/-- Where all ranges have text, their list decides. -/
theorem ofRanges_eq {ranges : List String} {names : List Identifier}
    (h : ranges.mapM Identifier.of = .ok names) :
    ofRanges ranges = do return lang (← NonEmpty.ofList ":lang()" names) := by
  rw [ofRanges, h]
  rfl

/-- A range without text is found before the list is looked at. -/
theorem guards_ofRanges : Guards ofRanges (fun ranges => AtLeastOne ranges ∧ "" ∉ ranges)
    (fun ranges => if "" ∈ ranges then .emptyIdentifier else .emptyList ":lang()") ranges? where
  ok {ranges} h := by
    obtain ⟨names, hnames, rfl⟩ := exists_ofRanges h.2
    obtain ⟨xs, hmake, hxs⟩ := (NonEmpty.guards_ofList ":lang()").ok (atLeastOne_map.mp h.1)
    refine ⟨lang xs, ?_, congrArg (·.map (List.map Identifier.name)) hxs⟩
    rw [ofRanges_eq hnames, hmake]
    rfl
  error {ranges} h := by
    by_cases hempty : "" ∈ ranges
    · rw [if_pos hempty, ofRanges, ofRanges_of_empty hempty]
      rfl
    · obtain ⟨names, hnames, rfl⟩ := exists_ofRanges hempty
      have hlength : ¬ AtLeastOne names := fun hlength => h ⟨atLeastOne_map.mpr hlength, hempty⟩
      rw [if_neg hempty, ofRanges_eq hnames, (NonEmpty.guards_ofList ":lang()").error hlength]
      rfl
  within {p ranges} h := by
    cases p with
    | lang names =>
      cases h
      refine ⟨atLeastOne_iff.mpr (List.cons_ne_nil _ _), fun hmem => ?_⟩
      obtain ⟨name, -, hname⟩ := List.mem_map.mp hmem
      exact name.ne_empty hname
    | _ => cases h

end PseudoClass

namespace CounterRange

/-- The spans of a range that has them. -/
def spans? : CounterRange → Option (List CounterSpan)
  | spans list => some list.toList
  | auto => none

theorem guards_ofSpans : Guards ofSpans AtLeastOne (fun _ => .emptyList "range") spans? := by
  refine (NonEmpty.guards_ofList "range").wrap (fun _ => rfl) fun r list h => ?_
  cases r with
  | auto => exact nomatch h
  | spans list => exact ⟨list, h⟩

end CounterRange

theorem AdditiveSymbols.guards_of : Guards AdditiveSymbols.of AtLeastOne
    (fun _ => .emptyList "additive-symbols") (fun s => some s.tuples.toList) :=
  (NonEmpty.guards_ofList "additive-symbols").wrapAll fun _ => rfl

namespace ValueGrammar

/-- The alternatives of a grammar that has them. -/
def terms? : ValueGrammar → Option (List GrammarTerm)
  | alternatives terms => some terms.toList
  | universal => none

theorem guards_ofTerms : Guards ofTerms AtLeastOne (fun _ => .emptyList "syntax") terms? := by
  refine (NonEmpty.guards_ofList "syntax").wrap (fun _ => rfl) fun g terms h => ?_
  cases g with
  | universal => exact nomatch h
  | alternatives terms => exact ⟨terms, h⟩

end ValueGrammar

theorem FamilyList.guards_of : Guards FamilyList.of AtLeastOne (fun _ => .emptyList "font-family")
    (fun l => some l.families.toList) :=
  (NonEmpty.guards_ofList "font-family").wrapAll fun _ => rfl

theorem Keyframe.guards_of (declarations : DeclarationBlock) :
    Guards (Keyframe.of · declarations) AtLeastOne (fun _ => .emptyList "keyframe selector")
      (fun k => some k.offsets.toList) :=
  (NonEmpty.guards_ofList "keyframe selector").wrapAll fun _ => rfl

/-- Only a number can be too small for a count. -/
theorem RepeatCount.ne_times_zero_iff {count : RepeatCount} :
    count ≠ .times 0 ↔ ∀ n, count = .times n → 1 ≤ n := by
  constructor
  · rintro h (_ | n) rfl
    · exact absurd rfl h
    · omega
  · rintro h rfl
    exact absurd (h 0 rfl) (by omega)

namespace Repeat

/-- A repetition asks for two things, and the count is looked at first. -/
theorem guards_of : Guards (fun i : RepeatCount × List TrackSize => of i.1 i.2)
    (fun i => (∀ n, i.1 = .times n → 1 ≤ n) ∧ AtLeastOne i.2)
    (fun i => if i.1 = .times 0 then .tooSmall "repeat() count" 0 1
      else .emptyList "repeat() tracks")
    (fun r => some (r.count, r.tracks.toList)) := by
  constructor
  · rintro ⟨count, tracks⟩ ⟨hpos, hlength⟩
    obtain ⟨xs, hmake, hxs⟩ := (NonEmpty.guards_ofList "repeat() tracks").ok hlength
    refine ⟨⟨count, xs, RepeatCount.ne_times_zero_iff.mpr hpos⟩, ?_, ?_⟩
    · show of count tracks = _
      rw [of, dif_neg (RepeatCount.ne_times_zero_iff.mpr hpos), hmake]
      rfl
    · exact congrArg (fun items => some (count, items)) (Option.some.inj hxs)
  · rintro ⟨count, tracks⟩ h
    show of count tracks = .error (if count = .times 0 then _ else _)
    by_cases hzero : count = .times 0
    · rw [if_pos hzero, of, dif_pos hzero]
    · rw [if_neg hzero, of, dif_neg hzero,
        (NonEmpty.guards_ofList "repeat() tracks").error
          fun hlength => h ⟨RepeatCount.ne_times_zero_iff.mp hzero, hlength⟩]
      rfl
  · intro r i h
    cases h
    exact ⟨RepeatCount.ne_times_zero_iff.mp r.count_ne, atLeastOne_iff.mpr (List.cons_ne_nil _ _)⟩

end Repeat

/-! ### Gradients -/

namespace LinearGradient

theorem guards_of : Guards of (fun stops => 2 ≤ stops.length)
    (fun stops => .tooSmall "linear-gradient() color stops" stops.length 2)
    (fun g => some g.stops) where
  ok h := ⟨⟨false, none, _, h⟩, dif_pos h, rfl⟩
  error h := dif_neg h
  within {g stops} h := by
    cases h
    exact g.two_le_length

/-- The calls that make a gradient. -/
inductive Calls where
  | of (stops : List ColorStop)
  | toward (a : Calls) (direction : GradientDirection)
  | repeated (a : Calls)

/-- The gradient that the calls make, if there are stops enough. -/
def Calls.run : Calls → Result LinearGradient
  | of stops => LinearGradient.of stops
  | toward a direction => return (← a.run).toward direction
  | repeated a => return (← a.run).repeated

def Calls.stops : Calls → List ColorStop
  | of stops => stops
  | toward a _ | repeated a => a.stops

def Calls.repeating : Calls → Bool
  | of _ => false
  | toward a _ => a.repeating
  | repeated _ => true

/-- The direction that is set last, if any. -/
def Calls.direction : Calls → Option GradientDirection
  | of _ => none
  | toward _ direction => some direction
  | repeated a => a.direction

/-- Each call sets one part and keeps the others; none takes a stop away. -/
theorem Calls.run_eq_ok {a : Calls} (h : 2 ≤ a.stops.length) :
    a.run = .ok ⟨a.repeating, a.direction, a.stops, h⟩ := by
  induction a with
  | of stops => exact dif_pos h
  | toward a direction ih =>
    rw [run, ih h]
    rfl
  | repeated a ih =>
    rw [run, ih h]
    rfl

/-- What is refused at first stays refused. -/
theorem Calls.run_eq_error {a : Calls} (h : ¬2 ≤ a.stops.length) :
    a.run = .error (.tooSmall "linear-gradient() color stops" a.stops.length 2) := by
  induction a with
  | of stops => exact dif_neg h
  | toward a direction ih =>
    rw [run, ih h]
    rfl
  | repeated a ih =>
    rw [run, ih h]
    rfl

end LinearGradient

/-! ### Numbers -/

theorem Ratio.guards_of : Guards (fun i : Nat × Nat => Ratio.of i.1 i.2) (fun i => 1 ≤ i.2)
    (fun i => .tooSmall "ratio denominator" i.2 1)
    (fun r => some (r.numerator, r.denominator)) where
  ok {i} h := ⟨⟨i.1, i.2, Nat.ne_of_gt h⟩, dif_neg (Nat.ne_of_gt h), rfl⟩
  error {i} h := by
    have hzero : i.2 = 0 := by omega
    rw [hzero]
    rfl
  within {r i} h := by
    cases h
    exact Nat.pos_of_ne_zero r.ne_zero

namespace Easing

/-- How many steps there are, and when they are taken. -/
def steps? : Easing → Option (Nat × Option StepPosition)
  | steps s => some (s.count, s.position)
  | _ => none

/-- Only the position `jump-none` asks for two steps. -/
theorem leastSteps_le_iff {n : Nat} {position : Option StepPosition} :
    leastSteps position ≤ n ↔ 1 ≤ n ∧ (position = some .jumpNone → 2 ≤ n) := by
  unfold leastSteps
  split
  case isTrue h =>
    rw [h]
    exact ⟨fun hle => ⟨by omega, fun _ => hle⟩, fun hle => hle.2 rfl⟩
  case isFalse h => exact ⟨fun hle => ⟨hle, fun heq => absurd heq h⟩, And.left⟩

theorem guards_ofSteps : Guards (fun i : Nat × Option StepPosition => ofSteps i.1 i.2)
    (fun i => 1 ≤ i.1 ∧ (i.2 = some .jumpNone → 2 ≤ i.1))
    (fun i => .tooSmall "steps() count" i.1 (if i.2 = some .jumpNone then 2 else 1)) steps? where
  ok {i} h := ⟨steps ⟨i.1, i.2, leastSteps_le_iff.mpr h⟩, dif_pos (leastSteps_le_iff.mpr h), rfl⟩
  error {i} h := dif_neg fun hle => h (leastSteps_le_iff.mp hle)
  within {e i} h := by
    cases e with
    | steps s =>
      cases h
      exact leastSteps_le_iff.mp s.least_le
    | _ => exact nomatch h

end Easing

theorem LineIndex.guards_of : Guards LineIndex.of (· ≠ 0) (fun _ => .zeroLine)
    (fun l => some l.index) where
  ok h := ⟨⟨_, h⟩, dif_neg h, rfl⟩
  error h := dif_pos (Decidable.not_not.mp h)
  within {l i} h := by
    cases h
    exact l.ne_zero

theorem SpanCount.guards_of : Guards SpanCount.of (1 ≤ ·) (.tooSmall "span count" · 1)
    (fun s => some s.count) where
  ok h := ⟨⟨_, Nat.ne_of_gt h⟩, dif_neg (Nat.ne_of_gt h), rfl⟩
  error {n} h := by
    have hzero : n = 0 := by omega
    rw [hzero]
    rfl
  within {s n} h := by
    cases h
    exact Nat.pos_of_ne_zero s.ne_zero

theorem UnicodeRange.guards_of : Guards (fun i : Nat × Nat => UnicodeRange.of i.1 i.2)
    (fun i => i.1 ≤ i.2 ∧ i.2 ≤ 0x10ffff) (fun i => .invalidUnicodeRange i.1 i.2)
    (fun r => some (r.first, r.last)) where
  ok {i} h := ⟨⟨i.1, i.2, h.1, h.2⟩, dif_pos h, rfl⟩
  error h := dif_neg h
  within {r i} h := by
    cases h
    exact ⟨r.first_le_last, r.last_le⟩

/-- A range of one character. -/
theorem UnicodeRange.guards_single : Guards UnicodeRange.single (· ≤ 0x10ffff)
    (fun c => .invalidUnicodeRange c c)
    (fun r => if r.last = r.first then some r.first else none) where
  ok h := ⟨⟨_, _, Nat.le_refl _, h⟩, dif_pos ⟨Nat.le_refl _, h⟩, if_pos rfl⟩
  error h := dif_neg fun hboth => h hboth.2
  within {r c} h := by
    split at h
    case isTrue hsingle =>
      cases h
      exact Nat.le_trans r.first_le_last r.last_le
    case isFalse => exact nomatch h

/-! ### Conditions -/

/-- The operators never make a chain of fewer than two conditions. -/
theorem SupportsCalls.formed (a : SupportsCalls) :
    a.supports.condition.Formed fun _ => True := by
  induction a with
  | property p | declaration d | selector s | fontTech t | fontFormat f => exact .test trivial
  | and a b iha ihb | ampersand a b iha ihb => exact iha.conjoin ihb
  | or a b iha ihb | bar a b iha ihb => exact iha.disjoin ihb
  | not a ih | exclamation a ih => exact .not ih

theorem ContainerCalls.Makes.formed {a : ContainerCalls} {c : Container} (h : a.Makes c) :
    c.condition.Formed fun _ => True := by
  induction h with
  | size f | property p | declaration d => exact .test trivial
  | named _ hname ih =>
    rw [Container.condition_named hname]
    exact ih
  | and _ _ iha ihb | ampersand _ _ iha ihb => exact iha.conjoin ihb
  | or _ _ iha ihb | bar _ _ iha ihb => exact iha.disjoin ihb
  | not _ ih | exclamation _ ih => exact .not ih

/-! ### All together -/

/-- What is asked of values, at least: in every field, which inputs make one. -/
structure StructuralMinima : Prop where
  /-- A list has the items it was made with and those that were added. -/
  lists {α : Type} (what : String) (a : ListCalls α) :
    (AtLeastOne a.start → ∃ xs, a.run what = .ok xs ∧ xs.toList = a.start ++ a.pushed) ∧
    (¬ AtLeastOne a.start → a.run what = .error (.emptyList what))
  /-- To take the first item of a list never fails. -/
  first {α : Type} (xs : NonEmpty α) : AtLeastOne xs.toList ∧ xs.toList[0]? = some xs.first
  layers : Guards LayerName.of AtLeastOne (fun _ => .emptyList "layer name")
    (fun l => some l.path.toList)
  /-- The name of a layer is made by calls that make a list. -/
  sublayers (a : ListCalls CustomIdent) : LayerName.ofCalls a = do return ⟨← a.run "layer name"⟩
  layerStatements : Guards layerOrder AtLeastOne (fun _ => .emptyList "@layer statement")
    (fun names => some names.toList)
  parts : Guards PseudoElement.ofParts AtLeastOne (fun _ => .emptyList "::part()")
    PseudoElement.parts?
  relatives : Guards PseudoClass.ofRelative AtLeastOne (fun _ => .emptyList ":has()")
    PseudoClass.relatives?
  /-- A language without text is refused before the list is looked at. -/
  languages : Guards PseudoClass.ofRanges (fun ranges => AtLeastOne ranges ∧ "" ∉ ranges)
    (fun ranges => if "" ∈ ranges then .emptyIdentifier else .emptyList ":lang()")
    PseudoClass.ranges?
  spans : Guards CounterRange.ofSpans AtLeastOne (fun _ => .emptyList "range") CounterRange.spans?
  symbols : Guards AdditiveSymbols.of AtLeastOne (fun _ => .emptyList "additive-symbols")
    (fun s => some s.tuples.toList)
  alternatives : Guards ValueGrammar.ofTerms AtLeastOne (fun _ => .emptyList "syntax")
    ValueGrammar.terms?
  selectors : Guards SelectorList.of AtLeastOne (fun _ => .emptyList "selector list")
    (fun selectors => some selectors.toList)
  families : Guards FamilyList.of AtLeastOne (fun _ => .emptyList "font-family")
    (fun l => some l.families.toList)
  offsets (declarations : DeclarationBlock) : Guards (Keyframe.of · declarations) AtLeastOne
    (fun _ => .emptyList "keyframe selector") (fun k => some k.offsets.toList)
  /-- The count is looked at before the tracks. -/
  tracks : Guards (fun i : RepeatCount × List TrackSize => Repeat.of i.1 i.2)
    (fun i => (∀ n, i.1 = .times n → 1 ≤ n) ∧ AtLeastOne i.2)
    (fun i => if i.1 = .times 0 then .tooSmall "repeat() count" 0 1
      else .emptyList "repeat() tracks")
    (fun r => some (r.count, r.tracks.toList))
  stops : Guards LinearGradient.of (fun stops => 2 ≤ stops.length)
    (fun stops => .tooSmall "linear-gradient() color stops" stops.length 2)
    (fun g => some g.stops)
  /-- A gradient keeps the stops it was made with. -/
  gradients (a : LinearGradient.Calls) :
    (2 ≤ a.stops.length → ∃ g, a.run = .ok g ∧ g.stops = a.stops) ∧
    (¬ 2 ≤ a.stops.length →
      a.run = .error (.tooSmall "linear-gradient() color stops" a.stops.length 2))
  ratios : Guards (fun i : Nat × Nat => Ratio.of i.1 i.2) (fun i => 1 ≤ i.2)
    (fun i => .tooSmall "ratio denominator" i.2 1)
    (fun r => some (r.numerator, r.denominator))
  steps : Guards (fun i : Nat × Option StepPosition => Easing.ofSteps i.1 i.2)
    (fun i => 1 ≤ i.1 ∧ (i.2 = some .jumpNone → 2 ≤ i.1))
    (fun i => .tooSmall "steps() count" i.1 (if i.2 = some .jumpNone then 2 else 1))
    Easing.steps?
  lines : Guards LineIndex.of (· ≠ 0) (fun _ => .zeroLine) (fun l => some l.index)
  spanCounts : Guards SpanCount.of (1 ≤ ·) (.tooSmall "span count" · 1) (fun s => some s.count)
  characterRanges : Guards (fun i : Nat × Nat => UnicodeRange.of i.1 i.2)
    (fun i => i.1 ≤ i.2 ∧ i.2 ≤ 0x10ffff) (fun i => .invalidUnicodeRange i.1 i.2)
    (fun r => some (r.first, r.last))
  characters : Guards UnicodeRange.single (· ≤ 0x10ffff) (fun c => .invalidUnicodeRange c c)
    (fun r => if r.last = r.first then some r.first else none)
  /-- Every junction in a condition of support has two terms at least. -/
  supports (a : SupportsCalls) : a.supports.condition.Formed fun _ => True
  containers (a : ContainerCalls) (c : Container) : a.container = .ok c →
    c.condition.Formed fun _ => True

/-- **No value is made of too little.** Whatever calls make it, a list has the items it was
made with and those that were added, and so a first one; the lists of layers, parts, selectors,
languages, spans, symbols, alternatives, families, offsets and tracks are refused exactly when
they are empty, and a gradient exactly with fewer than two stops, which it keeps. Counts,
denominators, lines and ranges of characters are refused exactly out of their bounds. In a
condition every junction has at least two terms. -/
theorem structural_minima : StructuralMinima where
  lists what _ := ⟨ListCalls.exists_run what, ListCalls.run_eq_error⟩
  first _ := ⟨atLeastOne_iff.mpr (List.cons_ne_nil _ _), rfl⟩
  layers := LayerName.guards_of
  sublayers := LayerName.ofCalls_eq
  layerStatements := NonEmpty.guards_ofList _
  parts := PseudoElement.guards_ofParts
  relatives := PseudoClass.guards_ofRelative
  languages := PseudoClass.guards_ofRanges
  spans := CounterRange.guards_ofSpans
  symbols := AdditiveSymbols.guards_of
  alternatives := ValueGrammar.guards_ofTerms
  selectors := NonEmpty.guards_ofList _
  families := FamilyList.guards_of
  offsets := Keyframe.guards_of
  tracks := Repeat.guards_of
  stops := LinearGradient.guards_of
  gradients _ := ⟨fun h => ⟨_, LinearGradient.Calls.run_eq_ok h, rfl⟩,
    LinearGradient.Calls.run_eq_error⟩
  ratios := Ratio.guards_of
  steps := Easing.guards_ofSteps
  lines := LineIndex.guards_of
  spanCounts := SpanCount.guards_of
  characterRanges := UnicodeRange.guards_of
  characters := UnicodeRange.guards_single
  supports := SupportsCalls.formed
  containers _ _ h := (ContainerCalls.makes_of_eq_ok h).formed

/-- Every constructor on both sides of its bound, a layer within a layer, a gradient that starts
again, and a condition on a container. -/
theorem structural_minima_at_bounds :
    ∃ (a b : CustomIdent) (stop : ColorStop) (gradient : LinearGradient.Calls)
      (upright : ContainerCalls) (c : Container),
      (∃ xs, (ListCalls.push (.single a) b).run "layer name" = .ok xs ∧ xs.toList = [a, b]) ∧
      ((∃ l, LayerName.of [a] = .ok l ∧ l.path.toList = [a]) ∧
        LayerName.of [] = .error (.emptyList "layer name")) ∧
      ((∃ names, layerOrder [.single a] = .ok names ∧ names.toList = [.single a]) ∧
        layerOrder [] = .error (.emptyList "@layer statement")) ∧
      ((∃ e, PseudoElement.ofParts [a, b] = .ok e ∧ e.parts? = some [a, b]) ∧
        PseudoElement.ofParts [] = .error (.emptyList "::part()")) ∧
      ((∃ p, PseudoClass.ofRelative [.mk .child (.compound .universal)] = .ok p ∧
          p.relatives? = some [.mk .child (.compound .universal)]) ∧
        PseudoClass.ofRelative [] = .error (.emptyList ":has()")) ∧
      ((∃ p, PseudoClass.ofRanges ["en"] = .ok p ∧ p.ranges? = some ["en"]) ∧
        PseudoClass.ofRanges ["en", ""] = .error .emptyIdentifier ∧
        PseudoClass.ofRanges [] = .error (.emptyList ":lang()")) ∧
      ((∃ r, CounterRange.ofSpans [⟨⟨none⟩, ⟨some 0⟩⟩] = .ok r ∧
          r.spans? = some [⟨⟨none⟩, ⟨some 0⟩⟩]) ∧
        CounterRange.ofSpans [] = .error (.emptyList "range")) ∧
      ((∃ s, AdditiveSymbols.of [⟨1, .ident a⟩] = .ok s ∧ s.tuples.toList = [⟨1, .ident a⟩]) ∧
        AdditiveSymbols.of [] = .error (.emptyList "additive-symbols")) ∧
      ((∃ g, ValueGrammar.ofTerms [.ident a none] = .ok g ∧ g.terms? = some [.ident a none]) ∧
        ValueGrammar.ofTerms [] = .error (.emptyList "syntax")) ∧
      ((∃ l, SelectorList.of [.compound .universal] = .ok l ∧
          l.toList = [.compound .universal]) ∧
        SelectorList.of [] = .error (.emptyList "selector list")) ∧
      ((∃ l, FamilyList.of [.inl .serif] = .ok l ∧ l.families.toList = [.inl .serif]) ∧
        FamilyList.of [] = .error (.emptyList "font-family")) ∧
      ((∃ k, Keyframe.of [.start] .empty = .ok k ∧ k.offsets.toList = [.start]) ∧
        Keyframe.of [] .empty = .error (.emptyList "keyframe selector")) ∧
      ((∃ r, Repeat.of (.times 1) [.breadth .auto] = .ok r ∧
          (r.count, r.tracks.toList) = (.times 1, [.breadth .auto])) ∧
        Repeat.of (.times 0) [] = .error (.tooSmall "repeat() count" 0 1) ∧
        Repeat.of .autoFill [] = .error (.emptyList "repeat() tracks")) ∧
      ((∃ g, LinearGradient.of [stop, stop] = .ok g ∧ g.stops = [stop, stop]) ∧
        LinearGradient.of [stop] = .error (.tooSmall "linear-gradient() color stops" 1 2)) ∧
      (∃ g, gradient.run = .ok g ∧ g.stops = [stop, stop] ∧ 2 ≤ g.stops.length) ∧
      ((∃ r, Ratio.of 0 1 = .ok r ∧ (r.numerator, r.denominator) = (0, 1)) ∧
        Ratio.of 1 0 = .error (.tooSmall "ratio denominator" 0 1)) ∧
      ((∃ e, Easing.ofSteps 1 none = .ok e ∧ e.steps? = some (1, none)) ∧
        Easing.ofSteps 1 (some .jumpNone) = .error (.tooSmall "steps() count" 1 2)) ∧
      ((∃ l, LineIndex.of (-1) = .ok l ∧ l.index = -1) ∧ LineIndex.of 0 = .error .zeroLine) ∧
      ((∃ s, SpanCount.of 1 = .ok s ∧ s.count = 1) ∧
        SpanCount.of 0 = .error (.tooSmall "span count" 0 1)) ∧
      ((∃ r, UnicodeRange.of 0 0x10ffff = .ok r ∧ (r.first, r.last) = (0, 0x10ffff)) ∧
        UnicodeRange.of 1 0 = .error (.invalidUnicodeRange 1 0)) ∧
      ((∃ r, UnicodeRange.single 0x10ffff = .ok r ∧
          (if r.last = r.first then some r.first else none) = some 0x10ffff) ∧
        UnicodeRange.single 0x110000 = .error (.invalidUnicodeRange 0x110000 0x110000)) ∧
      upright.container = .ok c ∧ c.condition.Formed fun _ => True := by
  let a : CustomIdent := ⟨⟨"a", by decide⟩, by decide⟩
  let b : CustomIdent := ⟨⟨"b", by decide⟩, by decide⟩
  let stop : ColorStop := .of .currentColor
  let gradient : LinearGradient.Calls := .repeated (.of [stop, stop])
  let portrait : ContainerCalls := .size (.orientation .portrait)
  let upright : ContainerCalls := .and portrait (.not portrait)
  obtain ⟨made, hmade, hstops⟩ := (structural_minima.gradients gradient).1 (Nat.le_refl 2)
  have hnil {α : Type} : ¬ AtLeastOne ([] : List α) := not_atLeastOne_nil
  have hone {α : Type} {x : α} : AtLeastOne [x] := Nat.le_refl 1
  have htimes : ∀ n, RepeatCount.times 1 = .times n → 1 ≤ n := by
    rintro n ⟨⟩
    exact Nat.le_refl 1
  refine ⟨a, b, stop, gradient, upright, _,
    (structural_minima.lists "layer name" (.push (.single a) b)).1 hone,
    structural_minima.layers.both_sides hone hnil,
    structural_minima.layerStatements.both_sides hone hnil,
    ⟨structural_minima.parts.ok (i := [a, b]) (Nat.le_succ 1), structural_minima.parts.error hnil⟩,
    ⟨structural_minima.relatives.ok hone, structural_minima.relatives.error hnil⟩,
    ⟨structural_minima.languages.ok ⟨hone, by decide⟩,
      structural_minima.languages.error (i := ["en", ""]) fun h => h.2 (by decide),
      structural_minima.languages.error (i := []) fun h => hnil h.1⟩,
    ⟨structural_minima.spans.ok hone, structural_minima.spans.error hnil⟩,
    structural_minima.symbols.both_sides hone hnil,
    ⟨structural_minima.alternatives.ok hone, structural_minima.alternatives.error hnil⟩,
    structural_minima.selectors.both_sides hone hnil,
    structural_minima.families.both_sides hone hnil,
    (structural_minima.offsets .empty).both_sides hone hnil, ?_, ?_, ?_, ?_, ?_, ?_, ?_, ?_, ?_,
    rfl, structural_minima.containers upright _ rfl⟩
  · have hauto := structural_minima.tracks.error (i := (.autoFill, [])) fun h => hnil h.2
    obtain ⟨hmade, hzero⟩ := structural_minima.tracks.both_sides
      (i := (.times 1, [.breadth .auto])) (j := (.times 0, []))
      ⟨htimes, hone⟩ fun h => hnil h.2
    exact ⟨hmade, hzero, hauto⟩
  · exact structural_minima.stops.both_sides (j := [stop]) (Nat.le_refl 2) (Nat.not_succ_le_self 1)
  · exact ⟨made, hmade, hstops, structural_minima.stops.within rfl⟩
  · exact structural_minima.ratios.both_sides (i := (0, 1)) (j := (1, 0)) (by decide) (by decide)
  · exact ⟨structural_minima.steps.ok (i := (1, none)) (by decide),
      structural_minima.steps.error (i := (1, some .jumpNone)) (by decide)⟩
  · exact structural_minima.lines.both_sides (by decide) (by decide)
  · exact structural_minima.spanCounts.both_sides (by decide) (by decide)
  · exact structural_minima.characterRanges.both_sides (i := (0, 0x10ffff)) (j := (1, 0))
      (by decide) (by decide)
  · exact ⟨structural_minima.characters.ok (by decide),
      structural_minima.characters.error (by decide)⟩

end Stylesheet
