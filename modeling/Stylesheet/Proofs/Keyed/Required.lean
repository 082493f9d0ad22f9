import Stylesheet.Font.Feature
import Stylesheet.Proofs.Keyed.Run
import Stylesheet.Proofs.Name.Keyword
import Stylesheet.Rule.Registration

/-! Rules that steps fill with descriptors.

A step fails, whatever the rule holds, or puts one descriptor among those that are there. So
what a rule is made with stays in front, and every name keeps one place, whichever steps set
it. The names of feature values are chosen by the author, and share a place when they are
written alike. -/
namespace Stylesheet

universe u

/-! ### Builders -/

/-- Steps that fill a rule, and the declaration that each of them gives or its complaint. -/
structure Builder (Rule : Type) (Step : Type u) where
  entries : Rule → List Declaration
  run : Rule → Step → Result Rule
  declaration : Step → Result Declaration
  run_eq (r : Rule) (step : Step) :
    (run r step).map entries = (declaration step).map (put Declaration.name (entries r))

namespace Builder
variable {Rule : Type} {Step : Type u} (b : Builder Rule Step)

/-- A step that fails is left out. -/
def apply (r : Rule) (step : Step) : Rule := (b.run r step).toOption.getD r

/-- A run of steps. One that fails is left out. -/
def build (start : Rule) (steps : List Step) : Rule := steps.foldl b.apply start

/-- What a step puts, if it succeeds. -/
def declaration? (step : Step) : Option Declaration := (b.declaration step).toOption

/-- Whether a step fails is seen from the step alone. -/
theorem run_cases (r : Rule) (step : Step) :
    (∃ e, b.run r step = .error e ∧ b.declaration step = .error e) ∨
    ∃ r' d, b.run r step = .ok r' ∧ b.declaration step = .ok d ∧
      b.entries r' = put Declaration.name (b.entries r) d := by
  have hrun := b.run_eq r step
  cases hr : b.run r step <;> cases hd : b.declaration step <;> rw [hr, hd] at hrun
  case error.error e e' => exact .inl ⟨e, rfl, congrArg Except.error (Except.error.inj hrun).symm⟩
  case ok.ok r' d => exact .inr ⟨r', d, rfl, rfl, Except.ok.inj hrun⟩
  all_goals exact nomatch hrun

theorem puts_apply : Puts Declaration.name b.entries b.declaration? b.apply := by
  intro r step
  obtain ⟨e, hrun, hdeclaration⟩ | ⟨r', d, hrun, hdeclaration, hentries⟩ := b.run_cases r step
  · rw [apply, declaration?, hrun, hdeclaration]
    rfl
  · rw [apply, declaration?, hrun, hdeclaration]
    exact hentries

/-- A step fails for its own reasons, whatever the rule holds. -/
theorem run_eq_error_iff {r : Rule} {step : Step} {e : Error} :
    b.run r step = .error e ↔ b.declaration step = .error e := by
  obtain ⟨e', hrun, hdeclaration⟩ | ⟨r', d, hrun, hdeclaration, -⟩ := b.run_cases r step
  · rw [hrun, hdeclaration, Except.error.injEq, Except.error.injEq]
  · rw [hrun, hdeclaration]
    exact iff_of_false nofun nofun

/-- What a run leaves: one entry for each name, in the order in which the names first came,
with what was set last. A further step leaves each entry where it is, or puts its own
declaration in the place of the one with its name. -/
structure Keeps (start : Rule) (steps : List Step) : Prop where
  keepsLatest : KeepsLatest Declaration.name (b.entries start ++ steps.filterMap b.declaration?)
    (b.entries (b.build start steps))
  in_place (step : Step) (i : Nat) (d : Declaration) :
    (b.entries (b.build start steps))[i]? = some d →
      ∃ d', (b.entries (b.apply (b.build start steps) step))[i]? = some d' ∧ d'.name = d.name ∧
        (d' = d ∨ b.declaration step = .ok d')

theorem exists_getElem?_apply {r : Rule} {i : Nat} {d : Declaration} (step : Step)
    (h : (b.entries r)[i]? = some d) :
    ∃ d', (b.entries (b.apply r step))[i]? = some d' ∧ d'.name = d.name ∧
      (d' = d ∨ b.declaration step = .ok d') := by
  rw [b.puts_apply, declaration?]
  cases b.declaration step with
  | error e => exact ⟨d, h, rfl, .inl rfl⟩
  | ok e =>
    obtain ⟨d', hget, hname, hd⟩ := exists_getElem?_put Declaration.name h e
    exact ⟨d', hget, hname, hd.imp id fun heq => congrArg Except.ok heq.symm⟩

/-- **What a rule starts with stays in its place**, whatever steps follow. -/
theorem keeps (start : Rule) {names : List (List Char)} (hnodup : names.Nodup)
    (hnames : (b.entries start).map Declaration.name = names) (steps : List Step) :
    b.Keeps start steps where
  keepsLatest := b.puts_apply.keepsLatest_append steps (hnames ▸ hnodup)
  in_place step _ _ h := b.exists_getElem?_apply step h

end Builder

def descriptor {α : Type} [ToCss α] (name : String) (value : α) : Declaration :=
  ⟨name.toList, css value, false⟩

/-- A list with something in it. -/
def listDescriptor {α : Type} [ToCss α] (what name separator : String) :
    List α → Result Declaration
  | [] => .error (.emptyList what)
  | items => .ok (descriptor name (⟨items⟩ : Listed separator α))

/-- A list fails only by being empty. -/
theorem listDescriptor_eq_error_iff {α : Type} [ToCss α] {what name separator : String}
    {items : List α} {e : Error} :
    listDescriptor what name separator items = .error e ↔ items = [] ∧ e = .emptyList what := by
  cases items with
  | nil => simp [listDescriptor, eq_comm]
  | cons => simp [listDescriptor]

/-! ### Font faces -/

inductive FontFaceStep where
  | style (style : FontStyle)
  | weight (weight : FontWeight)
  | weightRange (least most : FontWeight)
  | stretch (stretch : FontStretch)
  | display (display : FontDisplay)
  | unicodeRange (ranges : List UnicodeRange)
  | sizeAdjust (p : NonNegative Percentage)
  | ascentOverride (p : NonNegative Percentage)
  | descentOverride (p : NonNegative Percentage)
  | lineGapOverride (p : NonNegative Percentage)

namespace FontFaceStep

def run (r : FontFaceRule) : FontFaceStep → Result FontFaceRule
  | style s => .ok (r.withStyle s)
  | weight w => .ok (r.withWeight w)
  | weightRange least most => .ok (r.withWeightRange least most)
  | stretch s => .ok (r.withStretch s)
  | display d => .ok (r.withDisplay d)
  | unicodeRange ranges => r.withUnicodeRange ranges
  | sizeAdjust p => .ok (r.withSizeAdjust p)
  | ascentOverride p => .ok (r.withAscentOverride p)
  | descentOverride p => .ok (r.withDescentOverride p)
  | lineGapOverride p => .ok (r.withLineGapOverride p)

def declaration : FontFaceStep → Result Declaration
  | style s => .ok (descriptor "font-style" s)
  | weight w => .ok (descriptor "font-weight" w)
  | weightRange least most => .ok (descriptor "font-weight" (⟨least, most⟩ : Pair FontWeight))
  | stretch s => .ok (descriptor "font-stretch" s)
  | display d => .ok (descriptor "font-display" d)
  | unicodeRange ranges => listDescriptor "unicode-range" "unicode-range" ", " ranges
  | sizeAdjust p => .ok (descriptor "size-adjust" p)
  | ascentOverride p => .ok (descriptor "ascent-override" p)
  | descentOverride p => .ok (descriptor "descent-override" p)
  | lineGapOverride p => .ok (descriptor "line-gap-override" p)

/-- The weight that a step sets, be it one or a range. -/
def weight? : FontFaceStep → Option Declaration
  | weight w => some ⟨"font-weight".toList, css w, false⟩
  | weightRange least most =>
    some ⟨"font-weight".toList, css least ++ " ".toList ++ css most, false⟩
  | _ => none

def builder : Builder FontFaceRule FontFaceStep where
  entries r := r.descriptors.entries
  run := run
  declaration := declaration
  run_eq r step := by
    cases step with
    | unicodeRange ranges => cases ranges <;> rfl
    | _ => rfl

theorem filter_declaration? (step : FontFaceStep) :
    (builder.declaration? step).filter (·.name == "font-weight".toList) = step.weight? := by
  cases step with
  | unicodeRange ranges => cases ranges <;> rfl
  | _ => rfl

/-- No step gives a descriptor that a font face is made with. -/
theorem filter_required {name : String} (hname : name = "font-family" ∨ name = "src")
    (step : FontFaceStep) : (builder.declaration? step).filter (·.name == name.toList) = none := by
  obtain rfl | rfl := hname <;> cases step with
  | unicodeRange ranges => cases ranges <;> rfl
  | _ => rfl

theorem run_eq_error_iff {r : FontFaceRule} {step : FontFaceStep} {e : Error} :
    run r step = .error e ↔ step = .unicodeRange [] ∧ e = .emptyList "unicode-range" := by
  refine builder.run_eq_error_iff.trans ?_
  cases step with
  | unicodeRange ranges =>
    exact listDescriptor_eq_error_iff.trans (by simp)
  | _ => exact iff_of_false nofun nofun

end FontFaceStep

namespace FontFaceRule

theorem exists_of (family : String) {sources : List FontSource} (h : sources ≠ []) :
    ∃ start, of family sources = .ok start ∧ start.descriptors.entries =
      [⟨"font-family".toList, quoteString family.toList, false⟩,
        ⟨"src".toList, commaSeparated sources, false⟩] := by
  cases sources with
  | nil => exact absurd rfl h
  | cons => exact ⟨_, rfl, rfl⟩

/-- What steps leave in a font face: its family and its sources in front, and one weight. -/
structure Filled (family : String) (sources : List FontSource) (start : FontFaceRule)
    (steps : List FontFaceStep) : Prop extends FontFaceStep.builder.Keeps start steps where
  family_eq : (FontFaceStep.builder.build start steps).descriptors.entries[0]? =
    some ⟨"font-family".toList, quoteString family.toList, false⟩
  sources_eq : (FontFaceStep.builder.build start steps).descriptors.entries[1]? =
    some ⟨"src".toList, commaSeparated sources, false⟩
  /-- The weight is the one set last, be it one or a range. -/
  weight_eq : (FontFaceStep.builder.build start steps).descriptors.get? "font-weight".toList =
    lastSet FontFaceStep.weight? steps

theorem filled_of (family : String) {sources : List FontSource} (h : sources ≠ [])
    (steps : List FontFaceStep) :
    ∃ start, of family sources = .ok start ∧ Filled family sources start steps := by
  obtain ⟨start, hof, hentries⟩ := exists_of family h
  have hnames : start.descriptors.entries.map Declaration.name =
      ["font-family".toList, "src".toList] := by
    rw [hentries]
    rfl
  have hstays {i : Nat} {name : String} {value : List Char}
      (hname : name = "font-family" ∨ name = "src")
      (hi : start.descriptors.entries[i]? = some ⟨name.toList, value, false⟩) :
      (FontFaceStep.builder.build start steps).descriptors.entries[i]? =
        some ⟨name.toList, value, false⟩ := by
    refine FontFaceStep.builder.puts_apply.getElem?_foldl (fun step d hd heq => ?_) steps hi
    have hfilter := FontFaceStep.filter_required hname step
    exact Option.filter_eq_none_iff.mp hfilter d hd (beq_iff_eq.mpr heq.symm)
  have hkeeps := FontFaceStep.builder.keeps start (by decide) hnames steps
  refine ⟨start, hof, hkeeps, hstays (.inl rfl) (by rw [hentries]; rfl),
    hstays (.inr rfl) (by rw [hentries]; rfl), (hkeeps.keepsLatest.find?_eq _).trans ?_⟩
  refine lastUnder_append_filterMap ?_ FontFaceStep.filter_declaration? steps
  show ∀ d ∈ start.descriptors.entries, (d.name == "font-weight".toList) = false
  rw [hentries]
  simp only [List.forall_mem_cons]
  exact ⟨rfl, rfl, List.forall_mem_nil _⟩

end FontFaceRule

/-! ### Registered properties -/

inductive PropertyStep where
  | initialValue {α : Type} [ToCss α] (value : α)

namespace PropertyStep

def declaration : PropertyStep → Declaration
  | initialValue value => descriptor "initial-value" value

def run (r : PropertyRule) : PropertyStep → PropertyRule
  | initialValue value => r.withInitialValue value

def builder : Builder PropertyRule PropertyStep where
  entries r := r.descriptors.entries
  run r step := .ok (step.run r)
  declaration step := .ok step.declaration
  run_eq r step := by
    cases step
    rfl

end PropertyStep

/-- What steps leave in the registration of a property: behind the grammar and the inheritance
stands the initial value that was set last, if any. -/
structure PropertyRule.Filled (name : DashedIdent) (grammar : ValueGrammar) (inherits : Bool)
    (steps : List PropertyStep) : Prop
    extends PropertyStep.builder.Keeps (of name grammar inherits) steps where
  entries_eq :
    (PropertyStep.builder.build (of name grammar inherits) steps).descriptors.entries =
      [⟨"syntax".toList, css grammar, false⟩,
        ⟨"inherits".toList, (if inherits then "true" else "false").toList, false⟩] ++
        (steps.map PropertyStep.declaration).getLast?.toList

/-- The three descriptors of a registered property, and then what the steps put. -/
theorem PropertyRule.filled_of (name : DashedIdent) (grammar : ValueGrammar) (inherits : Bool)
    (steps : List PropertyStep) : Filled name grammar inherits steps := by
  let required : List Declaration := [⟨"syntax".toList, css grammar, false⟩,
    ⟨"inherits".toList, (if inherits then "true" else "false").toList, false⟩]
  have hstart : PropertyStep.builder.entries (of name grammar inherits) = required := by
    cases inherits <;> rfl
  have hnames : required.map Declaration.name = ["syntax".toList, "inherits".toList] := rfl
  have hgiven : steps.filterMap PropertyStep.builder.declaration? =
      steps.map PropertyStep.declaration :=
    congrFun List.filterMap_eq_map steps
  have hinitial : ∀ d ∈ steps.map PropertyStep.declaration, d.name = "initial-value".toList := by
    refine List.forall_mem_map.mpr fun step _ => ?_
    cases step
    rfl
  refine ⟨PropertyStep.builder.keeps _ (by decide) (hstart ▸ hnames) steps, ?_⟩
  calc PropertyStep.builder.entries (PropertyStep.builder.build (of name grammar inherits) steps)
      = (steps.map PropertyStep.declaration).foldl (put Declaration.name) required := by
        rw [Builder.build, PropertyStep.builder.puts_apply.foldl_eq, hgiven, hstart]
    _ = required ++ (steps.map PropertyStep.declaration).getLast?.toList := by
        have hnew : "initial-value".toList ∉ required.map Declaration.name := by
          rw [hnames]
          decide
        exact foldl_put_eq_getLast? hnew hinitial

/-! ### Counter styles -/

inductive CounterStyleStep where
  | system (system : CounterSystem)
  | symbols (symbols : List CounterSymbol)
  | additiveSymbols (tuples : List WeightedSymbol)
  | negative (first : CounterSymbol) (second : Option CounterSymbol)
  | lead (symbol : CounterSymbol)
  | trail (symbol : CounterSymbol)
  | autoRange
  | range (spans : List CounterSpan)
  | pad (pad : WeightedSymbol)
  | fallback (style : CustomIdent)
  | speakAs (speakAs : SpeakAs)

namespace CounterStyleStep

def run (r : CounterStyleRule) : CounterStyleStep → Result CounterStyleRule
  | system s => .ok (r.withSystem s)
  | symbols list => r.withSymbols list
  | additiveSymbols tuples => r.withAdditiveSymbols tuples
  | negative first second => .ok (r.withNegative first second)
  | lead symbol => .ok (r.withPrefix symbol)
  | trail symbol => .ok (r.withSuffix symbol)
  | autoRange => .ok r.withAutoRange
  | range spans => r.withRange spans
  | pad p => .ok (r.withPad p)
  | fallback style => .ok (r.withFallback style)
  | speakAs s => .ok (r.withSpeakAs s)

def declaration : CounterStyleStep → Result Declaration
  | system s => .ok (descriptor "system" s)
  | symbols list => listDescriptor "symbols" "symbols" " " list
  | additiveSymbols tuples => listDescriptor "additive-symbols" "additive-symbols" ", " tuples
  | negative first second =>
    .ok (descriptor "negative" (⟨first :: second.toList⟩ : Listed " " CounterSymbol))
  | lead symbol => .ok (descriptor "prefix" symbol)
  | trail symbol => .ok (descriptor "suffix" symbol)
  | autoRange => .ok (descriptor "range" CounterRange.auto)
  | range spans => listDescriptor "range" "range" ", " spans
  | pad p => .ok (descriptor "pad" p)
  | fallback style => .ok (descriptor "fallback" style)
  | speakAs s => .ok (descriptor "speak-as" s)

/-- The range that a step sets, which is automatic or of some spans. -/
def range? : CounterStyleStep → Option Declaration
  | autoRange => some ⟨"range".toList, "auto".toList, false⟩
  | range (span :: spans) => some ⟨"range".toList, commaSeparated (span :: spans), false⟩
  | _ => none

def builder : Builder CounterStyleRule CounterStyleStep where
  entries r := r.descriptors.entries
  run := run
  declaration := declaration
  run_eq r step := by
    cases step with
    | symbols list => cases list <;> rfl
    | additiveSymbols tuples => cases tuples <;> rfl
    | range spans => cases spans <;> rfl
    | _ => rfl

theorem filter_declaration? (step : CounterStyleStep) :
    (builder.declaration? step).filter (·.name == "range".toList) = step.range? := by
  cases step with
  | symbols list => cases list <;> rfl
  | additiveSymbols tuples => cases tuples <;> rfl
  | range spans => cases spans <;> rfl
  | _ => rfl

theorem run_eq_error_iff {r : CounterStyleRule} {step : CounterStyleStep} {e : Error} :
    run r step = .error e ↔
      step = .symbols [] ∧ e = .emptyList "symbols" ∨
      step = .additiveSymbols [] ∧ e = .emptyList "additive-symbols" ∨
      step = .range [] ∧ e = .emptyList "range" := by
  refine builder.run_eq_error_iff.trans ?_
  cases step with
  | symbols | additiveSymbols | range => exact listDescriptor_eq_error_iff.trans (by simp)
  | _ => exact iff_of_false nofun (by simp)

end CounterStyleStep

/-- What steps leave in a counter style, whose range is the one set last, in either way. -/
structure CounterStyleRule.Filled (name : CounterStyleName) (steps : List CounterStyleStep) : Prop
    extends CounterStyleStep.builder.Keeps ⟨name, .empty⟩ steps where
  range_eq : (CounterStyleStep.builder.build ⟨name, .empty⟩ steps).descriptors.get?
    "range".toList = lastSet CounterStyleStep.range? steps

theorem CounterStyleRule.filled_empty (name : CounterStyleName) (steps : List CounterStyleStep) :
    Filled name steps := by
  have hkeeps := CounterStyleStep.builder.keeps ⟨name, .empty⟩ .nil rfl steps
  refine ⟨hkeeps, (hkeeps.keepsLatest.find?_eq _).trans ?_⟩
  exact lastUnder_append_filterMap nofun CounterStyleStep.filter_declaration? steps

/-! ### Feature values -/

structure FeatureStep where
  name : CustomIdent
  indices : List Nat

/-- Names that are alike but for the null character, which is written as its replacement. -/
def CustomIdent.Alike (m n : CustomIdent) : Prop :=
  m.name.toList.map replaced = n.name.toList.map replaced

instance (m n : CustomIdent) : Decidable (m.Alike n) :=
  inferInstanceAs (Decidable (m.name.toList.map replaced = n.name.toList.map replaced))

theorem CustomIdent.css_eq_iff {m n : CustomIdent} : css m = css n ↔ m.Alike n :=
  canonical_inj.symm.trans normal_eq_iff

namespace FeatureStep

def run (b : FeatureBlock) (step : FeatureStep) : Result FeatureBlock :=
  b.withValue step.name step.indices

def declaration (step : FeatureStep) : Result Declaration :=
  match step.indices with
  | [] => .error (.emptyList "feature value indices")
  | indices => .ok ⟨css step.name, separated " " indices, false⟩

/-- The indices that a step gives to a name. -/
def value? (n : CustomIdent) (step : FeatureStep) : Option Declaration :=
  if step.name.Alike n ∧ step.indices ≠ [] then some ⟨css n, separated " " step.indices, false⟩
  else none

def builder : Builder FeatureBlock FeatureStep where
  entries b := b.values.entries
  run := run
  declaration := declaration
  run_eq b step := by
    obtain ⟨name, indices⟩ := step
    cases indices <;> rfl

theorem filter_declaration? (n : CustomIdent) (step : FeatureStep) :
    (builder.declaration? step).filter (·.name == css n) = step.value? n := by
  obtain ⟨name, indices⟩ := step
  cases indices with
  | nil => exact (if_neg fun h => h.2 rfl).symm
  | cons i is =>
    by_cases hname : name.Alike n
    · have hcss : css name = css n := CustomIdent.css_eq_iff.mpr hname
      have hvalue : value? n ⟨name, i :: is⟩ = some ⟨css n, separated " " (i :: is), false⟩ :=
        if_pos ⟨hname, nofun⟩
      rw [hvalue, ← hcss]
      exact if_pos (beq_self_eq_true (css name))
    · have hvalue : value? n ⟨name, i :: is⟩ = none := if_neg fun h => hname h.1
      have hcss : ¬(css name == css n) := fun h => hname (CustomIdent.css_eq_iff.mp (eq_of_beq h))
      rw [hvalue]
      exact if_neg hcss

theorem run_eq_error_iff {b : FeatureBlock} {step : FeatureStep} {e : Error} :
    run b step = .error e ↔ step.indices = [] ∧ e = .emptyList "feature value indices" := by
  obtain ⟨name, indices⟩ := step
  refine builder.run_eq_error_iff.trans ?_
  cases indices with
  | nil => exact ⟨fun h => ⟨rfl, (Except.error.inj h).symm⟩, fun h => congrArg _ h.2.symm⟩
  | cons => exact iff_of_false nofun nofun

end FeatureStep

namespace FeatureBlock

/-- Where the entry of a name stands. -/
def place? (b : FeatureBlock) (n : CustomIdent) : Option Nat :=
  b.values.entries.findIdx? (·.name == css n)

/-- **Names share a place if they are written alike**, and only then. -/
theorem place?_eq_iff {b : FeatureBlock} {m n : CustomIdent} (h : (b.place? m).isSome) :
    b.place? m = b.place? n ↔ m.Alike n := by
  have hname {n : CustomIdent} {i : Nat} (hi : b.place? n = some i) :
      (b.values.entries[i]?).map Declaration.name = some (css n) := by
    obtain ⟨hlt, hentry, -⟩ := List.findIdx?_eq_some_iff_getElem.mp hi
    rw [List.getElem?_eq_getElem hlt]
    exact congrArg some (eq_of_beq hentry)
  rw [← CustomIdent.css_eq_iff]
  constructor
  · intro heq
    obtain ⟨i, hi⟩ := Option.isSome_iff_exists.mp h
    exact Option.some.inj ((hname hi).symm.trans (hname (heq ▸ hi)))
  · intro heq
    rw [place?, place?, heq]

theorem keeps_of (kind : FeatureKind) (steps : List FeatureStep) :
    FeatureStep.builder.Keeps (of kind) steps :=
  FeatureStep.builder.keeps (of kind) .nil rfl steps

/-- A name has the entry of the last step that gives it indices. -/
theorem get?_build (kind : FeatureKind) (steps : List FeatureStep) (n : CustomIdent) :
    (FeatureStep.builder.build (of kind) steps).values.get? (css n) =
      lastSet (FeatureStep.value? n) steps := by
  refine ((keeps_of kind steps).keepsLatest.find?_eq _).trans ?_
  exact lastUnder_append_filterMap nofun (FeatureStep.filter_declaration? n) steps

/-- A value that was set has its place. -/
theorem isSome_place?_build {kind : FeatureKind} {steps : List FeatureStep} {step : FeatureStep}
    (hstep : step ∈ steps) (hindices : step.indices ≠ []) :
    ((FeatureStep.builder.build (of kind) steps).place? step.name).isSome := by
  have hvalue : (step.value? step.name).isSome := by
    rw [FeatureStep.value?, if_pos ⟨rfl, hindices⟩]
    rfl
  have hentry := isSome_lastSet hstep hvalue
  rw [← get?_build kind steps step.name, Descriptors.get?, List.find?_isSome] at hentry
  rw [place?, List.findIdx?_isSome]
  exact List.any_eq_true.mpr hentry

/-- What steps leave in a block of feature values. Names that got indices have a place there,
which is one place for two of them if they are alike, and only then. -/
structure Filled (kind : FeatureKind) (steps : List FeatureStep) : Prop
    extends FeatureStep.builder.Keeps (of kind) steps where
  value_eq (n : CustomIdent) : (FeatureStep.builder.build (of kind) steps).values.get? (css n) =
    lastSet (FeatureStep.value? n) steps
  isSome_place? : ∀ a ∈ steps, a.indices ≠ [] →
    ((FeatureStep.builder.build (of kind) steps).place? a.name).isSome
  place?_eq_iff : ∀ a ∈ steps, ∀ b ∈ steps, a.indices ≠ [] → b.indices ≠ [] →
    ((FeatureStep.builder.build (of kind) steps).place? a.name =
      (FeatureStep.builder.build (of kind) steps).place? b.name ↔ a.name.Alike b.name)

theorem filled_of (kind : FeatureKind) (steps : List FeatureStep) : Filled kind steps where
  toKeeps := keeps_of kind steps
  value_eq := get?_build kind steps
  isSome_place? _ := isSome_place?_build
  place?_eq_iff _ ha _ _ hindices _ := place?_eq_iff (isSome_place?_build ha hindices)

end FeatureBlock

/-! ### All of them -/

/-- What rules keep under steps, of which a failing one is left out, and when a step fails. -/
structure RequiredDescriptors : Prop where
  fontFaces (family : String) (sources : List FontSource) (h : sources ≠ [])
    (steps : List FontFaceStep) : ∃ start, FontFaceRule.of family sources = .ok start ∧
      FontFaceRule.Filled family sources start steps
  noSources (family : String) : FontFaceRule.of family [] = .error (.emptyList "@font-face src")
  fontFace_error_iff (r : FontFaceRule) (step : FontFaceStep) (e : Error) :
    step.run r = .error e ↔ step = .unicodeRange [] ∧ e = .emptyList "unicode-range"
  /-- No step fails for a registered property. -/
  properties (name : DashedIdent) (grammar : ValueGrammar) (inherits : Bool)
    (steps : List PropertyStep) : PropertyRule.Filled name grammar inherits steps
  counterStyles (name : CounterStyleName) (steps : List CounterStyleStep) :
    CounterStyleRule.Filled name steps
  counterStyle_error_iff (r : CounterStyleRule) (step : CounterStyleStep) (e : Error) :
    step.run r = .error e ↔
      step = .symbols [] ∧ e = .emptyList "symbols" ∨
      step = .additiveSymbols [] ∧ e = .emptyList "additive-symbols" ∨
      step = .range [] ∧ e = .emptyList "range"
  features (kind : FeatureKind) (steps : List FeatureStep) : FeatureBlock.Filled kind steps
  feature_error_iff (b : FeatureBlock) (step : FeatureStep) (e : Error) :
    step.run b = .error e ↔ step.indices = [] ∧ e = .emptyList "feature value indices"

/-- **Rules keep what they are made with, and one entry for each descriptor.** -/
theorem required_descriptors_stay : RequiredDescriptors where
  fontFaces family _ := FontFaceRule.filled_of family
  noSources _ := rfl
  fontFace_error_iff _ _ _ := FontFaceStep.run_eq_error_iff
  properties := PropertyRule.filled_of
  counterStyles := CounterStyleRule.filled_empty
  counterStyle_error_iff _ _ _ := CounterStyleStep.run_eq_error_iff
  features := FeatureBlock.filled_of
  feature_error_iff _ _ _ := FeatureStep.run_eq_error_iff

/-- A step left out between two weights, and two names that are written alike. -/
theorem required_descriptors_stay_null : ∃ (faces : List FontFaceStep) (start : FontFaceRule)
    (features : List FeatureStep) (m n : CustomIdent),
    FontFaceRule.of "Inter" [.installed ⟨"Inter"⟩] = .ok start ∧
    (FontFaceStep.builder.build start faces).descriptors.entries[1]? =
      some ⟨"src".toList, "local(\"Inter\")".toList, false⟩ ∧
    FontFaceStep.run start (.unicodeRange []) = .error (.emptyList "unicode-range") ∧
    faces = [.weight .bold, .unicodeRange [], .display .swap, .weightRange .normal .bold] ∧
    (FontFaceStep.builder.build start faces).descriptors.get? "font-weight".toList =
      some ⟨"font-weight".toList, "normal bold".toList, false⟩ ∧
    features = [⟨m, [1]⟩, ⟨n, []⟩, ⟨n, [2, 3]⟩] ∧ m.name = "a\x00" ∧ n.name = "a\ufffd" ∧
    (FeatureStep.builder.build (.of .styleset) features).place? m =
      (FeatureStep.builder.build (.of .styleset) features).place? n ∧
    (FeatureStep.builder.build (.of .styleset) features).values.get? (css m) =
      some ⟨css m, "2 3".toList, false⟩ := by
  let faces : List FontFaceStep :=
    [.weight .bold, .unicodeRange [], .display .swap, .weightRange .normal .bold]
  let m : CustomIdent := ⟨⟨"a\x00", by decide⟩, by decide⟩
  let n : CustomIdent := ⟨⟨"a\ufffd", by decide⟩, by decide⟩
  let features : List FeatureStep := [⟨m, [1]⟩, ⟨n, []⟩, ⟨n, [2, 3]⟩]
  obtain ⟨start, hof, hfilled⟩ :=
    required_descriptors_stay.fontFaces "Inter" [.installed ⟨"Inter"⟩] nofun faces
  have hfeatures := required_descriptors_stay.features .styleset features
  have hshared := hfeatures.place?_eq_iff ⟨m, [1]⟩ (by simp [features]) ⟨n, [2, 3]⟩
    (by simp [features]) nofun nofun
  exact ⟨faces, start, features, m, n, hof, hfilled.sources_eq.trans (by decide),
    (required_descriptors_stay.fontFace_error_iff _ _ _).mpr ⟨rfl, rfl⟩, rfl,
    hfilled.weight_eq.trans (by decide), rfl, rfl, rfl, hshared.mpr (by decide),
    (hfeatures.value_eq m).trans (by decide)⟩

end Stylesheet
