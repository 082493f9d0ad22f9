import Stylesheet.Proofs.Declaration.Reading
import Stylesheet.Proofs.Nesting.Rule
import Stylesheet.Proofs.Property.Wide
import Stylesheet.Proofs.Selector.Layer

/-! Blocks of declarations whose values hold no declarations. -/
namespace Stylesheet

/-- The types of values of which properties and selectors are made. -/
def valueTypes : List CssType := [
  ⟨Binary32⟩, ⟨Int⟩, ⟨Percentage⟩, ⟨ClampedPercentage⟩, ⟨Alpha⟩, ⟨FontWeightNumber⟩,
  ⟨LengthUnit⟩, ⟨AngleUnit⟩, ⟨TimeUnit⟩, ⟨ResolutionUnit⟩, ⟨Length⟩, ⟨Angle⟩, ⟨Time⟩,
  ⟨Resolution⟩, ⟨LengthPercentage⟩, ⟨LengthPercentageOrAuto⟩, ⟨NonNegative Binary32⟩,
  ⟨NonNegative Int⟩, ⟨NonNegative Percentage⟩, ⟨NonNegative Length⟩, ⟨NonNegative Angle⟩,
  ⟨NonNegative Time⟩, ⟨NonNegative Resolution⟩, ⟨NonNegative LengthPercentage⟩,
  ⟨Identifier⟩, ⟨CustomIdent⟩, ⟨DashedIdent⟩, ⟨NonEmpty CustomIdent⟩, ⟨CssString⟩, ⟨Url⟩,
  ⟨WideKeyword⟩, ⟨NamedColor⟩, ⟨SystemColor⟩, ⟨Hsl⟩, ⟨Hwb⟩, ⟨Color⟩, ⟨GradientSide⟩,
  ⟨GradientDirection⟩, ⟨ColorStop⟩, ⟨LinearGradient⟩, ⟨Image⟩, ⟨BackgroundLength⟩,
  ⟨TextShadow⟩, ⟨BoxShadow⟩,
  ⟨LineStyle⟩, ⟨LineWidth⟩, ⟨BorderSide⟩, ⟨Extent⟩, ⟨Size⟩, ⟨MaxSize⟩, ⟨HorizontalKeyword⟩,
  ⟨VerticalKeyword⟩, ⟨HorizontalSide⟩, ⟨VerticalSide⟩, ⟨Position⟩, ⟨GapValue⟩, ⟨Gaps⟩,
  ⟨BorderSpacing⟩, ⟨DecorationLines⟩, ⟨LineHeight⟩, ⟨VerticalAlignKeyword⟩, ⟨VerticalAlign⟩,
  ⟨GenericFamily⟩, ⟨FamilyName⟩, ⟨FamilyList⟩, ⟨AbsoluteFontSize⟩, ⟨RelativeFontSize⟩,
  ⟨FontSize⟩, ⟨FontWeight⟩, ⟨FontStyle⟩, ⟨FontWidth⟩, ⟨FontStretch⟩, ⟨GridLine⟩,
  ⟨TrackBreadth⟩, ⟨TrackSize⟩, ⟨RepeatCount⟩, ⟨Repeat⟩, ⟨TrackItem⟩, ⟨TrackList⟩,
  ⟨StepPosition⟩, ⟨CubicBezier⟩, ⟨Steps⟩, ⟨Easing⟩, ⟨TransformFunction⟩, ⟨TransformList⟩,
  ⟨TransitionTarget⟩, ⟨TransitionTargets⟩, ⟨AnimationName⟩, ⟨IterationCount⟩,
  ⟨AttributeMatcher⟩, ⟨CaseFlag⟩, ⟨AttributeSelector⟩, ⟨Nth⟩, ⟨PseudoClassKeyword⟩,
  ⟨TextDirection⟩, ⟨PseudoClass⟩, ⟨PseudoElement⟩, ⟨TypeSelector⟩, ⟨Filter⟩, ⟨Combinator⟩,
  ⟨Compound⟩, ⟨Selector⟩, ⟨RelativeSelector⟩, ⟨SelectorList⟩]

/-- The types are gone through one by one, and instance search finds why each nests. -/
theorem nests_value : ∀ T ∈ valueTypes, Nests preludeChar T.Value := by
  simp only [valueTypes, List.forall_mem_cons]
  repeat' apply And.intro
  all_goals first | infer_instance | exact List.forall_mem_nil _

/-- Types whose values all have a text. -/
class Written (α : Type) [ToCss α] : Prop where
  css_ne_nil (a : α) : css a ≠ []

variable {α β : Type} [ToCss α] [ToCss β]

instance (priority := low) [Owns α] : Written α := ⟨fun a => (own a).ne_nil⟩

/-- A list is written if its first item is. -/
theorem separated_ne_nil [Written α] {separator : String} {a : α} {as : List α} :
    separated separator (a :: as) ≠ [] :=
  joined_ne_nil (List.forall_mem_map.mpr fun b _ => Written.css_ne_nil b) (List.cons_ne_nil _ _)

instance : Written LengthUnit := ⟨fun u => by cases u <;> decide⟩

instance : Written AngleUnit := ⟨fun u => by cases u <;> decide⟩

instance : Written TimeUnit := ⟨fun u => by cases u <;> decide⟩

instance : Written ResolutionUnit := ⟨fun u => by cases u <;> decide⟩

instance : Written WideKeyword := ⟨fun k => by cases k <;> decide⟩

instance : Written Identifier where
  css_ne_nil i := by
    obtain ⟨d, ds, heq, -⟩ := head_identifier i
    rw [heq]
    exact nofun

instance : Written (NonEmpty CustomIdent) := ⟨fun _ => separated_ne_nil⟩

/-! ### Selectors -/

instance : Written AttributeMatcher := ⟨fun m => by cases m <;> decide⟩

instance : Written CaseFlag := ⟨fun f => by cases f <;> decide⟩

instance : Written AttributeSelector := ⟨fun _ => nofun⟩

instance : Written Nth where
  css_ne_nil
    | .odd => by decide
    | .even => by decide
    | .steps a b => by
      have hstep : Nth.stepText a ≠ [] := by
        obtain ⟨front, heq, -⟩ := Nth.exists_stepText a
        simp [heq]
      show (if a = 0 then css b else Nth.stepText a ++ Nth.offsetText b) ≠ []
      split
      · exact Written.css_ne_nil b
      · exact List.append_ne_nil_of_left_ne_nil hstep _

instance : Written PseudoClassKeyword := ⟨fun k => by cases k <;> decide⟩

instance : Written TextDirection := ⟨fun d => by cases d <;> decide⟩

instance : Written PseudoClass where
  css_ne_nil p := by
    obtain ⟨c, cs, heq, -⟩ := head_pseudoText p
    show p.text ≠ []
    rw [heq]
    exact nofun

instance : Written PseudoElement where
  css_ne_nil e := by
    obtain ⟨cs, heq⟩ := head_pseudoElement e
    rw [heq]
    exact nofun

instance : Written TypeSelector where
  css_ne_nil t := by
    obtain ⟨d, ds, heq, -⟩ := head_typeSelector t
    rw [heq]
    exact nofun

instance : Written Filter where
  css_ne_nil
    | .id _ => nofun
    | .class _ => nofun
    | .attribute a => Written.css_ne_nil a
    | .pseudo p => Written.css_ne_nil p

instance : Written Combinator := ⟨fun c => by cases c <;> decide⟩

instance : Written Compound where
  css_ne_nil
    | .mk none [] none => nofun
    | .mk (some t) _ _ => by
      have htype : "".toList ++ css t ≠ [] := Written.css_ne_nil t
      exact List.append_ne_nil_of_left_ne_nil (List.append_ne_nil_of_left_ne_nil htype _) _
    | .mk none (f :: fs) _ => by
      have hfilter : f.text ++ (Filter.texts fs).flatten ≠ [] :=
        List.append_ne_nil_of_left_ne_nil (Written.css_ne_nil f) _
      exact List.append_ne_nil_of_left_ne_nil hfilter _
    | .mk none [] (some e) => by
      have helement : "".toList ++ css e ≠ [] := Written.css_ne_nil e
      exact List.append_ne_nil_of_right_ne_nil _ helement

instance : Written Selector where
  css_ne_nil
    | .compound c => Written.css_ne_nil c
    | .combined left combinator _ =>
      List.append_ne_nil_of_left_ne_nil
        (List.append_ne_nil_of_right_ne_nil left.text (Written.css_ne_nil combinator)) _

instance : Written RelativeSelector where
  css_ne_nil
    | .mk _ s => List.append_ne_nil_of_right_ne_nil _ (Written.css_ne_nil s)

instance : Written SelectorList := ⟨fun _ => separated_ne_nil⟩

theorem written_value : ∀ T ∈ valueTypes, Written T.Value := by
  simp only [valueTypes, List.forall_mem_cons]
  repeat' apply And.intro
  all_goals first | infer_instance | exact List.forall_mem_nil _

/-! ### Values of declarations -/

/-- The texts of such values, alone, in lists of shadows or on the sides of a box. -/
inductive LeafText : List Char → Prop where
  | value {T : CssType} : T ∈ valueTypes → (a : T.Value) → LeafText (css a)
  | own {name : PropertyName} (a : name.grammar.Value) : LeafText (css a)
  | property {name : PropertyName} (a : name.Value) : LeafText (css a)
  | sides {α : Type} [ToCss α] [BEq α] (s : Sides α) : LeafText (css s.top) →
      LeafText (css s.right) → LeafText (css s.bottom) → LeafText (css s.left) → LeafText (css s)
  | shadows {α : Type} [ToCss α] (list : ShadowList α) : (∀ a ∈ list.items, LeafText (css a)) →
      LeafText (css list)

/-- What is asked of the text of a value in a declaration. -/
def CleanText (t : List Char) : Prop := Nested preludeChar t ∧ t ≠ []

/-- A value whose text nests and is not empty. -/
theorem cleanText [Nests preludeChar α] [Written α] (a : α) : CleanText (css a) :=
  ⟨nested a, Written.css_ne_nil a⟩

/-- Clean items with a separator between them. -/
theorem CleanText.separated {separator : List Char} {items : List α} (hne : items ≠ [])
    (h : ∀ a ∈ items, CleanText (css a)) (hsep : areAll preludeChar separator := by decide) :
    CleanText (separated (String.ofList separator) items) := by
  constructor
  · refine .joined (.word hsep) fun t ht => ?_
    obtain ⟨a, ha, rfl⟩ := List.mem_map.mp ht
    exact (h a ha).1
  · obtain ⟨a, as, rfl⟩ := List.exists_cons_of_ne_nil hne
    rw [Stylesheet.separated, List.map_cons, joined_cons]
    exact List.append_ne_nil_of_left_ne_nil (h a (List.mem_cons_self ..)).2 _

/-- **Values that are no blocks have clean texts**, by induction on how they are made of others. -/
theorem LeafText.clean {t : List Char} (h : LeafText t) : CleanText t := by
  induction h with
  | value hT a =>
    have := nests_value _ hT
    have := written_value _ hT
    exact cleanText a
  | own a => exact cleanText a
  | property a =>
    cases a with
    | own a => exact cleanText a
    | wide k => exact cleanText k
  | sides s _ _ _ _ htop hright hbottom hleft =>
    refine .separated s.shortest_ne_nil fun a ha => ?_
    rcases Sides.mem_shortest ha with rfl | rfl | rfl | rfl
    · exact htop
    · exact hright
    · exact hbottom
    · exact hleft
  | shadows list _ ih =>
    obtain ⟨items⟩ := list
    cases items with
    | nil =>
      show CleanText "none".toList
      exact ⟨.word, by decide⟩
    | cons a items => exact .separated nofun ih

/-! ### Blocks -/

/-- A declaration of a property, or of one of the author's own with such a value, important
or not. -/
def Declaration.Leaf (d : Declaration) : Prop := d.Built (fun _ => False) LeafText

theorem all_isNameChar_propertyName (name : PropertyName) : (css name).all isNameChar := by
  cases name <;> exact all_toList rfl

/-- So a declaration with such a value can be read back. -/
theorem Declaration.Leaf.clean {d : Declaration} (h : d.Leaf) : d.Clean := by
  induction h with
  | property p =>
    have hname := Spells.of_all (all_isNameChar_propertyName p.name)
    have hvalue : CleanText (css p.value) := LeafText.clean (.property p.value)
    exact ⟨⟨_, hname⟩, hvalue.1, hvalue.2⟩
  | custom name value hvalue =>
    exact ⟨⟨_, spells_escapeIdentifier name.name.toList⟩, hvalue.clean.1, hvalue.clean.2⟩
  | descriptor hname => exact hname.elim
  | important _ ih => exact ⟨ih.name_spells, ih.value_nested, ih.value_ne_nil⟩

/-- What adds to a block. -/
inductive BlockCall where
  | declare (p : Property)
  | push (d : Declaration)

namespace BlockCall

/-- The declaration that a call adds. -/
def declaration : BlockCall → Declaration
  | declare p => p.declaration
  | push d => d

/-- One call, which adds at the end. -/
def run (b : DeclarationBlock) : BlockCall → DeclarationBlock
  | declare p => b.declare p
  | push d => b.push d

end BlockCall

/-- A block collected from declarations, after more calls. -/
def DeclarationBlock.ofCalls (start : List Declaration) (calls : List BlockCall) :
    DeclarationBlock :=
  calls.foldl BlockCall.run ⟨start⟩

/-- A block holds what was added to it, in order. -/
theorem DeclarationBlock.declarations_ofCalls (start : List Declaration)
    (calls : List BlockCall) :
    (ofCalls start calls).declarations = start ++ calls.map BlockCall.declaration := by
  induction calls generalizing start with
  | nil => simp [ofCalls]
  | cons call calls ih =>
    have hrun : call.run ⟨start⟩ = ⟨start ++ [call.declaration]⟩ := by cases call <;> rfl
    show (calls.foldl BlockCall.run (call.run ⟨start⟩)).declarations = _
    rw [hrun]
    exact (ih _).trans (by simp)

end Stylesheet
