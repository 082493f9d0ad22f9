import Stylesheet.Font.Feature
import Stylesheet.Motion.Keyframes
import Stylesheet.Proofs.Equality.Number
import Stylesheet.Proofs.Keyed.Run
import Stylesheet.Rule.Page

/-! Rules inside of a rule are unique by their keys and replaced in place.

The margins of a page are known by their boxes, and the blocks of feature values by their
kinds. Keyframes are compared by the numbers in their offsets, which is no equality among
all numbers; but an offset is clamped, so that it is never NaN, and then equal offsets are
those that are written alike. So keyframes are known by the text of their offsets. -/
namespace Stylesheet

/-! ### Keyframes and the text of their offsets -/

/-- An offset is no NaN. -/
theorem ClampedPercentage.nanFree (p : ClampedPercentage) : NaNFree p :=
  List.forall_mem_singleton.mpr p.amount.contains.1

namespace KeyframeOffset

instance : Argument KeyframeOffset where
  isArgument
    | start => .of_isNameChar (all_toList rfl)
    | finish => .of_isNameChar (all_toList rfl)
    | percent offset => isArgument offset

theorem css_percent_ne (p : ClampedPercentage) {w : List Char} (hw : isQuantity w = false) :
    css (percent p) ≠ w :=
  quantity_ne p.percentage hw

/-- Offsets are equal just when they are written alike. -/
theorem beq_iff (a b : KeyframeOffset) : a == b ↔ css a = css b := by
  cases a with
  | start =>
    cases b with
    | start => exact iff_of_true rfl rfl
    | finish => exact iff_of_false Bool.false_ne_true (by decide)
    | percent q => exact iff_of_false Bool.false_ne_true (css_percent_ne q rfl).symm
  | finish =>
    cases b with
    | start => exact iff_of_false Bool.false_ne_true (by decide)
    | finish => exact iff_of_true rfl rfl
    | percent q => exact iff_of_false Bool.false_ne_true (css_percent_ne q rfl).symm
  | percent p =>
    cases b with
    | start => exact iff_of_false Bool.false_ne_true (css_percent_ne p rfl)
    | finish => exact iff_of_false Bool.false_ne_true (css_percent_ne p rfl)
    | percent q => exact ⟨fun h => Faithful.css_eq (a := p) (b := q) h,
        fun h => Faithful.beq (a := p) (b := q) p.nanFree q.nanFree h⟩

/-- Lists of offsets are equal when their texts are, which is what the key goes by. -/
theorem beq_list_iff (as bs : List KeyframeOffset) : as == bs ↔ as.map css = bs.map css := by
  induction as generalizing bs with
  | nil => cases bs <;> simp
  | cons a as ih =>
    cases bs with
    | nil => simp
    | cons b bs => simp [beq_iff, ih]

end KeyframeOffset

namespace Keyframe

/-- The text in front of the block of a keyframe, which is its key. -/
def offsetText (k : Keyframe) : List Char := commaSeparated k.offsets.toList

/-- **Lists of offsets are equal just when they are written alike.** -/
theorem offsets_beq_iff (a b : Keyframe) :
    a.offsets == b.offsets ↔ a.offsetText = b.offsetText := by
  have hlists : a.offsets == b.offsets ↔ a.offsets.toList == b.offsets.toList := Iff.rfl
  rw [hlists, KeyframeOffset.beq_list_iff]
  constructor
  · intro h
    rw [offsetText, offsetText, commaSeparated, commaSeparated, separated, separated, h]
  · exact commaSeparated_inj

end Keyframe

/-! ### Runs of calls -/

/-- What adds to the keyframes of a rule. -/
inductive KeyframeCall where
  | add (k : Keyframe)
  | addAt (offset : KeyframeOffset) (declarations : DeclarationBlock)

namespace KeyframeCall

/-- The keyframe that a call adds. -/
def keyframe : KeyframeCall → Keyframe
  | add k => k
  | addAt offset declarations => .single offset declarations

def run (r : KeyframesRule) : KeyframeCall → KeyframesRule
  | add k => r.withKeyframe k
  | addAt offset declarations => r.withKeyframeAt offset declarations

/-- Comparing offsets is comparing their texts. -/
theorem puts_run : Puts Keyframe.offsetText KeyframesRule.keyframes (some ∘ keyframe) run := by
  intro r call
  have hsame : (fun k : Keyframe => k.offsets == call.keyframe.offsets) =
      fun k => k.offsetText == call.keyframe.offsetText := by
    funext k
    rw [Bool.eq_iff_iff, Keyframe.offsets_beq_iff, beq_iff_eq]
  show _ = put Keyframe.offsetText r.keyframes call.keyframe
  rw [put, ← hsame]
  cases call <;> rfl

end KeyframeCall

def KeyframesRule.ofCalls (name : KeyframesName) (calls : List KeyframeCall) : KeyframesRule :=
  calls.foldl KeyframeCall.run ⟨name, []⟩

/-- What fills a rule for pages. -/
inductive PageCall where
  | selector (s : PageSelector)
  | size (s : PageSize)
  | declare (p : Property)
  | margin (m : MarginRule)

namespace PageCall

/-- The margin that a call sets, if it is about one. -/
def margin? : PageCall → Option MarginRule
  | margin m => some m
  | _ => none

def run (r : PageRule) : PageCall → PageRule
  | selector s => r.withSelector s
  | size s => r.withSize s
  | declare p => r.declare p
  | margin m => r.withMargin m

theorem puts_run : Puts MarginRule.box PageRule.margins margin? run := by
  intro r call
  cases call <;> rfl

end PageCall

def PageRule.ofCalls (calls : List PageCall) : PageRule := calls.foldl PageCall.run .empty

/-- What fills a rule for the features of fonts. -/
inductive FeatureCall where
  | display (d : FontDisplay)
  | block (b : FeatureBlock)

namespace FeatureCall

/-- The feature block that a call adds. -/
def block? : FeatureCall → Option FeatureBlock
  | block b => some b
  | _ => none

def run (r : FontFeatureValuesRule) : FeatureCall → FontFeatureValuesRule
  | display d => r.withDisplay d
  | block b => r.withBlock b

theorem puts_run : Puts FeatureBlock.kind FontFeatureValuesRule.blocks block? run := by
  intro r call
  cases call <;> rfl

end FeatureCall

def FontFeatureValuesRule.ofCalls (families : NonEmpty CssString) (calls : List FeatureCall) :
    FontFeatureValuesRule :=
  calls.foldl FeatureCall.run ⟨families, .empty, []⟩

end Stylesheet
