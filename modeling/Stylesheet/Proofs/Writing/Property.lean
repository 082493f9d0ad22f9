import Stylesheet.Proofs.Writing.Border
import Stylesheet.Writing.Property

/-! Properties, and the blocks that hold them, are written as their texts. -/
namespace Stylesheet
open Writer

variable {α : Type}

/-! ### Text -/

instance : WritesText FamilyList := ⟨fun _ => appends_commaSeparated⟩

instance : WritesText FontSize where
  appends
    | .absolute size => appends size
    | .relative size => appends size
    | .size value => appends value
    | .math => .word

instance : WritesText FontWeight where
  appends
    | .normal => .word
    | .bold => .word
    | .bolder => .word
    | .lighter => .word
    | .number weight => appends weight

instance : WritesText FontStyle where
  appends
    | .normal => .word
    | .italic => .word
    | .oblique _ => .seq .word appends_clause

namespace DecorationLines

/-- The words of the lines that are set. -/
def set (lines : List (Bool × String)) : List (List Char) :=
  lines.filterMap fun p => if p.1 then some p.2.toList else none

/-- Behind the first word, every word has a space in front. -/
theorem appends_words (lines : List (Bool × String)) :
    (writeWords false lines).Appends ((set lines).flatMap ([' '] ++ ·)) := by
  induction lines with
  | nil => exact .done
  | cons line lines ih =>
    obtain ⟨isSet, word⟩ := line
    cases isSet with
    | false => exact ih
    | true => exact .cons (.seq .word ih)

/-- The writer carries along whether a word has been written. As long as none has, no space is
written. -/
theorem appends_firstWords (lines : List (Bool × String)) :
    (writeWords true lines).Appends (joined [' '] (set lines)) := by
  induction lines with
  | nil => exact .done
  | cons line lines ih =>
    obtain ⟨isSet, word⟩ := line
    cases isSet with
    | false => exact ih
    | true =>
      show Appends _ (joined [' '] (word.toList :: set lines))
      rw [joined_cons]
      exact .congr (.seq .done (.seq .word (appends_words lines))) (List.nil_append _)

end DecorationLines

instance : WritesText DecorationLines where
  appends d := by
    show Appends (if d = .empty then writeWord "none" else DecorationLines.writeWords true _)
      (if d = .empty then "none".toList else joined [' '] d.words)
    split
    · exact .word
    · exact DecorationLines.appends_firstWords _

/-! ### Grids -/

instance : WritesText GridLine where
  appends
    | .auto => .word
    | .line _ => .text
    | .named name => appends name
    | .span _ => .seq .word .text

instance : WritesText TrackBreadth where
  appends
    | .size value => appends value
    | .flex share => appends_dimension share.value "fr"
    | .minContent => .word
    | .maxContent => .word
    | .auto => .word

instance : WritesText TrackSize where
  appends
    | .breadth b => appends b
    | .between least most => .call <| .assoc <| (appends least).seq <| .seq .word (appends most)
    | .fitContent limit => .call (appends limit)

instance : WritesText RepeatCount where
  appends
    | .times n => appends n
    | .autoFill => .word
    | .autoFit => .word

instance : WritesText Repeat where
  appends r := .call <| .assoc <| (appends r.count).seq <| .seq .word appends_separated

instance : WritesText TrackItem where
  appends
    | .track size => appends size
    | .lineNames _ => .cons <| appends_separated.seq .char
    | .repeated tracks => appends tracks

/-! ### Motion -/

instance : WritesText CubicBezier := ⟨fun _ => .call appends_commaSeparated⟩

instance : WritesText Steps := ⟨fun s => .call ((appends s.count).seq appends_clause)⟩

instance : WritesText Easing where
  appends
    | .linear => .word
    | .ease => .word
    | .easeIn => .word
    | .easeOut => .word
    | .easeInOut => .word
    | .stepStart => .word
    | .stepEnd => .word
    | .cubicBezier c => appends c
    | .steps s => appends s

/-- A second argument follows a comma, and may be missing. -/
theorem appends_pair [ToCss α] [Writes α] [WritesText α] (first : α) {second : Option α} :
    (writePair first second).Appends (css first ++ clause ", " second) :=
  (appends first).seq appends_clause

instance : WritesText TransformFunction where
  appends
    | .translate x _ => .call (appends_pair x)
    | .translateX x => .call (appends x)
    | .translateY y => .call (appends y)
    | .scale x _ => .call (appends_pair x)
    | .scaleX x => .call (appends x)
    | .scaleY y => .call (appends y)
    | .rotate angle => .call (appends angle)
    | .skew x _ => .call (appends_pair x)
    | .skewX x => .call (appends x)
    | .skewY y => .call (appends y)
    | .matrix .. => .call appends_commaSeparated
    | .perspective distance => .call (appends distance)

instance : WritesText TransitionTarget where
  appends
    | .all => .word
    | .property name => appends name
    | .custom name => appends name

/-! ### Properties -/

instance (name : PropertyName) : WritesText name.grammar.Value := by
  cases name <;> exact inferInstance

instance [ToCss α] [Writes α] [WritesText α] : WritesText (Specified α) where
  appends
    | .own value => appends value
    | .wide keyword => appends keyword

instance : WritesText Property := ⟨fun p => appends p.value⟩

/-! ### Declarations -/

/-- The value of a declaration is a text already, written into a buffer of its own. -/
instance : WritesText Declaration where
  appends _ := .assoc <| .seq .text <| .cons <| .seq .text (.onlyIf .word)

/-- A block is written around its body, whose parts bring their own space in front. -/
theorem appends_block {body : Writer} {parts : List (List Char)}
    (hbody : body.Appends (parts.flatMap (' ' :: ·))) :
    (writeBlock body).Appends (blockText parts) :=
  .cons (hbody.seq .word)

theorem appends_entry (d : Declaration) : (writeEntry d).Appends (' ' :: d.entry) :=
  .cons ((appends d).seq .char)

/-- A text in a block, with its space. -/
theorem appends_nested {w : Writer} {t : List Char} (hw : w.Appends t) :
    (writeNested w).Appends (' ' :: t) :=
  .cons hw

/-- Declarations in a block, each with its semicolon. -/
theorem appends_entries (ds : List Declaration) :
    Appends (ds.forM writeEntry) ((ds.map Declaration.entry).flatMap (' ' :: ·)) :=
  .congr (.forM fun d _ => appends_entry d) (List.flatMap_map ..).symm

instance : WritesText DeclarationBlock := ⟨fun b => appends_block (appends_entries b.declarations)⟩

instance : WritesText Descriptors := ⟨fun ds => appends_block (appends_entries ds.entries)⟩

instance {separator : String} [ToCss α] [Writes α] [WritesText α] :
    WritesText (Listed separator α) :=
  ⟨fun _ => appends_separated⟩

instance [ToCss α] [Writes α] [WritesText α] : WritesText (Pair α) :=
  ⟨fun p => .assoc <| (appends p.first).seq <| appends_space.seq (appends p.second)⟩

end Stylesheet
