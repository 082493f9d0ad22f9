import Stylesheet.Proofs.Writing.Query
import Stylesheet.Writing.Rule

/-! Rules are written as their texts. -/
namespace Stylesheet
open Writer

section Body
variable {α : Type} [ToCss α] [Writes α] [WritesText α]

/-- Whatever has a block of its own stands in a block with a space in front. -/
theorem appends_items (items : List α) :
    Appends (items.forM fun a => writeNested (write a)) ((items.map css).flatMap (' ' :: ·)) := by
  rw [List.flatMap_map]
  exact .forM fun a _ => appends_nested (appends a)

/-- Entries, then whatever has a block of its own. -/
theorem appends_body (ds : List Declaration) (items : List α) :
    Appends (do ds.forM writeEntry; items.forM fun a => writeNested (write a))
      ((ds.map Declaration.entry ++ items.map css).flatMap (' ' :: ·)) := by
  rw [List.flatMap_append]
  exact (appends_entries ds).seq (appends_items items)

end Body

/-! ### Fonts -/

/-- The hint of a format is quoted, though it is a keyword. -/
theorem FontSource.appends_format (f : FontFormat) :
    Appends (do writeWord " format("; writeQuoted (Keyword.keyword f); writeChar ')')
      (formatText f) :=
  .assoc <| .seq .word (.seq .text .char)

/-- No technologies, no hint. -/
theorem FontSource.appends_tech (tech : List FontTech) :
    Appends (writeIf (!tech.isEmpty) do
        writeWord " tech("
        writeCommaSeparated tech
        writeChar ')')
      (techText tech) := by
  cases tech with
  | nil => exact .done
  | cons t ts => exact .assoc <| .seq .word (appends_commaSeparated.seq .char)

instance : WritesText FontSource where
  appends
    | .url u _ tech =>
      .assoc <| (appends u).seq <| .seq (.option FontSource.appends_format)
        (FontSource.appends_tech tech)
    | .installed name => .call (appends name)

instance : WritesText UnicodeRange where
  appends r := by
    refine .congr (.seq .word <| .seq .text <| .onlyIf <| .cons .text) ?_
    show _ = "U+".toList ++ upperHex r.first ++
      if r.last = r.first then [] else '-' :: upperHex r.last
    by_cases h : r.last = r.first
    · simp [h]
    · simp [h]

instance : WritesText FontFaceRule := ⟨fun r => .seq .word (appends r.descriptors)⟩

instance : WritesText FeatureBlock where
  appends b := .cons <| (appends b.kind).seq <| .cons (appends b.values)

instance : WritesText FontFeatureValuesRule where
  appends r :=
    .assoc <| .seq .word <| appends_commaSeparated.seq <| .cons <|
      appends_block (appends_body r.descriptors.entries r.blocks)

/-! ### Counter styles -/

instance : WritesText CounterSystem where
  appends
    | .cyclic => .word
    | .numeric => .word
    | .alphabetic => .word
    | .symbolic => .word
    | .additive => .word
    | .fixed _ => .seq .word appends_clause
    | .extending style => .seq .word (appends style)

instance : WritesText CounterSymbol where
  appends
    | .string text => appends text
    | .ident name => appends name
    | .image image => appends image

instance : WritesText WeightedSymbol :=
  ⟨fun s => (appends s.weight).seq <| .cons (appends s.symbol)⟩

instance : WritesText AdditiveSymbols := ⟨fun _ => appends_commaSeparated⟩

instance : WritesText CounterBound where
  appends
    | ⟨some value⟩ => appends value
    | ⟨none⟩ => .word

instance : WritesText CounterSpan := ⟨fun s => (appends s.lower).seq <| .cons (appends s.upper)⟩

instance : WritesText CounterRange where
  appends
    | .auto => .word
    | .spans _ => appends_commaSeparated

instance : WritesText SpeakAs where
  appends
    | .keyword keyword => appends keyword
    | .counterStyle style => appends style

instance : WritesText CounterStyleRule where
  appends r := .assoc <| .seq .word <| (appends r.name).seq <| .cons (appends r.descriptors)

/-! ### Pages -/

instance : WritesText PageSelector :=
  ⟨fun _ => appends_part.seq (.forM fun pseudo _ => .cons (appends pseudo))⟩

instance : WritesText PageSize where
  appends
    | .auto => .word
    | .dimensions width _ => (appends width).seq appends_clause
    | .paper size _ => (appends size).seq appends_clause
    | .orientation o => appends o

instance : WritesText MarginRule where
  appends r := .cons <| (appends r.box).seq <| .cons (appends r.declarations)

/-- The selectors of a page have a space behind them, and without any there is none. -/
theorem PageRule.appends_selectors (selectors : List PageSelector) :
    Appends (writeIf (!selectors.isEmpty) do
        writeCommaSeparated selectors
        writeChar ' ')
      (selectorText selectors) := by
  cases selectors with
  | nil => exact .done
  | cons s ss => exact appends_commaSeparated.seq .char

instance : WritesText PageRule where
  appends r :=
    .assoc <| .seq .word <| .seq (PageRule.appends_selectors r.selectors) <|
      appends_block (appends_body r.descriptors.entries r.margins)

/-! ### Registered properties -/

instance : WritesText GrammarTerm where
  appends
    | .type type _ => (appends type).seq appends_part
    | .ident name _ => (appends name).seq appends_part

/-- The grammar before it is quoted. The writer takes a buffer of its own for it. -/
theorem ValueGrammar.appends_plain (g : ValueGrammar) : g.writePlain.Appends g.plain := by
  cases g with
  | universal => exact .char
  | alternatives terms => exact appends_separated

instance : WritesText ValueGrammar where
  appends g := by
    have hplain : (g.writePlain.run "").2 = String.ofList g.plain := by
      rw [g.appends_plain, String.empty_append]
    show Appends (writeQuoted (g.writePlain.run "").2) (quoteString g.plain)
    rw [hplain, writeQuoted, String.toList_ofList]
    exact .text

instance : WritesText Inherits := ⟨fun _ => Appends.word.congr (apply_ite String.toList ..)⟩

instance : WritesText PropertyRule where
  appends r := .assoc <| .seq .word <| (appends r.name).seq <| .cons (appends r.descriptors)

/-! ### Keyframes -/

instance : WritesText KeyframeOffset where
  appends
    | .start => .word
    | .finish => .word
    | .percent offset => appends offset

instance : WritesText Keyframe :=
  ⟨fun k => appends_commaSeparated.seq <| .cons (appends k.declarations)⟩

instance : WritesText KeyframesRule where
  appends r :=
    .assoc <| .seq .word <| (appends r.name).seq <| .cons <|
      appends_block (appends_items r.keyframes)

/-! ### Statements -/

/-- A statement ends with its semicolon. -/
theorem appends_statement {name : String} {w : Writer} {t : List Char} (hw : w.Appends t) :
    (writeStatement name w).Appends (statementText name t) :=
  .assoc <| .cons <| .seq .word <| .cons (hw.seq .char)

instance : WritesText LayerName := ⟨fun _ => appends_separated⟩

instance : WritesText ImportLayer where
  appends
    | .anonymous => .word
    | .named name => .call (appends name)

instance : WritesText ImportRule where
  appends r :=
    appends_statement <| .assoc <| .assoc <| (appends r.url).seq <| appends_clause.seq <|
      .seq (.option fun condition => .cons (.call condition.appends_argument))
        (.option fun media => .cons media.appends_list)

instance : WritesText NamespaceRule where
  appends r :=
    appends_statement <| .seq (.option fun label => (appends label).seq .char) (appends r.url)

instance : WritesText CharsetRule := ⟨fun _ => appends_statement .text⟩

/-! ### Rules with a block of rules -/

instance : WritesText StyleRule where
  appends r := (appends r.selectors).seq <| .cons (appends r.declarations)

/-- A block of rules, from what is known of the rules in it. -/
theorem appends_ruleBlock {rules : List Rule}
    (h : Appends ((Rule.writers rules).forM writeNested) ((Rule.texts rules).flatMap (' ' :: ·))) :
    (writeRuleBlock (Rule.writers rules)).Appends (' ' :: blockText (Rule.texts rules)) :=
  .cons (appends_block h)

namespace Rule

mutual

theorem appends_rule : ∀ r : Rule, r.write.Appends r.text
  | style rule => appends rule
  | media condition rules => (appends condition).seq (appends_ruleBlock (appends_rules rules))
  | supports condition rules => (appends condition).seq (appends_ruleBlock (appends_rules rules))
  | container condition rules => (appends condition).seq (appends_ruleBlock (appends_rules rules))
  | layerOrder _ => appends_statement appends_commaSeparated
  | layer _ rules =>
    .assoc <| .seq .word <| appends_clause.seq (appends_ruleBlock (appends_rules rules))
  | fontFace rule => appends rule
  | page rule => appends rule
  | counterStyle rule => appends rule
  | property rule => appends rule
  | fontFeatureValues rule => appends rule
  | keyframes rule => appends rule
  | importRule rule => appends rule
  | namespaceRule rule => appends rule
  | charset rule => appends rule

theorem appends_rules : ∀ rules : List Rule,
    Appends ((writers rules).forM writeNested) ((texts rules).flatMap (' ' :: ·))
  | [] => .done
  | r :: rs => (appends_nested (appends_rule r)).seq (appends_rules rs)

end

instance : WritesText Rule := ⟨appends_rule⟩

end Rule
end Stylesheet
