import Stylesheet.Proofs.Selector.Building
import Stylesheet.Proofs.Writing.Value
import Stylesheet.Writing.Selector

/-! Selectors are written as their texts.

Selectors stand inside pseudo-classes, so that there is one induction for all the parts
that a selector is made of. -/
namespace Stylesheet
open Writer

/-! ### Leaves -/

instance : WritesText Combinator where
  appends c := .congr (.cons (.option fun _ => .seq .word .char)) (by cases c <;> rfl)

instance : WritesText TypeSelector where
  appends
    | .universal => .char
    | .element name => appends name

/-- What an attribute is compared with: a matcher, the value in quotes, and a flag behind a
space if there is one. -/
theorem appends_attributeTest (t : AttributeTest) :
    Appends (do write t.matcher; writeQuoted t.value; writeClause " " t.flag)
      (AttributeSelector.testText t) :=
  .assoc <| (appends t.matcher).seq <| .seq .text appends_clause

instance : WritesText AttributeSelector where
  appends a :=
    .assoc <| .cons <| (appends a.name).seq <| .seq (.option appends_attributeTest) .char

/-- A zero offset is not written, and one that is not negative has its plus sign from the
writer. -/
theorem Nth.appends_offset (b : Int) : (writeOffset b).Appends (offsetText b) := by
  unfold writeOffset offsetText
  split
  · exact .cons (appends b)
  split
  · exact appends b
  · exact .done

/-- Steps of one are written without their digit. -/
theorem Nth.appends_step (a : Int) : (writeStep a).Appends (stepText a) := by
  unfold writeStep stepText
  split
  · exact .char
  split
  · exact Appends.word.congr String.toList_ofList
  · exact (appends a).seq .char

instance : WritesText Nth where
  appends
    | .odd => .word
    | .even => .word
    | .steps a b => by
      show Appends (if a = 0 then write b else do Nth.writeStep a; Nth.writeOffset b)
        (if a = 0 then integerText b else Nth.stepText a ++ Nth.offsetText b)
      split
      · exact appends b
      · exact (Nth.appends_step a).seq (Nth.appends_offset b)

/-- Only `::part` has names in parentheses; the other pseudo-elements are a word. -/
theorem PseudoElement.appends_names (e : PseudoElement) :
    e.writeNames.Appends
      (match e with
        | part names => '(' :: css names ++ [')']
        | _ => []) := by
  cases e with
  | part names => exact .cons (appends_separated.seq .char)
  | _ => exact .done

instance : WritesText PseudoElement where
  appends e := by
    refine .congr (.seq .word (.seq .word e.appends_names)) ?_
    cases e with
    | part names =>
      have hname : "::part".toList = "::".toList ++ "part".toList := rfl
      show _ = call "::part" (css names)
      rw [call, hname]
      simp only [List.append_assoc, List.cons_append]
      rfl
    | _ => rfl

/-! ### Lists of selectors -/

/-- The colon stands in front of the name and is a character of its own for the writer. -/
theorem appends_pseudoCall {name t : List Char} {w : Writer} (hw : w.Appends t) :
    (writePseudoCall (String.ofList name) w).Appends (call (String.ofList (':' :: name)) t) := by
  refine .congr (.cons (.seq .word (.cons (hw.seq .char)))) ?_
  rw [call_ofList, String.toList_ofList]
  rfl

/-- The writers of a list are made by recursion on it, beside those of a selector. They are
those of `write` all the same. -/
theorem Selector.writers_eq_map (ss : List Selector) : writers ss = ss.map write := by
  induction ss with
  | nil => rfl
  | cons s ss ih => exact congrArg (write s :: ·) ih

theorem RelativeSelector.writers_eq_map (ss : List RelativeSelector) :
    writers ss = ss.map write := by
  induction ss with
  | nil => rfl
  | cons s ss ih => exact congrArg (write s :: ·) ih

/-- The texts of a list, as the induction over selectors makes them, are those of its items. -/
theorem RelativeSelector.texts_eq_map (ss : List RelativeSelector) : texts ss = ss.map text := by
  induction ss with
  | nil => rfl
  | cons s ss ih => exact congrArg (text s :: ·) ih

/-- A list of selectors whose items are written as their texts. It is stated from the items,
since the induction below has them only one at a time. -/
theorem appends_selectors {s : Selector} {ss : List Selector} (hs : s.write.Appends s.text)
    (hss : ∀ s ∈ ss, s.write.Appends s.text) :
    (writeBetween (writeWord ", ") (s.write :: Selector.writers ss)).Appends
      (joined ", ".toList (s.text :: Selector.texts ss)) := by
  have hall : ∀ r ∈ s :: ss, r.write.Appends r.text := List.forall_mem_cons.mpr ⟨hs, hss⟩
  rw [Selector.writers_eq_map, Selector.texts_eq_map]
  exact .between .word hall

/-- The same for the selectors inside `:has`, each with its combinator. -/
theorem appends_relatives {s : RelativeSelector} {ss : List RelativeSelector}
    (hs : s.write.Appends s.text) (hss : ∀ s ∈ ss, s.write.Appends s.text) :
    (writeBetween (writeWord ", ") (s.write :: RelativeSelector.writers ss)).Appends
      (joined ", ".toList (s.text :: RelativeSelector.texts ss)) := by
  have hall : ∀ r ∈ s :: ss, r.write.Appends r.text := List.forall_mem_cons.mpr ⟨hs, hss⟩
  rw [RelativeSelector.writers_eq_map, RelativeSelector.texts_eq_map]
  exact .between .word hall

/-- The places among the siblings that `of` restricts to some selectors. -/
theorem appends_nth {nth : Nth} {w : Writer} {t : List Char} (hw : w.Appends t) :
    (writeNth nth (some w)).Appends (css nth ++ " of ".toList ++ t) :=
  .assoc <| (appends nth).seq (.seq .word hw)

/-! ### The parts of a selector -/

mutual

theorem appends_filter : ∀ f : Filter, f.write.Appends f.text
  | .id name => .cons (appends name)
  | .class name => .cons (appends name)
  | .attribute selector => appends selector
  | .pseudo pseudo => appends_pseudoClass pseudo

/-- The pseudo-classes with selectors inside take what the induction says about these. -/
theorem appends_pseudoClass : ∀ p : PseudoClass, p.write.Appends p.text
  | .keyword keyword => .cons (appends keyword)
  | .not ⟨s, ss⟩ => appends_pseudoCall (appends_selectors (appends_selector s) (appends_all ss))
  | .is ⟨s, ss⟩ => appends_pseudoCall (appends_selectors (appends_selector s) (appends_all ss))
  | .whereAny ⟨s, ss⟩ =>
    appends_pseudoCall (appends_selectors (appends_selector s) (appends_all ss))
  | .has ⟨s, ss⟩ =>
    appends_pseudoCall (appends_relatives (appends_relative s) (appends_allRelative ss))
  | .nthChild nth none => appends_pseudoCall (.congr ((appends nth).seq .done) (List.append_nil _))
  | .nthChild _ (some ⟨s, ss⟩) =>
    appends_pseudoCall (appends_nth (appends_selectors (appends_selector s) (appends_all ss)))
  | .nthLastChild nth none =>
    appends_pseudoCall (.congr ((appends nth).seq .done) (List.append_nil _))
  | .nthLastChild _ (some ⟨s, ss⟩) =>
    appends_pseudoCall (appends_nth (appends_selectors (appends_selector s) (appends_all ss)))
  | .nthOfType nth => appends_pseudoCall (appends nth)
  | .nthLastOfType nth => appends_pseudoCall (appends nth)
  | .lang _ => appends_pseudoCall appends_commaSeparated
  | .dir direction => appends_pseudoCall (appends direction)

/-- Only a compound of nothing is written as a star, and only then. -/
theorem appends_compound : ∀ c : Compound, c.write.Appends c.text
  | .mk none [] none => .char
  | .mk none [] (some element) => .seq .done (.seq .done (appends element))
  | .mk none (f :: fs) _ =>
    .assoc <| .seq .done <| .seq (appends_filters (f :: fs)) appends_part
  | .mk (some type) filters _ =>
    .assoc <| (appends type).seq <| .seq (appends_filters filters) appends_part

theorem appends_selector : ∀ s : Selector, s.write.Appends s.text
  | .compound c => appends_compound c
  | .combined left combinator right =>
    .assoc <| (appends_selector left).seq <| (appends combinator).seq (appends_compound right)

theorem appends_relative : ∀ s : RelativeSelector, s.write.Appends s.text
  | .mk _ selector => .seq (.option fun _ => .seq .word .char) (appends_selector selector)

/-- The filters of a compound are written with nothing between them. -/
theorem appends_filters : ∀ fs : List Filter,
    Appends ((Filter.writers fs).forM id) (Filter.texts fs).flatten
  | [] => .done
  | f :: fs => (appends_filter f).seq (appends_filters fs)

theorem appends_all : ∀ ss : List Selector, ∀ s ∈ ss, s.write.Appends s.text
  | [] => List.forall_mem_nil _
  | s :: ss => List.forall_mem_cons.mpr ⟨appends_selector s, appends_all ss⟩

theorem appends_allRelative : ∀ ss : List RelativeSelector, ∀ s ∈ ss, s.write.Appends s.text
  | [] => List.forall_mem_nil _
  | s :: ss => List.forall_mem_cons.mpr ⟨appends_relative s, appends_allRelative ss⟩

end

instance : WritesText Filter := ⟨appends_filter⟩

instance : WritesText PseudoClass := ⟨appends_pseudoClass⟩

instance : WritesText Compound := ⟨appends_compound⟩

instance : WritesText Selector := ⟨appends_selector⟩

instance : WritesText RelativeSelector := ⟨appends_relative⟩

instance : WritesText SelectorList := ⟨fun _ => appends_commaSeparated⟩

end Stylesheet
