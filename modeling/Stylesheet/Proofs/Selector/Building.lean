import Stylesheet.Proofs.Keyed.Run
import Stylesheet.Proofs.Selector.Normal
import Stylesheet.Proofs.Selector.RoundTrip

/-! The text of a selector list determines it.

Reading a list back gives the list itself, but for null characters, which have become
replacement characters, and empty compounds, which have become universal ones. Since a
compound is built call by call, it is also said what the calls leave of their order. -/
namespace Stylesheet

/-! ### Building compounds -/

/-- How a compound selector is begun. -/
inductive CompoundStart where
  | empty
  | universal
  | element (name : String)

namespace CompoundStart

/-- Starting may fail for the name of an element only. -/
def run : CompoundStart → Result Compound
  | empty => return .empty
  | universal => return .universal
  | element name => Compound.element name

/-- The type that a start leaves, if its name is accepted. -/
def type : CompoundStart → Result (Option TypeSelector)
  | empty => return none
  | universal => return some .universal
  | element name => return some (.element (← Identifier.of name))

theorem run_eq (start : CompoundStart) :
    start.run = do return .mk (← start.type) [] none := by
  cases start with
  | empty => rfl
  | universal => rfl
  | element name =>
    show (Identifier.of name >>= fun i => _) = (Identifier.of name >>= fun i => _) >>= _
    cases Identifier.of name <;> rfl

end CompoundStart

/-- What is added to a compound selector. -/
inductive CompoundCall where
  | id (name : String)
  | class (name : String)
  | attribute (selector : AttributeSelector)
  | pseudo (pseudo : PseudoClass)
  | element (element : PseudoElement)

namespace CompoundCall

/-- One call. The name of a class or an identifier may be refused. -/
def run (c : Compound) : CompoundCall → Result Compound
  | .id name => c.withId name
  | .class name => c.withClass name
  | .attribute selector => return c.filter (.attribute selector)
  | .pseudo p => return c.filter (.pseudo p)
  | .element e => return c.withElement e

/-- The filter that a call adds, if any. -/
def filters : CompoundCall → Result (List Filter)
  | .id name => return [.id (← Identifier.of name)]
  | .class name => return [.class (← Identifier.of name)]
  | .attribute selector => return [.attribute selector]
  | .pseudo p => return [.pseudo p]
  | .element _ => return []

/-- The pseudo-element of a call, of which the last one counts. -/
def element? : CompoundCall → Option PseudoElement
  | element e => some e
  | _ => none

theorem run_eq (type : Option TypeSelector) (fs : List Filter) (e : Option PseudoElement)
    (call : CompoundCall) :
    call.run (.mk type fs e) = do
      return .mk type (fs ++ (← call.filters)) (call.element?.or e) := by
  cases call with
  | id name =>
    show (Identifier.of name >>= fun i => _) = (Identifier.of name >>= fun i => _) >>= _
    cases Identifier.of name <;> rfl
  | «class» name =>
    show (Identifier.of name >>= fun i => _) = (Identifier.of name >>= fun i => _) >>= _
    cases Identifier.of name <;> rfl
  | element => exact congrArg (fun fs => pure (Compound.mk type fs _)) (List.append_nil fs).symm
  | _ => rfl

/-- After any calls there are the filters in their order, and the last pseudo-element. -/
theorem foldlM_run (type : Option TypeSelector) (calls : List CompoundCall) (fs : List Filter)
    (e : Option PseudoElement) :
    calls.foldlM run (.mk type fs e) = do
      let gs ← calls.mapM filters
      return .mk type (fs ++ gs.flatten) ((lastSet element? calls).or e) := by
  induction calls generalizing fs e with
  | nil => simp [lastSet]
  | cons call calls ih =>
    rw [List.foldlM_cons, run_eq, List.mapM_cons]
    simp only [bind_assoc, pure_bind, ih, lastSet_cons, Option.or_assoc, List.flatten_cons,
      List.append_assoc]

end CompoundCall

/-- A compound selector from a run of calls. -/
def Compound.build (start : CompoundStart) (calls : List CompoundCall) : Result Compound := do
  calls.foldlM CompoundCall.run (← start.run)

/-- **What a run of calls builds**: the filters in order, and the last pseudo-element, whatever
order the calls are in. -/
theorem Compound.build_eq (start : CompoundStart) (calls : List CompoundCall) :
    Compound.build start calls = do
      let type ← start.type
      let filters ← calls.mapM CompoundCall.filters
      return .mk type filters.flatten (lastSet CompoundCall.element? calls) := by
  rw [build, start.run_eq]
  simp only [bind_assoc, pure_bind, CompoundCall.foldlM_run, List.nil_append, Option.or_none]

/-! ### Case flags -/

/-- A flag shows just where there is a value to compare. -/
theorem AttributeSelector.css_withFlag_eq (a : AttributeSelector) (flag : CaseFlag) :
    css (a.withFlag flag) = css a ↔ ∀ t ∈ a.test, t.flag = some flag := by
  obtain ⟨name, test⟩ := a
  constructor
  · intro h t ht
    have hread := reads_attributeSelector (withFlag ⟨name, test⟩ flag)
    rw [h] at hread
    have heq := hread.unique (reads_attributeSelector ⟨name, test⟩) trivial
    have htest := congrArg AttributeSelector.test heq
    rw [Option.mem_def] at ht
    subst ht
    exact (congrArg AttributeTest.flag (Option.some.inj htest)).symm
  · intro h
    cases test with
    | none => rfl
    | some t =>
      have hflag := h t rfl
      obtain ⟨matcher, value, tflag⟩ := t
      rw [show tflag = some flag from hflag]
      rfl

/-! ### Lists -/

theorem Selector.texts_eq_map (ss : List Selector) : Selector.texts ss = ss.map css := by
  induction ss with
  | nil => rfl
  | cons s ss ih => exact congrArg (css s :: ·) ih

/-- A list of selectors is their texts with commas. -/
theorem SelectorList.css_eq (l : SelectorList) :
    css l = joined ", ".toList (l.first.text :: Selector.texts l.rest) := by
  rw [Selector.texts_eq_map]
  rfl

/-- A list reads back as its normal form. -/
theorem SelectorList.read_css (l : SelectorList) : SelectorList.read (css l) = some l.normal := by
  rw [l.css_eq]
  have hreads := reads_commaList (Nat.le_refl _)
    (fun h => (Selector.reads_front l.first _ h).reads) (Selector.reads_texts l.rest _)
  exact hreads.whole .nil

/-- And the normal form is written as the list. -/
theorem SelectorList.css_normal (l : SelectorList) : css l.normal = css l := by
  rw [l.css_eq, l.normal.css_eq]
  show joined _ (l.first.normal.text :: Selector.texts (Selector.normals l.rest)) = _
  rw [Selector.text_normal, Selector.texts_normals]

/-- **The text of a selector list determines it.** -/
theorem SelectorList.text_determines :
    (∀ l : SelectorList, SelectorList.read (cssString l).toList = some l.normal) ∧
    (∀ l m : SelectorList, cssString l = cssString m ↔ l.normal = m.normal) ∧
    (∀ (start : CompoundStart) (calls : List CompoundCall),
      Compound.build start calls = do
        let type ← start.type
        let filters ← calls.mapM CompoundCall.filters
        return .mk type filters.flatten (lastSet CompoundCall.element? calls)) ∧
    (∀ (a : AttributeSelector) (flag : CaseFlag),
      css (a.withFlag flag) = css a ↔ ∀ t ∈ a.test, t.flag = some flag) := by
  have hread (l : SelectorList) : SelectorList.read (cssString l).toList = some l.normal := by
    rw [cssString, String.toList_ofList, l.read_css]
  refine ⟨hread, fun l m => ⟨fun h => ?_, fun h => ?_⟩, Compound.build_eq,
    AttributeSelector.css_withFlag_eq⟩
  · have hl := hread l
    rw [h, hread m] at hl
    exact (Option.some.inj hl).symm
  · rw [cssString, cssString, ← l.css_normal, ← m.css_normal, h]

end Stylesheet
