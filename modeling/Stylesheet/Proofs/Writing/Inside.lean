import Stylesheet.Proofs.Nesting.Rule

/-! The declarations in a rule.

They stand in its own blocks or, at any depth, in those of the rules in it. Either way the
text of the declaration is a part of the text of the rule. -/
namespace Stylesheet

/-! ### Blocks -/

section Blocks
variable {t : List Char} {parts : List (List Char)} {d : Declaration} {ds : List Declaration}

/-- A part of a block stands in its text. -/
theorem infix_blockText (h : t ∈ parts) : t <:+: blockText parts := by
  obtain ⟨before, after, rfl⟩ := List.append_of_mem h
  refine ⟨'\x7b' :: before.flatMap (' ' :: ·) ++ [' '],
    after.flatMap (' ' :: ·) ++ " \x7d".toList, ?_⟩
  simp [blockText]

/-- A declaration stands before its semicolon. -/
theorem Declaration.infix_entry (d : Declaration) : css d <:+: d.entry :=
  (List.prefix_append (css d) [';']).isInfix

/-- The entries may be followed by others that are no declarations. -/
theorem Declaration.infix_entries (h : d ∈ ds) (others : List (List Char)) :
    css d <:+: blockText (ds.map entry ++ others) :=
  d.infix_entry.trans (infix_blockText (List.mem_append_left _ (List.mem_map_of_mem h)))

theorem Declaration.infix_block (h : d ∈ ds) : css d <:+: blockText (ds.map entry) := by
  have hinfix := infix_entries h []
  rwa [List.append_nil] at hinfix

/-- A block comes last, whatever leads up to it. -/
theorem infix_lead (h : t <:+: blockText parts) (lead : List Char) :
    t <:+: lead ++ blockText parts :=
  h.trans (List.suffix_append lead _).isInfix

theorem infix_spaced_lead (h : t <:+: blockText parts) (lead : List Char) :
    t <:+: lead ++ ' ' :: blockText parts := by
  rw [List.append_cons]
  exact infix_lead h _

/-- Blocks of their own are parts of the block around them. -/
theorem infix_inner_block {α : Type} [ToCss α] {items : List α} {f : α → List Declaration}
    (hitem : ∀ a, ∀ d ∈ f a, css d <:+: css a) (h : d ∈ items.flatMap f)
    (others : List (List Char)) : css d <:+: blockText (others ++ items.map css) := by
  obtain ⟨a, ha, hd⟩ := List.mem_flatMap.mp h
  exact (hitem a d hd).trans (infix_blockText (List.mem_append_right _ (List.mem_map_of_mem ha)))

end Blocks

/-! ### Rules -/

namespace Rule
variable {d : Declaration}

/-- The declarations and descriptors in the blocks that are a rule's own. -/
def declarations : Rule → List Declaration
  | style rule => rule.declarations.declarations
  | fontFace rule => rule.descriptors.entries
  | page rule => rule.descriptors.entries ++ rule.margins.flatMap (·.declarations.entries)
  | counterStyle rule => rule.descriptors.entries
  | property rule => rule.descriptors.entries
  | fontFeatureValues rule => rule.descriptors.entries ++ rule.blocks.flatMap (·.values.entries)
  | keyframes rule => rule.keyframes.flatMap (·.declarations.declarations)
  | _ => []

/-- The rule has the declaration in a block, its own or that of a rule inside. -/
inductive Declares (d : Declaration) : Rule → Prop where
  | own {r : Rule} : d ∈ r.declarations → Declares d r
  | inside {r inner : Rule} {rules : List Rule} :
      r.rules? = some rules → inner ∈ rules → Declares d inner → Declares d r

/-- The declarations that a rule holds itself, kind by kind. -/
theorem infix_text_of_mem {r : Rule} (h : d ∈ r.declarations) : css d <:+: r.text := by
  cases r with
  | style rule => exact infix_spaced_lead (d.infix_block h) _
  | fontFace rule => exact infix_lead (d.infix_block h) _
  | page rule =>
    refine infix_lead ?_ _
    rcases List.mem_append.mp h with h | h
    · exact d.infix_entries h _
    · exact infix_inner_block (fun _ _ hd => infix_spaced_lead (Declaration.infix_block hd) _) h _
  | counterStyle rule => exact infix_spaced_lead (d.infix_block h) _
  | property rule => exact infix_spaced_lead (d.infix_block h) _
  | fontFeatureValues rule =>
    refine infix_spaced_lead ?_ _
    rcases List.mem_append.mp h with h | h
    · exact d.infix_entries h _
    · exact infix_inner_block (fun _ _ hd => infix_spaced_lead (Declaration.infix_block hd) _) h _
  | keyframes rule =>
    have hkeyframes := infix_inner_block
      (fun (k : Keyframe) _ hd => infix_spaced_lead (Declaration.infix_block hd) _) h []
    exact infix_spaced_lead hkeyframes _
  | _ => exact nomatch h

/-- A rule that holds rules is a prelude, a space and a block. -/
theorem exists_lead {r : Rule} {rules : List Rule} (h : r.rules? = some rules) :
    ∃ lead, r.text = lead ++ ' ' :: blockText (texts rules) := by
  cases r with
  | media condition _ =>
    cases h
    exact ⟨css condition, rfl⟩
  | supports condition _ =>
    cases h
    exact ⟨css condition, rfl⟩
  | container condition _ =>
    cases h
    exact ⟨css condition, rfl⟩
  | layer name _ =>
    cases h
    exact ⟨"@layer".toList ++ clause " " name, rfl⟩
  | _ => exact nomatch h

/-- A rule stands as it is in the rule that holds it. -/
theorem infix_text_of_rules {r inner : Rule} {rules : List Rule} (h : r.rules? = some rules)
    (hinner : inner ∈ rules) : inner.text <:+: r.text := by
  obtain ⟨lead, htext⟩ := exists_lead h
  rw [htext, texts_eq_map]
  exact infix_spaced_lead (infix_blockText (List.mem_map_of_mem hinner)) lead

/-- **A declaration is a part of every rule around it**, however deep it stands there. -/
theorem Declares.infix_text {r : Rule} (h : r.Declares d) : css d <:+: css r := by
  induction h with
  | own hd => exact infix_text_of_mem hd
  | inside hrules hinner _ ih => exact ih.trans (infix_text_of_rules hrules hinner)

end Rule
end Stylesheet
