import Stylesheet.Proofs.Nesting.Block

/-! Rules are closed texts, and each ends exactly once.

A rule is a prelude before its block, or before the semicolon that ends a statement; the
prelude has neither outside of its brackets, strings and escapes, so the end of the rule
is where its text ends, whatever the names, strings and values in it. -/
namespace Stylesheet

/-! ### Conditions -/

section Conditions
variable {N V : List Char → Prop} (hN : ∀ t, N t → Nested anyChar t)
  (hV : ∀ t, V t → Nested anyChar t)
include hN hV

/-- A declaration is tested in parentheses, and so is whatever its value has at the top. -/
theorem SupportsTest.Built.nested {t : SupportsTest} (ht : t.Built N V) :
    Nested preludeChar (css t) := by
  cases ht with
  | declaration hd => exact .enclosed .round (hd.nested hN hV) rfl
  | selector s => exact .call (Stylesheet.nested s) rfl rfl
  | fontTech t => exact .call (Stylesheet.nested t) rfl rfl
  | fontFormat f => exact .call (Stylesheet.nested f) rfl rfl

theorem ContainerTest.Built.nested {t : ContainerTest} (ht : t.Built N V) :
    Nested preludeChar (css t) := by
  cases ht with
  | size feature => exact Stylesheet.nested feature
  | style hd => exact .call (hd.nested hN hV) rfl rfl

omit hN hV in
/-- Removing the mark leaves a declaration that could have been built without it. -/
theorem Declaration.Built.withoutImportance {d : Declaration} (hd : d.Built N V) :
    d.withoutImportance.Built N V := by
  induction hd with
  | property p => exact .property p
  | custom name value hvalue => exact .custom name value hvalue
  | descriptor hname hvalue => exact .descriptor hname hvalue
  | important _ ih => exact ih

omit hN hV in
/-- **Every test in a condition was built**, however the operators were applied, and no junction
has fewer than two terms. -/
theorem Supports.Built.formed {s : Supports} (hs : s.Built N V) :
    s.condition.Formed (SupportsTest.Built N V) := by
  induction hs with
  | ofProperty p => exact .test (.declaration (.property p))
  | ofDeclaration hd => exact .test (.declaration hd.withoutImportance)
  | selector s => exact .test (.selector s)
  | fontTech t => exact .test (.fontTech t)
  | fontFormat f => exact .test (.fontFormat f)
  | and _ _ iha ihb => exact iha.conjoin ihb
  | or _ _ iha ihb => exact iha.disjoin ihb
  | not _ ih => exact .not ih

omit hN hV in
/-- A name added or refused leaves the condition as it is. -/
theorem Container.Built.formed {c : Container} (hc : c.Built N V) :
    c.condition.Formed (ContainerTest.Built N V) := by
  induction hc with
  | ofSize feature => exact .test (.size feature)
  | ofProperty p => exact .test (.style (.property p))
  | ofDeclaration hd => exact .test (.style hd.withoutImportance)
  | named _ h ih =>
    rw [Container.condition_named h]
    exact ih
  | and _ _ iha ihb => exact iha.conjoin ihb
  | or _ _ iha ihb => exact iha.disjoin ihb
  | not _ ih => exact .not ih

omit hN hV in
/-- A condition that is a single declaration is one that was built. -/
theorem Supports.Built.declaration {s : Supports} {d : Declaration} (hs : s.Built N V)
    (h : s.condition = .test (.declaration d)) : d.Built N V := by
  have hformed := hs.formed
  rw [h] at hformed
  cases hformed with
  | test ht =>
    cases ht with
    | declaration hd => exact hd

omit hN hV in
theorem preludeChar_of_phraseChar {c : Char} (h : phraseChar c) : preludeChar c :=
  preludeChar_of_listChar (listChar_of_phraseChar h)

/-- A condition has only its operators between the tests, which the prelude allows. -/
theorem Supports.Built.nested_condition {s : Supports} (hs : s.Built N V) :
    Nested preludeChar (css s.condition) :=
  Condition.Forall.nested (fun _ => preludeChar_of_phraseChar)
    (hs.formed.forall_tests.mono fun _ ht => ht.nested hN hV)

theorem Container.Built.nested_condition {c : Container} (hc : c.Built N V) :
    Nested preludeChar (css c.condition) :=
  Condition.Forall.nested (fun _ => preludeChar_of_phraseChar)
    (hc.formed.forall_tests.mono fun _ ht => ht.nested hN hV)

/-- A single declaration stands in the clause without parentheses of its own. -/
theorem Supports.Built.nested_argument {s : Supports} (hs : s.Built N V) :
    Nested anyChar s.argument := by
  unfold argument
  split
  · rename_i d htest
    exact (hs.declaration (Condition.eq_test htest)).nested hN hV
  · exact (hs.nested_condition hN hV).any

end Conditions

/-! ### The shape of a rule -/

/-- The text of a rule, with the marks in it. -/
inductive RuleText : List Char → List Char → Prop where
  | statement {lead} : Nested preludeChar lead → RuleText [';'] (lead ++ [';'])
  | block {lead body} : Nested preludeChar lead → Nested anyChar body →
      RuleText ['\x7b', '\x7d'] (lead ++ '\x7b' :: (body ++ ['\x7d']))

namespace RuleText
variable {marks text rest : List Char}

/-- What a prelude has outside of brackets is no mark of a rule, and neither are the characters
that open and close the rest. -/
theorem apart_preludeChar : Scan.Apart Scan.ruleMark preludeChar where
  of_top {c} h := by
    unfold Scan.ruleMark
    exact not_contains_of (by decide) h
  of_opening {b} h := by
    revert h
    cases b <;> decide
  lexical {c} h := by
    simp only [List.mem_cons, List.not_mem_nil, or_false] at h
    obtain rfl | rfl | rfl := h <;> rfl
  hexDigit {c} h := by
    unfold Scan.ruleMark
    exact not_contains_of (by decide) h

/-- Over the prelude the scan meets no mark. -/
theorem passes_lead {lead : List Char} (h : Nested preludeChar lead) :
    Scan.Passes Scan.ruleMark .start lead .start :=
  h.passes fun _ => apart_preludeChar

/-- Over the body it does not leave the block. -/
theorem passes_body {body : List Char} (h : Nested anyChar body) :
    Scan.Passes Scan.ruleMark ⟨.bare, [.curly]⟩ body ⟨.bare, [.curly]⟩ :=
  h.passes nofun

theorem nested (h : RuleText marks text) : Nested anyChar text := by
  cases h with
  | statement hlead => exact hlead.any.append (.of_all rfl)
  | block hlead hbody => exact hlead.any.append (.enclosed .curly hbody rfl)

/-- A rule leaves nothing open. -/
theorem closed (h : RuleText marks text) : Closed text := by
  cases h with
  | statement hlead =>
    rw [Closed, Scan.run_append (passes_lead hlead).run_eq]
    rfl
  | block hlead hbody =>
    rw [Closed, Scan.run_append (passes_lead hlead).run_eq]
    show Scan.run ⟨.bare, [.curly]⟩ _ = _
    rw [Scan.run_append (passes_body hbody).run_eq]
    rfl

/-- A rule has the marks of its shape and no other. -/
theorem marks_eq (h : RuleText marks text) :
    Scan.start.marks Scan.ruleMark text = marks := by
  cases h with
  | statement hlead =>
    rw [Scan.marks_append (passes_lead hlead).run_eq, (passes_lead hlead).marks_eq]
    rfl
  | @block lead body hlead hbody =>
    rw [Scan.marks_append (passes_lead hlead).run_eq, (passes_lead hlead).marks_eq]
    show '\x7b' :: Scan.marks Scan.ruleMark ⟨.bare, [.curly]⟩ (body ++ ['\x7d']) = _
    rw [Scan.marks_append (passes_body hbody).run_eq, (passes_body hbody).marks_eq]
    rfl

/-- A rule is cut off where it ends. -/
theorem cut_append (h : RuleText marks text) :
    Scan.start.cut (text ++ rest) = text :: Scan.start.cut rest := by
  cases h with
  | @statement lead hlead =>
    rw [List.append_assoc, (passes_lead hlead).cut_append]
    rfl
  | @block lead body hlead hbody =>
    have hopen : Scan.start.cut ('\x7b' :: (body ++ '\x7d' :: rest)) =
        Scan.extend ['\x7b'] (Scan.cut ⟨.bare, [.curly]⟩ (body ++ '\x7d' :: rest)) := rfl
    have hclose : Scan.cut ⟨.bare, [.curly]⟩ ('\x7d' :: rest) =
        ['\x7d'] :: Scan.start.cut rest := rfl
    have htext : lead ++ '\x7b' :: (body ++ ['\x7d']) ++ rest =
        lead ++ '\x7b' :: (body ++ '\x7d' :: rest) := by simp
    rw [htext, (passes_lead hlead).cut_append, hopen, (passes_body hbody).cut_append, hclose]
    simp [Scan.extend]

/-- Parts with spaces between them make a body. -/
theorem of_block {lead : List Char} {parts : List (List Char)} (hlead : Nested preludeChar lead)
    (hparts : ∀ p ∈ parts, Nested anyChar p) :
    RuleText ['\x7b', '\x7d'] (lead ++ blockText parts) := by
  rw [blockText_eq]
  exact .block hlead (nested_blockBody hparts)

theorem of_spaced_block {lead : List Char} {parts : List (List Char)}
    (hlead : Nested preludeChar lead) (hparts : ∀ p ∈ parts, Nested anyChar p) :
    RuleText ['\x7b', '\x7d'] (lead ++ ' ' :: blockText parts) := by
  rw [List.append_cons]
  exact of_block (hlead.append (.of_all rfl)) hparts

/-- A space in front belongs to the prelude. -/
theorem spaced (h : RuleText marks text) : RuleText marks (' ' :: text) := by
  cases h with
  | statement hlead => exact .statement (.cons hlead rfl)
  | block hlead hbody => exact .block (.cons hlead rfl) hbody

/-- Rules in a block are cut off one by one. -/
theorem cut_blockBody {texts : List (List Char)} (h : ∀ t ∈ texts, ∃ marks, RuleText marks t) :
    Scan.start.cut (texts.flatMap (' ' :: ·) ++ [' ']) = texts.map (' ' :: ·) ++ [[' ']] := by
  induction texts with
  | nil => rfl
  | cons t texts ih =>
    obtain ⟨marks, ht⟩ := h t (List.mem_cons_self ..)
    rw [List.flatMap_cons, List.append_assoc, ht.spaced.cut_append,
      ih fun u hu => h u (List.mem_cons_of_mem _ hu)]
    rfl

end RuleText

/-! ### Rules -/

namespace Rule

/-- The marks that a rule should have: a semicolon, or the two braces of its block. -/
def marks : Rule → List Char
  | layerOrder _ | importRule _ | namespaceRule _ | charset _ => [';']
  | _ => ['\x7b', '\x7d']

/-- The rules that stand in the block of a rule. -/
def rules? : Rule → Option (List Rule)
  | media _ rules | supports _ rules | container _ rules | layer _ rules => some rules
  | _ => none

/-- The texts of rules, as the recursion through blocks makes them, are those of the rules. -/
theorem texts_eq_map (rules : List Rule) : texts rules = rules.map text := by
  induction rules with
  | nil => rfl
  | cons r rules ih => rw [texts, ih, List.map_cons]

theorem forall_texts {P : List Char → Prop} {rules : List Rule} (h : ∀ r ∈ rules, P r.text) :
    ∀ t ∈ texts rules, P t := by
  rw [texts_eq_map]
  exact List.forall_mem_map.mpr h

section Shape
variable {N V : List Char → Prop} (hN : ∀ t, N t → Nested anyChar t)
  (hV : ∀ t, V t → Nested anyChar t)
include hN hV

/-- The layer, the condition and the media stand behind the address, with no block among them. -/
theorem nested_importContent {r : ImportRule} (hr : r.Built N V) :
    Nested preludeChar (css r.url ++ clause " " r.layer ++
      (r.supports.map ImportRule.supportsText).getD [] ++
        (r.media.map ImportRule.mediaText).getD []) := by
  have hsupports : Nested preludeChar ((r.supports.map ImportRule.supportsText).getD []) := by
    induction hr with
    | of => exact .nil
    | withLayer _ _ ih => exact ih
    | withSupports _ hs _ =>
      exact .cons (.call (hs.nested_argument hN hV) rfl rfl) rfl
    | withMedia _ _ ih => exact ih
  have hmedia : Nested preludeChar ((r.media.map ImportRule.mediaText).getD []) := by
    cases r.media with
    | none => exact .nil
    | some m => exact .cons (nested_mediaList m) rfl
  exact (((nested r.url).append (nested_clause r.layer rfl)).append hsupports).append hmedia

/-- A rule that holds rules is its prelude and a block of their texts. -/
theorem Built.lead_of_rules {r : Rule} (hr : r.Built N V) {rules : List Rule}
    (hrules : r.rules? = some rules) :
    ∃ lead, Nested preludeChar lead ∧ r.text = lead ++ blockText (texts rules) := by
  have hspaced : ∀ {lead : List Char}, Nested preludeChar lead →
      Nested preludeChar (lead ++ [' ']) := fun h => h.append (.of_all rfl)
  cases hr with
  | media m _ =>
    cases hrules
    exact ⟨_, hspaced (nested m), List.append_cons ..⟩
  | supports hs _ =>
    cases hrules
    exact ⟨_, hspaced ((Nested.word rfl).append (hs.nested_condition hN hV)),
      List.append_cons ..⟩
  | @container c _ hc _ =>
    cases hrules
    have hname : Nested preludeChar ((c.name.map (css · ++ [' '])).getD []) := by
      cases c.name with
      | none => exact .nil
      | some name => exact (nested name).append (.of_all rfl)
    exact ⟨_, hspaced (((Nested.word rfl).append hname).append
      (hc.nested_condition hN hV)), List.append_cons ..⟩
  | layer name _ =>
    cases hrules
    exact ⟨_, hspaced ((Nested.word rfl).append (nested_clause name rfl)),
      List.append_cons ..⟩
  | _ => exact nomatch hrules

/-- **Every rule that can be built has the shape of one.** The induction is over how it was
built, and a rule inside of another brings its own shape. -/
theorem Built.ruleText {r : Rule} (hr : r.Built N V) : RuleText r.marks r.text := by
  -- rules that hold rules differ in their prelude only
  have hblock : ∀ {r : Rule} {rules : List Rule}, r.Built N V → r.rules? = some rules →
      (∀ r ∈ rules, RuleText r.marks r.text) → RuleText ['\x7b', '\x7d'] r.text := by
    intro r rules hr hrules ih
    obtain ⟨lead, hlead, htext⟩ := hr.lead_of_rules hN hV hrules
    rw [htext]
    exact .of_block hlead (forall_texts fun r hr => (ih r hr).nested)
  induction hr with
  | @style r hr =>
    refine .of_spaced_block (nested r.selectors) fun p hp => ?_
    obtain ⟨d, hd, rfl⟩ := List.mem_map.mp hp
    exact ((hr d hd).nested hN hV).append (.of_all rfl)
  | media m hrules ih => exact hblock (.media m hrules) rfl ih
  | supports hs hrules ih => exact hblock (.supports hs hrules) rfl ih
  | container hc hrules ih => exact hblock (.container hc hrules) rfl ih
  | layer name hrules ih => exact hblock (.layer name hrules) rfl ih
  | layerOrder names =>
    exact .statement ((Nested.cons (.word rfl) rfl).append
      (.cons (nested_separated names.toList rfl) rfl))
  | fontFace hr => exact .of_block (.word rfl) hr.allNested.nested_parts
  | @page r hr =>
    have hselectors : Nested preludeChar (PageRule.selectorText r.selectors) := by
      cases r.selectors with
      | nil => exact .nil
      | cons s ss => exact (nested_separated (s :: ss) rfl).append (.of_all rfl)
    obtain ⟨hdescriptors, hmargins⟩ := hr.nested_parts
    exact .of_block ((Nested.word rfl).append hselectors) (List.forall_mem_append.mpr
      ⟨hdescriptors.nested_parts, List.forall_mem_map.mpr hmargins⟩)
  | @counterStyle r hr =>
    exact .of_spaced_block ((Nested.word rfl).append (nested r.name))
      hr.allNested.nested_parts
  | @property r hr =>
    exact .of_spaced_block ((Nested.word rfl).append (nested r.name))
      (hr.allNested hV).nested_parts
  | @fontFeatureValues r hr =>
    obtain ⟨hdescriptors, hblocks⟩ := hr.nested_parts
    exact .of_spaced_block
      ((Nested.word rfl).append (nested_separated r.families.toList rfl))
      (List.forall_mem_append.mpr ⟨hdescriptors.nested_parts, List.forall_mem_map.mpr hblocks⟩)
  | @keyframes r hr =>
    exact .of_spaced_block ((Nested.word rfl).append (nested r.name))
      (List.forall_mem_map.mpr (hr.nested_keyframes hN hV))
  | importRule hr =>
    exact .statement ((Nested.cons (.word rfl) rfl).append
      (.cons (nested_importContent hN hV hr) rfl))
  | namespaceRule r =>
    have hlabel : Nested preludeChar ((r.label.map (css · ++ [' '])).getD []) := by
      cases r.label with
      | none => exact .nil
      | some label => exact (nested label).append (.of_all rfl)
    exact .statement ((Nested.cons (.word rfl) rfl).append
      (.cons (hlabel.append (nested r.url)) rfl))
  | charset r =>
    exact .statement ((Nested.cons (.word rfl) rfl).append
      (.cons (nested_quoteString _) rfl))

end Shape
end Rule

/-! ### Values -/

/-- The types are gone through one by one, and instance search finds why each nests. -/
theorem nests_plain : ∀ T ∈ plainTypes, Nests anyChar T.Value := by
  simp only [plainTypes, List.forall_mem_cons]
  repeat' apply And.intro
  all_goals first | infer_instance | exact List.forall_mem_nil _

/-- The shortest form leaves sides out and adds none. -/
theorem Sides.mem_shortest {α : Type} [BEq α] {s : Sides α} {a : α} (h : a ∈ s.shortest) :
    a = s.top ∨ a = s.right ∨ a = s.bottom ∨ a = s.left := by
  unfold shortest at h
  split at h
  · split at h
    · split at h <;> simp at h <;> grind
    · simp at h
      grind
  · simpa using h

/-- A value made of nested texts has a nested text. -/
theorem ComposedText.nested {N V : List Char → Prop} (hN : ∀ t, N t → Nested anyChar t)
    (hV : ∀ t, V t → Nested anyChar t) {t : List Char} (ht : ComposedText N V t) :
    Nested anyChar t := by
  cases ht with
  | sides s htop hright hbottom hleft =>
    refine .joined (.word rfl) fun t ht => ?_
    obtain ⟨a, ha, rfl⟩ := List.mem_map.mp ht
    rcases Sides.mem_shortest ha with rfl | rfl | rfl | rfl
    · exact hV _ htop
    · exact hV _ hright
    · exact hV _ hbottom
    · exact hV _ hleft
  | shadows list hitems =>
    obtain ⟨items⟩ := list
    cases items with
    | nil => exact .word rfl
    | cons a items =>
      exact .joined (.word rfl) (List.forall_mem_map.mpr fun a ha => hV _ (hitems a ha))
  | condition hc => exact Condition.Forall.nested (fun _ _ => rfl) (hc.mono fun _ ht => hV _ ht)
  | declaration hd => exact hd.nested hN hV
  | declarations hb => exact hb.nested hN hV
  | descriptors hds => exact (hds.allNested hN hV).nested
  | keyframe hk => exact hk.nested hN hV
  | featureBlock hb => exact hb.nested
  | margin hr => exact hr.nested
  | supportsTest ht => exact (ht.nested hN hV).any
  | supports hs => exact (Nested.word rfl).append (hs.nested_condition hN hV).any
  | containerTest ht => exact (ht.nested hN hV).any
  | @container c hc =>
    have hname : Nested anyChar ((c.name.map (css · ++ [' '])).getD []) := by
      cases c.name with
      | none => exact .nil
      | some name => exact (Stylesheet.nested name).append (.of_all rfl)
    exact ((Nested.word rfl).append hname).append (hc.nested_condition hN hV).any
  | rule hr => exact (hr.ruleText hN hV).nested

/-- **The text of any value is nested**, by induction on how deep it holds others. -/
theorem ValueText.nested {N : List Char → Prop} (hN : ∀ t, N t → Nested anyChar t)
    {t : List Char} (ht : ValueText N t) : Nested anyChar t := by
  induction ht with
  | plain hT a =>
    have := nests_plain _ hT
    exact Stylesheet.nested a
  | own a => exact .mono (fun _ _ => rfl) (Stylesheet.nested a : Nested listChar (css a))
  | property p => exact (nested_property p).any
  | composed _ hcomposed ih => exact hcomposed.nested hN ih

/-! ### No text breaks out of its rule -/

/-- A closed text may be used where nested ones are asked for, as long as any character may
stand there. -/
theorem nested_of_closed {t : List Char} (h : Closed t) : Nested anyChar t := by
  rw [← List.append_nil t]
  exact .closed (fun _ => rfl) h .nil

/-- The rules in the block of a built rule were built. -/
theorem Rule.Built.rules {N V : List Char → Prop} {r : Rule} (hr : r.Built N V)
    {rules : List Rule} (h : r.rules? = some rules) : ∀ r ∈ rules, r.Built N V := by
  cases hr with
  | media _ hrules | supports _ hrules | container _ hrules | layer _ hrules =>
    cases h
    exact hrules
  | _ => exact nomatch h

/-- **No author text breaks out of its rule.** Whatever names, strings and values a rule is
built with, down to rules in rules, a scan of its text closes all that it opens, meets no
end of a rule before the last character, and cuts the body of a block of rules into the
texts of exactly those rules. -/
theorem Rule.ends_once {r : Rule} (hr : r.Built Closed (ValueText Closed)) :
    Scan.start.run r.text = some .start ∧ Scan.start.marks Scan.ruleMark r.text = r.marks ∧
      Scan.start.cut r.text = [r.text, []] ∧
      ∀ rules, r.rules? = some rules → ∃ lead body,
        r.text = lead ++ '\x7b' :: (body ++ ['\x7d']) ∧
        Scan.Passes Scan.ruleMark .start lead .start ∧
        Scan.start.cut body = rules.map (' ' :: ·.text) ++ [[' ']] := by
  have hV : ∀ t, ValueText Closed t → Nested anyChar t :=
    fun _ ht => ht.nested fun _ => nested_of_closed
  have hshape := hr.ruleText (fun _ => nested_of_closed) hV
  have hcut : Scan.start.cut r.text = [r.text, []] := by
    have : Scan.start.cut (r.text ++ []) = r.text :: Scan.start.cut [] := hshape.cut_append
    rwa [List.append_nil] at this
  refine ⟨hshape.closed, hshape.marks_eq, hcut, fun rules hrules => ?_⟩
  obtain ⟨lead, hlead, htext⟩ := hr.lead_of_rules (fun _ => nested_of_closed) hV hrules
  refine ⟨lead, (Rule.texts rules).flatMap (' ' :: ·) ++ [' '], ?_, RuleText.passes_lead hlead, ?_⟩
  · rw [htext, blockText_eq]
  · have hrule : ∀ r ∈ rules, ∃ marks, RuleText marks r.text :=
      fun r hmem => ⟨_, (hr.rules hrules r hmem).ruleText (fun _ => nested_of_closed) hV⟩
    rw [RuleText.cut_blockBody (Rule.forall_texts hrule), Rule.texts_eq_map, List.map_map]
    rfl

/-- A string that looks like the end of its rule, in a rule in a layer. -/
theorem Rule.ends_once_quoted_brace :
    ∃ r : Rule, r.Built Closed (ValueText Closed) ∧ r.rules?.isSome ∧
      r.text = "@layer \x7b * \x7b --x:\"\x7d;\"; \x7d \x7d".toList ∧
      Scan.start.run r.text = some .start ∧ Scan.start.cut r.text = [r.text, []] := by
  let value : CssString := ⟨"\x7d;"⟩
  let inner : StyleRule :=
    ⟨.single (.compound .universal), ⟨[.custom ⟨"--x", by decide⟩ value]⟩⟩
  have hvalue : ValueText Closed (css value) :=
    .plain (T := ⟨CssString⟩) (by simp [plainTypes]) value
  have hinner : inner.Built Closed (ValueText Closed) :=
    List.forall_mem_singleton.mpr (.custom _ value hvalue)
  have hbuilt : (Rule.layer none [.style inner]).Built Closed (ValueText Closed) :=
    .layer none (List.forall_mem_singleton.mpr (.style hinner))
  obtain ⟨hrun, -, hcut, -⟩ := Rule.ends_once hbuilt
  exact ⟨_, hbuilt, rfl, by decide, hrun, hcut⟩

/-- Blocks of descriptors write the names they are handed as they are, so that a brace in
one ends the rule around it. -/
theorem Rule.ends_early_after_open_name :
    ∃ r : Rule, r.Built (fun _ => True) (ValueText fun _ => True) ∧
      r.text = "* \x7b --x:\x7b \x7d:inherit; \x7d; \x7d".toList ∧
      Scan.start.run r.text = none ∧ Scan.start.cut r.text ≠ [r.text, []] := by
  let descriptors : Descriptors := .set .empty "\x7d" WideKeyword.inherit
  let rule : StyleRule :=
    ⟨.single (.compound .universal), ⟨[.custom ⟨"--x", by decide⟩ descriptors]⟩⟩
  have hvalue : ValueText (fun _ => True) (css WideKeyword.inherit) :=
    .plain (T := ⟨WideKeyword⟩) (by simp [plainTypes]) WideKeyword.inherit
  have hdescriptors : ValueText (fun _ => True) (css descriptors) :=
    .composed (fun _ h => h) (.descriptors (.set _ _ .empty trivial hvalue))
  have hrule : rule.Built (fun _ => True) (ValueText fun _ => True) :=
    List.forall_mem_singleton.mpr (.custom _ descriptors hdescriptors)
  exact ⟨.style rule, .style hrule, by decide, by decide, by decide⟩

end Stylesheet
