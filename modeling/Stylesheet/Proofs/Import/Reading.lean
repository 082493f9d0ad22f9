import Stylesheet.Proofs.Condition.Argument
import Stylesheet.Proofs.Keyed.Run
import Stylesheet.Proofs.Media.Reading
import Stylesheet.Proofs.Reading.Cut

/-! Reading an import back, clause by clause.

The clauses stand in one order, each there when it was set and as it was set last. A clause
shows itself by how it begins, and what follows it never begins like it: a list of media
queries begins with a word of its own or with a parenthesis. The argument of `supports` is
closed text, so it ends at the first parenthesis that it did not open. -/
namespace Stylesheet

/-! ### Building -/

/-- One call on an import. -/
inductive ImportStep where
  | layer (layer : ImportLayer)
  | supports (condition : Supports)
  | media (media : Media)

namespace ImportStep

def apply (r : ImportRule) : ImportStep → ImportRule
  | layer l => r.withLayer l
  | supports s => r.withSupports s
  | media m => r.withMedia m

/-- The layer that a call sets. -/
def layer? : ImportStep → Option ImportLayer
  | layer l => some l
  | _ => none

def supports? : ImportStep → Option Supports
  | supports s => some s
  | _ => none

def media? : ImportStep → Option Media
  | media m => some m
  | _ => none

end ImportStep

namespace ImportRule

def build (address : String) (steps : List ImportStep) : ImportRule :=
  steps.foldl ImportStep.apply (.of address)

theorem apply_eq (r : ImportRule) (step : ImportStep) :
    step.apply r = ⟨r.url, step.layer?.or r.layer, step.supports?.or r.supports,
      step.media?.or r.media⟩ := by
  cases step <;> rfl

/-- **Each clause is what was set last**, or what it was before any call. -/
theorem foldl_eq (r : ImportRule) (steps : List ImportStep) :
    steps.foldl ImportStep.apply r = ⟨r.url,
      (lastSet ImportStep.layer? steps).or r.layer,
      (lastSet ImportStep.supports? steps).or r.supports,
      (lastSet ImportStep.media? steps).or r.media⟩ := by
  induction steps generalizing r with
  | nil => rfl
  | cons step steps ih =>
    rw [List.foldl_cons, ih, apply_eq]
    simp only [lastSet_cons, Option.or_assoc]

/-- **A rule is its address and what was set last**, in whatever order it was set. -/
theorem build_eq (address : String) (steps : List ImportStep) :
    build address steps = ⟨⟨address⟩, lastSet ImportStep.layer? steps,
      lastSet ImportStep.supports? steps, lastSet ImportStep.media? steps⟩ := by
  rw [build, foldl_eq]
  simp only [of, Option.or_none]

end ImportRule

/-! ### The reader -/

/-- Only the names of a layer can have null characters. -/
def ImportLayer.normal : ImportLayer → ImportLayer
  | anonymous => .anonymous
  | named name => .named ⟨⟨name.path.first.normal, name.path.rest.map .normal⟩⟩

/-- What can be read off an import. -/
structure ImportParts where
  address : List Char
  layer : Option ImportLayer
  supports : Option (List Char)
  media : Option (List Char)

/-- A null character reads back as the replacement character, in the address and in names. -/
def ImportRule.parts (r : ImportRule) : ImportParts :=
  ⟨r.url.address.toList.map replaced, r.layer.map .normal, r.supports.map Supports.argument,
    r.media.map Media.list⟩

/-- The text up to where the scan stops, and the rest. -/
def Scan.reach (s : Scan) : List Char → List Char × List Char
  | [] => ([], [])
  | c :: t =>
    match s.step c with
    | none => ([], c :: t)
    | some s' => (c :: (s'.reach t).1, (s'.reach t).2)

namespace Reader

/-- A part that is there when its lead is. -/
def behind {α : Type} (lead : List Char) (p : Reader α) : Reader (Option α) := fun t =>
  if lead.isPrefixOf t then (do expect lead; some <$> p) t else some (none, t)

/-- Up to a bracket that the text does not open. -/
def closedText : Reader (List Char) := fun t => some (Scan.start.reach t)

/-- An address in its function. -/
def url : Reader (List Char) := do
  expect "url(".toList
  let address ← string
  expect [')']
  return address

/-- There are no more parts than characters. -/
def layerName : Reader LayerName :=
  LayerName.mk <$> inBrackets fun t => listOf ['.'] customIdent t.length t

/-- The keyword alone, or the function with a name. -/
def layer : Reader ImportLayer :=
  fork (· == '(') (ImportLayer.named <$> layerName) (pure .anonymous)

/-- Closed text up to the parenthesis that ends it. -/
def supportsArgument : Reader (List Char) := do
  let argument ← closedText
  expect [')']
  return argument

/-- All that is left, behind a space. -/
def mediaList : Reader (Option (List Char)) := fun
  | [] => some (none, [])
  | ' ' :: t => some (some t, [])
  | t => some (none, t)

/-- The clauses in the order that they stand in. -/
def importParts : Reader ImportParts := do
  expect "@import ".toList
  let address ← url
  let layer ← behind " layer".toList layer
  let supports ← behind " supports(".toList supportsArgument
  let media ← mediaList
  return ⟨address, layer, supports, media⟩

end Reader

/-- The parts of an import, which ends at the one semicolon outside of its brackets. -/
def readImport? (t : List Char) : Option ImportParts :=
  match (cutAt ';' t).toList with
  | [statement, []] => Reader.importParts.whole statement
  | _ => none

/-! ### Reading what has a lead -/

section Lead
variable {α : Type} {p : Reader α} {t : List Char} {a : α} {F : List Char → Prop}
  {lead : List Char}

/-- A clause is read when its lead is there. -/
theorem Reads.behind_some (hp : Reads p t a F) :
    Reads (Reader.behind lead p) (lead ++ t) (some a) F := by
  intro rest hrest
  have hlead : lead.isPrefixOf (lead ++ t ++ rest) := by
    rw [List.isPrefixOf_iff_prefix, List.append_assoc]
    exact List.prefix_append ..
  show (if lead.isPrefixOf _ then _ else _) = _
  rw [if_pos hlead]
  exact (hp.map some).after lead rest hrest

/-- And left out when it is not. -/
theorem Reads.behind_none :
    Reads (Reader.behind lead p) [] none fun rest => lead.isPrefixOf rest = false := by
  intro rest hrest
  show (if lead.isPrefixOf rest then _ else some (none, rest)) = _
  rw [hrest, if_neg nofun]

end Lead

/-- The scan gets as far as the first bracket that closes nothing. -/
theorem Scan.reach_append {s s' : Scan} {u : List Char} (hu : s.run u = some s') {c : Char}
    (hc : s'.step c = none) (t : List Char) : s.reach (u ++ c :: t) = (u, c :: t) := by
  induction u generalizing s with
  | nil =>
    obtain rfl := Option.some.inj hu
    rw [List.nil_append, reach, hc]
  | cons d u ih =>
    obtain ⟨s₁, hstep, hrun⟩ := Option.bind_eq_some_iff.mp hu
    rw [List.cons_append, reach, hstep]
    simp only [ih hrun]

theorem reads_supportsArgument {u : List Char} (hu : Closed u) :
    Reads Reader.supportsArgument (u ++ [')']) u Anything := by
  have hread : Reads Reader.closedText u u fun rest => rest.head? = some ')' := by
    rintro (_ | ⟨c, rest⟩) hrest
    · exact nomatch hrest
    · obtain rfl := Option.some.inj hrest
      exact congrArg some (Scan.reach_append hu rfl rest)
  exact hread.before id fun _ => rfl

/-! ### The clauses -/

theorem reads_url (u : Url) :
    Reads Reader.url (css u) (u.address.toList.map replaced) Anything := by
  have hstring : Reads _ (quoteString u.address.toList ++ [')']) _ _ :=
    (reads_string u.address.toList).before id fun _ => trivial
  have htext : css u = "url(".toList ++ (quoteString u.address.toList ++ [')']) :=
    call_ofList ['u', 'r', 'l'] _
  rw [htext]
  exact hstring.after _

theorem reads_layerName (n : LayerName) :
    Reads Reader.layerName ('(' :: (css n ++ [')']))
      ⟨⟨n.path.first.normal, n.path.rest.map .normal⟩⟩ Anything := by
  have hlength : n.path.rest.length ≤ (css n).length := by
    have := length_le_joined '.' [] (css n.path.first) (n.path.rest.map css)
    rwa [List.length_map] at this
  have hlist : Reads (fun t => Reader.listOf ['.'] Reader.customIdent t.length t) (css n)
      ⟨n.path.first.normal, n.path.rest.map .normal⟩ (Ends (oneOf [')'])) := by
    intro rest hrest
    have hlimit : n.path.rest.length ≤ (css n ++ rest).length := by
      rw [List.length_append]
      exact Nat.le_add_right_of_le hlength
    exact reads_customIdents n.path hlimit (by decide) (by decide) rest hrest
  exact (hlist.inBrackets fun _ => .cons rfl).map _

/-- A layer without a name ends where no parenthesis follows. -/
def AfterLayer (rest : List Char) : Prop :=
  Ends (!· == '(') rest ∧ " layer".toList.isPrefixOf rest = false

/-- Behind the layer comes another clause, so that the keyword is not taken for the function. -/
theorem reads_layer (layer : Option ImportLayer) :
    Reads (Reader.behind " layer".toList Reader.layer) (clause " " layer) (layer.map .normal)
      AfterLayer := by
  cases layer with
  | none => exact Reads.behind_none.mono fun _ hrest => hrest.2
  | some layer =>
    cases layer with
    | anonymous =>
      have hread : Reads Reader.layer [] .anonymous AfterLayer :=
        (Reads.fork_right .pure).mono fun _ hrest => hrest.1
      exact hread.behind_some
    | named name =>
      have hname := ((reads_layerName name).map ImportLayer.named).of_anything (F := AfterLayer)
      have htext : clause " " (some (ImportLayer.named name)) =
          " layer".toList ++ '(' :: (css name ++ [')']) :=
        call_ofList [' ', 'l', 'a', 'y', 'e', 'r'] (css name)
      rw [htext]
      exact (hname.fork_left rfl).behind_some

theorem reads_supports {s : Option Supports} (hs : ∀ c ∈ s, Closed c.argument) :
    Reads (Reader.behind " supports(".toList Reader.supportsArgument)
      ((s.map ImportRule.supportsText).getD []) (s.map Supports.argument)
      fun rest => " supports(".toList.isPrefixOf rest = false := by
  cases s with
  | none => exact .behind_none
  | some s =>
    have htext : ImportRule.supportsText s = " supports(".toList ++ (s.argument ++ [')']) :=
      call_ofList [' ', 's', 'u', 'p', 'p', 'o', 'r', 't', 's'] s.argument
    have hread := (reads_supportsArgument (hs s rfl)).of_anything
      (F := fun rest => " supports(".toList.isPrefixOf rest = false)
    show Reads _ (ImportRule.supportsText s) _ _
    rw [htext]
    exact hread.behind_some

/-- Media are the rest. -/
theorem reads_media (m : Option Media) :
    Reads Reader.mediaList ((m.map ImportRule.mediaText).getD []) (m.map Media.list) (· = []) := by
  rintro _ rfl
  cases m with
  | none => rfl
  | some m =>
    rw [List.append_nil]
    rfl

/-! ### Where clauses begin -/

/-- What a list of media queries begins with, if it is not empty; with the comma if its
first query is. -/
def mediaLeads : List (List Char) :=
  ["not".toList, "only".toList, "all".toList, "screen".toList, "print".toList, ['('], [',']]

/-- A query begins with one of a few words or a parenthesis. -/
theorem MediaQuery.exists_lead (q : MediaQuery) : css q = [] ∨ ∃ w ∈ mediaLeads, w <+: css q := by
  obtain ⟨modifiers, type, features⟩ := q
  cases modifiers with
  | cons m ms =>
    refine .inr ⟨css m, by cases m <;> decide, ?_⟩
    show css m <+: (css m ++ [' '] ++ _) ++ _
    rw [List.append_assoc, List.append_assoc]
    exact List.prefix_append ..
  | nil =>
    cases type with
    | some type =>
      refine .inr ⟨css type, by cases type <;> decide, ?_⟩
      show css type <+: joined " and ".toList (css type :: features.map css)
      rw [joined_cons]
      exact List.prefix_append ..
    | none =>
      cases features with
      | nil => exact .inl rfl
      | cons f fs =>
        obtain ⟨t, ht⟩ := f.exists_css
        refine .inr ⟨['('], by decide, ?_⟩
        show ['('] <+: joined " and ".toList (css f :: fs.map css)
        rw [joined_cons, ht]
        exact List.prefix_append ['('] _

theorem Media.exists_lead (m : Media) : m.list = [] ∨ ∃ w ∈ mediaLeads, w <+: m.list := by
  have hlist : m.list = css m.queries.first ++
      (m.queries.rest.map css).flatMap (", ".toList ++ ·) := joined_cons ..
  rw [hlist]
  rcases m.queries.first.exists_lead with hfirst | ⟨w, hw, hlead⟩
  · cases hrest : m.queries.rest with
    | nil => exact .inl (by rw [hfirst]; rfl)
    | cons q qs =>
      refine .inr ⟨[','], by decide, ?_⟩
      rw [hfirst]
      exact List.prefix_append [','] _
  · exact .inr ⟨w, hw, hlead.trans (List.prefix_append ..)⟩

/-- A word that begins no list of media queries and that none begins with. -/
theorem Media.not_lead (m : Option Media) {w : List Char} (hne : w ≠ [])
    (hw : ∀ v ∈ mediaLeads, ¬w <+: v ∧ ¬v <+: w) :
    (' ' :: w).isPrefixOf ((m.map ImportRule.mediaText).getD []) = false := by
  cases m with
  | none => rfl
  | some m =>
    show (' ' == ' ' && w.isPrefixOf m.list) = false
    rw [beq_self_eq_true, Bool.true_and, ← Bool.not_eq_true, List.isPrefixOf_iff_prefix]
    intro hprefix
    rcases m.exists_lead with hnil | ⟨v, hv, hlead⟩
    · rw [hnil] at hprefix
      exact hne (List.prefix_nil.mp hprefix)
    · rcases List.prefix_or_prefix_of_prefix hprefix hlead with h | h
      · exact (hw v hv).1 h
      · exact (hw v hv).2 h

/-- No clause begins with a parenthesis. -/
theorem afterLayer_clauses (s : Option Supports) (m : Option Media) :
    AfterLayer ((s.map ImportRule.supportsText).getD [] ++
      (m.map ImportRule.mediaText).getD []) := by
  cases s with
  | some s => exact ⟨.cons rfl, rfl⟩
  | none =>
    refine ⟨?_, Media.not_lead m (by decide) (by decide)⟩
    cases m with
    | none => exact .nil
    | some m => exact .cons rfl

/-! ### The whole rule -/

namespace ImportRule

/-- The text up to the semicolon. -/
def statement (r : ImportRule) : List Char :=
  "@import ".toList ++ (css r.url ++ clause " " r.layer ++
    (r.supports.map supportsText).getD [] ++ (r.media.map mediaText).getD [])

theorem css_eq (r : ImportRule) : css r = r.statement ++ [';'] := rfl

/-- **The clauses read back**, one after the other. -/
theorem reads_statement {r : ImportRule} (hr : ∀ s ∈ r.supports, Closed s.argument) :
    Reads Reader.importParts r.statement r.parts (· = []) := by
  refine Reads.after _ ?_
  rw [List.append_assoc, List.append_assoc]
  refine (reads_url r.url).bind ?_ fun _ _ => trivial
  refine (reads_layer r.layer).bind ?_ fun rest hrest => ?_
  · refine (reads_supports hr).bind ((reads_media r.media).map _) fun rest hrest => ?_
    rw [hrest, List.append_nil]
    exact Media.not_lead r.media (by decide) (by decide)
  · rw [hrest, List.append_nil]
    exact afterLayer_clauses r.supports r.media

theorem built_of_supports {N V : List Char → Prop} {r : ImportRule}
    (h : ∀ s ∈ r.supports, s.Built N V) : r.Built N V := by
  obtain ⟨url, layer, supports, media⟩ := r
  have hlayer : Built N V ⟨url, layer, none, none⟩ := by
    cases layer with
    | none => exact .of url.address
    | some l => exact .withLayer l (.of url.address)
  have hsupports : Built N V ⟨url, layer, supports, none⟩ := by
    cases supports with
    | none => exact hlayer
    | some s => exact .withSupports hlayer (h s rfl)
  cases media with
  | none => exact hsupports
  | some m => exact .withMedia m hsupports

/-- And so does the rule, without its semicolon. -/
theorem readImport?_css {r : ImportRule}
    (hr : ∀ s ∈ r.supports, s.Built Closed (ValueText Closed)) :
    readImport? (css r) = some r.parts := by
  have hN : ∀ t, Closed t → Nested anyChar t := fun _ => nested_of_closed
  have hV : ∀ t, ValueText Closed t → Nested anyChar t := fun _ ht => ht.nested hN
  have hnested : Nested preludeChar r.statement :=
    (Nested.word rfl).append (Rule.nested_importContent hN hV (built_of_supports hr))
  have hcut : (cutAt ';' (css r)).toList = [r.statement, []] := by
    rw [css_eq, cutAt, (hnested.passes_start ';' (by decide)).split_append,
      Scan.split_mark (by decide)]
    simp [Scan.split, NonEmpty.single, NonEmpty.modifyFirst, NonEmpty.toList]
  have hargument : ∀ s ∈ r.supports, Closed s.argument :=
    fun s hs => ((hr s hs).nested_argument hN hV).is_closed
  rw [readImport?, hcut]
  exact (reads_statement hargument).whole rfl

end ImportRule

/-! ### Imports read back -/

namespace ImportRule

/-- What was set can be told from the parts, and what was not. -/
structure Recovers (parts : ImportParts) (address : String) (steps : List ImportStep) : Prop where
  address : parts.address = address.toList.map replaced
  layer : parts.layer = (lastSet ImportStep.layer? steps).map .normal
  supports : parts.supports = (lastSet ImportStep.supports? steps).map Supports.argument
  media : parts.media = (lastSet ImportStep.media? steps).map Media.list
  layer_none : parts.layer = none ↔ ∀ l, .layer l ∉ steps
  supports_none : parts.supports = none ↔ ∀ s, .supports s ∉ steps
  media_none : parts.media = none ↔ ∀ m, .media m ∉ steps

theorem recovers_parts (address : String) (steps : List ImportStep) :
    Recovers (build address steps).parts address steps := by
  have hlayer : lastSet ImportStep.layer? steps = none ↔ ∀ l, .layer l ∉ steps :=
    lastSet_eq_none fun step l => by cases step <;> simp [ImportStep.layer?]
  have hsupports : lastSet ImportStep.supports? steps = none ↔ ∀ s, .supports s ∉ steps :=
    lastSet_eq_none fun step s => by cases step <;> simp [ImportStep.supports?]
  have hmedia : lastSet ImportStep.media? steps = none ↔ ∀ m, .media m ∉ steps :=
    lastSet_eq_none fun step m => by cases step <;> simp [ImportStep.media?]
  rw [build_eq]
  exact ⟨rfl, rfl, rfl, rfl, Option.map_eq_none_iff.trans hlayer,
    Option.map_eq_none_iff.trans hsupports, Option.map_eq_none_iff.trans hmedia⟩

end ImportRule

end Stylesheet
