import Stylesheet.Grid.Track
import Stylesheet.Proofs.Declaration.Leaf
import Stylesheet.Proofs.Functional.ItemList
import Stylesheet.Proofs.Name.Keyword
import Stylesheet.Proofs.Reading.Separated
import Stylesheet.Proofs.Writing.Append
import Stylesheet.Rule.Layer
import Stylesheet.Selector.Text

/-! Lists of names read back.

The parts of an element, the names of a grid line and the path of a layer are names with one
separator between them. No name has it outside of its escapes, so that the list comes apart
where it was joined, and what stands between two separators is one name. -/
namespace Stylesheet

/-! ### The readers -/

/-- The texts between the separators, each of them read as one name. -/
def splitNames? (separator : String) (t : List Char) : Option (List CustomIdent) :=
  (splitSeparated separator t).toList.mapM read?

/-- The names between the parentheses of `::part`, split at spaces. -/
def PseudoElement.partNames? (t : List Char) : Option (List CustomIdent) :=
  (readCall t).bind fun (name, t) => if name = "::part".toList then splitNames? " " t else none

/-- There may be no names between the brackets. -/
def TrackItem.lineNames? (t : List Char) : Option (List CustomIdent) :=
  (unwrap? '[' ']' t).bind fun t => if t = [] then some [] else splitNames? " " t

/-- The parts of the name of a layer, split at full stops. -/
def LayerName.path? (t : List Char) : Option (List CustomIdent) := splitNames? "." t

/-! ### Splitting -/

theorem splitSeparated_separated {α : Type} [ToCss α] {separator : String} {mark : Char}
    {items : List α} (hmark : separator.toList.head? = some mark) (hne : items ≠ [])
    (h : ∀ a ∈ items, IsItem mark (css a)) :
    (splitSeparated separator (separated separator items)).toList = items.map css := by
  obtain ⟨a, as, rfl⟩ := List.exists_cons_of_ne_nil hne
  have htexts : ∀ t ∈ (a :: as).map css, IsItem mark t := List.forall_mem_map.mpr h
  exact congrArg NonEmpty.toList (splitSeparated_joined hmark htexts)

/-- **A list of names splits into its names**, whatever characters they have. -/
theorem splitNames?_separated {separator : String} {mark : Char} {names : List CustomIdent}
    (hmark : separator.toList.head? = some mark) (hend : nameEnd mark) (hne : names ≠ []) :
    splitNames? separator (separated separator names) = some (names.map canonical) := by
  rw [splitNames?, splitSeparated_separated hmark hne fun n _ => n.isItem hend, mapM_read?_css]

theorem head?_ofList (c : Char) (cs : List Char) :
    (String.ofList (c :: cs)).toList.head? = some c := by
  rw [String.toList_ofList]
  rfl

/-! ### What shows of the names -/

/-- The names are read back from the text, and the text shows nothing else. -/
structure ShowsNames {α : Type} (names : α → List CustomIdent) (text : α → List Char)
    (names? : List Char → Option (List CustomIdent)) : Prop where
  read_eq (a : α) : names? (text a) = some ((names a).map .normal)
  text_eq_iff (a b : α) :
    text a = text b ↔ (names a).map CustomIdent.normal = (names b).map CustomIdent.normal

/-- What is around the list does not depend on the names. -/
theorem ShowsNames.of_frame {α : Type} {names : α → List CustomIdent} {text : α → List Char}
    {names? : List Char → Option (List CustomIdent)} (separator : String)
    (frame : List Char → List Char) (htext : ∀ a, text a = frame (separated separator (names a)))
    (hread : ∀ a, names? (text a) = some ((names a).map canonical)) :
    ShowsNames names text names? where
  read_eq := hread
  text_eq_iff a b := by
    constructor
    · intro h
      have hnames := hread a
      rw [h, hread b] at hnames
      exact (Option.some.inj hnames).symm
    · intro h
      rw [htext, htext, ← separated_canonical separator (names a),
        ← separated_canonical separator (names b)]
      exact congrArg (fun ns : List CustomIdent => frame (separated separator ns)) h

theorem PseudoElement.showsNames :
    ShowsNames NonEmpty.toList (fun names => css (part names)) partNames? := by
  refine .of_frame " " (call "::part") (fun _ => rfl) fun ⟨n, ns⟩ => ?_
  have hcall : readCall (css (part ⟨n, ns⟩)) = some ("::part".toList, separated " " (n :: ns)) :=
    readCall_ofList rfl
  rw [partNames?, hcall]
  exact splitNames?_separated (head?_ofList ..) (by decide) (List.cons_ne_nil n ns)

theorem TrackItem.showsNames : ShowsNames id (fun names => css (lineNames names)) lineNames? := by
  refine .of_frame " " (fun t => '[' :: t ++ [']']) (fun _ => rfl) fun names => ?_
  have hsquare : unwrap? '[' ']' (css (lineNames names)) = some (separated " " names) :=
    unwrap?_enclosed ..
  rw [lineNames?, hsquare, Option.bind_some]
  cases names with
  | nil => rfl
  | cons n ns =>
    rw [if_neg separated_ne_nil]
    exact splitNames?_separated (head?_ofList ..) (by decide) (List.cons_ne_nil n ns)

/-- A full stop in a name is escaped, so that it is no separator. -/
theorem LayerName.showsNames : ShowsNames (fun l : LayerName => l.path.toList) css path? :=
  .of_frame "." id (fun _ => rfl) fun ⟨⟨n, ns⟩⟩ =>
    splitNames?_separated (head?_ofList ..) (by decide) (List.cons_ne_nil n ns)

/-- **Separated lists come apart into their items.** What is written for a list is its items'
texts with the separator between them. Where every item leaves nothing open and does not have
the separator's first character outside, it is split into these texts again, in order. Names
are such items for a space and for a point, whatever they hold and even if they end in the
space of an escape. Hence parts, line names and layers give back their names, and two of a kind
are written alike only if they have the same names, but for the null character. -/
theorem separated_lists_split_back :
    (∀ {α : Type} [ToCss α] [Writes α] [WritesText α] (separator : String) (items : List α),
      (writeSeparated separator items).Appends (separated separator items)) ∧
    (∀ {α : Type} [ToCss α] {separator : String} {mark : Char} {items : List α},
      separator.toList.head? = some mark → items ≠ [] → (∀ a ∈ items, IsItem mark (css a)) →
      (splitSeparated separator (separated separator items)).toList = items.map css) ∧
    (∀ n : CustomIdent, IsItem ' ' (css n) ∧ IsItem '.' (css n)) ∧
    ShowsNames NonEmpty.toList (fun names => css (PseudoElement.part names))
      PseudoElement.partNames? ∧
    ShowsNames id (fun names => css (TrackItem.lineNames names)) TrackItem.lineNames? ∧
    ShowsNames (fun l : LayerName => l.path.toList) css LayerName.path? ∧
    ∀ m n : CustomIdent,
      m.normal = n.normal ↔ m.name.toList.map replaced = n.name.toList.map replaced :=
  ⟨fun _ _ => appends_separated, splitSeparated_separated,
    fun n => ⟨n.isItem (by decide), n.isItem (by decide)⟩, PseudoElement.showsNames,
    TrackItem.showsNames, LayerName.showsNames, fun _ _ => CustomIdent.normal_eq_iff⟩

/-- The space of an escape before the one that separates, and one inside of an address. -/
theorem separated_lists_split_back_spaces : ∃ items : List (CustomIdent ⊕ Url),
    separated " " items = "\\31  url(\"a b\") b".toList ∧
    (writeSeparated " " items).Appends (separated " " items) ∧
    " ".toList.head? = some ' ' ∧ items ≠ [] ∧ (∀ a ∈ items, IsItem ' ' (css a)) ∧
    (splitSeparated " " (separated " " items)).toList =
      ["\\31 ".toList, "url(\"a b\")".toList, "b".toList] := by
  let items : List (CustomIdent ⊕ Url) :=
    [.inl ⟨⟨"1", by decide⟩, by decide⟩, .inr ⟨"a b"⟩, .inl ⟨⟨"b", by decide⟩, by decide⟩]
  have hmark : " ".toList.head? = some ' ' := head?_ofList ..
  have hne : items ≠ [] := List.cons_ne_nil _ _
  have hitems : ∀ a ∈ items, IsItem ' ' (css a) := by decide +kernel
  obtain ⟨hwrite, hsplit, -⟩ := separated_lists_split_back
  exact ⟨items, by decide +kernel, hwrite " " items, hmark, hne, hitems,
    (hsplit hmark hne hitems).trans (by decide +kernel)⟩

end Stylesheet
