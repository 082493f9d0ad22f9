import Stylesheet.Motion.Transform
import Stylesheet.Proofs.Functional.Track

/-! Lists of transformations read back.

A transformation is the name of a function and its arguments, and no two functions have the
same name. What its arguments are follows from the name; the second of two may be missing. -/
namespace Stylesheet

/-! ### Names -/

/-- The functions by which a box is transformed. -/
inductive TransformName where
  | translate | translateX | translateY | scale | scaleX | scaleY | rotate | skew | skewX | skewY
  | matrix | perspective
  deriving DecidableEq

instance : Keyword TransformName where
  all := [.translate, .translateX, .translateY, .scale, .scaleX, .scaleY, .rotate, .skew, .skewX,
    .skewY, .matrix, .perspective]
  keyword
    | .translate => "translate"
    | .translateX => "translateX"
    | .translateY => "translateY"
    | .scale => "scale"
    | .scaleX => "scaleX"
    | .scaleY => "scaleY"
    | .rotate => "rotate"
    | .skew => "skew"
    | .skewX => "skewX"
    | .skewY => "skewY"
    | .matrix => "matrix"
    | .perspective => "perspective"

instance : LawfulKeyword TransformName := ⟨fun n => by cases n <;> rfl⟩

/-- The names are words. -/
theorem TransformName.all_isNameChar (n : TransformName) : (css n).all isNameChar := by
  cases n <;> exact all_toList rfl

/-! ### Functions -/

namespace TransformFunction

/-- The name that a function is written with. -/
def name : TransformFunction → TransformName
  | translate .. => .translate
  | translateX _ => .translateX
  | translateY _ => .translateY
  | scale .. => .scale
  | scaleX _ => .scaleX
  | scaleY _ => .scaleY
  | rotate _ => .rotate
  | skew .. => .skew
  | skewX _ => .skewX
  | skewY _ => .skewY
  | matrix .. => .matrix
  | perspective _ => .perspective

/-- The texts of its arguments, of which there is at least one. -/
def arguments : TransformFunction → NonEmpty (List Char)
  | translate x y => ⟨css x, (y.map css).toList⟩
  | scale x y => ⟨css x, (y.map css).toList⟩
  | skew x y => ⟨css x, (y.map css).toList⟩
  | matrix a b c d e f => ⟨css a, [b, c, d, e, f].map css⟩
  | translateX x | translateY x => ⟨css x, []⟩
  | scaleX x | scaleY x => ⟨css x, []⟩
  | rotate x | skewX x | skewY x => ⟨css x, []⟩
  | perspective distance => ⟨css distance, []⟩

/-- Each name takes as many arguments as its function has. Three of them take one or two. -/
def ofArguments? : TransformName → List (List Char) → Option TransformFunction
  | .translate, x :: y => return translate (← read? x) (← atMostOne? y)
  | .translateX, [x] => translateX <$> read? x
  | .translateY, [y] => translateY <$> read? y
  | .scale, x :: y => return scale (← read? x) (← atMostOne? y)
  | .scaleX, [x] => scaleX <$> read? x
  | .scaleY, [y] => scaleY <$> read? y
  | .rotate, [angle] => rotate <$> read? angle
  | .skew, x :: y => return skew (← read? x) (← atMostOne? y)
  | .skewX, [x] => skewX <$> read? x
  | .skewY, [y] => skewY <$> read? y
  | .matrix, [a, b, c, d, e, f] =>
    return matrix (← read? a) (← read? b) (← read? c) (← read? d) (← read? e) (← read? f)
  | .perspective, [distance] => perspective <$> read? distance
  | _, _ => none

/-- A call with one of these names. -/
def ofText? (t : List Char) : Option TransformFunction :=
  (readCall t).bind fun (name, t) =>
    (Reader.spelled? TransformName name).bind fun name => ofArguments? name (cutArguments t)

/-- The same function with every number in canonical form. -/
def normal : TransformFunction → TransformFunction
  | translate x y => translate (canonical x) (y.map canonical)
  | translateX x => translateX (canonical x)
  | translateY y => translateY (canonical y)
  | scale x y => scale (canonical x) (y.map canonical)
  | scaleX x => scaleX (canonical x)
  | scaleY y => scaleY (canonical y)
  | rotate angle => rotate (canonical angle)
  | skew x y => skew (canonical x) (y.map canonical)
  | skewX x => skewX (canonical x)
  | skewY y => skewY (canonical y)
  | matrix a b c d e f =>
    matrix (canonical a) (canonical b) (canonical c) (canonical d) (canonical e) (canonical f)
  | perspective distance => perspective (canonical distance)

theorem joined_clause {α : Type} [ToCss α] (t : List Char) (a : Option α) :
    joined ", ".toList (t :: (a.map css).toList) = t ++ clause ", " a := by
  cases a with
  | none => exact (List.append_nil t).symm
  | some a => exact List.append_assoc ..

/-- **Every function is its name and its arguments.** -/
theorem css_eq_call (f : TransformFunction) :
    css f = call (String.ofList (css f.name)) (joined ", ".toList f.arguments.toList) := by
  have hname : String.ofList (css f.name) = Keyword.keyword f.name := String.ofList_toList
  rw [hname]
  cases f with
  | translate x y => exact congrArg (call "translate") (joined_clause (css x) y).symm
  | scale x y => exact congrArg (call "scale") (joined_clause (css x) y).symm
  | skew x y => exact congrArg (call "skew") (joined_clause (css x) y).symm
  | _ => rfl

theorem isArgument_arguments (f : TransformFunction) : ∀ t ∈ f.arguments.toList, IsArgument t := by
  have hpair {α : Type} [ToCss α] [Argument α] (x : α) (y : Option α) :
      ∀ t ∈ css x :: (y.map css).toList, IsArgument t := by
    refine List.forall_mem_cons.mpr ⟨isArgument x, ?_⟩
    cases y with
    | none => exact List.forall_mem_nil _
    | some y => exact List.forall_mem_singleton.mpr (isArgument y)
  cases f with
  | translate x y => exact hpair x y
  | scale x y => exact hpair x y
  | skew x y => exact hpair x y
  | matrix a b c d e f =>
    have hall : ∀ t ∈ [a, b, c, d, e, f].map css, IsArgument t :=
      List.forall_mem_map.mpr fun x _ => isArgument x
    exact hall
  | _ => exact List.forall_mem_singleton.mpr (isArgument _)

/-- The arguments read back, each as its canonical form. -/
theorem ofArguments?_arguments (f : TransformFunction) :
    ofArguments? f.name f.arguments.toList = some f.normal := by
  cases f <;>
    simp only [name, arguments, NonEmpty.toList, List.map_cons, List.map_nil, ofArguments?,
      read?_css, atMostOne?_css] <;> rfl

/-- A function reads back as its canonical form. -/
theorem ofText?_css (f : TransformFunction) : ofText? (css f) = some f.normal := by
  have harguments : cutArguments (joined ", ".toList f.arguments.toList) = f.arguments.toList :=
    cutArguments_joined fun t ht => (f.isArgument_arguments t ht).passes rfl
  rw [ofText?, css_eq_call, readCall_ofList (all_ne_round f.name.all_isNameChar)]
  show (Reader.spelled? TransformName (css f.name)).bind _ = _
  rw [spelled?_css, Option.bind_some, harguments, ofArguments?_arguments]

/-- The canonical form has the same arguments. -/
theorem arguments_normal (f : TransformFunction) : f.normal.arguments = f.arguments := by
  cases f <;> simp only [normal, arguments, css_canonical, optional_css_canonical, List.map_cons]

theorem css_normal (f : TransformFunction) : css f.normal = css f := by
  have hname : f.normal.name = f.name := by cases f <;> rfl
  rw [css_eq_call, css_eq_call, hname, arguments_normal]

instance : Readable TransformFunction := ⟨ofText?, normal, ofText?_css, css_normal⟩

/-- Its arguments are closed, so that they may stand between the brackets. -/
instance : ListItem TransformFunction where
  isArgument f := by
    have hclosed : ∀ t ∈ f.arguments.toList, Nested anyChar t := fun t ht => by
      have hnested : Nested anyChar (t ++ []) :=
        .closed (fun _ => rfl) (f.isArgument_arguments t ht).run_eq .nil
      rwa [List.append_nil] at hnested
    rw [css_eq_call]
    exact .call f.name.all_isNameChar (.joined .word hclosed)
  read?_none := rfl

end TransformFunction

/-! ### Both lists -/

/-- What the text of a list shows of its items. -/
structure ListOrNone.ReadsBack {α : Type} [ToCss α] [Readable α] [ListItem α]
    (l : ListOrNone " " α) : Prop where
  none_iff : css l = "none".toList ↔ l.items = []
  cut_eq : l.items ≠ [] → (cutAt ' ' (css l)).toList = l.items.map css
  read_eq : read? (css l) = some (⟨l.items.map canonical⟩ : ListOrNone " " α)

/-- Both kinds of lists, by what their items are. -/
theorem ListOrNone.readsBack {α : Type} [ToCss α] [Readable α] [ListItem α]
    (l : ListOrNone " " α) : l.ReadsBack :=
  ⟨css_eq_none_iff, cutAt_css, read?_css l⟩

/-- **Tracks and transformations read back item by item.** A list is `none` when it is empty,
and otherwise falls into its items at the outer spaces. Lists are written alike only if they
have the same items, but for the sign of zero, the payload of NaN, and the null character in
names, which is written as its replacement. -/
theorem tracks_and_transforms_read_back :
    (∀ l : TrackList, l.ReadsBack) ∧
    (∀ l l' : TrackList, css l = css l' ↔
      l.items.map TrackItem.normal = l'.items.map TrackItem.normal) ∧
    (∀ l : TransformList, l.ReadsBack) ∧
    (∀ l l' : TransformList, css l = css l' ↔
      l.items.map TransformFunction.normal = l'.items.map TransformFunction.normal) ∧
    (∀ x y : Binary32, x.canonical = y.canonical ↔ x.eq y ∨ x.isNaN ∧ y.isNaN) ∧
    ∀ m n : CustomIdent,
      m.normal = n.normal ↔ m.name.toList.map replaced = n.name.toList.map replaced :=
  ⟨ListOrNone.readsBack, fun _ _ => ListOrNone.css_eq_iff, ListOrNone.readsBack,
    fun _ _ => ListOrNone.css_eq_iff, Binary32.canonical_eq_iff,
    fun _ _ => CustomIdent.normal_eq_iff⟩

/-- A name with a space behind its escape, and a function among the arguments of another. -/
theorem tracks_and_transforms_read_back_escape : ∃ l : TrackList,
    css l = "[\\31 ] repeat(auto-fill, minmax(100px, 1fr))".toList ∧ l.items ≠ [] ∧
    (cutAt ' ' (css l)).toList =
      ["[\\31 ]".toList, "repeat(auto-fill, minmax(100px, 1fr))".toList] ∧
    read? (css l) = some (⟨l.items.map canonical⟩ : TrackList) := by
  let one : CustomIdent := ⟨⟨"1", by decide⟩, by decide⟩
  let least : TrackBreadth := .size ⟨.length ⟨⟨0x42c80000⟩, .px⟩, by decide⟩
  let most : TrackBreadth := .flex ⟨⟨0x3f800000⟩, by decide⟩
  let l : TrackList :=
    ⟨[.lineNames [one], .repeated ⟨.autoFill, ⟨.between least most, []⟩, nofun⟩]⟩
  have hne : l.items ≠ [] := nofun
  obtain ⟨htracks, -⟩ := tracks_and_transforms_read_back
  have hread := htracks l
  exact ⟨l, by decide +kernel, hne, (hread.cut_eq hne).trans (by decide +kernel), hread.read_eq⟩

end Stylesheet
