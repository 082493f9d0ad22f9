import Stylesheet.Proofs.Name.Listing

/-! Lists of tracks read back.

A breadth is a quantity or a word, and the unit of a share is no unit of length. The sizes
that are functions are told by their names, a group of line names by its bracket. The tracks
that recur stand behind the last outer comma and are cut like a list of their own. -/
namespace Stylesheet

/-! ### Breadths -/

namespace TrackBreadth

/-- The breadths that are keywords. -/
def words : List TrackBreadth := [minContent, maxContent, auto]

/-- The unit of a share of the space. -/
def ofMeasure? (m : Binary32 × List Char) : Option TrackBreadth :=
  if m.2 = "fr".toList then (NonNegative.of m.1).toOption.map flex else none

def ofText? (t : List Char) : Option TrackBreadth :=
  if isQuantity t then ((read? t).map size).or ((readMeasure t).bind ofMeasure?)
  else words.find? (css · == t)

/-- The same breadth with its number in canonical form. -/
def normal : TrackBreadth → TrackBreadth
  | size value => size (canonical value)
  | flex share => flex (canonical share)
  | b => b

theorem readMeasure_share (x : Binary32) :
    readMeasure (dimensionText x "fr".toList) = some (x.canonical, "fr".toList) :=
  readMeasure_dimensionText x (all_toList rfl)

/-- No length has the unit of a share, and no percentage has any. -/
theorem read?_share (x : Binary32) :
    (read? (dimensionText x "fr".toList) : Option (NonNegative LengthPercentage)) = none := by
  have hpercent : '%' ∉ dimensionText x "fr".toList :=
    not_mem_dimensionText x (all_toList rfl) rfl rfl rfl rfl
  have hlength : (read? (dimensionText x "fr".toList) : Option Length) = none := by
    show (readMeasure _).bind Dimension.ofMeasure? = none
    rw [readMeasure_share]
    rfl
  have hread : (read? (dimensionText x "fr".toList) : Option LengthPercentage) = none := by
    refine (if_neg hpercent).trans ?_
    rw [hlength]
    rfl
  show (read? (dimensionText x "fr".toList)).bind _ = none
  rw [hread]
  rfl

/-- A breadth reads back as its canonical form. -/
theorem ofText?_css (b : TrackBreadth) : ofText? (css b) = some b.normal := by
  cases b with
  | size value =>
    have hquantity : isQuantity (css value) := Quantity.isQuantity_css value
    show (if isQuantity (css value) then ((read? (css value)).map size).or _ else _) = _
    rw [if_pos hquantity, read?_css]
    rfl
  | flex share =>
    have htext : css (flex share) = dimensionText share.value "fr".toList := rfl
    rw [htext, ofText?, if_pos (isQuantity_dimensionText ..), read?_share, readMeasure_share]
    exact congrArg (fun n : Result (NonNegative Binary32) => n.toOption.map flex)
      (dif_pos (canonical share).not_negative)
  | minContent | maxContent | auto => rfl

/-- The canonical form has the same text. -/
theorem css_normal (b : TrackBreadth) : css b.normal = css b := by
  cases b with
  | size value => exact css_canonical value
  | flex share => exact Binary32.dimensionText_canonical ..
  | minContent | maxContent | auto => rfl

instance : Readable TrackBreadth := ⟨ofText?, normal, ofText?_css, css_normal⟩

instance : Argument TrackBreadth where
  isArgument
    | size value => isArgument value
    | flex _ => Binary32.isArgument_dimensionText (.of_isNameChar (all_toList rfl))
    | minContent | maxContent | auto => .of_isNameChar (all_toList rfl)

end TrackBreadth

/-! ### Sizes -/

namespace TrackSize

/-- The two functions that a size may be. -/
def ofCall? (name t : List Char) : Option TrackSize :=
  if name = "minmax".toList then
    match cutArguments t with
    | [least, most] => return between (← read? least) (← read? most)
    | _ => none
  else if name = "fit-content".toList then (read? t).map fitContent
  else none

def ofText? (t : List Char) : Option TrackSize :=
  ((read? t).map breadth).or ((readCall t).bind fun (name, t) => ofCall? name t)

/-- The same size with its numbers in canonical form. -/
def normal : TrackSize → TrackSize
  | breadth b => breadth (canonical b)
  | between least most => between (canonical least) (canonical most)
  | fitContent limit => fitContent (canonical limit)

theorem ofText?_css (s : TrackSize) : ofText? (css s) = some s.normal := by
  cases s with
  | breadth b =>
    show ((read? (css b)).map breadth).or _ = _
    rw [read?_css]
    rfl
  | between least most =>
    have hbreadth : (read? (css (between least most)) : Option TrackBreadth) = none := rfl
    have hcall : readCall (css (between least most)) =
        some ("minmax".toList, commaSeparated [least, most]) := readCall_ofList rfl
    rw [ofText?, hbreadth, hcall]
    show (match cutArguments (commaSeparated [least, most]) with
      | [least, most] => return between (← read? least) (← read? most)
      | _ => none) = _
    rw [cutArguments_commaSeparated]
    simp only [List.map_cons, List.map_nil, read?_css]
    rfl
  | fitContent limit =>
    have hbreadth : (read? (css (fitContent limit)) : Option TrackBreadth) = none := rfl
    have hcall : readCall (css (fitContent limit)) = some ("fit-content".toList, css limit) :=
      readCall_ofList rfl
    rw [ofText?, hbreadth, hcall]
    show (read? (css limit)).map fitContent = _
    rw [read?_css]
    rfl

theorem css_normal (s : TrackSize) : css s.normal = css s := by
  cases s with
  | breadth b => exact css_canonical b
  | between least most => exact congrArg (call "minmax") (separated_canonical ", " [least, most])
  | fitContent limit => exact congrArg (call "fit-content") (css_canonical limit)

instance : Readable TrackSize := ⟨ofText?, normal, ofText?_css, css_normal⟩

instance : Argument TrackSize where
  isArgument
    | breadth b => isArgument b
    | between least most => .call rfl (nested_separated [least, most])
    | fitContent limit => by
      have hlimit : Nested wordChar (css limit) := nested limit
      exact .call rfl hlimit.any

end TrackSize

/-! ### Repetition -/

namespace RepeatCount

def words : List RepeatCount := [autoFill, autoFit]

def ofText? (t : List Char) : Option RepeatCount :=
  ((read? t).map times).or (words.find? (css · == t))

instance : Readable RepeatCount where
  read? := ofText?
  canonical := id
  read?_css c := by
    cases c with
    | times n =>
      show ((read? (css n)).map times).or _ = _
      rw [read?_css]
      rfl
    | autoFill | autoFit => decide
  css_canonical _ := rfl

instance : Argument RepeatCount where
  isArgument
    | times n => isArgument n
    | autoFill | autoFit => .of_isNameChar (all_toList rfl)

end RepeatCount

namespace Repeat

/-- A count before the comma and the tracks behind it. -/
def ofArguments? : List (List Char) → Option Repeat
  | [count, tracks] => do
    let count ← read? count
    let tracks ← (cutAt ' ' tracks).toList.mapM read?
    (Repeat.of count tracks).toOption
  | _ => none

def ofText? (t : List Char) : Option Repeat :=
  (readCall t).bind fun (name, t) =>
    if name = "repeat".toList then ofArguments? (cutArguments t) else none

/-- The same repetition with the numbers of its tracks in canonical form. -/
def normal (r : Repeat) : Repeat where
  count := r.count
  tracks := ⟨canonical r.tracks.first, r.tracks.rest.map canonical⟩
  count_ne := r.count_ne

/-- The canonical form can be made as the repetition was. -/
theorem of_normal (r : Repeat) : Repeat.of r.count (r.tracks.toList.map canonical) = .ok r.normal :=
  dif_neg r.count_ne

/-- The tracks have no comma among them, but for those in parentheses. -/
theorem passes_tracks (tracks : List TrackSize) :
    Scan.Passes (· == ',') .start (separated " " tracks) .start := by
  have hspace : " ".toList = [' '] := String.toList_ofList
  rw [separated, hspace]
  exact Scan.passes_space.joined (List.forall_mem_map.mpr fun s _ => (isArgument s).passes rfl)

/-- The commas of the tracks are inside of their brackets. -/
theorem cutArguments_css (r : Repeat) :
    cutArguments (css r.count ++ ", ".toList ++ separated " " r.tracks.toList) =
      [css r.count, separated " " r.tracks.toList] := by
  have hcomma : ", ".toList = [',', ' '] := String.toList_ofList
  have hpasses : ∀ t ∈ [css r.count, separated " " r.tracks.toList],
      Scan.Passes (· == ',') .start t .start := by
    simp only [List.forall_mem_cons]
    exact ⟨(isArgument r.count).passes rfl, passes_tracks _, List.forall_mem_nil _⟩
  rw [hcomma]
  exact cutArguments_joined hpasses

/-- **A repetition reads back**, since its tracks are cut apart first. -/
theorem ofText?_css (r : Repeat) : ofText? (css r) = some r.normal := by
  have hcall : readCall (css r) = some ("repeat".toList, _) := readCall_ofList rfl
  have hcut : (cutAt ' ' (separated " " r.tracks.toList)).toList = r.tracks.toList.map css :=
    cutAt_separated r.tracks.first r.tracks.rest
  rw [ofText?, hcall]
  show ofArguments? (cutArguments _) = _
  rw [cutArguments_css, ofArguments?, read?_css, hcut, mapM_read?_css]
  exact congrArg Except.toOption r.of_normal

theorem css_normal (r : Repeat) : css r.normal = css r := by
  have htracks := separated_canonical " " r.tracks.toList
  exact congrArg (fun t => call "repeat" (css r.count ++ ", ".toList ++ t)) htracks

instance : Readable Repeat := ⟨ofText?, normal, ofText?_css, css_normal⟩

instance : Argument Repeat where
  isArgument r :=
    .call rfl (((nested r.count).append .word).append (nested_separated r.tracks.toList))

end Repeat

/-! ### Items -/

namespace TrackItem

def ofText? (t : List Char) : Option TrackItem :=
  ((lineNames? t).map lineNames).or (((read? t).map track).or ((read? t).map repeated))

/-- The same item with its numbers in canonical form, and its names as they read back. -/
def normal : TrackItem → TrackItem
  | track size => track (canonical size)
  | lineNames names => lineNames (names.map canonical)
  | repeated tracks => repeated (canonical tracks)

/-- Only a list of names begins with a square bracket. -/
theorem lineNames?_eq_none {t : List Char} (h : t.head? ≠ some '[') : lineNames? t = none := by
  rw [lineNames?, unwrap?_eq_none h]
  rfl

theorem lineNames?_of_isQuantity {t : List Char} (h : isQuantity t) : lineNames? t = none := by
  refine lineNames?_eq_none fun hhead => ?_
  obtain ⟨u, rfl⟩ := List.head?_eq_some_iff.mp hhead
  exact nomatch h

/-- No size begins with a square bracket. -/
theorem lineNames?_size (s : TrackSize) : lineNames? (css s) = none := by
  cases s with
  | breadth b =>
    cases b with
    | size value => exact lineNames?_of_isQuantity (Quantity.isQuantity_css value)
    | flex share => exact lineNames?_of_isQuantity (isQuantity_dimensionText ..)
    | minContent | maxContent | auto => rfl
  | between | fitContent => rfl

/-- No size has the name of a repetition. -/
theorem read?_repeat (r : Repeat) : (read? (css r) : Option TrackSize) = none := by
  have hbreadth : (read? (css r) : Option TrackBreadth) = none := rfl
  have hcall : readCall (css r) = some ("repeat".toList, _) := readCall_ofList rfl
  show TrackSize.ofText? (css r) = none
  rw [TrackSize.ofText?, hbreadth, hcall]
  rfl

/-- **An item of the list reads back**: names, a size, or a repetition, in that order of trying. -/
theorem ofText?_css (i : TrackItem) : ofText? (css i) = some i.normal := by
  cases i with
  | track size =>
    have htext : css (track size) = css size := rfl
    rw [ofText?, htext, lineNames?_size, read?_css]
    rfl
  | lineNames names =>
    have hnames : lineNames? (css (lineNames names)) = some (names.map canonical) :=
      showsNames.read_eq names
    rw [ofText?, hnames]
    rfl
  | repeated tracks =>
    have htext : css (repeated tracks) = css tracks := rfl
    have hnames : lineNames? (css tracks) = none := lineNames?_eq_none nofun
    rw [ofText?, htext, hnames, read?_repeat, read?_css]
    rfl

theorem css_normal (i : TrackItem) : css i.normal = css i := by
  cases i with
  | track size => exact css_canonical size
  | lineNames names => exact congrArg (fun t => '[' :: t ++ [']']) (separated_canonical " " names)
  | repeated tracks => exact css_canonical tracks

instance : Readable TrackItem := ⟨ofText?, normal, ofText?_css, css_normal⟩

/-- The spaces behind escapes are inside of the brackets, like those between the names. -/
instance : ListItem TrackItem where
  isArgument
    | track size => isArgument size
    | lineNames names => by
      have hnames : Nested phraseChar (separated " " names) := nested_separated names
      have hinner : Scan.Passes argumentEnd ⟨.bare, [.square]⟩ (separated " " names)
          ⟨.bare, [.square]⟩ := hnames.passes nofun
      exact .opening .square (fun _ => rfl) (hinner.append (.closing .square (fun _ => rfl) .nil))
    | repeated tracks => isArgument tracks
  read?_none := rfl

end TrackItem
end Stylesheet
