import Stylesheet.Keyword
import Stylesheet.Name.Identifier
import Stylesheet.NonEmpty
import Stylesheet.Quantity.NonNegative

/-! The tracks of a grid. -/
namespace Stylesheet

/-- How wide a single track is. -/
inductive TrackBreadth where
  | size (value : NonNegative LengthPercentage)
  /-- A share of the free space. -/
  | flex (share : NonNegative Binary32)
  | minContent
  | maxContent
  | auto
  deriving BEq

namespace TrackBreadth

/-- A share of nothing is a share, a negative one is not. -/
def ofShare (share : Binary32) : Result TrackBreadth := return flex (← NonNegative.of share)

instance : ToCss TrackBreadth where
  css
    | size value => css value
    | flex share => dimensionText share.value "fr".toList
    | minContent => "min-content".toList
    | maxContent => "max-content".toList
    | auto => "auto".toList

end TrackBreadth

/-- How wide a track may get. -/
inductive TrackSize where
  | breadth (b : TrackBreadth)
  | between (least most : TrackBreadth)
  | fitContent (limit : NonNegative LengthPercentage)
  deriving BEq

namespace TrackSize

/-- The same for a track. -/
def ofShare (share : Binary32) : Result TrackSize := return breadth (← TrackBreadth.ofShare share)

instance : ToCss TrackSize where
  css
    | breadth b => css b
    | between least most => call "minmax" (commaSeparated [least, most])
    | fitContent limit => call "fit-content" (css limit)

end TrackSize

/-- How often tracks recur: a number of times, or as often as they fit. -/
inductive RepeatCount where
  | times (n : Nat)
  | autoFill
  | autoFit
  deriving DecidableEq

instance : ToCss RepeatCount where
  css
    | .times n => css n
    | .autoFill => "auto-fill".toList
    | .autoFit => "auto-fit".toList

/-- Tracks that recur, at least once. -/
structure Repeat where
  count : RepeatCount
  tracks : NonEmpty TrackSize
  count_ne : count ≠ .times 0

namespace Repeat

/-- Both the count and the tracks have to be something. The count is looked at first. -/
def of (count : RepeatCount) (tracks : List TrackSize) : Result Repeat :=
  if h : count = .times 0 then .error (.tooSmall "repeat() count" 0 1)
  else return ⟨count, ← NonEmpty.ofList "repeat() tracks" tracks, h⟩

instance : BEq Repeat := ⟨fun a b => a.count == b.count && a.tracks == b.tracks⟩

instance : ToCss Repeat where
  css r := call "repeat" (css r.count ++ ", ".toList ++ separated " " r.tracks.toList)

end Repeat

/-- An item of a list of tracks. -/
inductive TrackItem where
  | track (size : TrackSize)
  /-- Names for the line at this place. -/
  | lineNames (names : List CustomIdent)
  | repeated (tracks : Repeat)
  deriving BEq

namespace TrackItem

/-- Tracks that recur, as an item. -/
def repeating (count : RepeatCount) (tracks : List TrackSize) : Result TrackItem :=
  return repeated (← Repeat.of count tracks)

instance : ToCss TrackItem where
  css
    | track size => css size
    | lineNames names => '[' :: separated " " names ++ [']']
    | repeated tracks => css tracks

end TrackItem

/-- The tracks of one axis. An empty list is `none`. -/
abbrev TrackList := ListOrNone " " TrackItem

/-- Columns that share the space equally. -/
def TrackList.equal (count : Nat) : Result TrackList :=
  return ⟨[← TrackItem.repeating (.times count) [← TrackSize.ofShare 1]]⟩

end Stylesheet
