import Stylesheet.Proofs.Equality.Number
import Stylesheet.Proofs.Writing.Append
import Stylesheet.Writing.Value

/-! Quantities, colors and boxes are written as their texts. -/
namespace Stylesheet
open Writer

variable {α : Type}

/-! ### Numbers -/

/-- Both zeros are written as one digit, which the writer decides by comparing with zero. -/
theorem Binary32.digits_of_eq_zero {x : Binary32} (h : x == 0) : x.digits = ['0'] := by
  obtain ⟨-, -, hunits⟩ := Binary32.not_isNaN_of_eq h
  have hzero : (0 : Binary32).units = 0 := by decide
  have hmagnitude := natAbs_units x
  rw [hunits, hzero, Int.natAbs_zero] at hmagnitude
  rw [digits, if_pos hmagnitude.symm]

/-- Numbers without digits, alone or times one of the unit. -/
theorem appends_nonFinite {x : Binary32} {unit : Option String} :
    (writeNonFinite x unit).Appends
      (call "calc" (x.keyword ++ (unit.map fun u => " * 1".toList ++ u.toList).getD [])) :=
  .call (.seq .text (.option fun _ => .seq .word .word))

/-- The writer goes through the same three cases as the text: a number without digits, zero, and
digits. -/
theorem appends_number (x : Binary32) : (writeNumber x).Appends (numberText x) := by
  unfold writeNumber numberText
  cases x.isFinite with
  | false => exact appends_nonFinite.congr (by simp)
  | true =>
    show Appends (if x == 0 then writeChar '0' else writeText x.digits) x.digits
    split
    case isTrue h => exact Appends.char.congr (Binary32.digits_of_eq_zero h).symm
    case isFalse => exact .text

/-- The unit follows the digits, or stands inside of `calc`. -/
theorem appends_dimension (x : Binary32) (unit : String) :
    (writeDimension x unit).Appends (dimensionText x unit.toList) := by
  have hnumber := appends_number x
  unfold writeDimension dimensionText numberText at *
  cases hfinite : x.isFinite with
  | false => exact appends_nonFinite.congr (by simp)
  | true =>
    rw [hfinite] at hnumber
    exact hnumber.seq .word

instance : WritesText Binary32 := ⟨appends_number⟩

instance : WritesText Int := ⟨fun _ => .text⟩

instance : WritesText Nat := ⟨fun _ => .text⟩

instance {r : Range} : WritesText (Clamped r) := ⟨fun x => appends x.value⟩

instance : WritesText Percentage :=
  ⟨fun p => (appends_dimension p.value "%").congr (by rw [String.toList_ofList]; rfl)⟩

instance : WritesText ClampedPercentage := ⟨fun p => appends p.percentage⟩

instance {Unit : Type} [Keyword Unit] : WritesText (Dimension Unit) :=
  ⟨fun d => appends_dimension d.value (Keyword.keyword d.unit)⟩

instance : WritesText LengthPercentage where
  appends
    | .length l => appends l
    | .percentage p => appends p

instance [Signed α] [ToCss α] [Writes α] [WritesText α] : WritesText (NonNegative α) :=
  ⟨fun a => appends a.value⟩

/-! ### Paint -/

/-- The short form drops the first digit of every channel, by which the writer and the text tell
it alike. -/
theorem appends_hex (channels : List UInt8) :
    (writeHex channels).Appends (Color.hexText channels) := by
  unfold writeHex Color.hexText
  cases channels.all fun c => c / 16 == c % 16 with
  | false => exact .cons (.forM fun c _ => .cons .char)
  | true =>
    have hdigits : Appends (do writeChar '#'; channels.forM fun c => do
          writeIf false (writeChar (Nat.digitChar (c / 16).toNat))
          writeChar (Nat.digitChar (c % 16).toNat))
        ('#' :: channels.flatMap fun c => [Nat.digitChar (c % 16).toNat]) :=
      .cons (.forM fun c _ => .seq .done .char)
    exact hdigits.congr (congrArg _ List.map_eq_flatMap.symm)

instance : WritesText Hsl where
  appends c :=
    .call <| .assoc <| .assoc <| .assoc <| .assoc <|
      (appends c.hue).seq <| .seq .word <| (appends c.saturation).seq <| .seq .word <|
        (appends c.lightness).seq appends_clause

instance : WritesText Hwb where
  appends c :=
    .call <| .assoc <| .assoc <| (appends c.hue).seq <| .cons <| (appends c.whiteness).seq <|
      .cons <| (appends c.blackness).seq appends_clause

instance : WritesText Color where
  appends
    | .currentColor => .word
    | .transparent => .word
    | .named name => appends name
    | .system name => appends name
    | .hex r g b none => appends_hex [r, g, b]
    | .hex r g b (some a) => appends_hex [r, g, b, a]
    | .rgb .. => .call appends_commaSeparated
    | .rgba _ _ _ alpha =>
      .call <| .assoc <| appends_commaSeparated.seq <| .seq .word (appends alpha)
    | .hsl c => appends c
    | .hwb c => appends c

instance : WritesText ColorStop := ⟨fun s => (appends s.color).seq appends_clause⟩

instance : WritesText BackgroundSize where
  appends
    | .cover => .word
    | .contain => .word
    | .explicit width _ => (appends width).seq appends_clause

instance : WritesText TextShadow where
  appends s :=
    .assoc <| .assoc <| (appends s.x).seq <| .cons <| (appends s.y).seq <|
      appends_clause.seq appends_clause

instance : WritesText LinearGradient where
  appends g := by
    have harguments : Appends
        (do
          g.direction.forM fun direction => do
            write direction
            writeWord ", "
          writeCommaSeparated g.stops)
        (joined ", ".toList ((g.direction.map css).toList ++ g.stops.map css)) := by
      have hne : g.stops ≠ [] := List.ne_nil_of_length_pos (by have := g.two_le_length; omega)
      cases g.direction with
      | none => exact .seq .done appends_commaSeparated
      | some direction =>
        refine .congr (.seq (.seq (appends direction) .word) appends_commaSeparated) ?_
        obtain ⟨stop, stops, hstops⟩ := List.exists_cons_of_ne_nil hne
        rw [hstops]
        rfl
    have hname : (if g.repeating then "repeating-".toList else []) ++ "linear-gradient".toList =
        (if g.repeating then "repeating-linear-gradient" else "linear-gradient").toList := by
      cases g.repeating <;> rfl
    refine .congr (.seq (.onlyIf .word) (.call harguments)) ?_
    show _ = call _ _
    rw [call, call, ← hname]
    simp only [List.append_assoc]

instance : WritesText Image where
  appends
    | .none => .word
    | .url u => appends u
    | .gradient g => appends g

/-- A space, as what stands between the items of a list. -/
theorem appends_space : (writeChar ' ').Appends " ".toList :=
  Appends.char.congr String.toList_ofList.symm

/-- A spread without a blur has the blur written as zero. -/
theorem BoxShadow.appends_extent (s : BoxShadow) :
    (writeExtent s.blur s.spread).Appends (s.extent.flatMap fun l => " ".toList ++ css l) := by
  unfold extent
  obtain ⟨inset, x, y, blur, spread, color⟩ := s
  cases blur with
  | some blur =>
    cases spread with
    | some spread =>
      refine .congr (appends_space.seq ((appends blur).seq (.seq .word (appends spread)))) ?_
      simp only [List.flatMap_cons, List.flatMap_nil, List.append_nil, List.append_assoc]
      rfl
    | none =>
      exact .congr (appends_space.seq ((appends blur).seq .done)) (List.append_assoc ..).symm
  | none =>
    cases spread with
    | some spread =>
      refine .congr (appends_space.seq ((appends _).seq (appends_space.seq (appends spread)))) ?_
      simp only [List.flatMap_cons, List.flatMap_nil, List.append_nil, List.append_assoc]
    | none => exact .done

instance : WritesText BoxShadow where
  appends s := by
    refine .congr (.seq (.onlyIf .word) <| (appends s.x).seq <| appends_space.seq <|
      (appends s.y).seq <| s.appends_extent.seq appends_clause) ?_
    show _ = (if s.inset then "inset ".toList else []) ++
      separated " " (s.x :: s.y :: s.extent) ++ clause " " s.color
    simp only [separated, List.map_cons, joined_cons, List.flatMap_cons, List.flatMap_map,
      List.append_assoc]

/-! ### Boxes -/

instance : WritesText LineWidth where
  appends
    | .thin => .word
    | .medium => .word
    | .thick => .word
    | .length value => appends value

instance : WritesText Extent where
  appends
    | .size value => appends value
    | .minContent => .word
    | .maxContent => .word
    | .fitContent => .word
    | .fitContentUpTo limit => .call (appends limit)

instance : WritesText Position where
  appends
    | .keywords x y => (appends x).seq <| .cons (appends y)
    | .values x y => (appends x).seq <| .cons (appends y)
    | .offsets xSide x ySide y =>
      .assoc <| .assoc <| (appends xSide).seq <| .cons <| (appends x).seq <| .cons <|
        (appends ySide).seq <| .cons (appends y)

instance : WritesText Gaps := ⟨fun g => (appends g.row).seq appends_clause⟩

instance : WritesText BorderSpacing := ⟨fun s => (appends s.horizontal).seq appends_clause⟩

instance [ToCss α] [Writes α] [WritesText α] [BEq α] : WritesText (Sides α) where
  appends s := by
    show Appends (write s) (separated " " s.shortest)
    simp only [write, Sides.shortest]
    cases s.left == s.right with
    | false =>
      simp only [Bool.and_false, Bool.false_and, Bool.false_eq_true, if_false]
      exact .assoc <| (appends s.top).seq <| appends_space.seq <| .assoc <| (appends s.right).seq <|
        appends_space.seq <| .assoc <| (appends s.bottom).seq <| appends_space.seq (appends s.left)
    | true =>
      simp only [Bool.and_true, if_true]
      cases s.top == s.bottom with
      | false =>
        exact .assoc <| (appends s.top).seq <| appends_space.seq <| .assoc <|
          (appends s.right).seq <| appends_space.seq <| .congr ((appends s.bottom).seq .done)
            (List.append_nil _)
      | true =>
        cases s.top == s.right with
        | false =>
          exact .assoc <| (appends s.top).seq <| appends_space.seq <| .congr
            ((appends s.right).seq .done) (List.append_nil _)
        | true => exact .congr ((appends s.top).seq .done) (List.append_nil _)

end Stylesheet
