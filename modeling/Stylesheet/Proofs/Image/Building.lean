import Stylesheet.Proofs.Image.Gradient
import Stylesheet.Proofs.Minimum.Values

/-! Linear gradients read back, whatever calls make them.

A run of calls leaves the stops that it began with, the direction that was set last, and
whether the gradient is to repeat. What is written falls apart at its outer commas into these,
and each part of it shows what it is. -/
namespace Stylesheet
namespace LinearGradient

/-! ### Parts -/

/-- Gradients are equal up to how numbers are written exactly when their parts are. -/
theorem canonicalNumbers_eq_iff {g g' : LinearGradient} :
    g.canonicalNumbers = g'.canonicalNumbers ↔ g.repeating = g'.repeating ∧
      g.direction.map canonical = g'.direction.map canonical ∧
      g.stops.map canonical = g'.stops.map canonical := by
  simp only [canonicalNumbers, mk.injEq]

/-- The arguments are cut at the commas, and each but the first has a space in front. -/
theorem exists_cutAt (g : LinearGradient) : ∃ first rest, g.arguments = first :: rest ∧
    cutAt ',' (joined [',', ' '] g.arguments) = ⟨first, rest.map (' ' :: ·)⟩ := by
  have hpasses := g.passes_arguments
  obtain ⟨first, rest, h⟩ := List.exists_cons_of_ne_nil g.arguments_ne_nil
  rw [h] at hpasses
  exact ⟨first, rest, h, h ▸ cutAt_commas hpasses⟩

/-- The arguments of a gradient, and what each of them shows. -/
structure ReadsBack (g : LinearGradient) : Prop where
  cut_eq : ∃ text first rest, css g = function g.repeating ++ '(' :: (text ++ [')']) ∧
    (g.direction.map css).toList ++ g.stops.map css = first :: rest ∧
    cutAt ',' text = ⟨first, rest.map (' ' :: ·)⟩
  isDirection : ∀ d ∈ g.direction, isDirection (css d) ∧ read? (css d) = some (canonical d)
  isStop : ∀ s ∈ g.stops, Stylesheet.isDirection (css s) = false ∧
    (cutAt ' ' (css s)).toList = css s.color :: (s.position.map css).toList ∧
    read? (css s) = some (⟨canonical s.color, s.position.map canonical⟩ : ColorStop)
  read_eq : ofText? (css g) = some g.canonicalNumbers

theorem readsBack (g : LinearGradient) : g.ReadsBack where
  cut_eq := by
    obtain ⟨first, rest, hfirst, hcut⟩ := g.exists_cutAt
    exact ⟨_, first, rest, g.css_eq_call.trans (call_ofList ..), hfirst, hcut⟩
  isDirection d _ := ⟨isDirection_css d, read?_css d⟩
  isStop s _ := ⟨not_isDirection_css s, s.cutAt_css, read?_css s⟩
  read_eq := g.ofText?_css

/-- **Gradients read back.** Any calls that begin with two stops or more make a gradient of
these stops, with the direction that is set last; with fewer they fail. Its arguments come
apart at the outer commas, a direction is told from a stop and a color from its position, and
two gradients are written alike only if they have the same parts, but for the sign of zero
and the payload of NaN. -/
theorem Calls.gradients_read_back :
    (∀ (a : Calls) (h : 2 ≤ a.stops.length), a.run = .ok ⟨a.repeating, a.direction, a.stops, h⟩) ∧
    (∀ a : Calls, ¬2 ≤ a.stops.length →
      a.run = .error (.tooSmall "linear-gradient() color stops" a.stops.length 2)) ∧
    (∀ (a : Calls) (g : LinearGradient), a.run = .ok g → g.ReadsBack) ∧
    (∀ g g' : LinearGradient, css g = css g' ↔ g.repeating = g'.repeating ∧
      g.direction.map canonical = g'.direction.map canonical ∧
      g.stops.map canonical = g'.stops.map canonical) ∧
    ∀ x y : Binary32, x.canonical = y.canonical ↔ x.eq y ∨ x.isNaN ∧ y.isNaN :=
  ⟨fun _ => Calls.run_eq_ok, fun _ => Calls.run_eq_error, fun _ g _ => g.readsBack,
    fun _ _ => canonical_inj.symm.trans canonicalNumbers_eq_iff, Binary32.canonical_eq_iff⟩

/-- A formula as the direction, a color with commas, and no second stop to begin with. -/
theorem Calls.gradients_read_back_formula : ∃ (a single : Calls) (g : LinearGradient)
    (d : GradientDirection) (s : ColorStop), a.run = .ok g ∧
    css g = "repeating-linear-gradient(calc(NaN * 1deg), rgb(0, 0, 0) 75%, transparent)".toList ∧
    d ∈ g.direction ∧ isDirection (css d) ∧ s ∈ g.stops ∧ isDirection (css s) = false ∧
    (cutAt ' ' (css s)).toList = ["rgb(0, 0, 0)".toList, "75%".toList] ∧
    ofText? (css g) = some g.canonicalNumbers ∧ single.run =
      .error (.tooSmall "linear-gradient() color stops" 1 2) := by
  let black : ColorStop := (ColorStop.of (.rgb 0 0 0)).positioned (.percentage ⟨⟨0x42960000⟩⟩)
  let clear : ColorStop := .of .transparent
  let turn : GradientDirection := .inl ⟨⟨0x7fc00000⟩, .deg⟩
  let a : Calls := ((of [black, clear]).toward turn).repeated
  obtain ⟨hok, herror, hreads, -⟩ := gradients_read_back
  have hrun := hok a (Nat.le_refl 2)
  have hread := hreads a _ hrun
  have hturn := hread.isDirection turn rfl
  have hblack := hread.isStop black (List.mem_cons_self ..)
  exact ⟨a, of [black], _, turn, black, hrun, by decide +kernel, rfl, hturn.1,
    List.mem_cons_self .., hblack.1, hblack.2.1.trans (by decide +kernel), hread.read_eq,
    herror (of [black]) (by decide)⟩

end LinearGradient
end Stylesheet
