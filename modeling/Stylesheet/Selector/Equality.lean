import Stylesheet.Selector.Basic

/-! Equality of selectors, part by part. -/
namespace Stylesheet

mutual

/-- Filters of one kind with equal contents. -/
def Filter.beq : Filter → Filter → Bool
  | .id a, .id b => a == b
  | .class a, .class b => a == b
  | .attribute a, .attribute b => a == b
  | .pseudo a, .pseudo b => a.beq b
  | _, _ => false
termination_by structural x => x

/-- Pseudo-classes with selectors inside are equal when these are, in order. -/
def PseudoClass.beq : PseudoClass → PseudoClass → Bool
  | .keyword a, .keyword b => a == b
  | .not ⟨a, as⟩, .not ⟨b, bs⟩ => a.beq b && Selector.beqs as bs
  | .is ⟨a, as⟩, .is ⟨b, bs⟩ => a.beq b && Selector.beqs as bs
  | .whereAny ⟨a, as⟩, .whereAny ⟨b, bs⟩ => a.beq b && Selector.beqs as bs
  | .has ⟨a, as⟩, .has ⟨b, bs⟩ => a.beq b && RelativeSelector.beqs as bs
  | .nthChild m none, .nthChild n none => m == n
  | .nthChild m (some ⟨a, as⟩), .nthChild n (some ⟨b, bs⟩) =>
    m == n && a.beq b && Selector.beqs as bs
  | .nthLastChild m none, .nthLastChild n none => m == n
  | .nthLastChild m (some ⟨a, as⟩), .nthLastChild n (some ⟨b, bs⟩) =>
    m == n && a.beq b && Selector.beqs as bs
  | .nthOfType m, .nthOfType n => m == n
  | .nthLastOfType m, .nthLastOfType n => m == n
  | .lang a, .lang b => a == b
  | .dir a, .dir b => a == b
  | _, _ => false
termination_by structural x => x

/-- All three parts count, and the filters in order. -/
def Compound.beq : Compound → Compound → Bool
  | .mk s fs e, .mk t gs f => s == t && Filter.beqs fs gs && e == f
termination_by structural x => x

/-- The compounds and the combinators between them. -/
def Selector.beq : Selector → Selector → Bool
  | .compound a, .compound b => a.beq b
  | .combined s c a, .combined t d b => s.beq t && c == d && a.beq b
  | _, _ => false
termination_by structural x => x

def RelativeSelector.beq : RelativeSelector → RelativeSelector → Bool
  | .mk c a, .mk d b => c == d && a.beq b
termination_by structural x => x

def Filter.beqs : List Filter → List Filter → Bool
  | [], [] => true
  | a :: as, b :: bs => a.beq b && Filter.beqs as bs
  | _, _ => false
termination_by structural x => x

def Selector.beqs : List Selector → List Selector → Bool
  | [], [] => true
  | a :: as, b :: bs => a.beq b && Selector.beqs as bs
  | _, _ => false
termination_by structural x => x

def RelativeSelector.beqs : List RelativeSelector → List RelativeSelector → Bool
  | [], [] => true
  | a :: as, b :: bs => a.beq b && RelativeSelector.beqs as bs
  | _, _ => false
termination_by structural x => x

end

instance : BEq PseudoClass := ⟨PseudoClass.beq⟩

instance : BEq Compound := ⟨Compound.beq⟩

instance : BEq Selector := ⟨Selector.beq⟩

instance : BEq RelativeSelector := ⟨RelativeSelector.beq⟩

end Stylesheet
