import Stylesheet.Declaration.Descriptors
import Stylesheet.Paint.Image

/-! Styles for counters. -/
namespace Stylesheet

/-- How a number becomes a row of symbols. -/
inductive CounterSystem where
  | cyclic
  | numeric
  | alphabetic
  | symbolic
  | additive
  /-- Runs through the symbols once, from a first value on. -/
  | fixed (first : Option Int)
  /-- As another style, but for what is set here. -/
  | extending (style : CustomIdent)
  deriving DecidableEq

instance : ToCss CounterSystem where
  css
    | .cyclic => "cyclic".toList
    | .numeric => "numeric".toList
    | .alphabetic => "alphabetic".toList
    | .symbolic => "symbolic".toList
    | .additive => "additive".toList
    | .fixed first => "fixed".toList ++ clause " " first
    | .extending style => "extends ".toList ++ css style

/-- What a counter may show. -/
inductive CounterSymbol where
  | string (text : CssString)
  | ident (name : CustomIdent)
  | image (image : Image)
  deriving BEq

instance : ToCss CounterSymbol where
  css
    | .string text => css text
    | .ident name => css name
    | .image image => css image

/-- A symbol that stands for a number. -/
structure WeightedSymbol where
  weight : Nat
  symbol : CounterSymbol
  deriving BEq

instance : ToCss WeightedSymbol := ⟨fun s => css s.weight ++ ' ' :: css s.symbol⟩

/-- Symbols whose weights add up to the number. There is at least one. -/
structure AdditiveSymbols where
  tuples : NonEmpty WeightedSymbol
  deriving BEq

/-- The order of the weights is not looked at. -/
def AdditiveSymbols.of (tuples : List WeightedSymbol) : Result AdditiveSymbols :=
  return ⟨← NonEmpty.ofList "additive-symbols" tuples⟩

instance : ToCss AdditiveSymbols := ⟨fun s => commaSeparated s.tuples.toList⟩

/-- An end of a range; without a number it is open. -/
structure CounterBound where
  value : Option Int
  deriving DecidableEq

instance : ToCss CounterBound where
  css
    | ⟨some value⟩ => css value
    | ⟨none⟩ => "infinite".toList

/-- The numbers between two bounds. -/
structure CounterSpan where
  lower : CounterBound
  upper : CounterBound
  deriving DecidableEq

instance : ToCss CounterSpan := ⟨fun s => css s.lower ++ ' ' :: css s.upper⟩

/-- The numbers that a style is for. -/
inductive CounterRange where
  | auto
  | spans (spans : NonEmpty CounterSpan)
  deriving BEq

namespace CounterRange

/-- A style that is for no number has to say `auto`. -/
def ofSpans (list : List CounterSpan) : Result CounterRange :=
  return spans (← NonEmpty.ofList "range" list)

instance : ToCss CounterRange where
  css
    | auto => "auto".toList
    | spans list => commaSeparated list.toList

end CounterRange

/-- The ways to read a counter aloud. -/
inductive SpeakAsKeyword where
  | auto | bullets | numbers | words | spellOut
  deriving DecidableEq

instance : Keyword SpeakAsKeyword where
  all := [.auto, .bullets, .numbers, .words, .spellOut]
  keyword
    | .auto => "auto"
    | .bullets => "bullets"
    | .numbers => "numbers"
    | .words => "words"
    | .spellOut => "spell-out"

/-- How a counter is read aloud: in a way of its own, or as another style. -/
inductive SpeakAs where
  | keyword (keyword : SpeakAsKeyword)
  | counterStyle (style : CustomIdent)
  deriving DecidableEq

instance : ToCss SpeakAs where
  css
    | .keyword keyword => css keyword
    | .counterStyle style => css style

/-- The name of a style. `none` stands for no counter and cannot name one. -/
abbrev CounterStyleName := IdentExcept ["none"]

/-- A style for counters. Its descriptors hold one value each. -/
structure CounterStyleRule where
  name : CounterStyleName
  descriptors : Descriptors
  deriving DecidableEq

namespace CounterStyleRule

/-- A style starts without descriptors. -/
def of (name : CustomIdent) : Result CounterStyleRule := return ⟨← IdentExcept.of name, .empty⟩

def set {α : Type} [ToCss α] (r : CounterStyleRule) (name : String) (value : α) :
    CounterStyleRule :=
  {r with descriptors := r.descriptors.set name value}

/-- Symbols with single spaces between them. -/
def setSymbols (r : CounterStyleRule) (name : String) (symbols : List CounterSymbol) :
    CounterStyleRule :=
  r.set name (⟨symbols⟩ : Listed " " CounterSymbol)

def withSystem (r : CounterStyleRule) (system : CounterSystem) : CounterStyleRule :=
  r.set "system" system

/-- There has to be a symbol to show. -/
def withSymbols (r : CounterStyleRule) : List CounterSymbol → Result CounterStyleRule
  | [] => .error (.emptyList "symbols")
  | symbols => .ok (r.setSymbols "symbols" symbols)

def withAdditiveSymbols (r : CounterStyleRule) (tuples : List WeightedSymbol) :
    Result CounterStyleRule :=
  return r.set "additive-symbols" (← AdditiveSymbols.of tuples)

/-- What stands before a negative number, and what after it. -/
def withNegative (r : CounterStyleRule) (lead : CounterSymbol) (trail : Option CounterSymbol) :
    CounterStyleRule :=
  r.setSymbols "negative" (lead :: trail.toList)

def withPrefix (r : CounterStyleRule) (symbol : CounterSymbol) : CounterStyleRule :=
  r.set "prefix" symbol

def withSuffix (r : CounterStyleRule) (symbol : CounterSymbol) : CounterStyleRule :=
  r.set "suffix" symbol

def withAutoRange (r : CounterStyleRule) : CounterStyleRule := r.set "range" CounterRange.auto

/-- The numbers that the style is for. The last range set is the one that counts. -/
def withRange (r : CounterStyleRule) (spans : List CounterSpan) : Result CounterStyleRule :=
  return r.set "range" (← CounterRange.ofSpans spans)

/-- The least length, and the symbol that fills up to it. -/
def withPad (r : CounterStyleRule) (pad : WeightedSymbol) : CounterStyleRule := r.set "pad" pad

def withFallback (r : CounterStyleRule) (style : CustomIdent) : CounterStyleRule :=
  r.set "fallback" style

def withSpeakAs (r : CounterStyleRule) (speakAs : SpeakAs) : CounterStyleRule :=
  r.set "speak-as" speakAs

instance : ToCss CounterStyleRule where
  css r := "@counter-style ".toList ++ css r.name ++ ' ' :: css r.descriptors

end CounterStyleRule
end Stylesheet
