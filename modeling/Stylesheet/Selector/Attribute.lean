import Stylesheet.Name.Identifier

/-! Selecting elements by an attribute. -/
namespace Stylesheet

/-- How the value of an attribute is compared. -/
inductive AttributeMatcher where
  | exact | includes | dashMatch | startsWith | endsWith | contains
  deriving DecidableEq

instance : Keyword AttributeMatcher where
  all := [.exact, .includes, .dashMatch, .startsWith, .endsWith, .contains]
  keyword
    | .exact => "="
    | .includes => "~="
    | .dashMatch => "|="
    | .startsWith => "^="
    | .endsWith => "$="
    | .contains => "*="

/-- Whether the comparison tells letters of different case apart. -/
inductive CaseFlag where
  | insensitive | sensitive
  deriving DecidableEq

instance : Keyword CaseFlag where
  all := [.insensitive, .sensitive]
  keyword
    | .insensitive => "i"
    | .sensitive => "s"

structure AttributeTest where
  matcher : AttributeMatcher
  value : String
  flag : Option CaseFlag
  deriving DecidableEq

/-- Without a test, the attribute only has to be there. -/
structure AttributeSelector where
  name : Identifier
  test : Option AttributeTest
  deriving DecidableEq

namespace AttributeSelector

def present (name : String) : Result AttributeSelector := return ⟨← Identifier.of name, none⟩

def matching (name : String) (matcher : AttributeMatcher) (value : String) :
    Result AttributeSelector :=
  return ⟨← Identifier.of name, some ⟨matcher, value, none⟩⟩

/-- Where there is nothing to compare, a flag has no effect. -/
def withFlag (a : AttributeSelector) (flag : CaseFlag) : AttributeSelector :=
  {a with test := a.test.map fun t => {t with flag := some flag}}

def testText (t : AttributeTest) : List Char :=
  css t.matcher ++ quoteString t.value.toList ++ clause " " t.flag

instance : ToCss AttributeSelector where
  css a := '[' :: css a.name ++ (a.test.map testText).getD [] ++ [']']

end AttributeSelector
end Stylesheet
