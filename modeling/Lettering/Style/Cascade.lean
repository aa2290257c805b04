import Lettering.Style.Font

/-!
# The cascade

A rule table gives rules to tags. The style of a text is what the rules of its
enclosing tags, laid over each other from the outside in on top of the base
rules, leave for every property.
-/

namespace Lettering

/-- Rules by tag. -/
abbrev RuleTable := KeyedList String Rules

namespace RuleTable

/-- The tag whose rules apply to every text. -/
def baseTag : String := "_base"

/-- The rules of a tag; an unknown tag has none. -/
def rulesOf (table : RuleTable) (tag : String) : Rules := (table.get? tag).getD ∅

/-- The style under the given tags, outermost first: the base rules, then the
    rules of every tag laid over them in turn. -/
def resolve (table : RuleTable) (context : List String) : Rules :=
  context.foldl (fun style tag => style.overlay (table.rulesOf tag)) (table.rulesOf baseTag)

end RuleTable

/-- A style as a surface takes it: a font to select, if any, and the other
    properties in order. -/
structure SurfaceStyle where
  font : Option Font
  properties : Rules
deriving DecidableEq, Repr

/-- The style split into its font and its other properties. -/
def Rules.split (rules : Rules) : SurfaceStyle where
  font := Font.ofRules rules
  properties := rules.filterKeys fun name => !Font.isFontKey name

end Lettering
