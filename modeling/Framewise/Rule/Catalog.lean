import Framewise.Rule.AttributeColumn
import Framewise.Rule.BareMask
import Framewise.Rule.FillerColumn
import Framewise.Rule.ImplicitMerge
import Framewise.Rule.InPlace
import Framewise.Rule.ParameterMutation
import Framewise.Rule.UnpinnedSchema

/-! # The catalog

  The seven rules, in the order of their ids, and the id under which a crash of
  a matcher is reported.
-/

namespace Framewise

/-- Id of the diagnostics that report a crash. -/
def crashRuleId : String := "FL000"

/-- The rules. -/
def catalog : List Rule :=
  [{ id := "FL001", title := "Non-explicit column access", severity := .warning,
     matcher := Rule.attributeColumn },
    { id := "FL002", title := "In-place mutation", severity := .warning,
      matcher := Rule.inPlace },
    { id := "FL003", title := "Ambiguous boolean filtering", severity := .warning,
      matcher := Rule.bareMask },
    { id := "FL004", title := "Unpinned schema", severity := .warning,
      matcher := Rule.unpinnedSchema },
    { id := "FL005", title := "Unsafe merge", severity := .warning,
      matcher := Rule.implicitMerge },
    { id := "FL006", title := "Filler value for new column", severity := .warning,
      matcher := Rule.fillerColumn },
    { id := "FL007", title := "Frame parameter mutation", severity := .error,
      matcher := Rule.parameterMutation }]

/-- The ids of a list of rules. -/
def ruleIds (rules : List Rule) : List String := rules.map (·.id)

/-- The rule of an id. -/
def rule? (id : String) : Option Rule := catalog.find? fun rule => rule.id = id

end Framewise
