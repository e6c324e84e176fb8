/-!
# The selected backend

A backend together with the rule that chose it.
-/

namespace LoggingFacade

inductive SelectionRule where
  | override
  | discovered
  | fallback
  deriving DecidableEq, Repr

namespace SelectionRule

def name : SelectionRule → String
  | override => "override"
  | discovered => "discovered"
  | fallback => "fallback"

/-- The name as a constructor in a debugging view. -/
def viewName : SelectionRule → String
  | override => "Override"
  | discovered => "Discovered"
  | fallback => "Fallback"

end SelectionRule

structure Selected (β : Type) where
  backend : β
  rule : SelectionRule
  deriving DecidableEq, Repr

end LoggingFacade
