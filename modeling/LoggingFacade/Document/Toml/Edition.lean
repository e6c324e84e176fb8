/-!
# Editions of TOML

The later edition adds escapes by two hexadecimal digits, times without
seconds, and inline tables that spread over lines. Configuration files are
written in the earlier one; provider records and single declarations in the
later one.
-/

namespace LoggingFacade
namespace Toml

inductive Edition where
  | v1_0
  | v1_1
  deriving DecidableEq, Repr

namespace Edition

/-- How deep arrays and inline tables may be nested, and how many parts a dotted
key may have. -/
def greatestDepth : Edition → Nat
  | v1_0 => 79
  | v1_1 => 80

def isLater (e : Edition) : Bool := e == v1_1

end Edition
end Toml
end LoggingFacade
