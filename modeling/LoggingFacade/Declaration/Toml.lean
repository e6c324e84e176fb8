import LoggingFacade.Declaration
import LoggingFacade.Document.Toml
import LoggingFacade.Document.Toml.Moments

/-!
# Declarations in TOML

A single declaration is written in the later edition. A moment in it is a table,
which is no attribute.
-/

namespace LoggingFacade
namespace Declaration

def ofToml? (text : String) : Option Declaration := do
  ofDocument? false (← Toml.read? .v1_1 text).spelledOut

end Declaration
end LoggingFacade
