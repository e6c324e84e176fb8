/-!
# API versions

The gate a provider record passes before anything of the provider runs: its
declared version starts with one of the accepted ones.
-/

namespace LoggingFacade
namespace Provider

def acceptedVersions : List String := ["2.0.0", "2.0.1"]

def isCompatible (version : Option String) : Bool :=
  match version with
  | some v => acceptedVersions.any fun accepted => accepted.toList.isPrefixOf v.toList
  | none => false

end Provider
end LoggingFacade
