import LoggingFacade.Text.Quoted
import LoggingFacade.Traced

/-!
# Catalogs of backends

A catalog makes the backend of a class that a record or the configuration
names. It runs foreign code, which may fail or end abruptly.
-/

namespace LoggingFacade

structure Catalog (σ β : Type) where
  instantiate : String → String → Traced σ (Attempt β)

/-- A backend that is part of the program. -/
structure BackendEntry (σ β : Type) where
  className : String
  description : String
  create : Traced σ (Attempt β)

namespace BackendEntry

variable {σ β : Type}

/-- The first entry of a class. -/
def lookup (entries : List (BackendEntry σ β)) (className : String) :
    Option (BackendEntry σ β) :=
  entries.find? (·.className == className)

/-- Names and descriptions, in ascending order. -/
def listing (entries : List (BackendEntry σ β)) : List (String × String) :=
  (entries.map fun e => (e.className, e.description)).mergeSort fun a b =>
    a.1 < b.1 || (a.1 == b.1 && decide (a.2 ≤ b.2))

end BackendEntry

namespace Catalog

variable {σ β : Type}

def linked (entries : List (BackendEntry σ β)) : Catalog σ β where
  instantiate className source :=
    match BackendEntry.lookup entries className with
    | none =>
      return .failed (.instantiation className source "no backend is registered under this name")
    | some entry => do
      match ← entry.create with
      | .done backend => return .done backend
      | .failed e => return .failed (.instantiation className source e.message)
      | .crashed => return .crashed

end Catalog
end LoggingFacade
