import LoggingFacade.Backend
import LoggingFacade.Provider.Registry
import LoggingFacade.Selected

/-!
# Selecting a backend

The configured class if its backend can be made, else the discovered backend of
the highest priority, else the fallback. Selection always ends with a backend.
-/

namespace LoggingFacade

structure Selector (σ β : Type) where
  overrideClass : Option String
  registry : Registry σ β
  fallbackLevel : Level
  /-- Makes the backend to fall back to, at a level. -/
  fallback : Level → Traced σ β

namespace Selector

variable {σ β : Type}

/-- What takes the place of a record's identity for the configured class. -/
def overrideSource : String := "manager.logger_context_factory"

/-- The configured backend, if a class is configured and its backend can be
made. -/
def selectOverride (s : Selector σ β) : Traced σ (Option (Selected β)) := do
  match s.overrideClass with
  | none => return none
  | some className =>
    match ← s.registry.instantiate className overrideSource with
    | .ok backend =>
      Traced.report (.overrideUsed className)
      return some ⟨backend, .override⟩
    | .error e =>
      Traced.report (.overrideFailed className e)
      return none

/-- The discovered backend of the highest priority, which is listed last. -/
def selectDiscovered (candidates : List (Descriptor β)) :
    Traced σ (Option (Selected β)) := do
  match candidates.getLast? with
  | none => return none
  | some winner =>
    if candidates.length > 1 then
      Traced.report (.backendsCompete (candidates.map Descriptor.candidate) winner.className
        winner.priority)
    else Traced.report (.backendDiscovered winner.className winner.priority)
    return some ⟨winner.backend, .discovered⟩

def selectCandidate (s : Selector σ β) (candidates : List (Descriptor β)) :
    Traced σ (Selected β) := do
  match ← selectDiscovered candidates with
  | some selected => return selected
  | none =>
    Traced.report (.fallbackUsed Backend.simpleClass)
    return ⟨← s.fallback s.fallbackLevel, .fallback⟩

def select (s : Selector σ β) : Traced σ (Selected β) := do
  match ← s.selectOverride with
  | some selected => return selected
  | none => s.selectCandidate (← s.registry.discover)

/-- Selects among backends that were discovered before. -/
def selectFrom (s : Selector σ β) (candidates : List (Descriptor β)) :
    Traced σ (Selected β) := do
  match ← s.selectOverride with
  | some selected => return selected
  | none => s.selectCandidate candidates

end Selector

/-- A place for the selected backend, filled once. -/
abbrev BackendCell (β : Type) := Option (Selected β)

namespace BackendCell

variable {σ β : Type}

/-- The content of the cell, selected now if it is empty; with it whether it
was selected now. -/
def resolve (cell : BackendCell β) (select : Traced σ (Selected β)) :
    Traced σ (Selected β × Bool) := do
  match cell with
  | some selected => return (selected, false)
  | none => return (← select, true)

end BackendCell

namespace Selected

/-- The view of a selected backend of the given implementation. -/
def view {β : Type} (implementation : β → String) (s : Selected β) : String :=
  "SelectedBackend \x7b implementation: " ++ Text.quoted (implementation s.backend) ++
    ", selection: " ++ s.rule.viewName ++ " \x7d"

end Selected
end LoggingFacade
