import LoggingFacade.Provider.Catalog
import LoggingFacade.Provider.Metadata
import LoggingFacade.Provider.Source
import LoggingFacade.Provider.Version

/-!
# Discovery of providers

Sources are examined one after the other. A source is trusted once its record
is read, its version accepted, its class named and its priority valid; only
then is its backend made. Of the backends made, one is kept for each priority,
the last one found.
-/

namespace LoggingFacade

structure Descriptor (β : Type) where
  backend : β
  className : String
  apiVersion : String
  priority : Int
  source : String

namespace Descriptor

variable {β : Type}

def candidate (d : Descriptor β) : Candidate := ⟨d.className, d.priority, d.source⟩

def view (d : Descriptor β) : String :=
  "ProviderDescriptor \x7b class_name: " ++ Text.quoted d.className ++ ", api_version: " ++
    Text.quoted d.apiVersion ++ ", priority: " ++ toString d.priority ++ ", source_id: " ++
    Text.quoted d.source ++ " \x7d"

/-- Keeps a descriptor at the place of its priority, instead of one that has
the same. -/
def keep (d : Descriptor β) : List (Descriptor β) → List (Descriptor β)
  | [] => [d]
  | other :: rest =>
    if d.priority < other.priority then d :: other :: rest
    else if d.priority = other.priority then d :: rest
    else other :: keep d rest

end Descriptor

/-- What a trusted record says. -/
structure Claim where
  className : String
  apiVersion : String
  priority : Int
  source : String
  deriving DecidableEq, Repr

/-- What becomes of a source before anything of the provider runs. -/
inductive Examination where
  | broken (error : Error)
  | passedOver (reason : Diagnostic)
  | trusted (claim : Claim)
  deriving DecidableEq, Repr

namespace Source

/-- Judges the record of a source that could be read. -/
def judge (source : String) (m : Metadata) : Examination :=
  if !Provider.isCompatible m.apiVersion then .passedOver (.versionRefused source m.apiVersion)
  else
    match m.factory with
    | none => .passedOver (.factoryUnnamed source)
    | some className =>
      match m.priority source with
      | .error e => .broken e
      | .ok priority => .trusted ⟨className, m.apiVersion.getD "", priority, source⟩

def examine (s : Source) : Examination :=
  match s.read with
  | .error e => .broken e
  | .ok text =>
    match Metadata.read s.id text with
    | .error e => .broken e
    | .ok m => judge s.id m

end Source

structure Registry (σ β : Type) where
  locator : Locator σ
  catalog : Catalog σ β

namespace Registry

variable {σ β : Type}

/-- The same registry over a larger state. -/
def onPart {τ : Type} (read : τ → σ) (write : σ → τ → τ) (r : Registry σ β) : Registry τ β where
  locator := ⟨r.locator.description, .onPart read write r.locator.sources⟩
  catalog := ⟨fun className source => .onPart read write (r.catalog.instantiate className source)⟩

/-- Makes the backend of a class; an abrupt end is a failure too. -/
def instantiate (r : Registry σ β) (className source : String) :
    Traced σ (Except Error β) := do
  return (← r.catalog.instantiate className source).contain
    (.instantiation className source "backend factory panicked")

/-- The backend of a trusted record. -/
def fulfil (r : Registry σ β) (c : Claim) : Traced σ (Except Error (Descriptor β)) := do
  match ← r.instantiate c.className c.source with
  | .ok backend => return .ok ⟨backend, c.className, c.apiVersion, c.priority, c.source⟩
  | .error e => return .error e

/-- The descriptor of a source. Whatever stands in its way is reported. -/
def load (r : Registry σ β) (s : Source) : Traced σ (Option (Descriptor β)) := do
  match s.examine with
  | .passedOver reason =>
    Traced.report reason
    return none
  | .broken e =>
    Traced.report (.providerSkipped s.id e)
    return none
  | .trusted claim =>
    match ← r.fulfil claim with
    | .ok d => return some d
    | .error e =>
      Traced.report (.providerSkipped s.id e)
      return none

/-- Keeps a descriptor; one that it replaces is reported. -/
def keep (d : Descriptor β) (kept : List (Descriptor β)) :
    Traced σ (List (Descriptor β)) := do
  match kept.find? (·.priority = d.priority) with
  | some replaced =>
    Traced.report (.priorityShared d.priority replaced.className d.className)
  | none => pure ()
  return d.keep kept

/-- Adds the descriptors of sources, in order, to those kept so far. -/
def gather (r : Registry σ β) (kept : List (Descriptor β)) :
    List Source → Traced σ (List (Descriptor β))
  | [] => return kept
  | s :: rest => do
    match ← r.load s with
    | some d => do r.gather (← keep d kept) rest
    | none => r.gather kept rest

/-- The sources to examine; none if they cannot be found. -/
def sources (r : Registry σ β) : Traced σ (List Source) := do
  match ← r.locator.sources with
  | .ok found => return found
  | .error e =>
    Traced.report (.locatorFailed r.locator.description e)
    return []

/-- The backends found, in ascending order of their priorities. -/
def discover (r : Registry σ β) : Traced σ (List (Descriptor β)) := do
  r.gather [] (← r.sources)

def view (r : Registry σ β) : String :=
  "ProviderRegistry \x7b locator: " ++ Text.quoted r.locator.description ++ ", .. \x7d"

end Registry
end LoggingFacade
