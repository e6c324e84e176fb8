import LoggingFacade.Config.Loader
import LoggingFacade.Provider.Directories
import LoggingFacade.Registrations
import LoggingFacade.Report

/-!
# Bootstrap

The backend of the process is selected once, by the first call that needs it,
and the components of that call's configuration are installed. Later calls find
the same backend and install nothing.
-/

namespace LoggingFacade
namespace Bootstrap

/-- The selector that a configuration describes: linked records first, then the
search path. -/
def selector (r : Registrations) (h : Host) (c : ManagerConfig) : Selector World Backend where
  overrideClass := c.overrideClass
  registry :=
    { locator := .chained (
        (if c.scanLinked then [r.locator] else []) ++
        (if c.searchPath.isEmpty then []
         else [.directories (c.searchPath.map (.ofPath h.files))]))
      catalog := r.catalog }
  fallbackLevel := c.fallbackLevel
  fallback := Backend.simple

/-- Builds the declared components and installs their appenders. -/
def installComponents (r : Registrations) (b : Backend) (components : List Declaration) :
    Traced World Unit := do
  if components.isEmpty then return ()
  else
    let report ← ComponentReport.build (← r.binding) components
    let _ ← b.install report.appenders

/-- Reports a configured class that comes too late. -/
def reportOverride (s : Selected Backend) (c : ManagerConfig) : Traced World Unit := do
  match c.overrideClass with
  | some requested =>
    if requested ≠ s.backend.implementation then
      Traced.report (.overrideIgnored requested s.backend.implementation)
  | none => pure ()

def start (r : Registrations) (h : Host) (c : Config) : Traced World (Selected Backend) := do
  let w ← get
  let (selected, here) ← BackendCell.resolve w.selected (selector r h c.manager).select
  modify fun w => { w with selected := some selected }
  if here then installComponents r selected.backend c.components
  else reportOverride selected c.manager
  return selected

/-- The usual configuration, or the standard one where it cannot be read. -/
def usualConfig (h : Host) : Traced World Config := do
  match ← ConfigLoader.standard.load h with
  | .ok config => return config
  | .error e =>
    Traced.report (.configurationUnusable e)
    return Config.standard

/-- The backend of the process, selected now if it has to be. -/
def backend (r : Registrations) (h : Host) : Traced World Backend := do
  let w ← get
  match w.selected with
  | some selected => return selected.backend
  | none => return (← start r h (← usualConfig h)).backend

/-- Takes all appenders from the contexts that the bootstrap gave them to. -/
def shutdown : Traced World Unit := do
  let w ← get
  match w.selected with
  | some selected =>
    let _ ← selected.backend.install .empty
  | none => pure ()

/-- The variable that holds a filter for diagnostics. -/
def filterVariable : String := "LUMBER_LOG"

/-- The filter from the environment, or the configured level. -/
def filter (h : Host) (c : LoggingConfig) : DiagnosticFilter :=
  match (h.setting? filterVariable).bind DiagnosticFilter.read? with
  | some f => f
  | none => .readLenient c.level

/-- Starts to write diagnostics; only one subscriber can be installed. -/
def startReporting (h : Host) (c : LoggingConfig) : Traced World (Except Error Unit) := do
  match Severity.ofName c.level with
  | .error e => return .error e
  | .ok level =>
    let w ← get
    match w.subscriber with
    | some _ => return .error (.infrastructure "Unable to install the diagnostic subscriber" [])
    | none =>
      set { w with subscriber := some ⟨filter h c, c.json⟩ }
      Traced.report (.reportingStarted level.name)
      return .ok ()

end Bootstrap
end LoggingFacade
