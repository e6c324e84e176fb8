import LoggingFacade.Declaration
import LoggingFacade.Diagnostic
import LoggingFacade.Level
import LoggingFacade.Text.Lowercase

/-!
# Configuration

How a backend is selected, what the facade reports about itself, and which
components are declared. A configuration is a document with a table for each of
its parts; what a document leaves out has its standard value.
-/

namespace LoggingFacade

structure ManagerConfig where
  overrideClass : Option String
  searchPath : List String
  scanLinked : Bool
  fallbackLevel : Level
  deriving DecidableEq

namespace ManagerConfig

def standard : ManagerConfig := ⟨none, [], true, .error⟩

end ManagerConfig

structure LoggingConfig where
  level : String
  json : Bool
  deriving DecidableEq

namespace LoggingConfig

def standard : LoggingConfig := ⟨"warn", false⟩

end LoggingConfig

structure Config where
  manager : ManagerConfig
  logging : LoggingConfig
  components : List Declaration
  deriving DecidableEq

namespace Severity

/-- A severity by its name in any case. -/
def ofName (level : String) : Except Error Severity :=
  match Text.lowercase level with
  | "trace" => .ok trace
  | "debug" => .ok debug
  | "info" => .ok info
  | "warn" => .ok warn
  | "warning" => .ok warn
  | "error" => .ok error
  | _ =>
    .error (.configuration
      ("Invalid log level: " ++ level ++ ". Use trace, debug, info, warn, or error") [])

end Severity

namespace Config

def standard : Config := ⟨.standard, .standard, []⟩

/-! ### Documents -/

/-- A missing class is a missing entry. -/
def managerDocument (m : ManagerConfig) : Document :=
  .table ((m.overrideClass.map fun c => ("logger_context_factory", Document.text c)).toList ++
    [("provider_search_path", .list (m.searchPath.map .text)),
     ("scan_linked", .bool m.scanLinked),
     ("fallback_level", .text m.fallbackLevel.name)])

def loggingDocument (l : LoggingConfig) : Document :=
  .table [("level", .text l.level), ("json_format", .bool l.json)]

def toDocument (c : Config) : Document :=
  .table [("manager", managerDocument c.manager), ("logging", loggingDocument c.logging),
    ("components", .list (c.components.map Declaration.toDocument))]

/-- Reads a field of a record, or takes its standard value. -/
def fieldOr {α : Type} (standard : α) (read : Document → Option α)
    (fields : List (String × Document)) (key : String) : Option α :=
  match fields.lookup key with
  | some d => read d
  | none => some standard

def className? : Document → Option (Option String)
  | .null => some none
  | d => d.asText?.map some

def texts? (d : Document) : Option (List String) := do (← d.asList?).mapM Document.asText?

def level? (d : Document) : Option Level := do (Level.ofName (← d.asText?)).toOption

def manager? (d : Document) : Option ManagerConfig := do
  let fields ← d.fields? false
    ["logger_context_factory", "provider_search_path", "scan_linked", "fallback_level"]
  return {
    overrideClass := ← fieldOr ManagerConfig.standard.overrideClass className? fields
      "logger_context_factory"
    searchPath := ← fieldOr ManagerConfig.standard.searchPath texts? fields "provider_search_path"
    scanLinked := ← fieldOr ManagerConfig.standard.scanLinked Document.asBool? fields "scan_linked"
    fallbackLevel := ← fieldOr ManagerConfig.standard.fallbackLevel level? fields
      "fallback_level" }

def logging? (d : Document) : Option LoggingConfig := do
  let fields ← d.fields? false ["level", "json_format"]
  return {
    level := ← fieldOr LoggingConfig.standard.level Document.asText? fields "level"
    json := ← fieldOr LoggingConfig.standard.json Document.asBool? fields "json_format" }

def components? (d : Document) : Option (List Declaration) := do
  (← d.asList?).mapM (Declaration.ofDocument? false)

/-- Reads a configuration; unknown keys are ignored. -/
def ofDocument? (d : Document) : Option Config := do
  let fields ← d.fields? false ["manager", "logging", "components"]
  return {
    manager := ← fieldOr .standard manager? fields "manager"
    logging := ← fieldOr .standard logging? fields "logging"
    components := ← fieldOr [] components? fields "components" }

/-! ### Validity -/

mutual

/-- Every type in the tree has a visible character. -/
def isNamed : Declaration → Bool
  | ⟨typeName, _, children⟩ => !(Text.trim typeName).isEmpty && allNamed children

def allNamed : List Declaration → Bool
  | [] => true
  | d :: rest => isNamed d && allNamed rest

end

/-- The first tree with a type that is blank is to blame. -/
def validateComponents (index : Nat) : List Declaration → Except Error Unit
  | [] => .ok ()
  | d :: rest =>
    if isNamed d then validateComponents (index + 1) rest
    else .error (.configuration
      ("components[" ++ toString index ++ "]: component type cannot be empty") [])

def validate (c : Config) : Except Error Unit := do
  if let some className := c.manager.overrideClass then
    if (Text.trim className).isEmpty then
      throw (.configuration "manager.logger_context_factory cannot be empty" [])
  let _ ← Severity.ofName c.logging.level
  validateComponents 0 c.components

/-- The configuration itself, if it is valid. -/
def validated (c : Config) : Except Error Config := do
  c.validate
  return c

/-! ### Step by step -/

def withOverride (c : Config) (className : String) : Config :=
  { c with manager := { c.manager with overrideClass := some className } }

def withSearchRoot (c : Config) (path : String) : Config :=
  { c with manager := { c.manager with searchPath := c.manager.searchPath ++ [path] } }

def withLinkedRecords (c : Config) (scan : Bool) : Config :=
  { c with manager := { c.manager with scanLinked := scan } }

def withFallbackLevel (c : Config) (level : Level) : Config :=
  { c with manager := { c.manager with fallbackLevel := level } }

def withLogging (c : Config) (logging : LoggingConfig) : Config := { c with logging := logging }

def withComponent (c : Config) (d : Declaration) : Config :=
  { c with components := c.components ++ [d] }

end Config
end LoggingFacade
