import LoggingFacade.Error

/-!
# Diagnostics

What the facade reports about its own work. A diagnostic is the fact reported;
severity, wording, fields and the area it belongs to are functions of it.
-/

namespace LoggingFacade

inductive Severity where
  | error
  | warn
  | info
  | debug
  | trace
  deriving DecidableEq, Repr

namespace Severity

/-- The most severe has rank one. -/
def rank : Severity → Nat
  | error => 1
  | warn => 2
  | info => 3
  | debug => 4
  | trace => 5

def name : Severity → String
  | error => "ERROR"
  | warn => "WARN"
  | info => "INFO"
  | debug => "DEBUG"
  | trace => "TRACE"

end Severity

/-- A discovered backend as it is listed among its rivals. -/
structure Candidate where
  className : String
  priority : Int
  source : String
  deriving DecidableEq, Repr

namespace Candidate

def text (c : Candidate) : String :=
  c.className ++ " (priority " ++ toString c.priority ++ ", from " ++ c.source ++ ")"

end Candidate

inductive Diagnostic where
  -- Provider records
  | recordFound (path : String)
  | entryUnreadable (root reason : String)
  | rootUnsearchable (error : Error)
  | recordsUnlisted (locator : String) (error : Error)
  | locatorFailed (locator : String) (error : Error)
  | providerSkipped (source : String) (error : Error)
  | versionRefused (source : String) (version : Option String)
  | factoryUnnamed (source : String)
  | priorityShared (priority : Int) (replaced replacement : String)
  -- Components
  | pluginReplaced (plugin : String)
  | attributeIgnored (component key : String)
  | elementsSurplus (component parameter : String) (count : Nat)
  | elementsIgnored (component : String) (count : Nat)
  | componentBuilt (component : String)
  | componentFailed (component : String) (error : Error)
  | childFailed (parent component : String) (error : Error)
  -- Appenders
  | publicationReplaced (appender : String)
  | publicationEnded (appender : String)
  | appenderReplaced (appender : String)
  | appendersCollected (count : Nat)
  | stopFailed (appender : String) (error : Error)
  | appendFailed (logger appender : String) (error : Error)
  -- Contexts
  | contextResolved (caller realm : String)
  | contextCreated (realm : String)
  | formatIgnored (logger existing requested : String)
  | appendersPublished (context : String) (appenders stopped : Nat)
  -- Selection
  | overrideUsed (backend : String)
  | overrideFailed (backend : String) (error : Error)
  | backendDiscovered (backend : String) (priority : Int)
  | backendsCompete (candidates : List Candidate) (selected : String) (priority : Int)
  | fallbackUsed (fallback : String)
  -- Bootstrap
  | overrideIgnored (requested selected : String)
  | configurationUnusable (error : Error)
  | layoutUnattached (component : String)
  | appendersUnused (backend : String)
  | appendersInstalled (accepted appenders : Nat)
  | configurationLoaded (path : String)
  | configurationMissing (path : String)
  | reportingStarted (level : String)
  | commandStarted (command : String)
  deriving DecidableEq, Repr

namespace Diagnostic

def severity : Diagnostic → Severity
  | recordFound .. => .debug
  | entryUnreadable .. => .warn
  | rootUnsearchable .. => .warn
  | recordsUnlisted .. => .warn
  | locatorFailed .. => .error
  | providerSkipped .. => .error
  | versionRefused .. => .debug
  | factoryUnnamed .. => .debug
  | priorityShared .. => .warn
  | pluginReplaced .. => .warn
  | attributeIgnored .. => .warn
  | elementsSurplus .. => .warn
  | elementsIgnored .. => .warn
  | componentBuilt .. => .debug
  | componentFailed .. => .error
  | childFailed .. => .error
  | publicationReplaced .. => .debug
  | publicationEnded .. => .debug
  | appenderReplaced .. => .warn
  | appendersCollected .. => .debug
  | stopFailed .. => .warn
  | appendFailed .. => .error
  | contextResolved .. => .trace
  | contextCreated .. => .debug
  | formatIgnored .. => .warn
  | appendersPublished .. => .debug
  | overrideUsed .. => .info
  | overrideFailed .. => .error
  | backendDiscovered .. => .info
  | backendsCompete .. => .warn
  | fallbackUsed .. => .error
  | overrideIgnored .. => .warn
  | configurationUnusable .. => .error
  | layoutUnattached .. => .warn
  | appendersUnused .. => .warn
  | appendersInstalled .. => .debug
  | configurationLoaded .. => .info
  | configurationMissing .. => .warn
  | reportingStarted .. => .info
  | commandStarted .. => .debug

def message : Diagnostic → String
  | recordFound _ => "Found provider record"
  | entryUnreadable .. => "Skipping unreadable entry"
  | rootUnsearchable _ => "Unable to search provider path"
  | recordsUnlisted .. => "Unable to enumerate provider records"
  | locatorFailed .. => "Unable to locate provider records"
  | providerSkipped .. => "Skipping provider"
  | versionRefused .. => "Ignoring provider with incompatible API version"
  | factoryUnnamed _ => "Provider record names no factory"
  | priorityShared .. => "Providers share a priority; the one discovered last is kept"
  | pluginReplaced _ => "Duplicate plugin name; keeping the last registration"
  | attributeIgnored .. => "Ignoring unknown attribute"
  | elementsSurplus .. => "Several nested components supplied; using the first"
  | elementsIgnored .. => "Ignoring nested components no parameter accepts"
  | componentBuilt _ => "Built component"
  | componentFailed .. => "Unable to build component"
  | childFailed .. => "Unable to build nested component"
  | publicationReplaced _ => "Replaced published memory appender"
  | publicationEnded _ => "Unpublished memory appender"
  | appenderReplaced _ => "Duplicate appender name, keeping the later declaration"
  | appendersCollected _ => "Built appender set"
  | stopFailed .. => "Failed to stop replaced appender"
  | appendFailed .. => "Appender failed"
  | contextResolved .. => "Resolving logger context"
  | contextCreated _ => "Creating logger context"
  | formatIgnored .. => "Logger already created with a different message factory"
  | appendersPublished .. => "Published appender table"
  | overrideUsed _ => "Using configured logging backend"
  | overrideFailed .. =>
    "Unable to create the configured logging backend; falling back to discovery"
  | backendDiscovered .. => "Using discovered logging backend"
  | backendsCompete _ selected priority =>
    "Multiple logging backends found; using " ++ selected ++ " with priority " ++
      toString priority
  | fallbackUsed _ =>
    "No logging backend could be discovered; using the simple fallback backend, " ++
      "logging is degraded"
  | overrideIgnored .. =>
    "Logging backend already selected; ignoring the requested override"
  | configurationUnusable _ => "Unable to load lumber configuration; using defaults"
  | layoutUnattached _ => "Top-level layout is not attached to any appender"
  | appendersUnused _ =>
    "Selected backend does not accept appenders; declared appenders are unused"
  | appendersInstalled .. => "Installed declared appenders"
  | configurationLoaded path => "Configuration loaded from " ++ path
  | configurationMissing path => "Configuration file not found: " ++ path
  | reportingStarted level => "Diagnostic logging initialized with level: " ++ level
  | commandStarted _ => "Running command"

/-- Named values beside the message. -/
def fields : Diagnostic → List (String × String)
  | recordFound path => [("path", path)]
  | entryUnreadable root reason => [("root", root), ("error", reason)]
  | rootUnsearchable e => [("error", e.message)]
  | recordsUnlisted locator e => [("locator", locator), ("error", e.message)]
  | locatorFailed locator e => [("locator", locator), ("error", e.message)]
  | providerSkipped source e => [("source", source), ("error", e.message)]
  | versionRefused source version => [("source", source), ("version", version.getD "")]
  | factoryUnnamed source => [("source", source)]
  | priorityShared priority replaced replacement =>
    [("priority", toString priority), ("replaced", replaced), ("replacement", replacement)]
  | pluginReplaced plugin => [("plugin", plugin)]
  | attributeIgnored component key => [("component", component), ("attribute", key)]
  | elementsSurplus component parameter count =>
    [("component", component), ("parameter", parameter), ("count", toString count)]
  | elementsIgnored component count => [("component", component), ("count", toString count)]
  | componentBuilt component => [("component", component)]
  | componentFailed component e => [("component", component), ("error", e.message)]
  | childFailed parent component e =>
    [("parent", parent), ("component", component), ("error", e.message)]
  | publicationReplaced appender => [("appender", appender)]
  | publicationEnded appender => [("appender", appender)]
  | appenderReplaced appender => [("appender", appender)]
  | appendersCollected count => [("count", toString count)]
  | stopFailed appender e => [("appender", appender), ("error", e.message)]
  | appendFailed logger appender e =>
    [("logger", logger), ("appender", appender), ("error", e.message)]
  | contextResolved caller realm => [("caller", caller), ("realm", realm)]
  | contextCreated realm => [("realm", realm)]
  | formatIgnored logger existing requested =>
    [("logger", logger), ("existing", existing), ("requested", requested)]
  | appendersPublished context appenders stopped =>
    [("context", context), ("appenders", toString appenders), ("stopped", toString stopped)]
  | overrideUsed backend => [("backend", backend)]
  | overrideFailed backend e => [("backend", backend), ("error", e.message)]
  | backendDiscovered backend priority =>
    [("backend", backend), ("priority", toString priority)]
  | backendsCompete candidates selected _ =>
    [("candidates", ", ".intercalate (candidates.map Candidate.text)), ("selected", selected)]
  | fallbackUsed fallback => [("fallback", fallback)]
  | overrideIgnored requested selected => [("requested", requested), ("selected", selected)]
  | configurationUnusable e => [("error", e.message)]
  | layoutUnattached component => [("component", component)]
  | appendersUnused backend => [("backend", backend)]
  | appendersInstalled accepted appenders =>
    [("accepted", toString accepted), ("appenders", toString appenders)]
  | configurationLoaded _ => []
  | configurationMissing _ => []
  | reportingStarted _ => []
  | commandStarted command => [("command", command)]

/-- The area of the program, by the name that filter directives use. -/
def area : Diagnostic → String
  | recordFound .. | entryUnreadable .. | rootUnsearchable .. | recordsUnlisted .. =>
    "lumber_application::discovery::source"
  | locatorFailed .. | providerSkipped .. | versionRefused .. | factoryUnnamed ..
  | priorityShared .. => "lumber_application::discovery::registry"
  | pluginReplaced .. | attributeIgnored .. | elementsSurplus .. | elementsIgnored ..
  | componentBuilt .. | componentFailed .. | childFailed .. =>
    "lumber_application::plugins::resolver"
  | publicationReplaced .. | publicationEnded .. => "lumber_providers::appender::memory"
  | appenderReplaced .. | appendersCollected .. => "lumber_providers::appender::set"
  | stopFailed .. => "lumber_providers::appender::table"
  | appendFailed .. | contextResolved .. | contextCreated .. | formatIgnored ..
  | appendersPublished .. => "lumber_providers::backend::standard"
  | overrideUsed .. | overrideFailed .. | backendDiscovered .. | backendsCompete ..
  | fallbackUsed .. => "lumber_infrastructure::selector"
  | overrideIgnored .. | configurationUnusable .. => "lumber_infrastructure::manager"
  | layoutUnattached .. | appendersUnused .. | appendersInstalled .. =>
    "lumber_infrastructure::components"
  | configurationLoaded .. | configurationMissing .. | reportingStarted .. =>
    "lumber_infrastructure::logging"
  | commandStarted .. => "lumber"

end Diagnostic
end LoggingFacade
