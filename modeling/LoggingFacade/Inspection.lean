import LoggingFacade.Bootstrap
import LoggingFacade.CommandLine
import LoggingFacade.Text.Padded

/-!
# Inspecting an installation

The commands of the program: which providers there are and which backend would
be selected, which plugins there are, whether the declared components can be
built, and the configuration in force. Their text goes to standard output.
-/

namespace LoggingFacade
namespace Inspection

def print (text : String) : Traced World Unit :=
  modify fun w => { w with output := ⟨w.output.bytes ++ Text.encodeUtf8 text.toList⟩ }

def printLine (text : String) : Traced World Unit := print (text ++ "\n")

def providerLine (d : Descriptor Backend) : String :=
  Text.padLeft 6 (toString d.priority) ++ "  " ++ Text.padRight 48 d.className ++ " " ++
    d.apiVersion ++ " (" ++ d.source ++ ")"

/-- The providers found, the one of the highest priority first, and the backend
that would be selected. -/
def providers (r : Registrations) (h : Host) (c : ManagerConfig) : Traced World Unit := do
  let selector := Bootstrap.selector r h c
  let candidates ← selector.registry.discover
  if candidates.isEmpty then printLine "No providers discovered"
  candidates.reverse.forM fun d => printLine (providerLine d)
  let selected ← selector.selectFrom candidates
  printLine ""
  printLine ("Selected: " ++ selected.backend.implementation ++ " (" ++ selected.rule.name ++ ")")

def pluginLine (name : String) (type : ElementType) (description : String) : String :=
  Text.padRight 16 name ++ " " ++ Text.padRight 10 type.name ++ " " ++ description

def plugins (r : Registrations) : Traced World Unit :=
  (Plugin.listing r.plugins).forM fun (name, type, description) =>
    printLine (pluginLine name type description)

/-- The names of appenders in ascending order. -/
def sortedNames (m : AppenderMap) : List String := m.names.mergeSort fun a b => a ≤ b

def failureCount (failures declared : Nat) : String :=
  toString failures ++ " of " ++ toString declared ++ " declared components failed to build"

/-- Builds the declared components. It succeeds only if all of them, at the top
level, were built. -/
def check (r : Registrations) (components : List Declaration) :
    Traced World (Except String Unit) := do
  let report ← ComponentReport.build (← r.binding) components
  (sortedNames report.appenders).forM fun name => printLine ("ok      appender " ++ name)
  report.failures.forM fun f =>
    printLine ("failed  " ++ f.declaration ++ ": " ++ f.error.message)
  if report.isClean then
    printLine (toString components.length ++ " components built, " ++
      toString report.appenders.size ++ " appenders")
    return .ok ()
  else return .error (failureCount report.failures.length components.length)

def command (r : Registrations) (h : Host) (config : Config) (c : Command) :
    Traced World (Except String Unit) :=
  match c with
  | .providers => return .ok (← providers r h config.manager)
  | .plugins => return .ok (← plugins r)
  | .check => check r config.components
  | .config => return .ok (← print config.render)

def reportingFailure : String := "Failed to initialize diagnostic logging"

/-- Starts to write diagnostics and runs a command. -/
def perform (r : Registrations) (h : Host) (config : Config) (c : Command) :
    Traced World (Except String Unit) := do
  match ← Bootstrap.startReporting h config.logging with
  | .error _ => return .error reportingFailure
  | .ok () =>
    Traced.report (.commandStarted c.viewName)
    command r h config c

/-- How the program ends, and what it wrote. -/
structure Completion where
  status : Nat
  output : Text.Bytes
  failure : Option String
  logged : List Diagnostic
  /-- Whether diagnostics are written as JSON. -/
  json : Bool

namespace Completion

def misused : Completion := ⟨2, [], none, [], false⟩

def told (text : String) : Completion := ⟨0, Text.encodeUtf8 text.toList, none, [], false⟩

/-- The end of a command: diagnostics are written as far as the subscriber lets
them through. -/
def ofOutcome (o : Outcome World (Except String Unit)) : Completion :=
  let (logged, json) := match o.state.subscriber with
    | some s => (o.diagnostics.filter s.filter.lets, s.json)
    | none => ([], false)
  match o.value with
  | .ok () => ⟨0, o.state.output.bytes, none, logged, json⟩
  | .error failure => ⟨1, o.state.output.bytes, some failure, logged, json⟩

end Completion

def loadingFailure : String := "Failed to load lumber configuration"

def loader (path : Option String) : ConfigLoader := { ConfigLoader.standard with configPath := path }

/-- Runs the program with its arguments. What is reported before the
configuration is known is not written anywhere. -/
def run (r : Registrations) (h : Host) (w : World) (arguments : List String) : Completion :=
  match CommandLine.read arguments with
  | .misuse => .misused
  | .tell text => .told text
  | .run invocation =>
    let loaded := ((loader invocation.configPath).load h).run w
    match loaded.value with
    | .error _ => ⟨1, loaded.state.output.bytes, some loadingFailure, [], false⟩
    | .ok config => .ofOutcome ((perform r h config invocation.command).run loaded.state)

end Inspection
end LoggingFacade
