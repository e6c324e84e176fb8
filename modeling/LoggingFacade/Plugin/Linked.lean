import LoggingFacade.Appender.Writing
import LoggingFacade.Layout.Xml
import LoggingFacade.Plugin

/-!
# The plugins of the facade

The XML layout, the console and memory appenders, and the set of appenders.
-/

namespace LoggingFacade
namespace Plugin

/-- The XML layout that arguments ask for. -/
def xmlLayout (a : Arguments) : Except Error XmlLayout := do
  return ⟨← a.bool "locationInfo", ← a.bool "properties", ← a.bool "complete",
    ← a.charset "charset"⟩

def xml {σ : Type} : Plugin σ where
  name := "XMLLayout"
  elementType := .layout
  description := "log4j-compatible XML events, optionally as a standalone document"
  parameters :=
    [.withStandard "locationInfo" .bool "false",
     .withStandard "properties" .bool "false",
     .withStandard "complete" .bool "false",
     .withStandard "charset" .charset "UTF-8"]
  factory a := return .ofExcept ((xmlLayout a).map fun x => .layout x.toLayout)

/-- The name and the target of a console appender. -/
def consoleSettings (a : Arguments) : Except Error (String × ConsoleTarget) := do
  let name ← a.requiredText "name"
  match a.text? "target" with
  | some text => return (name, ← ConsoleTarget.ofName text)
  | none => return (name, .systemOut)

def console : Plugin World where
  name := "Console"
  elementType := .appender
  description := "Writes events to standard output or standard error"
  parameters :=
    [.mandatory "name" .text,
     .withStandard "target" .text ConsoleTarget.systemOut.name,
     .optional "layout" (.element .layout)]
  factory a := do
    match consoleSettings a with
    | .error e => return .failed e
    | .ok (name, target) => return .done (.appender (← Appender.console name target (a.layout? "layout")))

def memory : Plugin World where
  name := "Memory"
  elementType := .appender
  description := "Captures events in memory, readable by appender name"
  parameters := [.mandatory "name" .text, .optional "layout" (.element .layout)]
  factory a := do
    match a.requiredText "name" with
    | .error e => return .failed e
    | .ok name => return .done (.appender (← Appender.publishedMemory name (a.layout? "layout")))

def appenderSet {σ : Type} : Plugin σ where
  name := "appenders"
  elementType := .appenders
  description := "Collects appender declarations into a name-keyed set"
  parameters := [.optional "appenders" (.elements .appender)]
  factory a := do
    let map ← AppenderMap.collect ((a.elements "appenders").filterMap Component.asAppender?)
    Traced.report (.appendersCollected map.size)
    return .done (.appenders map)

def linked : List (Plugin World) := [xml, console, memory, appenderSet]

/-- Names, element types and descriptions in the order of the names, without
regard to case. -/
def listing {σ : Type} (plugins : List (Plugin σ)) : List (String × ElementType × String) :=
  (plugins.map fun p => (p.name, p.elementType, p.description)).mergeSort fun a b =>
    Text.lower a.1 ≤ Text.lower b.1

end Plugin
end LoggingFacade
