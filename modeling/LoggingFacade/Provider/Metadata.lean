import LoggingFacade.Document.Toml
import LoggingFacade.Document.Toml.Moments
import LoggingFacade.Document.Toml.Style
import LoggingFacade.Error
import LoggingFacade.Text.Blank

/-!
# Metadata of providers

A record names the class of a backend, the version of the interface it was made
for and its priority among other backends. Records are read leniently: a key of
another type counts as missing, and the priority is judged only when it is
asked for.
-/

namespace LoggingFacade

open Number (Bounds readInteger)

structure Metadata where
  factory : Option String
  apiVersion : Option String
  priorityValue : Option Document

namespace Metadata

def factoryKey : String := "LoggerContextFactory"

def versionKey : String := "ApiVersion"

def priorityKey : String := "FactoryPriority"

/-- The priority of a record that gives none. -/
def standardPriority : Int := -1

def ofDocument (d : Document) : Metadata where
  factory := (d.get? factoryKey).bind Document.asText?
  apiVersion := (d.get? versionKey).bind Document.asText?
  priorityValue := d.get? priorityKey

/-- The document of a record, whose integers all have 64 signed bits. -/
def document? (text : String) : Option Document := do
  (← (← Toml.read? .v1_1 text).recognizedBelow?).withinBounds? .int64

/-- Reads a record; only a text that is no document at all is an error. -/
def read (source text : String) : Except Error Metadata :=
  match document? text with
  | some d => .ok (ofDocument d)
  | none => .error (.discovery source "Malformed provider metadata" [])

def invalidPriority (source value : String) : Error :=
  .discovery source ("Invalid priority: " ++ value) []

/-- The priority, an integer of 32 signed bits, possibly given as text with
white space around it. -/
def priority (m : Metadata) (source : String) : Except Error Int :=
  match m.priorityValue with
  | none => .ok standardPriority
  | some (.integer n) =>
    if Bounds.int32.contains n then .ok n
    else .error (.discovery source ("Priority out of range: " ++ toString n) [])
  | some (.text s) =>
    match readInteger .int32 (Text.trim s) with
    | .ok n => .ok n
    | .error _ => .error (invalidPriority source s)
  | some other => .error (invalidPriority source (Toml.valueText other))

end Metadata
end LoggingFacade
