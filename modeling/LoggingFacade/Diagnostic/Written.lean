import LoggingFacade.Diagnostic
import LoggingFacade.Document.Json.Printer

/-!
# Diagnostics as text

A diagnostic is written on one line: plainly, or as a JSON document.
-/

namespace LoggingFacade

namespace Diagnostic

/-- Severity, message and fields, these in the order of their names. -/
def toDocument (d : Diagnostic) : Document :=
  .table [("level", .text d.severity.name), ("message", .text d.message),
    ("fields", .table ((TextMap.ofList d.fields).entries.map fun f => (f.1, .text f.2)))]

/-- Severity, area, message and fields on one line. -/
def line (d : Diagnostic) : String :=
  " ".intercalate ([d.severity.name, d.area ++ ":", d.message] ++
    d.fields.map fun f => f.1 ++ "=" ++ Json.quote f.2)

/-- The line written for a diagnostic. -/
def written (json : Bool) (d : Diagnostic) : String :=
  if json then Json.print d.toDocument else d.line

end Diagnostic
end LoggingFacade
