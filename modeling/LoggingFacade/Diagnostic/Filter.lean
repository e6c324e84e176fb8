import LoggingFacade.Diagnostic.Directive

/-!
# Filters of diagnostics

A filter is a list of directives. Of those that are for a diagnostic the most
specific one decides; of equal ones the last.
-/

namespace LoggingFacade

structure DiagnosticFilter where
  directives : List Directive
  deriving DecidableEq, Repr

namespace DiagnosticFilter

/-- The pieces between commas that are not empty. -/
def pieces (text : String) : List String :=
  let (current, done) := text.toList.foldr
    (fun c (current, done) => if c == ',' then ([], String.ofList current :: done)
      else (c :: current, done)) ([], [])
  (String.ofList current :: done).filter fun piece => piece != ""

/-- Without any directive errors alone are let through. -/
def ofDirectives (ds : List Directive) : DiagnosticFilter :=
  if ds.isEmpty then ⟨[⟨"", none, false, some .error⟩]⟩ else ⟨ds⟩

/-- Reads a filter; every directive must be well formed. -/
def read? (text : String) : Option DiagnosticFilter :=
  ((pieces text).mapM Directive.read?).map ofDirectives

/-- Reads a filter and leaves out what is malformed. -/
def readLenient (text : String) : DiagnosticFilter :=
  ofDirectives ((pieces text).filterMap Directive.read?)

/-- The directive that decides about a diagnostic. -/
def deciding? (f : DiagnosticFilter) (d : Diagnostic) : Option Directive :=
  (f.directives.filter (·.isFor d)).foldl (fun best next =>
    match best with
    | some best => if best.isBefore next then some best else some next
    | none => some next) none

def lets (f : DiagnosticFilter) (d : Diagnostic) : Bool :=
  match (f.deciding? d).bind Directive.level with
  | some level => d.severity.rank ≤ level.rank
  | none => false

end DiagnosticFilter

/-- Where diagnostics are written: as plain lines or as JSON. -/
structure Subscriber where
  filter : DiagnosticFilter
  json : Bool
  deriving DecidableEq, Repr

end LoggingFacade
