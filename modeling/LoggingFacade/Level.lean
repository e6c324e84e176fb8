import LoggingFacade.Error
import LoggingFacade.Text.Blank
import LoggingFacade.Text.Letter

/-!
# Severity levels

Levels from `off` to `all`, each with a weight. A threshold lets through the
levels of at most its own weight, and never `off`, which is no event's level.
-/

namespace LoggingFacade

inductive Level where
  | off
  | fatal
  | error
  | warn
  | info
  | debug
  | trace
  | all
  deriving DecidableEq, Repr, Inhabited

namespace Level

def weight : Level → Nat
  | off => 0
  | fatal => 100
  | error => 200
  | warn => 300
  | info => 400
  | debug => 500
  | trace => 600
  | all => 4294967295

def name : Level → String
  | off => "OFF"
  | fatal => "FATAL"
  | error => "ERROR"
  | warn => "WARN"
  | info => "INFO"
  | debug => "DEBUG"
  | trace => "TRACE"
  | all => "ALL"

/-- The name as a constructor in a debugging view. -/
def viewName : Level → String
  | off => "Off"
  | fatal => "Fatal"
  | error => "Error"
  | warn => "Warn"
  | info => "Info"
  | debug => "Debug"
  | trace => "Trace"
  | all => "All"

def isEnabledAt (level threshold : Level) : Bool :=
  level != off && level.weight ≤ threshold.weight

/-- Levels are ordered from the most to the least severe. -/
def compareTo (a b : Level) : Ordering := compare a.weight b.weight

/-- A level by its name, without regard to case and surrounding white space. -/
def ofName (text : String) : Except Error Level :=
  match Text.upper (Text.trim text) with
  | "OFF" => .ok off
  | "FATAL" => .ok fatal
  | "ERROR" => .ok error
  | "WARN" => .ok warn
  | "WARNING" => .ok warn
  | "INFO" => .ok info
  | "DEBUG" => .ok debug
  | "TRACE" => .ok trace
  | "ALL" => .ok all
  | other => .error (.configuration ("Invalid level: " ++ other) [])

theorem weight_injective {a b : Level} (h : a.weight = b.weight) : a = b := by
  cases a <;> cases b <;> simp_all [weight]

theorem not_isEnabledAt_off (threshold : Level) : off.isEnabledAt threshold = false := rfl

end Level
end LoggingFacade
