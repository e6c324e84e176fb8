/-!
# Failures

What can go wrong in discovery, building and writing. A failure is its cause;
the wording is given by `Error.message` alone. Failures that wrap another one
keep the texts of the chain below them, nearest first.
-/

namespace LoggingFacade

inductive Error where
  | systemIo (reason : String)
  | io (reason : String)
  | configuration (reason : String) (causes : List String)
  | discovery (source reason : String) (causes : List String)
  | instantiation (className source reason : String)
  | unknownComponent (name : String)
  | coercion (component parameter reason : String)
  | missingParameter (component parameter : String)
  | factory (component reason : String)
  | appender (name reason : String)
  | infrastructure (reason : String) (causes : List String)
  | internal (reason : String)
  deriving DecidableEq, Repr, Inhabited

namespace Error

def message : Error → String
  | systemIo reason => "I/O error: " ++ reason
  | io reason => "I/O error: " ++ reason
  | configuration reason _ => "Configuration error: " ++ reason
  | discovery source reason _ => "Discovery error in " ++ source ++ ": " ++ reason
  | instantiation className source reason =>
    "Unable to create " ++ className ++ " specified in " ++ source ++ ": " ++ reason
  | unknownComponent name => "Unknown component type: " ++ name
  | coercion component parameter reason =>
    "Invalid value for " ++ component ++ "." ++ parameter ++ ": " ++ reason
  | missingParameter component parameter =>
    "Missing required parameter " ++ component ++ "." ++ parameter
  | factory component reason => "Factory for " ++ component ++ " failed: " ++ reason
  | appender name reason => "Appender " ++ name ++ " failed: " ++ reason
  | infrastructure reason _ => "Infrastructure error: " ++ reason
  | internal reason => "Internal error: " ++ reason

/-- The kind of failure, as a constructor in a debugging view. -/
def viewName : Error → String
  | systemIo _ => "IoSimple"
  | io _ => "Io"
  | configuration .. => "Configuration"
  | discovery .. => "Discovery"
  | instantiation .. => "Instantiation"
  | unknownComponent _ => "UnknownComponent"
  | coercion .. => "Coercion"
  | missingParameter .. => "MissingParameter"
  | factory .. => "Factory"
  | appender .. => "Appender"
  | infrastructure .. => "Infrastructure"
  | internal _ => "Internal"

/-- The texts of the failures below this one, nearest first. -/
def causes : Error → List String
  | systemIo reason => [reason]
  | configuration _ causes => causes
  | discovery _ _ causes => causes
  | infrastructure _ causes => causes
  | _ => []

/-- The failures that building a component may end in. -/
def isBuildError : Error → Bool
  | unknownComponent _ => true
  | coercion .. => true
  | missingParameter .. => true
  | factory .. => true
  | _ => false

/-- The same failure seen from a larger task. -/
def inContext (context : String) (e : Error) : Error :=
  infrastructure (context ++ ": " ++ e.message) (e.message :: e.causes)

/-- The same failure as a reason why a configuration cannot be used. -/
def inConfiguration (context : String) (e : Error) : Error :=
  configuration (context ++ ": " ++ e.message) (e.message :: e.causes)

end Error

/-- The end of a call into code that is not trusted to return: a value, a
reported failure, or an abrupt end without either. -/
inductive Attempt (α : Type) where
  | done (value : α)
  | failed (error : Error)
  | crashed
  deriving Repr

namespace Attempt

variable {α β : Type}

def ofExcept : Except Error α → Attempt α
  | .ok a => done a
  | .error e => failed e

/-- An abrupt end is turned into the given failure. -/
def contain (abrupt : Error) : Attempt α → Except Error α
  | done a => .ok a
  | failed e => .error e
  | crashed => .error abrupt

@[simp] theorem contain_done (abrupt : Error) (a : α) : (done a).contain abrupt = .ok a := rfl

@[simp] theorem contain_failed (abrupt e : Error) :
    (failed e : Attempt α).contain abrupt = .error e := rfl

@[simp] theorem contain_crashed (abrupt : Error) :
    (crashed : Attempt α).contain abrupt = .error abrupt := rfl

end Attempt
end LoggingFacade
