import LoggingFacade.Appender
import LoggingFacade.Message
import LoggingFacade.Realm

/-!
# Backends, contexts and loggers

A backend gives out contexts and a context gives out loggers. The standard
backend has one global context and one for each realm, and its loggers write to
the appenders of their context; the simple one has a single context, whose
loggers write plain lines to standard error. What these things are never
changes; what they hold is state of the world they belong to.
-/

namespace LoggingFacade

inductive BackendKind where
  | standard
  | simple
  deriving DecidableEq, Repr

structure Context where
  id : Nat
  kind : BackendKind
  name : String
  level : Level
  deriving DecidableEq, Repr

structure Logger where
  id : Nat
  name : String
  level : Level
  format : MessageFormat
  context : Context

structure Backend where
  id : Nat
  kind : BackendKind
  implementation : String
  level : Level
  /-- The global context, or the only one. -/
  root : Context
  deriving DecidableEq, Repr

namespace Backend

def standardClass : String := "lumber.providers.StandardContextFactory"

def simpleClass : String := "lumber.infrastructure.SimpleContextFactory"

/-- The threshold of the standard backend's loggers. -/
def standardLevel : Level := .info

/-- The threshold of the simple backend's loggers, unless configured. -/
def simpleLevel : Level := .error

end Backend

/-- What a context holds: its loggers by name, and the appenders its loggers
write to. -/
structure ContextState where
  loggers : List (String × Logger)
  table : AppenderMap

namespace ContextState

def empty : ContextState := ⟨[], .empty⟩

end ContextState

/-- What a backend holds: the contexts of the realms seen so far. -/
structure BackendState where
  realms : List (Realm × Context)

end LoggingFacade
