import LoggingFacade.Appender.Device
import LoggingFacade.Backend
import LoggingFacade.Diagnostic.Filter
import LoggingFacade.Selected
import LoggingFacade.Store

/-!
# The world

Everything that outlives a single call: what appenders, contexts and backends
hold, the memory appenders published by name, the standard streams, the current
realm of the running thread, the backend selected for the process and the
subscriber of its diagnostics.
-/

namespace LoggingFacade

open Text (Bytes)

structure World where
  devices : Store Device
  published : TextMap Appender
  contexts : Store ContextState
  backends : Store BackendState
  /-- The number of loggers made so far. -/
  loggers : Nat
  realm : Option Realm
  output : Buffer
  errorOutput : Buffer
  /-- The time of the clock, in milliseconds. -/
  now : Int
  thread : String
  selected : Option (Selected Backend)
  subscriber : Option Subscriber

namespace World

def initial (now : Int) (thread : String) : World where
  devices := .empty
  published := .empty
  contexts := .empty
  backends := .empty
  loggers := 0
  realm := none
  output := .empty
  errorOutput := .empty
  now := now
  thread := thread
  selected := none
  subscriber := none

def stream (w : World) : ConsoleTarget → Buffer
  | .systemOut => w.output
  | .systemErr => w.errorOutput

def setStream (w : World) (target : ConsoleTarget) (b : Buffer) : World :=
  match target with
  | .systemOut => { w with output := b }
  | .systemErr => { w with errorOutput := b }

/-- Adds an appender that writes to a new device. -/
def addAppender (device : Device) (name : String) (layout : Option Layout) :
    Traced World Appender :=
  modifyGet fun w =>
    (⟨w.devices.next, name, layout⟩, { w with devices := w.devices.add device })

/-- The state of a context; one that was never used holds nothing. -/
def contextState (w : World) (c : Context) : ContextState :=
  (w.contexts.get? c.id).getD .empty

def updateContext (w : World) (c : Context) (f : ContextState → ContextState) : World :=
  { w with contexts := w.contexts.update c.id f }

def addContext (kind : BackendKind) (name : String) (level : Level) : Traced World Context :=
  modifyGet fun w =>
    (⟨w.contexts.next, kind, name, level⟩, { w with contexts := w.contexts.add .empty })

/-- Enters a realm; the guard undoes it. -/
def enterRealm (realm : Realm) : Traced World Realm.Guard :=
  modifyGet fun w =>
    let (current, guard) := Realm.enter w.realm realm
    (guard, { w with realm := current })

def leaveRealm (guard : Realm.Guard) : Traced World Unit :=
  modify fun w => { w with realm := Realm.leave guard }

/-- The contexts of a backend's realms. -/
def realms (w : World) (b : Backend) : List (Realm × Context) :=
  ((w.backends.get? b.id).map BackendState.realms).getD []

end World
end LoggingFacade
