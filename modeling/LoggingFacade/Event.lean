import LoggingFacade.Level
import LoggingFacade.TextMap
import LoggingFacade.Thrown

/-!
# Log events

What a logger hands to its appenders.
-/

namespace LoggingFacade

/-- The place in a program that an event comes from. -/
structure SourceLocation where
  module : String
  function : Option String
  file : String
  line : Nat
  deriving DecidableEq, Repr

structure Event where
  logger : String
  timestamp : Int
  level : Level
  thread : String
  message : Option String
  contextStack : List String
  contextMap : TextMap String
  thrown : Option Thrown
  source : Option SourceLocation

namespace Event

/-- The label under which the root logger, whose name is empty, is written. -/
def rootLabel : String := "root"

/-- An event of the given thread at the given time, in milliseconds. -/
def create (thread : String) (now : Int) (logger : String) (level : Level) (message : String) :
    Event where
  logger := logger
  timestamp := now
  level := level
  thread := thread
  message := some message
  contextStack := []
  contextMap := .empty
  thrown := none
  source := none

def withTimestamp (e : Event) (millis : Int) : Event := { e with timestamp := millis }

def withThread (e : Event) (name : String) : Event := { e with thread := name }

def withContextEntry (e : Event) (entry : String) : Event :=
  { e with contextStack := e.contextStack ++ [entry] }

def withProperty (e : Event) (key value : String) : Event :=
  { e with contextMap := e.contextMap.insert key value }

def withThrown (e : Event) (thrown : Thrown) : Event := { e with thrown := some thrown }

def withSource (e : Event) (source : SourceLocation) : Event := { e with source := some source }

/-- The logger name as it is written. -/
def loggerLabel (e : Event) : String := if e.logger.isEmpty then rootLabel else e.logger

/-- The lines of the attached error; none without one. -/
def thrownLines (e : Event) : List String := (e.thrown.map Thrown.lines).getD []

/-- One unindented line for the event and an indented line for each line of the
attached error. -/
def plainText (e : Event) : String :=
  let first := toString e.timestamp ++ " " ++ e.level.name ++ " [" ++ e.thread ++ "] " ++
    e.loggerLabel ++ " - " ++ e.message.getD "" ++ "\n"
  e.thrownLines.foldl (fun text line => text ++ "    " ++ line ++ "\n") first

end Event
end LoggingFacade
