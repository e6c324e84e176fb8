import LoggingFacade.Appender.Frame
import LoggingFacade.Text.Quoted

/-!
# Devices

Where the events of an appender go: a buffer in memory, a standard stream, a
record for inspection, or nowhere.
-/

namespace LoggingFacade

/-- The standard streams a console appender writes to. -/
inductive ConsoleTarget where
  | systemOut
  | systemErr
  deriving DecidableEq, Repr

namespace ConsoleTarget

def name : ConsoleTarget → String
  | systemOut => "SYSTEM_OUT"
  | systemErr => "SYSTEM_ERR"

/-- The name as a constructor in a debugging view. -/
def viewName : ConsoleTarget → String
  | systemOut => "SystemOut"
  | systemErr => "SystemErr"

/-- A target by its name in any case, without white space around it. -/
def ofName (text : String) : Except Error ConsoleTarget :=
  if Text.sameName text systemOut.name then .ok systemOut
  else if Text.sameName text systemErr.name then .ok systemErr
  else
    .error (.coercion "Console" "target" ("expected " ++ systemOut.name ++ " or " ++
      systemErr.name ++ ", got " ++ Text.quoted text))

end ConsoleTarget

inductive Recorded where
  | event (event : Event)
  | stop

/-- Keeps everything it is told, and may refuse all the same. -/
structure Recorder where
  record : List Recorded
  refusesEvents : Bool
  refusesStop : Bool

namespace Recorder

def append (r : Recorder) (name : String) (e : Event) : Recorder × Except Error Unit :=
  ({ r with record := r.record ++ [.event e] },
    if r.refusesEvents then .error (.appender name "recorder refuses") else .ok ())

def stop (r : Recorder) (name : String) : Recorder × Except Error Unit :=
  ({ r with record := r.record ++ [.stop] },
    if r.refusesStop then .error (.appender name "recorder will not stop") else .ok ())

end Recorder

inductive Device where
  | memory (frame : Frame Buffer)
  /-- The stream itself belongs to the world; only the state of the frame on it
  is the device's own. -/
  | console (target : ConsoleTarget) (started stopped : Bool)
  | recorder (recorder : Recorder)
  | discard

end LoggingFacade
