import LoggingFacade.Error
import LoggingFacade.Layout
import LoggingFacade.Sink

/-!
# Framed output

The events of an appender between the header and the footer of its layout. The
header is written once, before the first event or the footer; stopping writes
the footer and ends the output. A frame keeps its state over faults of the
sink: a header that failed is not tried again.
-/

namespace LoggingFacade

structure Frame (S : Type) where
  sink : S
  started : Bool
  stopped : Bool
  deriving DecidableEq, Repr

namespace Frame

variable {S : Type}

def fresh (sink : S) : Frame S := ⟨sink, false, false⟩

def isStopped : String := "appender is stopped"

/-- A fault of the sink as a failure of the appender that uses it. -/
def blame (name : String) : Answer Unit → Attempt Unit
  | .done () => .done ()
  | .failed reason => .failed (.appender name reason)
  | .crashed => .crashed

variable [Sink S]

/-- All bytes written so far. -/
def bytes (f : Frame S) : Text.Bytes := Sink.bytes f.sink

/-- Tries to write the header, unless it was tried before. -/
def start (name : String) (layout : Option Layout) (f : Frame S) : Frame S × Attempt Unit :=
  if f.started then (f, .done ())
  else
    let (sink, answer) := Sink.writeAll f.sink ((Layout.headerBytes layout).getD [])
    ({ f with sink := sink, started := true }, blame name answer)

/-- Writes an event, after the header. -/
def writeEvent (name : String) (layout : Option Layout) (e : Event) (f : Frame S) :
    Frame S × Attempt Unit :=
  if f.stopped then (f, .failed (.appender name isStopped))
  else
    match f.start name layout with
    | (f, .done ()) =>
      let (sink, answer) := Sink.writeFlushed f.sink (Layout.render layout e)
      ({ f with sink := sink }, blame name answer)
    | (f, attempt) => (f, attempt)

/-- Writes the footer, after the header, and ends the output. Stopping again
does nothing. -/
def stop (name : String) (layout : Option Layout) (f : Frame S) : Frame S × Attempt Unit :=
  if f.stopped then (f, .done ())
  else
    match f.start name layout with
    | (f, .done ()) =>
      let (sink, answer) := Sink.writeFlushed f.sink ((Layout.footerBytes layout).getD [])
      ({ f with sink := sink, stopped := true }, blame name answer)
    | (f, attempt) => (f, attempt)

end Frame
end LoggingFacade
