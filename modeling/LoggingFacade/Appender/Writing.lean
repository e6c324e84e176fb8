import LoggingFacade.World

/-!
# Writing to appenders

Appending events to an appender and stopping it. A memory appender may be
published by name; stopping it ends its publication, unless another appender
has taken its name in the meantime.
-/

namespace LoggingFacade
namespace Appender

def memory (name : String) (layout : Option Layout) : Traced World Appender :=
  World.addAppender (.memory (.fresh .empty)) name layout

def console (name : String) (target : ConsoleTarget) (layout : Option Layout) :
    Traced World Appender :=
  World.addAppender (.console target false false) name layout

/-- A memory appender that can be found by its name. -/
def publishedMemory (name : String) (layout : Option Layout) : Traced World Appender := do
  let appender ← memory name layout
  let w ← get
  set { w with published := w.published.insert name appender }
  if (w.published.get? name).isSome then Traced.report (.publicationReplaced name)
  return appender

/-- The frame of an appender that has one; that of a console appender is laid
over the stream it writes to. -/
def frame? (w : World) (a : Appender) : Option (Frame Buffer) :=
  match w.devices.get? a.id with
  | some (.memory frame) => some frame
  | some (.console target started stopped) => some ⟨w.stream target, started, stopped⟩
  | _ => none

def setFrame (w : World) (a : Appender) (f : Frame Buffer) : World :=
  match w.devices.get? a.id with
  | some (.console target _ _) =>
    { w.setStream target f.sink with
      devices := w.devices.set a.id (.console target f.started f.stopped) }
  | _ => { w with devices := w.devices.set a.id (.memory f) }

/-- The failure of an appender whose device ended abruptly. -/
def abrupt (a : Appender) : Error := .appender a.name "appender ended abruptly"

/-- Applies an operation to the frame of an appender, if it has one. -/
def onFrame (a : Appender) (act : Frame Buffer → Frame Buffer × Attempt Unit) :
    Traced World (Except Error Unit) := do
  let w ← get
  match a.frame? w with
  | some frame =>
    let (frame, attempt) := act frame
    set (a.setFrame w frame)
    return attempt.contain a.abrupt
  | none => return .ok ()

def append (a : Appender) (e : Event) : Traced World (Except Error Unit) := do
  let w ← get
  match w.devices.get? a.id with
  | some (.recorder recorder) =>
    let (recorder, result) := recorder.append a.name e
    set { w with devices := w.devices.set a.id (.recorder recorder) }
    return result
  | _ => a.onFrame (Frame.writeEvent a.name a.layout e)

/-- Ends the publication of an appender, if it is this one that is published
under its name. -/
def unpublish (a : Appender) : Traced World Unit := do
  let w ← get
  match w.published.get? a.name with
  | some other =>
    if other.id = a.id then
      set { w with published := w.published.erase a.name }
      Traced.report (.publicationEnded a.name)
  | none => pure ()

def stop (a : Appender) : Traced World (Except Error Unit) := do
  let w ← get
  match w.devices.get? a.id with
  | some (.recorder recorder) =>
    let (recorder, result) := recorder.stop a.name
    set { w with devices := w.devices.set a.id (.recorder recorder) }
    return result
  | some (.memory _) =>
    let result ← a.onFrame (Frame.stop a.name a.layout)
    a.unpublish
    return result
  | _ => a.onFrame (Frame.stop a.name a.layout)

/-- The memory appender published under a name. -/
def lookup (w : World) (name : String) : Option Appender := w.published.get? name

/-- What a memory appender holds. -/
def contents (w : World) (a : Appender) : Text.Bytes :=
  match w.devices.get? a.id with
  | some (.memory frame) => frame.bytes
  | _ => []

/-- What a recorder kept. -/
def record (w : World) (a : Appender) : List Recorded :=
  match w.devices.get? a.id with
  | some (.recorder recorder) => recorder.record
  | _ => []

def isStopped (w : World) (a : Appender) : Bool :=
  ((a.frame? w).map Frame.stopped).getD false

end Appender

namespace AppenderMap

/-- The appenders of a map that another one does not keep under their name. -/
def dropped (previous next : AppenderMap) : List (String × Appender) :=
  previous.entries.filter fun e =>
    match next.get? e.1 with
    | some kept => kept.id ≠ e.2.id
    | none => true

/-- Stops an appender that a table no longer holds; a failure is reported. -/
def stopDropped (e : String × Appender) : Traced World Unit := do
  match ← e.2.stop with
  | .ok () => pure ()
  | .error failure => Traced.report (.stopFailed e.1 failure)

/-- Puts one map in place of another: every appender that is not kept is
stopped. The result is their number. -/
def replace (previous next : AppenderMap) : Traced World Nat := do
  (previous.dropped next).forM stopDropped
  return (previous.dropped next).length

end AppenderMap
end LoggingFacade
