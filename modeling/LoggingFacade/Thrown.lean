import LoggingFacade.Error
import LoggingFacade.Text.Lines

/-!
# Attached errors

An error that an event carries may refuse to be shown: rendering it gives its
text, or fails, perhaps after part of the text, or ends abruptly. The elements
of its chain are written into one draft until one of them does not come to its
end, and an unfinished draft is dropped as a whole. What is written of the
error is then the debugging text of the outermost element, or a fixed
placeholder where that is not finished either.
-/

namespace LoggingFacade

/-- How an attempt to render a text goes. -/
inductive RenderingMode where
  | whole
  | refused
  | cutShort
  | abrupt
  deriving DecidableEq, Repr

structure Rendering where
  text : String
  mode : RenderingMode
  deriving DecidableEq, Repr

/-- How a call that writes text ends. -/
inductive Ending where
  | complete
  | refused
  | abrupt
  deriving DecidableEq, Repr

/-- The text written so far, and how the last call that wrote to it ended. -/
structure Draft where
  text : String
  ending : Ending
  deriving DecidableEq, Repr

namespace Draft

/-- Goes on from what is written, unless the last call did not come to its end. -/
def andThen (d : Draft) (write : String → Draft) : Draft :=
  match d.ending with
  | .complete => write d.text
  | _ => d

/-- The text, if every call came to its end. Neither a failure nor an abrupt end
goes further than here. -/
def finished? (d : Draft) : Option String :=
  match d.ending with
  | .complete => some d.text
  | _ => none

end Draft

namespace Rendering

def plain (text : String) : Rendering := ⟨text, .whole⟩

/-- Writes the text behind what is there. An attempt that does not come to its
end may have written text before. -/
def writeTo (r : Rendering) (before : String) : Draft :=
  match r.mode with
  | .whole => ⟨before ++ r.text, .complete⟩
  | .refused => ⟨before, .refused⟩
  | .cutShort => ⟨before ++ r.text, .refused⟩
  | .abrupt => ⟨before ++ r.text, .abrupt⟩

end Rendering

/-- An error with the errors it was caused by, nearest first. -/
structure Thrown where
  display : Rendering
  debug : Rendering
  causes : List Rendering
  deriving DecidableEq, Repr

namespace Thrown

def placeholder : String := "<unrenderable error>"

/-- Writes the causes, each announced on a line of its own. -/
def writeCauses : List Rendering → String → Draft
  | [], before => ⟨before, .complete⟩
  | cause :: more, before =>
    (cause.writeTo (before ++ "\nCaused by: ")).andThen (writeCauses more)

/-- The whole chain as far as it can be written. -/
def draft (t : Thrown) : Draft := (t.display.writeTo "").andThen (writeCauses t.causes)

def lines (t : Thrown) : List String :=
  match t.draft.finished? with
  | some text => Text.lines text
  | none => [(t.debug.writeTo "").finished?.getD placeholder]

/-- A failure of the facade as an attached error. -/
def ofError (e : Error) : Thrown := ⟨.plain e.message, .plain "", e.causes.map .plain⟩

end Thrown
end LoggingFacade
