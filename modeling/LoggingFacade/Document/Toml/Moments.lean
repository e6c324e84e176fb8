import LoggingFacade.Document
import LoggingFacade.Document.Moment

/-!
# Moments as tables

A reader that knows no moments of its own sees each one as a table with a single
entry, its text under a key that is kept for this purpose. In the other
direction a table that starts with that key is a moment again.
-/

namespace LoggingFacade
namespace Document

/-- The key kept for the text of a moment. -/
def momentKey : String := "$__toml_private_datetime"

/-- Every moment as a table. -/
def spelledOut : Document → Document
  | moment written => table [(momentKey, text written)]
  | list items => list (itemsSpelledOut items)
  | table entries => table (entriesSpelledOut entries)
  | d => d
where
  itemsSpelledOut : List Document → List Document
    | [] => []
    | item :: rest => item.spelledOut :: itemsSpelledOut rest
  entriesSpelledOut : List (String × Document) → List (String × Document)
    | [] => []
    | (key, value) :: rest => (key, value.spelledOut) :: entriesSpelledOut rest

/-- The moment that a value under the kept key stands for. -/
def momentOf? (d : Document) : Option Document := do
  let read ← Moment.read? true (← d.asText?).toList
  return moment read.text

/-- Every table that starts with the kept key as a moment, whatever else it
holds. A value under that key that is no moment makes the document malformed. -/
def recognized? : Document → Option Document
  | table ((key, value) :: rest) =>
    if key == momentKey then momentOf? value
    else do return table (← entriesRecognized? ((key, value) :: rest))
  | list items => do return list (← itemsRecognized? items)
  | d => some d
where
  itemsRecognized? : List Document → Option (List Document)
    | [] => some []
    | item :: rest => do return (← item.recognized?) :: (← itemsRecognized? rest)
  entriesRecognized? : List (String × Document) → Option (List (String × Document))
    | [] => some []
    | (key, value) :: rest => do
      return (key, ← value.recognized?) :: (← entriesRecognized? rest)

/-- The tables below the outermost one, which is a table in any case. -/
def recognizedBelow? : Document → Option Document
  | table entries => do return table (← recognized?.entriesRecognized? entries)
  | d => d.recognized?

end Document
end LoggingFacade
