import LoggingFacade.Charset
import LoggingFacade.Event

/-!
# Layouts

A layout turns events into text in a charset. It may ask for a header before
the first event and a footer after the last one, given as bytes.
-/

namespace LoggingFacade

open Text (Bytes)

structure Layout where
  text : Event → String
  header : Option Bytes
  footer : Option Bytes
  charset : Charset
  contentType : String

namespace Layout

/-- The bytes of an event. -/
def bytes (l : Layout) (e : Event) : Bytes := l.charset.encode (l.text e)

/-- The content type of plain text in a charset. -/
def plainType (charset : Charset) : String := "text/plain; charset=" ++ charset.name

/-- One line per event: a label and the message. Header and footer are given
as text. -/
def labelled (label : String) (charset : Charset) (header footer : Option String) : Layout where
  text e := label ++ e.message.getD "<none>" ++ "\n"
  header := header.map charset.encode
  footer := footer.map charset.encode
  charset := charset
  contentType := plainType charset

/-- The bytes of an event under an optional layout; without one, plain lines
in UTF-8. -/
def render (layout : Option Layout) (e : Event) : Bytes :=
  match layout with
  | some l => l.bytes e
  | none => Charset.utf8.encode e.plainText

/-- The header an optional layout asks for; none is no bytes. -/
def headerBytes (layout : Option Layout) : Option Bytes := layout.bind Layout.header

/-- The footer an optional layout asks for. -/
def footerBytes (layout : Option Layout) : Option Bytes := layout.bind Layout.footer

end Layout
end LoggingFacade
