import LoggingFacade.Layout
import LoggingFacade.Layout.Escape

/-!
# The XML layout

Each event is one element in the `log4j` namespace prefix. A layout that
writes complete documents adds a declaration and an enclosing element, as
header and footer.
-/

namespace LoggingFacade

/-- The switches of the layout and its charset. -/
structure XmlLayout where
  locationInfo : Bool
  properties : Bool
  complete : Bool
  charset : Charset
  deriving DecidableEq, Repr

namespace XmlLayout

open Xml

def lineEnd : String := "\r\n"

def namespaceName : String := "http://logging.apache.org/log4j/"

def attr (name value : String) : String := " " ++ name ++ "=\"" ++ escapeTags value ++ "\""

/-- An element on a line of its own. -/
def element (name content : String) : String :=
  "<log4j:" ++ name ++ ">" ++ content ++ "</log4j:" ++ name ++ ">" ++ lineEnd

def messageText (e : Event) : String :=
  match e.message with
  | some message => element "message" (cdata message)
  | none => ""

/-- The context stack on one line, entries separated by a space. -/
def contextText (e : Event) : String :=
  if e.contextStack.isEmpty then ""
  else element "NDC" (cdata (" ".intercalate e.contextStack))

/-- Every line of the attached error, with a line end, in one section. -/
def thrownText (e : Event) : String :=
  match e.thrown with
  | some thrown =>
    let content := String.join (thrown.lines.map fun line => escapeCdata line ++ lineEnd)
    element "throwable" (cdataStart ++ content ++ cdataEnd)
  | none => ""

def locationText (x : XmlLayout) (e : Event) : String :=
  match e.source with
  | some source =>
    if x.locationInfo then
      "<log4j:locationInfo" ++ attr "class" source.module ++
        attr "method" (source.function.getD "?") ++ attr "file" source.file ++
        attr "line" (toString source.line) ++ "/>" ++ lineEnd
    else ""
  | none => ""

def propertyText (property : String × String) : String :=
  "<log4j:data" ++ attr "name" property.1 ++ attr "value" property.2 ++ "/>" ++ lineEnd

def propertiesText (x : XmlLayout) (properties : List (String × String)) : String :=
  if x.properties && !properties.isEmpty then
    element "properties" (lineEnd ++ String.join (properties.map propertyText))
  else ""

/-- An event with the given properties in place of its context map. -/
def textWith (x : XmlLayout) (e : Event) (properties : List (String × String)) : String :=
  "<log4j:event" ++ attr "logger" e.loggerLabel ++ attr "timestamp" (toString e.timestamp) ++
    attr "level" e.level.name ++ attr "thread" e.thread ++ ">" ++ lineEnd ++
    messageText e ++ contextText e ++ thrownText e ++ x.locationText e ++
    x.propertiesText properties ++ "</log4j:event>" ++ lineEnd ++ lineEnd

def eventText (x : XmlLayout) (e : Event) : String := x.textWith e e.contextMap.entries

/-- The start of a complete document. -/
def headerText (x : XmlLayout) : String :=
  "<?xml version=\"1.0\" encoding=\"" ++ x.charset.name ++ "\"?>" ++ lineEnd ++
    "<log4j:eventSet xmlns:log4j=\"" ++ namespaceName ++ "\">" ++ lineEnd

def footerText : String := "</log4j:eventSet>" ++ lineEnd

def toLayout (x : XmlLayout) : Layout where
  text := x.eventText
  header := if x.complete then some (x.charset.encode x.headerText) else none
  footer := if x.complete then some (x.charset.encode footerText) else none
  charset := x.charset
  contentType := "text/xml; charset=" ++ x.charset.name

end XmlLayout
end LoggingFacade
