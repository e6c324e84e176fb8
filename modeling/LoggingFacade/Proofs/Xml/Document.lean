import LoggingFacade.Proofs.Appender.Memory
import LoggingFacade.Proofs.Xml.Event
import LoggingFacade.Proofs.Xml.Written

/-!
# Complete documents

What a memory appender holds under a layout that writes complete documents.
Read in the charset of the layout it is one document: the header, the events in
the order they were appended and the footer, whatever characters the charset
lacks.
-/

namespace LoggingFacade

open Text Xml

namespace XmlLayout

/-- The text of an event as the charset of the layout has it. -/
def writtenText (x : XmlLayout) (e : Event) : String :=
  x.textWith (e.mapTexts x.charset.written) (e.contextMap.entries.map (mapPair x.charset.written))

theorem writtenText_eventText (x : XmlLayout) (e : Event) :
    x.charset.writtenText (x.eventText e) = x.writtenText e :=
  textWith_map x.charset.lossy_written x e _

theorem headerText_map {f : Char → Char} (h : Lossy f) (x : XmlLayout) :
    x.headerText.map f = x.headerText := by
  have hname : AsciiText x.charset.name := by cases x.charset <;> decide
  unfold headerText
  simp (disch := decide) only [map_append, h.map_ascii hname, h.map_ascii]

/-- The text of a document that holds the given texts of events. -/
def documentText (x : XmlLayout) (fragments : List String) : String :=
  x.headerText ++ String.join fragments ++ footerText

theorem writtenText_document (x : XmlLayout) (events : List Event) :
    x.charset.writtenText (x.documentText (events.map x.eventText)) =
      x.documentText (events.map x.writtenText) := by
  have hlossy := x.charset.lossy_written
  have hfooter : footerText.map x.charset.written = footerText := hlossy.map_ascii (by decide)
  have hevents : (events.map x.eventText).map (fun s => s.map x.charset.written) =
      events.map x.writtenText := by
    rw [List.map_map]
    exact List.map_congr_left fun e _ => x.writtenText_eventText e
  rw [Charset.writtenText, documentText, map_append, map_append, map_join, headerText_map hlossy,
    hfooter, hevents, documentText]

/-- The bytes of a complete document, in the parts in which they are written. -/
theorem bytes_document (x : XmlLayout) (hx : x.complete = true) (events : List Event) :
    (Layout.headerBytes (some x.toLayout)).getD [] ++
        events.flatMap (Layout.render (some x.toLayout)) ++
        (Layout.footerBytes (some x.toLayout)).getD [] =
      x.charset.encode (x.documentText (events.map x.eventText)) := by
  have hrender : events.flatMap (Layout.render (some x.toLayout)) =
      (events.map x.eventText).flatMap x.charset.encode := by
    rw [List.flatMap_map]
    rfl
  rw [documentText, Charset.encode_append, Charset.encode_append, Charset.encode_join, hrender]
  simp [Layout.headerBytes, Layout.footerBytes, toLayout, hx]

/-! ## Reading a document -/

theorem reads_writtenText (x : XmlLayout) (e : Event) :
    ∃ child, Reads (x.writtenText e) (lineEnds 2) [child] ∧
      read? (x.writtenText e) = some child :=
  ⟨_, x.reads_textWith _ _, x.read?_textWith _ _⟩

theorem reads_fragments (x : XmlLayout) (events : List Event) :
    ∃ text children, Reads (String.join (events.map x.writtenText)) text children ∧
      events.map (fun e => read? (x.writtenText e)) = children.map some := by
  induction events with
  | nil => exact ⟨"", [], reads_nothing, rfl⟩
  | cons e events ih =>
    obtain ⟨text, children, hreads, hevents⟩ := ih
    obtain ⟨child, hchild, hread⟩ := x.reads_writtenText e
    rw [List.map_cons, List.map_cons, String.join_cons, hread, hevents]
    exact ⟨_, child :: children, hchild.append hreads, rfl⟩

theorem body?_declaration (charset : Charset) (rest : List Char) :
    body? (("<?xml version=\"1.0\" encoding=\"" ++ charset.name ++ "\"?>").toList ++ rest) =
      some rest := by
  cases charset <;> rfl

/-- The header opens the element that the footer closes. -/
theorem read?_document (x : XmlLayout) (events : List Event) :
    ∃ root, read? (x.documentText (events.map x.writtenText)) = some root ∧
      root.name = "log4j:eventSet" ∧ root.attributes = [("xmlns:log4j", namespaceName)] ∧
      root.children.map some = events.map fun e => read? (x.writtenText e) := by
  obtain ⟨text, children, hreads, hevents⟩ := x.reads_fragments events
  have htag : IsTag "log4j:eventSet" [("xmlns:log4j", namespaceName)] :=
    ⟨by decide, by decide, by decide⟩
  have helement := reads_element htag (reads_lineEnd.append hreads)
  have hlines := (reads_lineEnd.append helement).append reads_lineEnd
  refine ⟨_, read?_of_reads hlines ?_ (by decide), rfl, rfl, hevents.symm⟩
  have hattributes : attributesText [("xmlns:log4j", namespaceName)] =
      " xmlns:log4j=\"" ++ namespaceName ++ "\"" := by decide
  have hopen : "<log4j:eventSet xmlns:log4j=\"" = "<" ++ "log4j:eventSet" ++ " xmlns:log4j=\"" :=
    rfl
  have hend : "\">" = "\"" ++ ">" := rfl
  have hclose : footerText = "</" ++ "log4j:eventSet" ++ ">" ++ lineEnd := rfl
  rw [← body?_declaration x.charset, ← String.toList_append]
  unfold documentText headerText
  simp only [hattributes, hopen, hend, hclose, String.append_assoc]

end XmlLayout
end LoggingFacade
