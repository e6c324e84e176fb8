import LoggingFacade.Proofs.Xml.Markup

/-!
# Events as a reader sees them

The text of an event is read back as one element that carries what the event
carries: each part is there exactly if the event has it, with the text of the
event unchanged. Between its parts an event holds line ends only.
-/

namespace LoggingFacade

open Xml

namespace Xml

/-! ## Parts on lines of their own -/

def lineEnds (count : Nat) : String := String.join (List.replicate count XmlLayout.lineEnd)

theorem lineEnds_add (m n : Nat) : lineEnds (m + n) = lineEnds m ++ lineEnds n := by
  rw [lineEnds, List.replicate_add, String.join_append]
  rfl

/-- The piece is a number of elements, each followed by a line end. -/
def ReadsLines (piece : String) (children : List Element) : Prop :=
  Reads piece (lineEnds children.length) children

theorem readsLines_nothing : ReadsLines "" [] := reads_nothing

theorem ReadsLines.append {a b : String} {c d : List Element} (ha : ReadsLines a c)
    (hb : ReadsLines b d) : ReadsLines (a ++ b) (c ++ d) := by
  have h := Reads.append ha hb
  rwa [← lineEnds_add, ← List.length_append] at h

theorem Reads.onLine {piece : String} {child : Element} (h : Reads piece "" [child]) :
    ReadsLines (piece ++ XmlLayout.lineEnd) [child] := by
  have hline := h.append reads_lineEnd
  have hend : lineEnds 1 = "" ++ XmlLayout.lineEnd := by decide
  rwa [ReadsLines, List.length_singleton, hend]

theorem ReadsLines.join {α : Type} {text : α → String} {child : α → Element} {items : List α}
    (h : ∀ a ∈ items, ReadsLines (text a) [child a]) :
    ReadsLines (String.join (items.map text)) (items.map child) := by
  induction items with
  | nil => exact readsLines_nothing
  | cons a items ih =>
    have hfirst := h a List.mem_cons_self
    have hrest := ih fun b hb => h b (List.mem_cons_of_mem _ hb)
    rw [List.map_cons, String.join_cons]
    exact hfirst.append hrest

end Xml

namespace XmlLayout

theorem readsLines_element {name content text : String} {children : List Element}
    (hname : IsName ("log4j:" ++ name)) (h : Reads content text children) :
    ReadsLines (element name content) [⟨"log4j:" ++ name, [], text, children⟩] := by
  have htag : IsTag ("log4j:" ++ name) [] := ⟨hname, by simp, List.nodup_nil⟩
  have helement := (reads_element htag h).onLine
  have htext : "<" ++ ("log4j:" ++ name) ++ attributesText [] ++ ">" ++ content ++ "</" ++
      ("log4j:" ++ name) ++ ">" ++ lineEnd = element name content := by
    simp [element, attributesText, ← String.toList_inj]
  rwa [htext] at helement

/-- An element whose parts stand on lines of their own. -/
def lined (name : String) (given : List (String × String)) (children : List Element) : Element :=
  ⟨name, given, lineEnds (children.length + 1), children⟩

theorem reads_lined {content : String} {children : List Element} (h : ReadsLines content children) :
    Reads (lineEnd ++ content) (lineEnds (children.length + 1)) children := by
  have hlines := reads_lineEnd.append h
  have hend : lineEnd ++ lineEnds children.length = lineEnds (children.length + 1) := by
    rw [Nat.add_comm, lineEnds_add]
    rfl
  rwa [hend, List.nil_append] at hlines

theorem readsLines_empty {piece name : String} {given : List (String × String)}
    (h : IsTag name given)
    (hpiece : piece = "<" ++ name ++ attributesText given ++ "/>" ++ lineEnd) :
    ReadsLines piece [⟨name, given, "", []⟩] := by
  rw [hpiece]
  exact (reads_empty h).onLine

/-! ## The parts of an event -/

def ofText (name text : String) : Element := ⟨name, [], text, []⟩

def messagePart (e : Event) : List Element := (e.message.map (ofText "log4j:message")).toList

def contextPart (e : Event) : List Element :=
  if e.contextStack = [] then []
  else [ofText "log4j:NDC" (" ".intercalate e.contextStack)]

def thrownPart (e : Event) : List Element :=
  (e.thrown.map fun thrown =>
    ofText "log4j:throwable" (String.join (thrown.lines.map (· ++ lineEnd)))).toList

def locationElement (source : SourceLocation) : Element :=
  ⟨"log4j:locationInfo", [("class", source.module), ("method", source.function.getD "?"),
    ("file", source.file), ("line", toString source.line)], "", []⟩

def locationPart (x : XmlLayout) (e : Event) : List Element :=
  if x.locationInfo then (e.source.map locationElement).toList else []

def dataElement (property : String × String) : Element :=
  ⟨"log4j:data", [("name", property.1), ("value", property.2)], "", []⟩

def propertiesPart (x : XmlLayout) (properties : List (String × String)) : List Element :=
  if x.properties ∧ properties ≠ [] then
    [lined "log4j:properties" [] (properties.map dataElement)]
  else []

def parts (x : XmlLayout) (e : Event) (properties : List (String × String)) : List Element :=
  messagePart e ++ contextPart e ++ thrownPart e ++ x.locationPart e ++ x.propertiesPart properties

def eventElement (x : XmlLayout) (e : Event) (properties : List (String × String)) : Element :=
  lined "log4j:event" [("logger", e.loggerLabel), ("timestamp", toString e.timestamp),
    ("level", e.level.name), ("thread", e.thread)] (x.parts e properties)

theorem readsLines_messageText (e : Event) : ReadsLines (messageText e) (messagePart e) := by
  rw [messageText, messagePart]
  cases e.message with
  | none => exact readsLines_nothing
  | some message => exact readsLines_element (by decide) (reads_cdata message)

theorem readsLines_contextText (e : Event) : ReadsLines (contextText e) (contextPart e) := by
  rw [contextText, contextPart]
  cases e.contextStack with
  | nil => exact readsLines_nothing
  | cons entry more => exact readsLines_element (by decide) (reads_cdata _)

/-- The lines of an error are escaped one by one. No terminator reaches over
a line end, so this is the same as to escape them together. -/
theorem escapeCdata_lines (lines : List String) :
    String.join (lines.map fun line => escapeCdata line ++ lineEnd) =
      escapeCdata (String.join (lines.map (· ++ lineEnd))) := by
  have hsplit : ∀ cs more : List Char, splitTerminators (cs ++ '\r' :: '\n' :: more) =
      splitTerminators cs ++ '\r' :: '\n' :: splitTerminators more := by
    intro cs more
    rw [splitTerminators_append_cons (by decide) (by decide), splitTerminators]
    simp
  induction lines with
  | nil => rfl
  | cons line lines ih =>
    rw [List.map_cons, List.map_cons, String.join_cons, String.join_cons, ih]
    have hend : lineEnd.toList = ['\r', '\n'] := rfl
    simp [escapeCdata, ← String.toList_inj, hend, hsplit]

theorem readsLines_thrownText (e : Event) : ReadsLines (thrownText e) (thrownPart e) := by
  rw [thrownText, thrownPart]
  cases e.thrown with
  | none => exact readsLines_nothing
  | some thrown =>
    simp only [escapeCdata_lines]
    exact readsLines_element (by decide) (reads_cdata _)

theorem readsLines_locationText (x : XmlLayout) (e : Event) :
    ReadsLines (x.locationText e) (x.locationPart e) := by
  rw [locationText, locationPart]
  cases e.source with
  | none =>
    rw [Option.map_none, Option.toList_none, ite_self]
    exact readsLines_nothing
  | some source =>
    cases x.locationInfo with
    | false => exact readsLines_nothing
    | true =>
      have htag : IsTag "log4j:locationInfo" (locationElement source).attributes := by
        refine ⟨by decide, ?_, ?_⟩
        · simp [locationElement]
          decide
        · simp [locationElement]
      refine readsLines_empty htag ?_
      have hopen : "<log4j:locationInfo" = "<" ++ "log4j:locationInfo" := rfl
      simp only [if_true, hopen, attributesText_cons, attributesText_nil,
        String.append_empty, String.append_assoc]

theorem readsLines_propertyText (property : String × String) :
    ReadsLines (propertyText property) [dataElement property] := by
  have htag : IsTag "log4j:data" (dataElement property).attributes := by
    refine ⟨by decide, ?_, ?_⟩
    · simp [dataElement]
      decide
    · simp [dataElement]
  refine readsLines_empty htag ?_
  have hopen : "<log4j:data" = "<" ++ "log4j:data" := rfl
  unfold propertyText
  simp only [hopen, attributesText_cons, attributesText_nil, String.append_empty,
    String.append_assoc]

theorem readsLines_propertiesText (x : XmlLayout) (properties : List (String × String)) :
    ReadsLines (x.propertiesText properties) (x.propertiesPart properties) := by
  rw [propertiesText, propertiesPart]
  by_cases h : x.properties = true ∧ properties ≠ []
  · have hcond : (x.properties && !properties.isEmpty) = true := by
      simpa using h
    rw [if_pos h, if_pos hcond]
    have hdata : ReadsLines (String.join (properties.map propertyText))
        (properties.map dataElement) :=
      .join fun property _ => readsLines_propertyText property
    exact readsLines_element (by decide) (reads_lined hdata)
  · have hcond : ¬(x.properties && !properties.isEmpty) = true := by
      simpa using h
    rw [if_neg h, if_neg hcond]
    exact readsLines_nothing

theorem readsLines_parts (x : XmlLayout) (e : Event) (properties : List (String × String)) :
    ReadsLines (messageText e ++ contextText e ++ thrownText e ++ x.locationText e ++
      x.propertiesText properties) (x.parts e properties) :=
  (((readsLines_messageText e).append (readsLines_contextText e)).append
    (readsLines_thrownText e)).append (readsLines_locationText x e) |>.append
    (readsLines_propertiesText x properties)

/-- The text of an event is one element on a line of its own, with an empty
line behind it. -/
theorem reads_textWith (x : XmlLayout) (e : Event) (properties : List (String × String)) :
    Reads (x.textWith e properties) (lineEnds 2) [x.eventElement e properties] := by
  have htag : IsTag "log4j:event" (x.eventElement e properties).attributes := by
    refine ⟨by decide, ?_, ?_⟩
    · simp [eventElement, lined]
      decide
    · simp [eventElement, lined]
  have helement := reads_element htag (reads_lined (x.readsLines_parts e properties))
  have hlines := helement.append (reads_lineEnd.append reads_lineEnd)
  have htext : x.textWith e properties = "<" ++ "log4j:event" ++
      attributesText (x.eventElement e properties).attributes ++ ">" ++ (lineEnd ++
      (messageText e ++ contextText e ++ thrownText e ++ x.locationText e ++
        x.propertiesText properties)) ++ "</" ++ "log4j:event" ++ ">" ++ (lineEnd ++ lineEnd) := by
    have hopen : "<log4j:event" = "<" ++ "log4j:event" := rfl
    have hclose : "</log4j:event>" = "</" ++ "log4j:event" ++ ">" := rfl
    unfold textWith
    simp only [hopen, hclose, eventElement, lined, attributesText_cons, attributesText_nil,
      String.append_empty, String.append_assoc]
  rw [htext]
  exact hlines

theorem read?_textWith (x : XmlLayout) (e : Event) (properties : List (String × String)) :
    read? (x.textWith e properties) = some (x.eventElement e properties) := by
  refine read?_of_reads (reads_textWith x e properties) ?_ (by decide)
  have hstart : ∃ more, (x.textWith e properties).toList = '<' :: 'l' :: more := by
    unfold textWith
    simp only [String.append_assoc, String.toList_append]
    exact ⟨_, rfl⟩
  obtain ⟨more, hmore⟩ := hstart
  rw [hmore]
  rfl

/-- The text of an event reads as exactly one element. It carries the logger,
the time, the level and the thread; a message, a context, an error, a location
and properties stand in it, in this order, exactly if the event has them and the
layout shows them, and nothing but white space stands between them. -/
theorem read?_eventText (x : XmlLayout) (e : Event) :
    ∃ root, read? (x.eventText e) = some root ∧ root.name = "log4j:event" ∧
      root.attributes = [("logger", if e.logger = "" then "root" else e.logger),
        ("timestamp", toString e.timestamp), ("level", e.level.name), ("thread", e.thread)] ∧
      root.children =
        (e.message.map fun message => ofText "log4j:message" message).toList ++
        (if e.contextStack = [] then []
          else [ofText "log4j:NDC" (" ".intercalate e.contextStack)]) ++
        (e.thrown.map fun thrown => ofText "log4j:throwable"
          (String.join (thrown.lines.map fun line => line ++ "\r\n"))).toList ++
        (if x.locationInfo then
          (e.source.map fun source => ⟨"log4j:locationInfo", [("class", source.module),
            ("method", source.function.getD "?"), ("file", source.file),
            ("line", toString source.line)], "", []⟩).toList
          else []) ++
        (if x.properties ∧ e.contextMap.entries ≠ [] then
          [lined "log4j:properties" [] (e.contextMap.entries.map fun property =>
            ⟨"log4j:data", [("name", property.1), ("value", property.2)], "", []⟩)]
          else []) ∧
      root.text = lineEnds (root.children.length + 1) := by
  refine ⟨_, x.read?_textWith e e.contextMap.entries, rfl, ?_, rfl, rfl⟩
  simp [eventElement, lined, Event.loggerLabel, Event.rootLabel]

end XmlLayout
end LoggingFacade
