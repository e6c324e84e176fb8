import LoggingFacade.Proofs.Charset.Decoding
import LoggingFacade.Proofs.Text.Lossy
import LoggingFacade.Proofs.Thrown.Drafts
import LoggingFacade.Proofs.Xml.Markup

/-!
# Events in a charset

What a charset that lacks characters makes of the text of an event. The
replaced characters are none of markup, so to replace them in the text of an
event is to replace them in the texts the event carries.
-/

namespace LoggingFacade

open Text

theorem Charset.lossy_written (charset : Charset) : Lossy charset.written := by
  intro c
  rw [Charset.written]
  split
  · exact .inl rfl
  · rename_i hlacks
    refine .inr ⟨fun hascii => hlacks ?_, rfl⟩
    rw [IsAscii] at hascii
    cases charset <;> simp only [Charset.has, decide_eq_true_eq] <;> omega

variable {f : Char → Char}

namespace Xml

theorem escapeChar_map (h : Lossy f) (c : Char) :
    (escapeChar c).map f = escapeChar (f c) := by
  by_cases hc : c ∈ markup
  · have hascii : IsAscii c ∧ AsciiChars (escapeChar c) := by
      simp only [markup, List.mem_cons, List.not_mem_nil, or_false] at hc
      rcases hc with rfl | rfl | rfl | rfl | rfl | rfl | rfl <;> decide
    rw [h.eq_of_isAscii hascii.1, h.map_eq_of_isAscii hascii.2]
  · have hmark : f c ∉ markup := by
      rcases h c with hsame | ⟨-, hlost⟩
      · rwa [hsame]
      · rw [hlost]
        decide
    rw [escapeChar_of_not_mem hc, escapeChar_of_not_mem hmark]
    rfl

theorem escapeTags_map (h : Lossy f) (s : String) :
    (escapeTags s).map f = escapeTags (s.map f) := by
  rw [← String.toList_inj, String.toList_map, toList_escapeTags, toList_escapeTags,
    String.toList_map, List.flatMap_map, List.map_flatMap]
  exact List.flatMap_congr fun c _ => escapeChar_map h c

theorem splitTerminators_map (h : Lossy f) (cs : List Char) :
    (splitTerminators cs).map f = splitTerminators (cs.map f) := by
  have hbracket : f ']' = ']' := h.eq_of_isAscii (by decide)
  have hgt : f '>' = '>' := h.eq_of_isAscii (by decide)
  have hembedded : cdataEmbeddedEnd.toList.map f = cdataEmbeddedEnd.toList :=
    h.map_eq_of_isAscii (by decide)
  fun_induction splitTerminators cs with
  | case1 rest ih =>
    rw [List.map_cons, List.map_cons, List.map_cons, hbracket, hgt, splitTerminators, ← ih,
      List.map_append, hembedded]
  | case2 c rest hne ih =>
    -- What was no terminator does not become one.
    have hother : ∀ tail, f c = ']' → rest.map f = ']' :: '>' :: tail → False := by
      intro tail hc hrest
      obtain ⟨d, more, rfl, hd, hmore⟩ := List.map_eq_cons_iff.1 hrest
      obtain ⟨e, more, rfl, he, -⟩ := List.map_eq_cons_iff.1 hmore
      rw [h.eq_iff (by decide) (by decide)] at hc hd he
      exact hne more hc (by rw [hd, he])
    rw [List.map_cons, List.map_cons, splitTerminators.eq_2 _ _ hother, ih]
  | case3 => rfl

theorem escapeCdata_map (h : Lossy f) (s : String) :
    (escapeCdata s).map f = escapeCdata (s.map f) := by
  rw [← String.toList_inj]
  simp [escapeCdata, splitTerminators_map h]

theorem cdata_map (h : Lossy f) (s : String) : (cdata s).map f = cdata (s.map f) := by
  simp (disch := decide) only [cdata, map_append, escapeCdata_map h, h.map_ascii]

end Xml

/-! ## Events -/

def Rendering.mapText (f : Char → Char) (r : Rendering) : Rendering :=
  { r with text := r.text.map f }

def Thrown.mapTexts (f : Char → Char) (t : Thrown) : Thrown :=
  ⟨t.display.mapText f, t.debug.mapText f, t.causes.map (Rendering.mapText f)⟩

def SourceLocation.mapTexts (f : Char → Char) (s : SourceLocation) : SourceLocation :=
  { s with
    module := s.module.map f
    function := s.function.map fun name => name.map f
    file := s.file.map f }

/-- Changes the characters of all texts but those of the context map, whose keys
would not stay distinct. -/
def Event.mapTexts (f : Char → Char) (e : Event) : Event :=
  { e with
    logger := e.logger.map f
    thread := e.thread.map f
    message := e.message.map fun text => text.map f
    contextStack := e.contextStack.map fun entry => entry.map f
    thrown := e.thrown.map (Thrown.mapTexts f)
    source := e.source.map (SourceLocation.mapTexts f) }

def mapPair (f : Char → Char) (property : String × String) : String × String :=
  (property.1.map f, property.2.map f)

theorem Rendering.result?_mapText (f : Char → Char) (r : Rendering) :
    (r.mapText f).result? = r.result?.map fun text => text.map f := by
  obtain ⟨text, mode⟩ := r
  cases mode <;> rfl

theorem Thrown.causesText?_map (h : Lossy f) (causes : List Rendering) :
    causesText? (causes.map (Rendering.mapText f)) =
      (causesText? causes).map fun text => text.map f := by
  have hannounced : ("\nCaused by: ").map f = "\nCaused by: " := h.map_ascii (by decide)
  induction causes with
  | nil => simp [causesText?]
  | cons cause more ih =>
    rw [List.map_cons, causesText?, causesText?, Rendering.result?_mapText, ih]
    cases cause.result? with
    | none => rfl
    | some text =>
      cases causesText? more with
      | none => rfl
      | some rest => simp [map_append, hannounced]

theorem Thrown.chainText?_mapTexts (h : Lossy f) (t : Thrown) :
    (t.mapTexts f).chainText? = t.chainText?.map fun text => text.map f := by
  rw [chainText?, chainText?, mapTexts, Rendering.result?_mapText, causesText?_map h]
  cases t.display.result? with
  | none => rfl
  | some text =>
    cases causesText? t.causes with
    | none => rfl
    | some rest => simp [map_append]

theorem Thrown.lines_mapTexts (h : Lossy f) (t : Thrown) :
    (t.mapTexts f).lines = t.lines.map fun line => line.map f := by
  have hplaceholder : placeholder.map f = placeholder := h.map_ascii (by decide)
  rw [lines_eq, lines_eq, chainText?_mapTexts h]
  cases t.chainText? with
  | none =>
    rw [Option.map_none, mapTexts, Rendering.result?_mapText]
    cases t.debug.result? with
    | none => simp [hplaceholder]
    | some text => rfl
  | some text => exact lines_map h text

namespace XmlLayout

open Xml

theorem lineEnd_map (h : Lossy f) : lineEnd.map f = lineEnd := h.map_ascii (by decide)

theorem attr_map (h : Lossy f) {name : String} (hname : AsciiText name) (value : String) :
    (attr name value).map f = attr name (value.map f) := by
  simp (disch := decide) only [attr, map_append, h.map_ascii hname, h.map_ascii, escapeTags_map h]

theorem element_map (h : Lossy f) {name : String} (hname : AsciiText name) (content : String) :
    (element name content).map f = element name (content.map f) := by
  simp (disch := decide) only [element, map_append, h.map_ascii hname, h.map_ascii]

theorem messageText_map (h : Lossy f) (e : Event) :
    (messageText e).map f = messageText (e.mapTexts f) := by
  simp only [messageText, Event.mapTexts]
  cases e.message with
  | none => exact h.map_ascii (by decide)
  | some message => simp (disch := decide) only [Option.map_some, element_map h, cdata_map h]

theorem contextText_map (h : Lossy f) (e : Event) :
    (contextText e).map f = contextText (e.mapTexts f) := by
  simp only [contextText, Event.mapTexts, List.isEmpty_map]
  split
  · exact h.map_ascii (by decide)
  · simp (disch := decide) only [element_map h, cdata_map h, map_intercalate, h.map_ascii]

theorem thrownText_map (h : Lossy f) (e : Event) :
    (thrownText e).map f = thrownText (e.mapTexts f) := by
  simp only [thrownText, Event.mapTexts]
  cases e.thrown with
  | none => exact h.map_ascii (by decide)
  | some thrown =>
    have hlines : (String.join (thrown.lines.map fun line => escapeCdata line ++ lineEnd)).map f =
        String.join ((thrown.mapTexts f).lines.map fun line => escapeCdata line ++ lineEnd) := by
      rw [map_join, Thrown.lines_mapTexts h, List.map_map, List.map_map]
      refine congrArg String.join (List.map_congr_left fun line _ => ?_)
      simp only [Function.comp_apply, map_append, escapeCdata_map h, lineEnd_map h]
    simp (disch := decide) only [Option.map_some, element_map h, map_append, hlines, h.map_ascii]

theorem locationText_map (h : Lossy f) (x : XmlLayout) (e : Event) :
    (x.locationText e).map f = x.locationText (e.mapTexts f) := by
  simp only [locationText, Event.mapTexts]
  cases e.source with
  | none => exact h.map_ascii (s := "") (by decide)
  | some source =>
    have hline : (toString source.line).map f = toString source.line :=
      h.map_ascii (asciiText_toString_nat source.line)
    have hfunction : (source.function.getD "?").map f =
        (source.function.map fun name => name.map f).getD "?" := by
      cases source.function with
      | none => exact h.map_ascii (by decide)
      | some name => rfl
    simp only [Option.map_some, SourceLocation.mapTexts]
    split
    · simp (disch := decide) only [map_append, attr_map h, hline, hfunction, h.map_ascii]
    · exact h.map_ascii (by decide)

theorem propertyText_map (h : Lossy f) (property : String × String) :
    (propertyText property).map f = propertyText (mapPair f property) := by
  simp (disch := decide) only [propertyText, mapPair, map_append, attr_map h, h.map_ascii]

theorem propertiesText_map (h : Lossy f) (x : XmlLayout) (properties : List (String × String)) :
    (x.propertiesText properties).map f = x.propertiesText (properties.map (mapPair f)) := by
  have hdata : (String.join (properties.map propertyText)).map f =
      String.join ((properties.map (mapPair f)).map propertyText) := by
    rw [map_join, List.map_map, List.map_map]
    exact congrArg String.join (List.map_congr_left fun property _ => propertyText_map h property)
  simp only [propertiesText, List.isEmpty_map]
  split
  · rw [element_map h (by decide), map_append, hdata, lineEnd_map h]
  · exact h.map_ascii (by decide)

theorem loggerLabel_map (h : Lossy f) (e : Event) :
    e.loggerLabel.map f = (e.mapTexts f).loggerLabel := by
  simp only [Event.loggerLabel, Event.mapTexts]
  by_cases hempty : e.logger = ""
  · simp [hempty, h.map_ascii (s := Event.rootLabel) (by decide)]
  · simp [hempty]

/-- The characters of an event's text are those of its texts, and ASCII. -/
theorem textWith_map (h : Lossy f) (x : XmlLayout) (e : Event)
    (properties : List (String × String)) :
    (x.textWith e properties).map f =
      x.textWith (e.mapTexts f) (properties.map (mapPair f)) := by
  have htime : (toString e.timestamp).map f = toString e.timestamp :=
    h.map_ascii (asciiText_toString_int e.timestamp)
  have hlevel : e.level.name.map f = e.level.name :=
    h.map_ascii (by cases e.level <;> decide)
  unfold textWith
  simp (disch := decide) only [map_append, attr_map h, messageText_map h, contextText_map h,
    thrownText_map h, locationText_map h, propertiesText_map h, loggerLabel_map h, htime, hlevel,
    lineEnd_map h, h.map_ascii]
  rfl

end XmlLayout
end LoggingFacade
