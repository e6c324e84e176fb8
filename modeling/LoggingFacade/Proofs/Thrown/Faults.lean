import LoggingFacade.Proofs.Event.PlainText
import LoggingFacade.Proofs.Xml.Event

/-!
# Events with faulty errors

Whatever an attached error does when it is rendered, its event is written. The
error adds its lines to what is written of the event without it and changes
nothing else, and nothing in these lines depends on what a rendering wrote that
did not come to its end.
-/

namespace LoggingFacade

/-- The same rendering, or two that do not come to their end. -/
def Rendering.Alike (r s : Rendering) : Prop := r.mode = .whole ∨ s.mode = .whole → r = s

theorem Rendering.Alike.result? {r s : Rendering} (h : r.Alike s) : r.result? = s.result? := by
  rw [result?_eq, result?_eq]
  by_cases hr : r.mode = .whole
  · rw [h (.inl hr)]
  · by_cases hs : s.mode = .whole
    · rw [h (.inr hs)]
    · rw [if_neg hr, if_neg hs]

namespace Thrown

/-- Two errors of the same shape whose renderings differ only where both fail. -/
structure Alike (t u : Thrown) : Prop where
  display : t.display.Alike u.display
  debug : t.debug.Alike u.debug
  causes : List.Forall₂ Rendering.Alike t.causes u.causes

theorem causesText?_alike {causes others : List Rendering}
    (h : List.Forall₂ Rendering.Alike causes others) :
    causesText? causes = causesText? others := by
  induction h with
  | nil => rfl
  | cons hcause _ ih => rw [causesText?, causesText?, hcause.result?, ih]

/-- What a rendering wrote before it failed has no part in the lines. -/
theorem Alike.lines {t u : Thrown} (h : t.Alike u) : t.lines = u.lines := by
  rw [lines_eq, lines_eq, chainText?, chainText?, h.display.result?, h.debug.result?,
    causesText?_alike h.causes]

end Thrown

/-! ## The place of an error -/

theorem Event.plainText_withThrown (e : Event) (t : Thrown) : (e.withThrown t).plainText =
    { e with thrown := none }.plainText ++
      String.join (t.lines.map fun line => "    " ++ line ++ "\n") := by
  rw [plainText, plainText, foldl_indented, foldl_indented]
  simp [withThrown, thrownLines, loggerLabel]

namespace XmlLayout

open Xml

/-- The start tag of an event. -/
def openingText (e : Event) : String :=
  "<log4j:event" ++ attr "logger" e.loggerLabel ++ attr "timestamp" (toString e.timestamp) ++
    attr "level" e.level.name ++ attr "thread" e.thread ++ ">" ++ lineEnd

/-- What stands behind the error of an event. -/
def closingText (x : XmlLayout) (e : Event) : String :=
  x.locationText e ++ x.propertiesText e.contextMap.entries ++ "</log4j:event>" ++ lineEnd ++
    lineEnd

theorem eventText_eq (x : XmlLayout) (e : Event) : x.eventText e =
    openingText e ++ messageText e ++ contextText e ++ thrownText e ++ x.closingText e := by
  rw [closingText, ← String.append_assoc, ← String.append_assoc, ← String.append_assoc,
    ← String.append_assoc]
  rfl

theorem body?_thrownText (e : Event) (t : Thrown) :
    body? (thrownText (e.withThrown t)).toList = some (thrownText (e.withThrown t)).toList := by
  have hstart : ∃ more, (thrownText (e.withThrown t)).toList = '<' :: 'l' :: more := by
    simp only [thrownText, Event.withThrown, element, String.append_assoc, String.toList_append]
    exact ⟨_, rfl⟩
  obtain ⟨more, hmore⟩ := hstart
  rw [hmore]
  rfl

/-- The text of an error is one element. -/
theorem read?_thrownText (e : Event) (t : Thrown) : read? (thrownText (e.withThrown t)) =
    some (ofText "log4j:throwable" (String.join (t.lines.map (· ++ lineEnd)))) := by
  have hpart : thrownPart (e.withThrown t) =
      [ofText "log4j:throwable" (String.join (t.lines.map (· ++ lineEnd)))] := rfl
  have hlines := readsLines_thrownText (e.withThrown t)
  rw [hpart, ReadsLines, List.length_singleton] at hlines
  have hspace : (lineEnds 1).toList.all isSpace = true := by decide
  exact read?_of_reads hlines (body?_thrownText e t) hspace

end XmlLayout

open XmlLayout Xml in
/-- An attached error is rendered whatever its parts do. Its lines are those of
the whole chain if every element shows itself, else the debugging text alone if
that is shown, else the placeholder; a rendering that failed might have written
any other text. The plain text of an event gets these lines as indented ones
behind its own. The XML text gets one element, which reads as the lines with a
line end each, behind message and context; without the error the same text
stands around it. -/
theorem rendering_survives_faults (t : Thrown) :
    (t.lines =
      if ∀ r ∈ t.display :: t.causes, r.mode = .whole then
        Text.lines (t.display.text ++
          String.join (t.causes.map fun cause => "\nCaused by: " ++ cause.text))
      else [if t.debug.mode = .whole then t.debug.text else "<unrenderable error>"]) ∧
    (∀ u : Thrown, t.Alike u → u.lines = t.lines) ∧
    ∀ e : Event,
      (e.withThrown t).plainText = { e with thrown := none }.plainText ++
        String.join (t.lines.map fun line => "    " ++ line ++ "\n") ∧
      ∀ x : XmlLayout, ∃ piece,
        x.eventText { e with thrown := none } =
          openingText e ++ messageText e ++ contextText e ++ x.closingText e ∧
        x.eventText (e.withThrown t) =
          openingText e ++ messageText e ++ contextText e ++ piece ++ x.closingText e ∧
        read? piece = some ⟨"log4j:throwable", [],
          String.join (t.lines.map fun line => line ++ "\r\n"), []⟩ := by
  refine ⟨?_, fun u h => h.lines.symm, fun e => ⟨e.plainText_withThrown t, fun x => ?_⟩⟩
  · by_cases hshown : t.Shown
    · rw [Thrown.lines_of_shown hshown]
      exact (if_pos hshown).symm
    · rw [Thrown.lines_of_not_shown hshown]
      exact (if_neg hshown).symm
  · refine ⟨thrownText (e.withThrown t), ?_, x.eventText_eq (e.withThrown t),
      read?_thrownText e t⟩
    have hnothing : thrownText { e with thrown := none } = "" := rfl
    rw [x.eventText_eq, hnothing, String.append_empty]
    rfl

theorem rendering_survives_faults_cut_short :
    let t : Thrown := ⟨.plain "outer", .plain "shown", [⟨"secret", .cutShort⟩, .plain "inner"]⟩
    let u : Thrown := ⟨.plain "outer", .plain "shown", [⟨"other", .abrupt⟩, .plain "inner"]⟩
    t.Alike u ∧ u.lines = t.lines ∧
      ((Event.create "main" 0 "app" .info "m").withThrown t).plainText =
        "0 INFO [main] app - m\n    shown\n" := by
  intro t u
  have hcut : Rendering.Alike ⟨"secret", .cutShort⟩ ⟨"other", .abrupt⟩ := by
    rintro (h | h) <;> contradiction
  have halike : t.Alike u := ⟨fun _ => rfl, fun _ => rfl, .cons hcut (.cons (fun _ => rfl) .nil)⟩
  obtain ⟨hlines, hrespects, hevents⟩ := rendering_survives_faults t
  have hshown : t.lines = ["shown"] := hlines
  refine ⟨halike, hrespects u halike, ?_⟩
  rw [(hevents _).1, hshown]
  decide

end LoggingFacade
