import LoggingFacade.Proofs.Text.Lossy
import LoggingFacade.Proofs.Thrown.Drafts
import LoggingFacade.Proofs.Xml.Markup

/-!
# Characters that a document cannot hold

XML 1.0 has no place for most control characters, for U+FFFE and for U+FFFF,
neither as they are nor by reference. The layout neither adds nor takes away
such a character: what it writes for an event has exactly those of the texts
that it shows, in their order. So a reader accepts the characters of an event
exactly if those of the shown texts are fit for XML.
-/

namespace LoggingFacade

open Text

namespace Xml

/-- A character that a document may hold. -/
def IsAllowed (c : Char) : Prop :=
  c = '\t' ∨ c = '\n' ∨ c = '\r' ∨ 0x20 ≤ c.toNat ∧ c.toNat ≤ 0xD7FF ∨
    0xE000 ≤ c.toNat ∧ c.toNat ≤ 0xFFFD ∨ 0x10000 ≤ c.toNat ∧ c.toNat ≤ 0x10FFFF

instance : DecidablePred IsAllowed := fun c =>
  inferInstanceAs (Decidable (c = '\t' ∨ c = '\n' ∨ c = '\r' ∨ _))

def AllowedText (s : String) : Prop := ∀ c ∈ s.toList, IsAllowed c

instance (s : String) : Decidable (AllowedText s) := List.decidableBAll IsAllowed s.toList

def forbiddenIn (cs : List Char) : List Char := cs.filter fun c => !decide (IsAllowed c)

theorem forbiddenIn_append (cs ds : List Char) :
    forbiddenIn (cs ++ ds) = forbiddenIn cs ++ forbiddenIn ds := List.filter_append cs ds

theorem forbiddenIn_cons (c : Char) (cs : List Char) :
    forbiddenIn (c :: cs) = forbiddenIn [c] ++ forbiddenIn cs := forbiddenIn_append [c] cs

/-- The characters of a text that a document cannot hold. -/
def forbidden (s : String) : List Char := forbiddenIn s.toList

theorem forbidden_eq_nil {s : String} : forbidden s = [] ↔ AllowedText s := by
  simp [forbidden, forbiddenIn, AllowedText, List.filter_eq_nil_iff]

theorem forbidden_of_allowed {s : String} (h : AllowedText s) : forbidden s = [] :=
  forbidden_eq_nil.2 h

@[simp] theorem forbidden_append (s t : String) :
    forbidden (s ++ t) = forbidden s ++ forbidden t := by
  simp [forbidden, forbiddenIn]

theorem forbidden_join (l : List String) : forbidden (String.join l) = l.flatMap forbidden := by
  induction l with
  | nil => rfl
  | cons s l ih => rw [String.join_cons, forbidden_append, ih, List.flatMap_cons]

theorem forbidden_intercalate {s : String} (hs : AllowedText s) (l : List String) :
    forbidden (s.intercalate l) = l.flatMap forbidden := by
  induction l with
  | nil => rfl
  | cons t l ih =>
    cases l with
    | nil => simp
    | cons u l =>
      rw [String.intercalate_cons_cons, forbidden_append, forbidden_append, ih,
        forbidden_of_allowed hs, List.append_nil, ← List.flatMap_cons]

/-! ## Lines and numbers -/

/-- Line ends are allowed, so nothing forbidden is lost with them. -/
theorem flatMap_forbiddenIn_splitLines (cs : List Char) :
    (splitLines cs).flatMap forbiddenIn = forbiddenIn cs := by
  have hreturn : forbiddenIn ['\r'] = [] := by decide
  have hfeed : forbiddenIn ['\n'] = [] := by decide
  fun_induction splitLines cs with
  | case1 => rfl
  | case2 rest ih =>
    rw [forbiddenIn_cons '\r', forbiddenIn_cons '\n', hreturn, hfeed, List.flatMap_cons, ih]
    rfl
  | case3 rest ih =>
    rw [forbiddenIn_cons '\n', hfeed, List.flatMap_cons, ih]
    rfl
  | case4 c rest _ _ hnil ih =>
    rw [hnil] at ih
    rw [forbiddenIn_cons c rest, ← ih, List.flatMap_singleton, List.flatMap_nil, List.append_nil]
  | case5 c rest _ _ line more hlines ih =>
    rw [hlines] at ih
    rw [forbiddenIn_cons c rest, ← ih, List.flatMap_cons, List.flatMap_cons,
      forbiddenIn_cons c line, List.append_assoc]

theorem flatMap_forbidden_lines (s : String) : (lines s).flatMap forbidden = forbidden s := by
  rw [lines, List.flatMap_map]
  simp only [forbidden, String.toList_ofList]
  exact flatMap_forbiddenIn_splitLines s.toList

theorem isAllowed_of_isDigit {c : Char} (h : c.isDigit = true) : IsAllowed c := by
  obtain ⟨hlow, hhigh⟩ := Char.isDigit_iff_toNat.1 h
  have hzero : '0'.toNat = 48 := rfl
  have hnine : '9'.toNat = 57 := rfl
  exact .inr (.inr (.inr (.inl ⟨by omega, by omega⟩)))

theorem allowedText_toString_nat (n : Nat) : AllowedText (toString n) := fun _ hc =>
  isAllowed_of_isDigit (isDigit_of_mem_toString_nat hc)

theorem allowedText_toString_int (n : Int) : AllowedText (toString n) := by
  intro c hc
  rcases mem_toString_int hc with rfl | hdigit
  · decide
  · exact isAllowed_of_isDigit hdigit

/-! ## Escapes -/

theorem forbiddenIn_escapeChar (c : Char) : forbiddenIn (escapeChar c) = forbiddenIn [c] := by
  by_cases hc : c ∈ markup
  · simp only [markup, List.mem_cons, List.not_mem_nil, or_false] at hc
    rcases hc with rfl | rfl | rfl | rfl | rfl | rfl | rfl <;> decide
  · rw [escapeChar_of_not_mem hc]

theorem forbidden_escapeTags (s : String) : forbidden (escapeTags s) = forbidden s := by
  rw [forbidden, forbidden, toList_escapeTags]
  induction s.toList with
  | nil => rfl
  | cons c cs ih =>
    rw [List.flatMap_cons, forbiddenIn_append, ih, forbiddenIn_escapeChar, ← forbiddenIn_cons]

theorem forbiddenIn_splitTerminators (cs : List Char) :
    forbiddenIn (splitTerminators cs) = forbiddenIn cs := by
  fun_induction splitTerminators cs with
  | case1 rest ih =>
    have hembedded : forbiddenIn cdataEmbeddedEnd.toList = [] := by decide
    have hterminator : forbiddenIn [']', ']', '>'] = [] := by decide
    have hsplit : ']' :: ']' :: '>' :: rest = [']', ']', '>'] ++ rest := rfl
    rw [forbiddenIn_append, ih, hembedded, hsplit, forbiddenIn_append, hterminator]
  | case2 c rest _ ih => rw [forbiddenIn_cons, ih, ← forbiddenIn_cons]
  | case3 => rfl

theorem forbidden_escapeCdata (s : String) : forbidden (escapeCdata s) = forbidden s := by
  rw [forbidden, escapeCdata, String.toList_ofList, forbiddenIn_splitTerminators, forbidden]

theorem forbidden_cdata (s : String) : forbidden (cdata s) = forbidden s := by
  simp (disch := decide) only [cdata, forbidden_append, forbidden_escapeCdata,
    forbidden_of_allowed, List.nil_append, List.append_nil]

end Xml

/-! ## Parts of an event -/

/-- The texts that are written of an error. -/
def Thrown.shownTexts (t : Thrown) : List String :=
  if t.Shown then t.chain.map Rendering.text else [t.fallback]

def SourceLocation.shownTexts (s : SourceLocation) : List String :=
  [s.module, s.function.getD "?", s.file]

namespace XmlLayout

open Xml

/-- The texts of an event that the layout shows, in the order of the output. -/
def shownTexts (x : XmlLayout) (e : Event) : List String :=
  [e.logger, e.thread] ++ e.message.toList ++ e.contextStack ++
    (e.thrown.map Thrown.shownTexts).getD [] ++
    (if x.locationInfo then (e.source.map SourceLocation.shownTexts).getD [] else []) ++
    (if x.properties then e.contextMap.entries.flatMap fun property => [property.1, property.2]
      else [])

theorem forbidden_attr {name : String} (hname : AllowedText name) (value : String) :
    forbidden (attr name value) = forbidden value := by
  simp (disch := decide) only [attr, forbidden_append, forbidden_of_allowed hname,
    forbidden_of_allowed, forbidden_escapeTags, List.nil_append, List.append_nil]

theorem forbidden_element {name : String} (hname : AllowedText name) (content : String) :
    forbidden (element name content) = forbidden content := by
  simp (disch := decide) only [element, forbidden_append, forbidden_of_allowed hname,
    forbidden_of_allowed, List.nil_append, List.append_nil]

theorem forbidden_loggerLabel (e : Event) : forbidden e.loggerLabel = forbidden e.logger := by
  rw [Event.loggerLabel]
  split
  · rename_i hempty
    rw [String.isEmpty_iff.1 hempty]
    decide
  · rfl

theorem forbidden_messageText (e : Event) :
    forbidden (messageText e) = e.message.toList.flatMap forbidden := by
  rw [messageText]
  cases e.message with
  | none => rfl
  | some message =>
    have hname : AllowedText "message" := by decide
    simp [forbidden_element hname, forbidden_cdata]

theorem forbidden_contextText (e : Event) :
    forbidden (contextText e) = e.contextStack.flatMap forbidden := by
  rw [contextText]
  split
  · rename_i hempty
    rw [List.isEmpty_iff.1 hempty]
    rfl
  · rw [forbidden_element (by decide), forbidden_cdata, forbidden_intercalate (by decide)]

/-- What is forbidden in the lines of an error comes from its shown texts. -/
theorem flatMap_forbidden_thrown (t : Thrown) :
    t.lines.flatMap forbidden = t.shownTexts.flatMap forbidden := by
  rw [Thrown.shownTexts]
  split
  · rename_i hshown
    have hannounced : forbidden "\nCaused by: " = [] := by decide
    rw [Thrown.lines_of_shown hshown, flatMap_forbidden_lines, Thrown.fullText, forbidden_append,
      forbidden_join, Thrown.chain, List.map_cons, List.flatMap_cons, List.flatMap_map,
      List.flatMap_map]
    simp only [forbidden_append, hannounced, List.nil_append]
  · rename_i hshown
    rw [Thrown.lines_of_not_shown hshown]

theorem forbidden_thrownText (e : Event) : forbidden (thrownText e) =
    ((e.thrown.map Thrown.shownTexts).getD []).flatMap forbidden := by
  rw [thrownText]
  cases e.thrown with
  | none => rfl
  | some t =>
    have hline : ∀ line : String, forbidden (escapeCdata line ++ lineEnd) = forbidden line := by
      intro line
      have hend : forbidden lineEnd = [] := by decide
      rw [forbidden_append, forbidden_escapeCdata, hend, List.append_nil]
    have hname : AllowedText "throwable" := by decide
    have hstart : forbidden cdataStart = [] := by decide
    have hend : forbidden cdataEnd = [] := by decide
    simp only [forbidden_element hname, forbidden_append, hstart, hend,
      forbidden_join, List.flatMap_map, hline, List.nil_append, List.append_nil, Option.map_some,
      Option.getD_some]
    exact flatMap_forbidden_thrown t

theorem forbidden_locationText (x : XmlLayout) (e : Event) : forbidden (x.locationText e) =
    (if x.locationInfo then (e.source.map SourceLocation.shownTexts).getD []
      else []).flatMap forbidden := by
  rw [locationText]
  cases e.source with
  | none => simp [forbidden, forbiddenIn]
  | some source =>
    cases x.locationInfo with
    | false => rfl
    | true =>
      have hline := forbidden_of_allowed (allowedText_toString_nat source.line)
      simp (disch := decide) only [if_true, forbidden_append, forbidden_attr, hline,
        forbidden_of_allowed, List.nil_append, List.append_nil]
      simp [SourceLocation.shownTexts]

theorem forbidden_propertyText (property : String × String) :
    forbidden (propertyText property) = [property.1, property.2].flatMap forbidden := by
  simp (disch := decide) only [propertyText, forbidden_append, forbidden_attr,
    forbidden_of_allowed, List.nil_append, List.append_nil]
  simp

theorem forbidden_propertiesText (x : XmlLayout) (properties : List (String × String)) :
    forbidden (x.propertiesText properties) =
      (if x.properties then properties.flatMap fun property => [property.1, property.2]
        else []).flatMap forbidden := by
  rw [propertiesText]
  cases hproperties : x.properties with
  | false => rfl
  | true =>
    cases properties with
    | nil => rfl
    | cons property more =>
      have hstart : forbidden lineEnd = [] := by decide
      simp only [List.isEmpty_cons, Bool.not_false, Bool.and_true, if_true]
      rw [forbidden_element (by decide), forbidden_append, hstart, List.nil_append,
        forbidden_join, List.flatMap_map, List.flatMap_assoc]
      exact List.flatMap_congr fun p _ => forbidden_propertyText p

theorem forbidden_eventText (x : XmlLayout) (e : Event) :
    forbidden (x.eventText e) = (x.shownTexts e).flatMap forbidden := by
  have htime := forbidden_of_allowed (allowedText_toString_int e.timestamp)
  have hlevel : forbidden e.level.name = [] := by cases e.level <;> decide
  unfold eventText textWith
  simp (disch := decide) only [forbidden_append, forbidden_attr, forbidden_loggerLabel,
    forbidden_messageText, forbidden_contextText, forbidden_thrownText, forbidden_locationText,
    forbidden_propertiesText, htime, hlevel, forbidden_of_allowed, List.nil_append,
    List.append_nil]
  simp only [shownTexts, List.flatMap_append, List.flatMap_cons, List.flatMap_nil,
    List.append_nil, List.append_assoc]

/-- The text of an event has the forbidden characters of the texts it shows, no
other and no fewer, in their order. So all its characters are ones that XML 1.0
allows exactly if this is so for the logger name, the thread, the message, the
context, what is shown of the error and, where the layout shows them, the
source and the properties. -/
theorem eventText_allowed_iff (x : XmlLayout) (e : Event) :
    forbidden (x.eventText e) = (x.shownTexts e).flatMap forbidden ∧
      ((∀ c ∈ (x.eventText e).toList, IsAllowed c) ↔
        ∀ s ∈ x.shownTexts e, ∀ c ∈ s.toList, IsAllowed c) := by
  refine ⟨x.forbidden_eventText e, ?_⟩
  change AllowedText (x.eventText e) ↔ ∀ s ∈ x.shownTexts e, AllowedText s
  rw [← forbidden_eq_nil, forbidden_eventText, List.flatMap_eq_nil_iff]
  exact forall₂_congr fun s _ => forbidden_eq_nil

/-- Control characters go through both escapes into the output. -/
theorem eventText_shows_controls :
    let x : XmlLayout := ⟨false, false, false, .utf8⟩
    let e := Event.create "main" 0 "a<\x1bb" .info "\x07"
    forbidden (x.eventText e) = ['\x1b', '\x07'] ∧
      ¬∀ c ∈ (x.eventText e).toList, IsAllowed c := by
  intro x e
  have hforbidden : forbidden (x.eventText e) = ['\x1b', '\x07'] := by
    rw [forbidden_eventText]
    decide
  refine ⟨hforbidden, fun hallowed => ?_⟩
  rw [forbidden_of_allowed hallowed] at hforbidden
  contradiction

end XmlLayout
end LoggingFacade
