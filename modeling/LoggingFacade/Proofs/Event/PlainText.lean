import LoggingFacade.Event
import LoggingFacade.Proofs.Text.Lossy
import LoggingFacade.Proofs.Thrown.Drafts
import Mathlib.Data.List.Basic

/-!
# Lines of plain text

The plain text of an event is a line for the event and an indented line for
each line of its error, each with a line feed behind it. These are the lines
that a reader finds exactly if no other line feed is written, and there are
four texts that can bring one in: the logger name, the thread, the message and
the debugging text that stands for an error.
-/

namespace LoggingFacade

namespace Text

theorem length_splitOn (c : Char) (cs : List Char) :
    (cs.splitOn c).length = cs.count c + 1 := by
  induction cs with
  | nil => rfl
  | cons d cs ih =>
    rw [List.splitOn_cons_eq_if_modifyHead, List.count_cons]
    split
    · rw [List.length_cons, ih]
    · rw [List.length_modifyHead, ih, Nat.add_zero]

/-- A reader of lines finds those that were joined, each cut at the line feeds
in it, and nothing behind the last one. -/
theorem splitOn_join (lines : List String) :
    (String.join (lines.map (· ++ "\n"))).toList.splitOn '\n' =
      lines.flatMap (fun line => line.toList.splitOn '\n') ++ [[]] := by
  induction lines with
  | nil => rfl
  | cons line lines ih =>
    have hend : "\n".toList = ['\n'] := rfl
    rw [List.map_cons, String.join_cons, String.toList_append, String.toList_append, hend,
      List.append_assoc, List.singleton_append, List.splitOn_append_cons_self, ih,
      List.flatMap_cons, List.append_assoc]

theorem flatMap_splitOn {lines : List String} (h : ∀ line ∈ lines, '\n' ∉ line.toList) :
    lines.flatMap (fun line => line.toList.splitOn '\n') = lines.map String.toList := by
  rw [List.flatMap_congr fun line hline => List.splitOn_eq_singleton (h line hline),
    List.map_eq_flatMap]

/-- As many lines are found as were joined only if none of them is cut. -/
theorem not_mem_of_length_flatMap {lines : List String}
    (h : (lines.flatMap fun line => line.toList.splitOn '\n').length = lines.length) :
    ∀ line ∈ lines, '\n' ∉ line.toList := by
  have hcount : (lines.flatMap fun line => line.toList.splitOn '\n').length =
      lines.length + (lines.flatMap String.toList).count '\n' := by
    clear h
    induction lines with
    | nil => rfl
    | cons line lines ih =>
      rw [List.flatMap_cons, List.flatMap_cons, List.length_append, List.count_append,
        length_splitOn, ih, List.length_cons]
      omega
  have hnone : (lines.flatMap String.toList).count '\n' = 0 := by omega
  intro line hline hfeed
  exact List.count_eq_zero.1 hnone (List.mem_flatMap.2 ⟨line, hline, hfeed⟩)

end Text

namespace Event

/-- The line that stands for the event itself. -/
def firstLine (e : Event) : String :=
  toString e.timestamp ++ " " ++ e.level.name ++ " [" ++ e.thread ++ "] " ++ e.loggerLabel ++
    " - " ++ e.message.getD ""

def plainLines (e : Event) : List String := e.firstLine :: e.thrownLines.map ("    " ++ ·)

theorem foldl_indented (lines : List String) (text : String) :
    lines.foldl (fun text line => text ++ "    " ++ line ++ "\n") text =
      text ++ String.join (lines.map fun line => "    " ++ line ++ "\n") := by
  induction lines generalizing text with
  | nil => simp
  | cons line lines ih =>
    rw [List.foldl_cons, ih, List.map_cons, String.join_cons]
    simp only [String.append_assoc]

theorem plainText_eq (e : Event) :
    e.plainText = String.join (e.plainLines.map (· ++ "\n")) := by
  rw [plainText, foldl_indented, plainLines, List.map_cons, String.join_cons, List.map_map]
  rfl

theorem splitOn_plainText (e : Event) : e.plainText.toList.splitOn '\n' =
    e.plainLines.flatMap (fun line => line.toList.splitOn '\n') ++ [[]] := by
  rw [plainText_eq, Text.splitOn_join]

/-- A reader of lines finds one for the event, which comes first, and one for
each line of the error, all indented; behind the last line feed nothing is left. -/
def KeepsLines (e : Event) : Prop :=
  ∃ rows : List (List Char), e.plainText.toList.splitOn '\n' = rows ++ [[]] ∧
    rows.length = 1 + e.thrownLines.length ∧ rows.head? = some e.firstLine.toList ∧
    ∀ row ∈ rows.tail, "    ".toList <+: row

theorem keepsLines_iff (e : Event) :
    e.KeepsLines ↔ ∀ line ∈ e.plainLines, '\n' ∉ line.toList := by
  have hcount : e.plainLines.length = 1 + e.thrownLines.length := by
    rw [plainLines, List.length_cons, List.length_map, Nat.add_comm]
  constructor
  · -- The number of the rows decides: each further line feed would make one more.
    rintro ⟨rows, hrows, hlength, -, -⟩
    rw [splitOn_plainText] at hrows
    refine Text.not_mem_of_length_flatMap ?_
    rw [List.append_cancel_right hrows, hlength, hcount]
  · intro h
    refine ⟨e.plainLines.map String.toList, ?_, ?_, rfl, ?_⟩
    · rw [splitOn_plainText, Text.flatMap_splitOn h]
    · rw [List.length_map, hcount]
    · intro row hrow
      rw [plainLines, List.map_cons, List.tail_cons, List.map_map] at hrow
      obtain ⟨line, -, rfl⟩ := List.mem_map.1 hrow
      exact ⟨line.toList, String.toList_append.symm⟩

/-! ## Line feeds -/

theorem feed_not_mem_toString (n : Int) : '\n' ∉ (toString n).toList := by
  intro h
  rcases Text.mem_toString_int h with hsign | hdigit
  · contradiction
  · contradiction

theorem feed_not_mem_name (level : Level) : '\n' ∉ level.name.toList := by
  cases level <;> decide

theorem feed_mem_loggerLabel (e : Event) :
    '\n' ∈ e.loggerLabel.toList ↔ '\n' ∈ e.logger.toList := by
  rw [loggerLabel]
  split
  · rename_i hempty
    rw [String.isEmpty_iff.1 hempty]
    decide
  · rfl

theorem feed_mem_firstLine (e : Event) : '\n' ∈ e.firstLine.toList ↔
    '\n' ∈ e.thread.toList ∨ '\n' ∈ e.logger.toList ∨ '\n' ∈ (e.message.getD "").toList := by
  have htime := feed_not_mem_toString e.timestamp
  rw [firstLine]
  generalize toString e.timestamp = time at htime ⊢
  simp [htime, feed_mem_loggerLabel, feed_not_mem_name]

/-- Only a debugging text brings a line feed into the lines of an error. -/
theorem feed_mem_lines (t : Thrown) : (∃ line ∈ t.lines, '\n' ∈ line.toList) ↔
    ¬t.Shown ∧ t.debug.mode = .whole ∧ '\n' ∈ t.debug.text.toList := by
  by_cases hshown : t.Shown
  · rw [Thrown.lines_of_shown hshown]
    constructor
    · rintro ⟨line, hline, hfeed⟩
      exact absurd hfeed (Text.not_mem_of_mem_lines hline)
    · exact fun h => absurd hshown h.1
  · rw [Thrown.lines_of_not_shown hshown]
    have hplaceholder : '\n' ∉ Thrown.placeholder.toList := by decide
    by_cases hdebug : t.debug.mode = .whole
    · simp [Thrown.fallback, hdebug, hshown]
    · simp [Thrown.fallback, hdebug, hplaceholder]

theorem feed_mem_plainLines (e : Event) : (∃ line ∈ e.plainLines, '\n' ∈ line.toList) ↔
    '\n' ∈ e.thread.toList ∨ '\n' ∈ e.logger.toList ∨ '\n' ∈ (e.message.getD "").toList ∨
      ∃ t, e.thrown = some t ∧ ¬t.Shown ∧ t.debug.mode = .whole ∧
        '\n' ∈ t.debug.text.toList := by
  have hindented : (∃ line ∈ e.thrownLines.map ("    " ++ ·), '\n' ∈ line.toList) ↔
      ∃ t, e.thrown = some t ∧ ∃ line ∈ t.lines, '\n' ∈ line.toList := by
    rw [thrownLines]
    cases e.thrown with
    | none => simp
    | some t => simp
  simp only [plainLines, List.mem_cons, exists_eq_or_imp, feed_mem_firstLine, hindented,
    feed_mem_lines, or_assoc]

/-- The plain text of an event is its line and the lines of its error, each
written behind the one before and cut where it has a line feed itself. So
these lines are kept exactly if there is no line feed in the thread, in the
logger name, in the message, and in the debugging text that stands for an error
which does not show its chain. -/
theorem plainText_keeps_lines_iff (e : Event) :
    e.plainText.toList.splitOn '\n' =
        (e.firstLine :: e.thrownLines.map ("    " ++ ·)).flatMap
          (fun line => line.toList.splitOn '\n') ++ [[]] ∧
      (e.KeepsLines ↔ '\n' ∉ e.thread.toList ∧ '\n' ∉ e.logger.toList ∧
        '\n' ∉ (e.message.getD "").toList ∧
        ¬∃ t, e.thrown = some t ∧ ¬t.Shown ∧ t.debug.mode = .whole ∧
          '\n' ∈ t.debug.text.toList) := by
  refine ⟨e.splitOn_plainText, ?_⟩
  have hfeed := not_congr e.feed_mem_plainLines
  rw [keepsLines_iff]
  simpa only [not_or, not_exists, not_and] using hfeed

/-- A line feed in a message, or in the debugging text of an error that refuses
to show itself, starts a line of its own. -/
theorem plainText_forges_lines :
    let message := create "main" 0 "app" .info "one\n0 INFO [main] app - two"
    let debug := (create "main" 0 "app" .info "one").withThrown
      ⟨⟨"", .refused⟩, .plain "two\n0 INFO [main] app - three", []⟩
    message.plainText = "0 INFO [main] app - one\n0 INFO [main] app - two\n" ∧
      ¬message.KeepsLines ∧
      debug.plainText =
        "0 INFO [main] app - one\n    two\n0 INFO [main] app - three\n" ∧
      ¬debug.KeepsLines := by
  intro message debug
  refine ⟨by decide, fun h => ?_, by decide, fun h => ?_⟩
  · rw [keepsLines_iff] at h
    exact h message.firstLine List.mem_cons_self (by decide)
  · rw [keepsLines_iff] at h
    exact h _ (List.mem_cons_of_mem _ (List.mem_map_of_mem List.mem_cons_self)) (by decide)

end Event
end LoggingFacade
