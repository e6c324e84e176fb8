/-!
# Lines

A line ends at a line feed or at a carriage return followed by a line feed; a
carriage return elsewhere is part of its line, and no line follows the last
end.
-/

namespace LoggingFacade
namespace Text

def splitLines : List Char → List (List Char)
  | [] => []
  | '\r' :: '\n' :: rest => [] :: splitLines rest
  | '\n' :: rest => [] :: splitLines rest
  | c :: rest =>
    match splitLines rest with
    | [] => [[c]]
    | line :: more => (c :: line) :: more

def lines (s : String) : List String := (splitLines s.toList).map .ofList

/-- No line holds a line feed, so a line never splits again. -/
theorem not_mem_of_mem_splitLines (cs : List Char) :
    ∀ line ∈ splitLines cs, '\n' ∉ line := by
  fun_induction splitLines cs with
  | case1 => simp
  | case2 rest ih => simpa using ih
  | case3 rest ih => simpa using ih
  | case4 c rest _ hc hs ih =>
    intro line hl
    simp only [List.mem_singleton] at hl
    subst hl
    simp only [List.mem_singleton]
    exact fun h => hc h.symm
  | case5 c rest _ hc first more hs ih =>
    rw [hs] at ih
    intro line hl
    rcases List.mem_cons.1 hl with rfl | hl
    · intro hm
      rcases List.mem_cons.1 hm with h | h
      · exact hc h.symm
      · exact ih first (by simp) h
    · exact ih line (List.mem_cons_of_mem _ hl)

theorem not_mem_of_mem_lines {s line : String} (h : line ∈ lines s) : '\n' ∉ line.toList := by
  obtain ⟨cs, hcs, rfl⟩ := List.mem_map.1 h
  simpa using not_mem_of_mem_splitLines _ _ hcs

end Text
end LoggingFacade
