/-!
# White space

The characters with the Unicode property `White_Space`, and the trimming that
names, charsets and numbers undergo before they are read.
-/

namespace LoggingFacade
namespace Text

/-- The Unicode property `White_Space`. -/
def isBlank (c : Char) : Bool :=
  let n := c.toNat
  (9 ≤ n && n ≤ 13) || n == 0x20 || n == 0x85 || n == 0xA0 || n == 0x1680 ||
    (0x2000 ≤ n && n ≤ 0x200A) || n == 0x2028 || n == 0x2029 || n == 0x202F || n == 0x205F ||
    n == 0x3000

theorem isBlank_of_isWhitespace {c : Char} (h : c.isWhitespace = true) : isBlank c = true := by
  simp only [Char.isWhitespace, Bool.or_eq_true, decide_eq_true_eq] at h
  rcases h with ((rfl | rfl) | rfl) | rfl <;> decide

/-- Removes the characters that `p` accepts from both ends. -/
def strip (p : Char → Bool) (cs : List Char) : List Char :=
  ((cs.dropWhile p).reverse.dropWhile p).reverse

def trim (s : String) : String := .ofList (strip isBlank s.toList)

/-- No character of the text is visible. -/
def allBlank (s : String) : Bool := s.toList.all isBlank

theorem dropWhile_eq_nil_iff_all (p : Char → Bool) (cs : List Char) :
    cs.dropWhile p = [] ↔ ∀ c ∈ cs, p c = true := by
  induction cs with
  | nil => simp
  | cons c cs ih => by_cases h : p c = true <;> simp [h, ih]

theorem strip_eq_nil_iff (p : Char → Bool) (cs : List Char) :
    strip p cs = [] ↔ ∀ c ∈ cs, p c = true := by
  rw [strip, List.reverse_eq_nil_iff, dropWhile_eq_nil_iff_all]
  constructor
  · intro h
    rw [← dropWhile_eq_nil_iff_all]
    cases hd : cs.dropWhile p with
    | nil => rfl
    | cons c rest =>
      have hc : p c = true := h c (by simp [hd])
      have : p c = false := by
        have := List.head?_dropWhile_not p cs
        simpa [hd] using this
      simp [this] at hc
  · intro h c hc
    rw [List.mem_reverse] at hc
    exact h c ((List.dropWhile_sublist p).subset hc)

theorem trim_eq_empty_iff (s : String) : trim s = "" ↔ allBlank s = true := by
  rw [trim, allBlank, List.all_eq_true, ← strip_eq_nil_iff, ← String.toList_inj]
  simp

/-- The white space of ASCII: tab, line feed, form feed, carriage return, space. -/
def isAsciiBlank (c : Char) : Bool :=
  c == '\t' || c == '\n' || c == '\x0c' || c == '\r' || c == ' '

end Text
end LoggingFacade
