import LoggingFacade.Message
import Mathlib.Data.List.Basic
import Mathlib.Data.List.Infix

/-!
# Placeholders

A pattern is cut at its placeholders from the left, each time at the first one in what is
left, and the cut goes on behind it. The message is the pieces with the arguments between
them; where there is no argument the placeholder stays. The pieces depend on the pattern
alone, so nothing in an argument is ever taken for a placeholder.
-/

namespace LoggingFacade
namespace MessageFormat

/-- What stands for an argument. -/
def placeholder : List Char := ['\x7b', '\x7d']

/-- The first placeholder of a text stands between the front and the back. -/
structure FirstAt (text front back : List Char) : Prop where
  split : text = front ++ placeholder ++ back
  leftmost : ∀ before after, text = before ++ placeholder ++ after → front.length ≤ before.length

/-- The pieces of a text between its placeholders, found one after the other. -/
inductive Cut : List Char → List (List Char) → Prop
  | last {text : List Char} : ¬placeholder <:+: text → Cut text [text]
  | first {text front back : List Char} {pieces : List (List Char)} :
      FirstAt text front back → Cut back pieces → Cut text (front :: pieces)

/-- Pieces with a text between each two of them, numbered from the left. -/
def joined (between : Nat → List Char) : List (List Char) → List Char
  | [] => []
  | [last] => last
  | piece :: next :: rest => piece ++ between 0 ++ joined (fun i => between (i + 1)) (next :: rest)

/-- What takes the place of a placeholder: its argument, or the placeholder itself. -/
def filling (arguments : List String) (i : Nat) : List Char :=
  match arguments[i]? with
  | some argument => argument.toList
  | none => placeholder

/-! ## The first placeholder -/

theorem FirstAt.unique {text front back front' back' : List Char} (h : FirstAt text front back)
    (h' : FirstAt text front' back') : front = front' ∧ back = back' := by
  have hlength : front.length = front'.length :=
    Nat.le_antisymm (h.leftmost _ _ h'.split) (h'.leftmost _ _ h.split)
  have hsame : front ++ (placeholder ++ back) = front' ++ (placeholder ++ back') := by
    rw [← List.append_assoc, ← h.split, h'.split, List.append_assoc]
  obtain ⟨hfront, hrest⟩ := List.append_inj hsame hlength
  exact ⟨hfront, List.append_cancel_left hrest⟩

/-- Behind a character that begins no placeholder, the first one is that of the rest. -/
theorem FirstAt.cons {c : Char} {rest front back : List Char} (h : FirstAt rest front back)
    (hc : ¬placeholder <+: c :: rest) : FirstAt (c :: rest) (c :: front) back := by
  refine ⟨by rw [h.split, List.cons_append, List.cons_append], ?_⟩
  intro before after hsplit
  cases before with
  | nil => exact absurd ⟨after, hsplit.symm⟩ hc
  | cons d before =>
    have hrest : rest = before ++ placeholder ++ after := (List.cons.inj hsplit).2
    have hle := h.leftmost before after hrest
    simpa using hle

/-- A front that is not empty begins no placeholder. -/
theorem FirstAt.of_cons {text front back : List Char} {c : Char}
    (h : FirstAt text (c :: front) back) :
    ∃ rest, text = c :: rest ∧ ¬placeholder <+: c :: rest ∧ FirstAt rest front back := by
  refine ⟨front ++ placeholder ++ back, h.split, ?_, rfl, ?_⟩
  · rintro ⟨after, hafter⟩
    have hle := h.leftmost [] after (h.split.trans hafter.symm)
    simp at hle
  · intro before after hsplit
    have hle := h.leftmost (c :: before) after (by rw [h.split, List.cons_append, List.cons_append,
      hsplit, List.cons_append, List.cons_append])
    simpa using hle

theorem exists_firstAt {text : List Char} (h : placeholder <:+: text) :
    ∃ front back, FirstAt text front back := by
  induction text with
  | nil => simp [placeholder] at h
  | cons c rest ih =>
    by_cases hc : placeholder <+: c :: rest
    · obtain ⟨back, hback⟩ := hc
      exact ⟨[], back, hback.symm, fun _ _ _ => Nat.zero_le _⟩
    · obtain ⟨front, back, hfirst⟩ := ih ((List.infix_cons_iff.1 h).resolve_left hc)
      exact ⟨c :: front, back, hfirst.cons hc⟩

/-! ## Cutting -/

theorem Cut.ne_nil {text : List Char} {pieces : List (List Char)} (h : Cut text pieces) :
    pieces ≠ [] := by
  cases h <;> simp

/-- Every cut makes what is left shorter, so the cutting ends. -/
theorem exists_cut (text : List Char) : ∃ pieces, Cut text pieces := by
  by_cases h : placeholder <:+: text
  · obtain ⟨front, back, hfirst⟩ := exists_firstAt h
    have hshorter : back.length < text.length := by
      rw [hfirst.split]
      simp [placeholder]
      omega
    obtain ⟨pieces, hpieces⟩ := exists_cut back
    exact ⟨front :: pieces, .first hfirst hpieces⟩
  · exact ⟨[text], .last h⟩
termination_by text.length

theorem Cut.unique {text : List Char} {pieces others : List (List Char)} (h : Cut text pieces)
    (h' : Cut text others) : others = pieces := by
  have hoccurs : ∀ {text front back}, FirstAt text front back → placeholder <:+: text :=
    fun hfirst => ⟨_, _, hfirst.split.symm⟩
  induction h generalizing others with
  | last hnone =>
    cases h' with
    | last _ => rfl
    | first hfirst _ => exact absurd (hoccurs hfirst) hnone
  | first hfirst _ ih =>
    cases h' with
    | last hnone => exact absurd (hoccurs hfirst) hnone
    | first hfirst' hrest =>
      obtain ⟨rfl, rfl⟩ := hfirst.unique hfirst'
      rw [ih hrest]

/-! ## Joining -/

theorem joined_cons (between : Nat → List Char) (piece : List Char) {rest : List (List Char)}
    (h : rest ≠ []) : joined between (piece :: rest) =
      piece ++ between 0 ++ joined (fun i => between (i + 1)) rest := by
  obtain ⟨next, more, rfl⟩ := List.exists_cons_of_ne_nil h
  rw [joined]

/-- Only the texts that stand between two pieces matter. -/
theorem joined_congr {x y : Nat → List Char} {pieces : List (List Char)}
    (h : ∀ i, i + 1 < pieces.length → x i = y i) : joined x pieces = joined y pieces := by
  induction pieces generalizing x y with
  | nil => rfl
  | cons piece rest ih =>
    cases rest with
    | nil => rfl
    | cons next more =>
      have hrest := ih (x := fun i => x (i + 1)) (y := fun i => y (i + 1)) fun i hi =>
        h (i + 1) (by simpa using hi)
      rw [joined, joined, h 0 (by simp), hrest]

theorem filling_take {arguments : List String} {n i : Nat} (h : i < n) :
    filling (arguments.take n) i = filling arguments i := by
  rw [filling, filling, List.getElem?_take_of_lt h]

theorem filling_tail (arguments : List String) (i : Nat) :
    filling arguments.tail i = filling arguments (i + 1) := by
  rw [filling, filling, List.getElem?_tail]

/-! ## Filling -/

theorem fill_placeholder (back : List Char) (arguments : List String) :
    fill (placeholder ++ back) arguments = filling arguments 0 ++ fill back arguments.tail := by
  cases arguments with
  | nil => rfl
  | cons argument more => rfl

theorem fill_cons {c : Char} {rest : List Char} (h : ¬placeholder <+: c :: rest)
    (arguments : List String) : fill (c :: rest) arguments = c :: fill rest arguments := by
  rw [fill.eq_def]
  split
  · rename_i back argument more hc
    exact absurd ⟨back, hc.symm⟩ h
  · rename_i back hc
    exact absurd ⟨back, hc.symm⟩ h
  · rename_i d back hc _ _
    obtain ⟨rfl, rfl⟩ := List.cons.inj hc
    rfl
  · contradiction

/-- One step of the search: the front stays, the first argument, if there is one, takes the
place of the placeholder, and what follows is filled with the other arguments. -/
theorem FirstAt.fill {text front back : List Char} (h : FirstAt text front back)
    (arguments : List String) : fill text arguments =
      front ++ filling arguments 0 ++ MessageFormat.fill back arguments.tail := by
  induction front generalizing text with
  | nil => rw [h.split, List.nil_append, fill_placeholder, List.nil_append]
  | cons c front ih =>
    obtain ⟨rest, rfl, hc, hrest⟩ := h.of_cons
    rw [fill_cons hc, ih hrest, List.cons_append, List.cons_append]

theorem fill_of_no_placeholder {text : List Char} (h : ¬placeholder <:+: text)
    (arguments : List String) : fill text arguments = text := by
  induction text with
  | nil => rw [fill.eq_def]
  | cons c rest ih =>
    rw [List.infix_cons_iff, not_or] at h
    rw [fill_cons h.1, ih h.2]

/-- All steps of the search together. -/
theorem Cut.fill {text : List Char} {pieces : List (List Char)} (h : Cut text pieces)
    (arguments : List String) : fill text arguments = joined (filling arguments) pieces := by
  induction h generalizing arguments with
  | last hnone => rw [fill_of_no_placeholder hnone, joined]
  | first hfirst hrest ih =>
    have hfillings : filling arguments.tail = fun i => filling arguments (i + 1) :=
      funext fun i => filling_tail arguments i
    rw [hfirst.fill, ih, joined_cons _ _ hrest.ne_nil, hfillings]

/-- A pattern has one list of pieces, and whatever the arguments are, the message is these
pieces with the arguments between them, placeholders where arguments are missing. So
arguments beyond the last placeholder are ignored, and without arguments the message is
the pattern. -/
theorem format_joins_pieces (pattern : String) : ∃ pieces,
    (∀ others, Cut pattern.toList others ↔ others = pieces) ∧
    (∀ arguments, (parameterized.format pattern arguments).toList =
      joined (filling arguments) pieces) ∧
    (∀ arguments, parameterized.format pattern (arguments.take (pieces.length - 1)) =
      parameterized.format pattern arguments) ∧
    parameterized.format pattern [] = pattern := by
  obtain ⟨pieces, hcut⟩ := exists_cut pattern.toList
  have hfill : ∀ arguments, (parameterized.format pattern arguments).toList =
      joined (filling arguments) pieces := by
    intro arguments
    rw [parameterized, String.toList_ofList, hcut.fill]
  refine ⟨pieces, ?_, hfill, ?_, format_parameterized_nil pattern⟩
  · intro others
    constructor
    · exact hcut.unique
    · rintro rfl
      exact hcut
  · intro arguments
    rw [← String.toList_inj, hfill, hfill]
    refine joined_congr ?_
    intro i hi
    exact filling_take (by omega)

/-- Braces that overlap with a placeholder, and an argument that looks like one. -/
example : parameterized.format "\x7b\x7b\x7d\x7d \x7b\x7d \x7b\x7d" ["\x7b\x7d", "b"] =
    "\x7b\x7b\x7d\x7d b \x7b\x7d" := by
  decide

end MessageFormat
end LoggingFacade
