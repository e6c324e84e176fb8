import LoggingFacade.Proofs.Xml.Reader

/-!
# Attribute values

A value is escaped character by character: one that has a reference is written as that
reference, every other one as itself. A reader takes what stands before the first quote,
normalizes its line ends and its white space, and resolves the references only then. An escaped
value has nothing for the first two steps to change, and its ampersands begin nothing but the
references that were written, so the reader gets the value back.
-/

namespace LoggingFacade
namespace Xml

/-- The reference to a character if there is one, else the character. -/
def written (c : Char) : List Char :=
  match references.find? fun r => r.2 = c with
  | some r => '&' :: r.1.toList
  | none => [c]

/-- A carriage return, with the line feed behind it if there is one, is read as a line feed. -/
def normalizeLineEnds : List Char → List Char
  | '\r' :: '\n' :: rest => '\n' :: normalizeLineEnds rest
  | '\r' :: rest => '\n' :: normalizeLineEnds rest
  | c :: rest => c :: normalizeLineEnds rest
  | [] => []

/-- White space is read as spaces. -/
def normalizeSpaces (cs : List Char) : List Char := cs.map fun c => if isSpace c then ' ' else c

/-- The value of an attribute behind its opening quote, and the text behind its closing one. -/
def attributeValue? (cs : List Char) : Option (List Char × List Char) := do
  let (raw, rest) ← until? ['"'] cs
  let value ← resolve? (normalizeSpaces (normalizeLineEnds raw))
  return (value, rest)

/-! ## Characters -/

theorem reference?_escapeChar {c : Char} (h : c ∈ markup) (rest : List Char) :
    ∃ name, escapeChar c = '&' :: name ∧ reference? (name ++ rest) = some (c, rest) := by
  simp only [markup, List.mem_cons, List.not_mem_nil, or_false] at h
  rcases h with rfl | rfl | rfl | rfl | rfl | rfl | rfl
  all_goals exact ⟨_, rfl, rfl⟩

theorem escapeChar_of_mem_references : ∀ r ∈ references, escapeChar r.2 = '&' :: r.1.toList := by
  decide

theorem markup_perm : markup.Perm (references.map Prod.snd) := by decide

theorem mem_markup {c : Char} : c ∈ markup ↔ ∃ r ∈ references, r.2 = c := by
  rw [markup_perm.mem_iff, List.mem_map]

theorem written_eq_escapeChar (c : Char) : written c = escapeChar c := by
  rw [written]
  split
  · rename_i r hfound
    have hc : r.2 = c := by simpa using List.find?_some hfound
    rw [← escapeChar_of_mem_references r (List.mem_of_find?_eq_some hfound), hc]
  · rename_i hnone
    refine (escapeChar_of_not_mem fun hc => ?_).symm
    obtain ⟨r, hr, hrc⟩ := mem_markup.1 hc
    exact List.find?_eq_none.1 hnone r hr (by simpa using hrc)

theorem written_eq_singleton {c : Char} : written c = [c] ↔ c ∉ markup := by
  rw [written_eq_escapeChar]
  refine ⟨fun hsame hc => ?_, escapeChar_of_not_mem⟩
  simp only [markup, List.mem_cons, List.not_mem_nil, or_false] at hc
  rcases hc with rfl | rfl | rfl | rfl | rfl | rfl | rfl <;> revert hsame <;> decide

/-! ## Escaped values -/

/-- The characters that end a value or that a reader does not keep. -/
def fragile : List Char := ['<', '>', '"', '\t', '\r', '\n']

theorem not_mem_fragile {cs : List Char} {c : Char} (h : c ∈ cs.flatMap escapeChar) :
    c ∉ fragile := by
  obtain ⟨d, -, hc⟩ := List.mem_flatMap.1 h
  by_cases hd : d ∈ markup
  · have hnone : ((markup.flatMap escapeChar).all fun c => !fragile.contains c) = true := by decide
    simpa using List.all_eq_true.1 hnone c (List.mem_flatMap.2 ⟨d, hd, hc⟩)
  · rw [escapeChar_of_not_mem hd, List.mem_singleton] at hc
    have hsub : fragile ⊆ markup := by decide
    exact fun hfragile => hd (hsub (hc ▸ hfragile))

/-- At every ampersand stands one of the references. -/
def Referenced (cs : List Char) : Prop :=
  ∀ back, '&' :: back <:+ cs → ∃ r ∈ references, r.1.toList <+: back

theorem Referenced.cons {c : Char} {cs : List Char} (hc : c ≠ '&') (h : Referenced cs) :
    Referenced (c :: cs) := by
  intro back hback
  rcases List.suffix_cons_iff.1 hback with heq | hsuffix
  · exact absurd (List.cons.inj heq).1.symm hc
  · exact h back hsuffix

theorem Referenced.append {cs more : List Char} (hcs : '&' ∉ cs) (h : Referenced more) :
    Referenced (cs ++ more) := by
  induction cs with
  | nil => exact h
  | cons c cs ih =>
    rw [List.mem_cons, not_or] at hcs
    exact (ih hcs.2).cons (Ne.symm hcs.1)

/-- The name of a reference has no ampersand, so none is found inside of it. -/
theorem Referenced.reference {r : String × Char} (hr : r ∈ references) {cs : List Char}
    (h : Referenced cs) : Referenced ('&' :: (r.1.toList ++ cs)) := by
  intro back hback
  rcases List.suffix_cons_iff.1 hback with heq | hsuffix
  · exact ⟨r, hr, (List.cons.inj heq).2 ▸ List.prefix_append _ _⟩
  · have hname : ∀ r ∈ references, '&' ∉ r.1.toList := by decide
    exact h.append (hname r hr) back hsuffix

theorem referenced_escape (cs : List Char) : Referenced (cs.flatMap escapeChar) := by
  induction cs with
  | nil => exact fun back hback => absurd (List.suffix_nil.1 hback) (List.cons_ne_nil _ _)
  | cons c cs ih =>
    rw [List.flatMap_cons]
    by_cases hc : c ∈ markup
    · obtain ⟨r, hr, rfl⟩ := mem_markup.1 hc
      rw [escapeChar_of_mem_references r hr]
      exact ih.reference hr
    · rw [escapeChar_of_not_mem hc]
      have hamp : '&' ∈ markup := by decide
      exact ih.cons fun heq => hc (heq ▸ hamp)

/-! ## Reading -/

theorem normalizeLineEnds_of_not_mem {cs : List Char} (h : '\r' ∉ cs) :
    normalizeLineEnds cs = cs := by
  fun_induction normalizeLineEnds cs with
  | case1 => simp at h
  | case2 => simp at h
  | case3 c rest _ _ ih => rw [ih fun hrest => h (List.mem_cons_of_mem c hrest)]
  | case4 => rfl

theorem normalizeSpaces_of_not_mem {cs : List Char} (h : ∀ c ∈ cs, c ∉ fragile) :
    normalizeSpaces cs = cs := by
  refine (List.map_congr_left fun c hc => ?_).trans (List.map_id cs)
  split
  · rename_i hspace
    simp only [isSpace, Bool.or_eq_true, beq_iff_eq] at hspace
    rcases hspace with ((rfl | rfl) | rfl) | rfl
    · rfl
    all_goals exact absurd (by decide) (h _ hc)
  · rfl

theorem resolve?_of_not_mem {c : Char} (h : c ∉ markup) (rest : List Char) :
    resolve? (c :: rest) = (resolve? rest).map (c :: ·) := by
  rw [resolve?]
  all_goals
    rintro rfl
    exact h (by decide)

/-- Each reference that was written is read as such, whatever text it stands in. -/
theorem resolve?_escape (cs : List Char) : resolve? (cs.flatMap escapeChar) = some cs := by
  induction cs with
  | nil => rw [List.flatMap_nil, resolve?]
  | cons c cs ih =>
    rw [List.flatMap_cons]
    by_cases hc : c ∈ markup
    · obtain ⟨name, hname, hread⟩ := reference?_escapeChar hc (cs.flatMap escapeChar)
      rw [hname, List.cons_append, resolve?]
      split
      · rename_i d more h
        obtain ⟨rfl, rfl⟩ := Prod.mk.inj (Option.some.inj (hread.symm.trans h))
        rw [ih]
        rfl
      · rename_i h
        rw [hread] at h
        contradiction
    · rw [escapeChar_of_not_mem hc, List.singleton_append, resolve?_of_not_mem hc, ih]
      rfl

theorem attributeValue?_escape (cs rest : List Char) :
    attributeValue? (cs.flatMap escapeChar ++ '"' :: rest) = some (cs, rest) := by
  have hplain : ∀ c ∈ cs.flatMap escapeChar, c ∉ fragile := fun c => not_mem_fragile
  have hquote : until? ['"'] (cs.flatMap escapeChar) = none := by
    rw [until?_eq_none (by decide), List.singleton_infix_iff]
    exact fun hmem => hplain _ hmem (by decide)
  have hreturn : '\r' ∉ cs.flatMap escapeChar := fun hmem => hplain _ hmem (by decide)
  have hcut := until?_of_borderless (by decide) (by decide) hquote rest
  rw [List.singleton_append] at hcut
  simp [attributeValue?, hcut, normalizeLineEnds_of_not_mem hreturn,
    normalizeSpaces_of_not_mem hplain, resolve?_escape]

/-- A value is escaped character by character, and returned as it is exactly if none of its
characters has a reference; so the parts of a value are escaped each on its own. The escaped
value has no markup, no quote and no white space but spaces, and every ampersand in it begins
one of the references. A reader that ends the value at the first quote and normalizes line ends
and white space before it resolves references gets the value itself, whatever it contains. -/
theorem escapeTags_reads_back (s : String) :
    (escapeTags s).toList = s.toList.flatMap written ∧
    (s.toList.any markup.contains = false ↔ ∀ c ∈ s.toList, written c = [c]) ∧
    (∀ t, escapeTags (s ++ t) = escapeTags s ++ escapeTags t) ∧
    (∀ c ∈ (escapeTags s).toList, c ∉ ['<', '>', '"', '\t', '\r', '\n']) ∧
    (∀ front back, (escapeTags s).toList = front ++ '&' :: back →
      ∃ r ∈ references, r.1.toList <+: back) ∧
    ∀ rest, attributeValue? ((escapeTags s).toList ++ '"' :: rest) = some (s.toList, rest) := by
  have hwritten : written = escapeChar := funext written_eq_escapeChar
  refine ⟨?_, ?_, ?_, ?_, ?_, ?_⟩
  · rw [toList_escapeTags, hwritten]
  · simp only [written_eq_singleton]
    simp
  · intro t
    simp [← String.toList_inj, toList_escapeTags]
  · intro c hc
    rw [toList_escapeTags] at hc
    exact not_mem_fragile hc
  · intro front back hsplit
    rw [toList_escapeTags] at hsplit
    exact referenced_escape s.toList back ⟨front, hsplit.symm⟩
  · intro rest
    rw [toList_escapeTags]
    exact attributeValue?_escape s.toList rest

/-- A text that looks like a reference, and white space. -/
theorem escapeTags_reads_back_reference :
    let back := "amp;#10;&#9;".toList
    (escapeTags "&#10;\t").toList = [] ++ '&' :: back ∧ (∃ r ∈ references, r.1.toList <+: back) ∧
      '&' ∈ (escapeTags "&#10;\t").toList ∧ '&' ∉ ['<', '>', '"', '\t', '\r', '\n'] ∧
      attributeValue? ((escapeTags "&#10;\t").toList ++ '"' :: ['>']) =
        some ("&#10;\t".toList, ['>']) := by
  intro back
  obtain ⟨-, -, -, hplain, hreferences, hread⟩ := escapeTags_reads_back "&#10;\t"
  have hsplit : (escapeTags "&#10;\t").toList = [] ++ '&' :: back := by decide
  have hmem : '&' ∈ (escapeTags "&#10;\t").toList := by decide
  exact ⟨hsplit, hreferences _ _ hsplit, hmem, hplain _ hmem, hread _⟩

end Xml
end LoggingFacade
