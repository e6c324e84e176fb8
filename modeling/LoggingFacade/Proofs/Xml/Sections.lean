import LoggingFacade.Proofs.Xml.Values

/-!
# Sections of character data

A text is searched for the terminator of sections from the left, each time behind the last one
found, which cuts it into pieces. Written out it is one section for each piece, with the
terminator as escaped text between two of them. A reader that ends each section at the first
terminator finds these sections and texts again and nothing else.
-/

namespace LoggingFacade
namespace Xml

/-- What stands between the terminators of a text, searched for from the left. -/
def pieces (cs : List Char) : List (List Char) :=
  match _ : until? cdataEnd.toList cs with
  | some (front, rest) => front :: pieces rest
  | none => [cs]
termination_by cs.length
decreasing_by
  rename_i h
  have hsplit := congrArg List.length (until?_eq_some h)
  simp only [List.length_append] at hsplit
  have hend : cdataEnd.toList.length = 3 := rfl
  omega

/-- The search goes on behind each terminator that it finds; the buffer takes what is before it
and what replaces it. In the end `count` terminators were replaced. -/
inductive Replaces : List Char → List Char → Nat → List Char → Prop
  | done {buffer rest : List Char} : until? cdataEnd.toList rest = none →
      Replaces buffer rest 0 (buffer ++ rest)
  | found {buffer rest front back out : List Char} {count : Nat} :
      until? cdataEnd.toList rest = some (front, back) →
      Replaces (buffer ++ front ++ cdataEmbeddedEnd.toList) back count out →
      Replaces buffer rest (count + 1) out

/-- The number of places where a terminator begins. -/
def terminators (cs : List Char) : Nat := cs.tails.countP fun rest => cdataEnd.toList <+: rest

/-- A part of character data. -/
inductive Segment where
  | cdata (content : List Char)
  | run (text : List Char)
  deriving DecidableEq

namespace Segment

/-- What the segment stands for. -/
def text : Segment → List Char
  | cdata content => content
  | run text => text

/-- How the segment is written. -/
def written : Segment → List Char
  | cdata content => cdataStart.toList ++ content ++ cdataEnd.toList
  | run text => text.flatMap escapeChar

end Segment

/-- A section up to the first terminator, or text up to the next markup. A terminator does not
stand in text as it is. -/
def segment? (cs : List Char) : Option (Segment × List Char) :=
  match cdataStart.toList.isPrefixOf? cs with
  | some body => (until? cdataEnd.toList body).map fun (content, rest) => (.cdata content, rest)
  | none =>
    let raw := cs.takeWhile fun c => c != '<'
    if (until? cdataEnd.toList raw).isSome then none
    else (resolve? raw).map fun text => (.run text, cs.dropWhile fun c => c != '<')

def segments? (cs : List Char) : Option (List Segment) :=
  if cs = [] then some []
  else
    match segment? cs with
    | some (first, rest) =>
      if rest.length < cs.length then (segments? rest).map (first :: ·) else none
    | none => none
termination_by cs.length

/-- A section for each piece, and the terminator between two of them. -/
def sections (pieces : List (List Char)) : List Segment :=
  (pieces.map Segment.cdata).intersperse (.run cdataEnd.toList)

/-! ## Pieces -/

theorem toList_cdataEnd : cdataEnd.toList = [']', ']', '>'] := rfl

theorem pieces_of_none {cs : List Char} (h : until? cdataEnd.toList cs = none) :
    pieces cs = [cs] := by
  rw [pieces]
  split <;> simp_all

theorem pieces_of_some {cs front rest : List Char}
    (h : until? cdataEnd.toList cs = some (front, rest)) : pieces cs = front :: pieces rest := by
  rw [pieces]
  split <;> simp_all

theorem pieces_ne_nil (cs : List Char) : pieces cs ≠ [] := by
  rw [pieces]
  split <;> simp

theorem until?_of_mem_pieces (cs : List Char) :
    ∀ p ∈ pieces cs, until? cdataEnd.toList p = none := by
  fun_induction pieces cs with
  | case1 cs front rest h ih => exact List.forall_mem_cons.2 ⟨until?_front h, ih⟩
  | case2 cs h => simpa using h

theorem intercalate_pieces (cs : List Char) : cdataEnd.toList.intercalate (pieces cs) = cs := by
  fun_induction pieces cs with
  | case1 cs front rest h ih =>
    rw [List.intercalate_cons_of_ne_nil (pieces_ne_nil rest), ih, List.append_assoc,
      until?_eq_some h]
  | case2 cs h => simp

/-! ## Replacing -/

theorem until?_terminator (rest : List Char) :
    until? cdataEnd.toList (']' :: ']' :: '>' :: rest) = some ([], rest) :=
  until?_append cdataEnd.toList rest (by decide)

theorem not_prefix_cons {c : Char} {cs : List Char}
    (h : ∀ rest, c = ']' → cs = ']' :: '>' :: rest → False) : ¬cdataEnd.toList <+: c :: cs := by
  rintro ⟨rest, hrest⟩
  obtain ⟨hc, hcs⟩ := List.cons.inj hrest
  exact h rest hc.symm hcs.symm

theorem until?_cons {c : Char} {cs : List Char} (h : ¬cdataEnd.toList <+: c :: cs) :
    until? cdataEnd.toList (c :: cs) =
      (until? cdataEnd.toList cs).map fun (front, rest) => (c :: front, rest) := by
  rw [until?, isPrefixOf?_eq_none.2 h]

/-- One step of the search: what is before the terminator stays, what is behind it is searched
in turn. -/
theorem splitTerminators_eq (cs : List Char) : splitTerminators cs =
    match until? cdataEnd.toList cs with
    | some (front, rest) => front ++ cdataEmbeddedEnd.toList ++ splitTerminators rest
    | none => cs := by
  fun_induction splitTerminators cs with
  | case1 rest _ =>
    rw [until?_terminator]
    rfl
  | case2 c rest hne ih =>
    rw [until?_cons (not_prefix_cons hne), ih]
    cases until? cdataEnd.toList rest <;> rfl
  | case3 => rfl

theorem splitTerminators_of_none {cs : List Char} (h : until? cdataEnd.toList cs = none) :
    splitTerminators cs = cs := by
  rw [splitTerminators_eq, h]

theorem splitTerminators_of_some {cs front rest : List Char}
    (h : until? cdataEnd.toList cs = some (front, rest)) :
    splitTerminators cs = front ++ cdataEmbeddedEnd.toList ++ splitTerminators rest := by
  rw [splitTerminators_eq, h]

theorem splitTerminators_eq_intercalate (cs : List Char) :
    splitTerminators cs = cdataEmbeddedEnd.toList.intercalate (pieces cs) := by
  fun_induction pieces cs with
  | case1 cs front rest h ih =>
    rw [List.intercalate_cons_of_ne_nil (pieces_ne_nil rest), ← ih, splitTerminators_of_some h]
  | case2 cs h => simp [splitTerminators_of_none h]

/-- Every step makes what is left shorter, so the search ends, and it ends in one way. -/
theorem replaces_iff {buffer cs out : List Char} {count : Nat} :
    Replaces buffer cs count out ↔
      count + 1 = (pieces cs).length ∧ out = buffer ++ splitTerminators cs := by
  constructor
  · intro h
    induction h with
    | done hnone => simp [pieces_of_none hnone, splitTerminators_of_none hnone]
    | found hsome _ ih =>
      rw [pieces_of_some hsome, splitTerminators_of_some hsome, List.length_cons, ih.1, ih.2]
      simp
  · rintro ⟨hcount, rfl⟩
    fun_induction pieces cs generalizing buffer count with
    | case1 cs front rest h ih =>
      obtain ⟨count, rfl⟩ : ∃ n, count = n + 1 := by
        have hpos := List.length_pos_iff.2 (pieces_ne_nil rest)
        exact ⟨count - 1, by simp at hcount; omega⟩
      have hrest : Replaces (buffer ++ front ++ cdataEmbeddedEnd.toList) rest count
          (buffer ++ front ++ cdataEmbeddedEnd.toList ++ splitTerminators rest) :=
        ih (by simpa using hcount)
      rw [splitTerminators_of_some h, ← List.append_assoc, ← List.append_assoc]
      exact .found h hrest
    | case2 cs h =>
      obtain rfl : count = 0 := by simpa using hcount
      rw [splitTerminators_of_none h]
      exact .done h

theorem terminators_cons (c : Char) (cs : List Char) : terminators (c :: cs) =
    terminators cs + if cdataEnd.toList <+: c :: cs then 1 else 0 := by
  simp only [terminators, List.tails_cons, List.countP_cons, decide_eq_true_eq]

/-- No terminator begins inside of another one, so the search passes none over. -/
theorem terminators_add_one (cs : List Char) : terminators cs + 1 = (pieces cs).length := by
  fun_induction splitTerminators cs with
  | case1 rest ih =>
    rw [pieces_of_some (until?_terminator rest), List.length_cons, ← ih]
    simp [terminators_cons, toList_cdataEnd]
  | case2 c rest hne ih =>
    have hprefix := not_prefix_cons hne
    have hcut := until?_cons hprefix
    rw [terminators_cons, if_neg hprefix, Nat.add_zero, ih]
    cases hrest : until? cdataEnd.toList rest with
    | none =>
      rw [hrest] at hcut
      rw [pieces_of_none hrest, pieces_of_none hcut]
      rfl
    | some cut =>
      rw [hrest] at hcut
      rw [pieces_of_some hrest, pieces_of_some hcut]
      rfl
  | case3 => rw [pieces_of_none (by decide)]; rfl

/-! ## Reading -/

theorem sections_cons_cons (p q : List Char) (ps : List (List Char)) :
    sections (p :: q :: ps) = .cdata p :: .run cdataEnd.toList :: sections (q :: ps) := rfl

/-- The replacement ends a section, is the terminator as text, and starts a section. -/
theorem toList_cdataEmbeddedEnd : cdataEmbeddedEnd.toList =
    cdataEnd.toList ++ Segment.written (.run cdataEnd.toList) ++ cdataStart.toList := by
  decide

theorem flatMap_written_sections {ps : List (List Char)} (h : ps ≠ []) :
    (sections ps).flatMap Segment.written =
      cdataStart.toList ++ cdataEmbeddedEnd.toList.intercalate ps ++ cdataEnd.toList := by
  induction ps with
  | nil => contradiction
  | cons p ps ih =>
    cases ps with
    | nil => simp [sections, Segment.written]
    | cons q ps =>
      rw [sections_cons_cons, List.flatMap_cons, List.flatMap_cons, ih (List.cons_ne_nil q ps),
        List.intercalate_cons_cons, toList_cdataEmbeddedEnd]
      simp [Segment.written]

theorem flatMap_text_sections (ps : List (List Char)) :
    (sections ps).flatMap Segment.text = cdataEnd.toList.intercalate ps := by
  induction ps with
  | nil => rfl
  | cons p ps ih =>
    cases ps with
    | nil => simp [sections, Segment.text]
    | cons q ps =>
      rw [sections_cons_cons, List.flatMap_cons, List.flatMap_cons, ih, List.intercalate_cons_cons,
        List.append_assoc]
      rfl

theorem toList_cdata (s : String) :
    (cdata s).toList = (sections (pieces s.toList)).flatMap Segment.written := by
  rw [flatMap_written_sections (pieces_ne_nil s.toList), ← splitTerminators_eq_intercalate, cdata,
    escapeCdata, String.toList_append, String.toList_append, String.toList_ofList]

theorem segments?_of_segment? {cs rest : List Char} {first : Segment}
    (h : segment? cs = some (first, rest)) (hlt : rest.length < cs.length) :
    segments? cs = (segments? rest).map (first :: ·) := by
  have hne : cs ≠ [] := by
    rintro rfl
    simp at hlt
  rw [segments?, if_neg hne, h]
  simp only [if_pos hlt]

theorem segments?_cdata {p : List Char} (h : until? cdataEnd.toList p = none) (rest : List Char) :
    segments? (Segment.written (.cdata p) ++ rest) = (segments? rest).map (.cdata p :: ·) := by
  have hcut := until?_of_borderless (by decide) (by decide) h rest
  apply segments?_of_segment?
  · rw [Segment.written, List.append_assoc, List.append_assoc, segment?,
      List.isPrefixOf?_eq_some_iff_append_eq.2 rfl]
    simp only [hcut, Option.map_some]
  · have hstart : cdataStart.toList.length = 9 := by decide
    simp [Segment.written]
    omega

theorem segments?_run (rest : List Char) :
    segments? (Segment.written (.run cdataEnd.toList) ++ '<' :: rest) =
      (segments? ('<' :: rest)).map (.run cdataEnd.toList :: ·) := by
  have hwritten : Segment.written (.run cdataEnd.toList) = "]]&gt;".toList := by decide
  have htext : resolve? "]]&gt;".toList = some cdataEnd.toList :=
    hwritten ▸ resolve?_escape cdataEnd.toList
  have hraw : ("]]&gt;".toList ++ '<' :: rest).takeWhile (fun c => c != '<') = "]]&gt;".toList := rfl
  have hrest : ("]]&gt;".toList ++ '<' :: rest).dropWhile (fun c => c != '<') = '<' :: rest := rfl
  have hplain : until? cdataEnd.toList "]]&gt;".toList = none := by decide
  have hstart : ¬cdataStart.toList <+: "]]&gt;".toList ++ '<' :: rest := by
    rintro ⟨tail, htail⟩
    exact absurd (List.cons.inj htail).1 (by decide)
  rw [hwritten]
  apply segments?_of_segment?
  · rw [segment?, isPrefixOf?_eq_none.2 hstart]
    simp only [hraw, hrest, hplain, htext, Option.isSome_none, Bool.false_eq_true, if_false,
      Option.map_some]
  · simp

theorem segments?_sections {ps : List (List Char)}
    (h : ∀ p ∈ ps, until? cdataEnd.toList p = none) :
    segments? ((sections ps).flatMap Segment.written) = some (sections ps) := by
  have hnil : segments? [] = some [] := by
    rw [segments?, if_pos rfl]
  induction ps with
  | nil => exact hnil
  | cons p ps ih =>
    obtain ⟨hp, hps⟩ := List.forall_mem_cons.1 h
    cases ps with
    | nil =>
      have hone := segments?_cdata hp []
      rw [hnil] at hone
      simpa [sections] using hone
    | cons q ps =>
      obtain ⟨rest, hrest⟩ : ∃ rest, (sections (q :: ps)).flatMap Segment.written = '<' :: rest := by
        rw [flatMap_written_sections (List.cons_ne_nil q ps), List.append_assoc]
        exact ⟨_, rfl⟩
      rw [sections_cons_cons, List.flatMap_cons, List.flatMap_cons, segments?_cdata hp, hrest,
        segments?_run, ← hrest, ih hps]
      rfl

/-- Every text is written as sections and text that a reader takes for the text itself. The
search for terminators ends with each place where one begins replaced, and so with the pieces
between them, none of which has a terminator. Written between the start and the end of a section
that makes a section for each piece, and the terminator as text between two of them; a reader
that ends each section at the first terminator reads just these, up to the end. -/
theorem cdata_reads_back (s : String) : ∃ pieces : List (List Char),
    (∀ buffer count out, Replaces buffer s.toList count out ↔
      count = terminators s.toList ∧ out = buffer ++ (escapeCdata s).toList) ∧
    pieces.length = terminators s.toList + 1 ∧
    s.toList = cdataEnd.toList.intercalate pieces ∧
    (∀ p ∈ pieces, ¬cdataEnd.toList <:+: p) ∧
    (escapeCdata s).toList = cdataEmbeddedEnd.toList.intercalate pieces ∧
    (cdata s).toList = (sections pieces).flatMap Segment.written ∧
    segments? (cdata s).toList = some (sections pieces) ∧
    (sections pieces).flatMap Segment.text = s.toList := by
  have hnone := until?_of_mem_pieces s.toList
  refine ⟨pieces s.toList, ?_, (terminators_add_one s.toList).symm, (intercalate_pieces _).symm,
    ?_, ?_, toList_cdata s, toList_cdata s ▸ segments?_sections hnone, ?_⟩
  · intro buffer count out
    rw [replaces_iff, ← terminators_add_one, Nat.add_right_cancel_iff, escapeCdata,
      String.toList_ofList]
  · intro p hp
    exact (until?_eq_none (by decide)).1 (hnone p hp)
  · rw [escapeCdata, String.toList_ofList, splitTerminators_eq_intercalate]
  · rw [flatMap_text_sections, intercalate_pieces]

/-- Brackets before a terminator, two terminators in a row, and brackets at the end. -/
theorem cdata_reads_back_brackets :
    let s := "]]]>]]>]]"
    ∃ pieces p, p ∈ pieces ∧ ¬cdataEnd.toList <:+: p ∧ pieces.length = 3 ∧
      Replaces ['x'] s.toList 2 ('x' :: (escapeCdata s).toList) ∧
      segments? (cdata s).toList = some (sections pieces) := by
  intro s
  obtain ⟨pieces, hsearch, hlength, -, hnone, -, -, hread, -⟩ := cdata_reads_back s
  have htwo : terminators s.toList = 2 := by decide
  have hthree : pieces.length = 3 := by rw [hlength, htwo]
  have hfirst : pieces[0] ∈ pieces := List.getElem_mem _
  exact ⟨pieces, pieces[0], hfirst, hnone _ hfirst, hthree, (hsearch _ _ _).2 ⟨htwo.symm, rfl⟩, hread⟩

example : cdata "a]]]>b]]" = "<![CDATA[a]]]>]]&gt;<![CDATA[b]]]]>" := by decide

end Xml
end LoggingFacade
