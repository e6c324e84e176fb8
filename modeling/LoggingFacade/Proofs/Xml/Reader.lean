import LoggingFacade.Layout.Escape
import Mathlib.Data.List.Basic
import Mathlib.Data.List.Infix

/-!
# A reader of XML texts

The part of XML that the layouts write: an optional declaration, elements with
double-quoted attributes, character data, references and CDATA sections. The
text is cut into tokens, and the tokens are put together to elements. White
space in an attribute is read as a space, a reference as its character, and a
CDATA section ends at the first terminator. `Reads` says what a piece of a text
contributes to the element it stands in; contributions add up.
-/

namespace LoggingFacade
namespace Xml

/-- An element: the character data directly inside it as one text, and the
elements directly inside it in order. -/
structure Element where
  name : String
  attributes : List (String × String)
  text : String
  children : List Element
  deriving Repr

inductive Token where
  | text (s : String)
  | opening (name : String) (attributes : List (String × String))
  | empty (name : String) (attributes : List (String × String))
  | closing (name : String)

/-! ## Parts of tokens -/

/-- The white space of markup. -/
def isSpace (c : Char) : Bool := c == ' ' || c == '\t' || c == '\n' || c == '\r'

def isNameChar (c : Char) : Bool :=
  c.isAlphanum || c == ':' || c == '_' || c == '-' || c == '.'

def name? (cs : List Char) : Option (String × List Char) :=
  if (cs.takeWhile isNameChar).isEmpty then none
  else some (.ofList (cs.takeWhile isNameChar), cs.dropWhile isNameChar)

/-- What may follow an ampersand, with the character it stands for. -/
def references : List (String × Char) :=
  [("amp;", '&'), ("lt;", '<'), ("gt;", '>'), ("quot;", '"'), ("#9;", '\t'), ("#10;", '\n'),
    ("#13;", '\r')]

def reference? (cs : List Char) : Option (Char × List Char) :=
  references.findSome? fun r => (r.1.toList.isPrefixOf? cs).map fun rest => (r.2, rest)

theorem references_nonempty : ∀ r ∈ references, 0 < r.1.toList.length := by decide

theorem length_lt_of_reference? {cs rest : List Char} {c : Char}
    (h : reference? cs = some (c, rest)) : rest.length < cs.length := by
  obtain ⟨r, hr, hmap⟩ := List.exists_of_findSome?_eq_some h
  obtain ⟨tail, htail, he⟩ := Option.map_eq_some_iff.1 hmap
  obtain ⟨-, rfl⟩ := Prod.mk.inj he
  rw [List.isPrefixOf?_eq_some_iff_append_eq] at htail
  have hpos := references_nonempty r hr
  rw [← htail, List.length_append]
  omega

/-- Character data with its references resolved. No markup starts in it. -/
def resolve? (cs : List Char) : Option (List Char) :=
  match cs with
  | [] => some []
  | '<' :: _ => none
  | '&' :: rest =>
    match _ : reference? rest with
    | some (c, more) => (resolve? more).map (c :: ·)
    | none => none
  | c :: rest => (resolve? rest).map (c :: ·)
termination_by cs.length
decreasing_by
  · rename_i h
    have := length_lt_of_reference? h
    simp only [List.length_cons]
    omega
  · simp

/-- The value of an attribute up to its closing quote. -/
def value? (cs : List Char) : Option (List Char × List Char) :=
  match cs with
  | [] => none
  | '"' :: rest => some ([], rest)
  | '<' :: _ => none
  | '&' :: rest =>
    match _ : reference? rest with
    | some (c, more) => (value? more).map fun (value, after) => (c :: value, after)
    | none => none
  | c :: rest =>
    (value? rest).map fun (value, after) => ((if isSpace c then ' ' else c) :: value, after)
termination_by cs.length
decreasing_by
  · rename_i h
    have := length_lt_of_reference? h
    simp only [List.length_cons]
    omega
  · simp

/-- An attribute behind white space. -/
def attribute? (cs : List Char) : Option ((String × String) × List Char) := do
  let c :: rest := cs | none
  if isSpace c then
    let (name, rest) ← name? (rest.dropWhile isSpace)
    let '=' :: '"' :: rest := rest | none
    let (value, rest) ← value? rest
    return ((name, .ofList value), rest)
  else none

/-- As many attributes as there are. -/
def attributes (cs : List Char) : List (String × String) × List Char :=
  match attribute? cs with
  | some (first, rest) =>
    if rest.length < cs.length then
      let (more, rest) := attributes rest
      (first :: more, rest)
    else ([], cs)
  | none => ([], cs)
termination_by cs.length

/-- The text before the first occurrence of a terminator, and that after it. -/
def until? (terminator : List Char) : List Char → Option (List Char × List Char)
  | [] => none
  | c :: cs =>
    match terminator.isPrefixOf? (c :: cs) with
    | some rest => some ([], rest)
    | none => (until? terminator cs).map fun (front, rest) => (c :: front, rest)

theorem until?_eq_some {terminator cs front rest : List Char}
    (h : until? terminator cs = some (front, rest)) : front ++ (terminator ++ rest) = cs := by
  induction cs generalizing front with
  | nil => simp [until?] at h
  | cons c cs ih =>
    rw [until?] at h
    split at h
    · rename_i tail htail
      obtain ⟨rfl, rfl⟩ := Prod.mk.inj (Option.some.inj h)
      rw [List.nil_append]
      exact List.isPrefixOf?_eq_some_iff_append_eq.1 htail
    · obtain ⟨⟨front', rest'⟩, hcut, he⟩ := Option.map_eq_some_iff.1 h
      obtain ⟨rfl, rfl⟩ := Prod.mk.inj he
      rw [List.cons_append, ih hcut]

theorem isPrefixOf?_eq_none {l m : List Char} : l.isPrefixOf? m = none ↔ ¬l <+: m := by
  rw [Option.eq_none_iff_forall_ne_some]
  simp only [ne_eq, List.isPrefixOf?_eq_some_iff_append_eq]
  exact not_exists.symm

theorem until?_eq_none {terminator cs : List Char} (h : terminator ≠ []) :
    until? terminator cs = none ↔ ¬terminator <:+: cs := by
  induction cs with
  | nil => simp [until?, h]
  | cons c cs ih =>
    rw [until?, List.infix_cons_iff, not_or, ← ih, ← isPrefixOf?_eq_none]
    cases terminator.isPrefixOf? (c :: cs) <;> simp

/-- The cut is at the first occurrence: there is none in the front. -/
theorem until?_front {terminator cs front rest : List Char}
    (h : until? terminator cs = some (front, rest)) : until? terminator front = none := by
  induction cs generalizing front with
  | nil => simp [until?] at h
  | cons c cs ih =>
    rw [until?] at h
    split at h
    · obtain ⟨rfl, -⟩ := Prod.mk.inj (Option.some.inj h)
      rfl
    · rename_i hnone
      obtain ⟨⟨front', rest'⟩, hcut, he⟩ := Option.map_eq_some_iff.1 h
      obtain ⟨rfl, rfl⟩ := Prod.mk.inj he
      have hfront : c :: front' <+: c :: cs :=
        ⟨terminator ++ rest', by rw [List.cons_append, until?_eq_some hcut]⟩
      have hprefix : terminator.isPrefixOf? (c :: front') = none :=
        isPrefixOf?_eq_none.2 fun h => isPrefixOf?_eq_none.1 hnone (h.trans hfront)
      rw [until?, hprefix, ih hcut]
      rfl

theorem until?_append (terminator rest : List Char) (h : terminator ≠ []) :
    until? terminator (terminator ++ rest) = some ([], rest) := by
  cases terminator with
  | nil => exact absurd rfl h
  | cons c cs =>
    rw [List.cons_append, until?, ← List.cons_append,
      List.isPrefixOf?_eq_some_iff_append_eq.2 rfl]

/-- Only the empty text and the text itself are both a front and an end of it, so that
occurrences of the text never overlap. -/
def Borderless (text : List Char) : Prop := ∀ u ∈ text.inits, u <:+ text → u = [] ∨ u = text

instance (text : List Char) : Decidable (Borderless text) :=
  inferInstanceAs (Decidable (∀ u ∈ text.inits, _))

/-- A text without the terminator ends where the terminator is put behind it. -/
theorem until?_of_borderless {terminator cs : List Char} (hborder : Borderless terminator)
    (hne : terminator ≠ []) (h : until? terminator cs = none) (rest : List Char) :
    until? terminator (cs ++ (terminator ++ rest)) = some (cs, rest) := by
  induction cs with
  | nil => exact until?_append terminator rest hne
  | cons c cs ih =>
    have hnone := (until?_eq_none hne).1 h
    have hrest : until? terminator cs = none :=
      (until?_eq_none hne).2 fun hcs => hnone (hcs.trans (List.suffix_cons c cs).isInfix)
    have hprefix : ¬terminator <+: c :: cs ++ (terminator ++ rest) := by
      rintro ⟨tail, htail⟩
      rcases List.append_eq_append_iff.1 htail with ⟨more, hcs, -⟩ | ⟨u, hterminator, hback⟩
      · exact hnone ⟨[], more, hcs.symm⟩
      · -- the part of the occurrence beyond the text is a front and an end of the terminator
        have hlength := congrArg List.length hterminator
        rw [List.length_append, List.length_cons] at hlength
        have hu : u <+: terminator :=
          List.prefix_of_prefix_length_le ⟨tail, hback.symm⟩ (List.prefix_append _ _) (by omega)
        rcases hborder u ((List.mem_inits _ _).2 hu) ⟨c :: cs, hterminator.symm⟩ with rfl | rfl
        · exact hnone ⟨[], [], by simp [hterminator]⟩
        · omega
    rw [List.cons_append] at hprefix ⊢
    rw [until?, isPrefixOf?_eq_none.2 hprefix, ih hrest]
    rfl

/-! ## Tokens -/

/-- An opening or empty tag, behind its first character. No attribute is given
twice. -/
def tag? (cs : List Char) : Option (Token × List Char) := do
  let (name, rest) ← name? cs
  let (given, rest) := attributes rest
  if (given.map (·.1)).Nodup then
    match rest.dropWhile isSpace with
    | '>' :: rest => return (.opening name given, rest)
    | '/' :: '>' :: rest => return (.empty name given, rest)
    | _ => none
  else none

def closing? (cs : List Char) : Option (Token × List Char) := do
  let (name, rest) ← name? cs
  let '>' :: rest := rest.dropWhile isSpace | none
  return (.closing name, rest)

/-- A CDATA section, behind its first two characters. -/
def section? (cs : List Char) : Option (Token × List Char) := do
  let body ← "[CDATA[".toList.isPrefixOf? cs
  let (content, rest) ← until? cdataEnd.toList body
  return (.text (.ofList content), rest)

def token? : List Char → Option (Token × List Char)
  | [] => none
  | '<' :: '/' :: rest => closing? rest
  | '<' :: '!' :: rest => section? rest
  | '<' :: rest => tag? rest
  | '&' :: rest => (reference? rest).map fun (c, rest) => (.text (.singleton c), rest)
  | c :: rest => some (.text (.singleton c), rest)

def tokens? (cs : List Char) : Option (List Token) :=
  if cs = [] then some []
  else
    match token? cs with
    | some (t, rest) =>
      if rest.length < cs.length then (tokens? rest).map (t :: ·) else none
    | none => none
termination_by cs.length

/-! ## Elements -/

/-- More character data and elements at the end of an element. -/
def Element.add (e : Element) (text : String) (children : List Element) : Element :=
  { e with text := e.text ++ text, children := e.children ++ children }

/-- Puts tokens together: `inner` is the element that is open, `outer` are the
open elements around it, innermost first. -/
def build? (outer : List Element) (inner : Element) : List Token → Option Element
  | [] => if outer.isEmpty then some inner else none
  | .text s :: ts => build? outer (inner.add s []) ts
  | .opening name given :: ts => build? (inner :: outer) ⟨name, given, "", []⟩ ts
  | .empty name given :: ts => build? outer (inner.add "" [⟨name, given, "", []⟩]) ts
  | .closing name :: ts =>
    match outer with
    | parent :: outer =>
      if inner.name = name then build? outer (parent.add "" [inner]) ts else none
    | [] => none

/-- The text behind the declaration, if it starts with one. -/
def body? (cs : List Char) : Option (List Char) :=
  match "<?xml".toList.isPrefixOf? cs with
  | some rest => (until? "?>".toList rest).map (·.2)
  | none => some cs

/-- The only element of a text, with nothing but white space around it. -/
def read? (text : String) : Option Element := do
  let body ← body? text.toList
  let ts ← tokens? body
  let document ← build? [] ⟨"", [], "", []⟩ ts
  let [root] := document.children | none
  if document.text.toList.all isSpace then return root else none

end Xml
end LoggingFacade
