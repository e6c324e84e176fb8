/-!
# Escapes of XML text

Attribute values escape the characters of markup, and line ends and tabs,
which a reader would turn into spaces. In a CDATA section only its terminator
matters: the section is closed before it, the terminator is written as text,
and a new section is opened.
-/

namespace LoggingFacade
namespace Xml

def escapeChar (c : Char) : List Char :=
  match c with
  | '&' => "&amp;".toList
  | '<' => "&lt;".toList
  | '>' => "&gt;".toList
  | '"' => "&quot;".toList
  | '\n' => "&#10;".toList
  | '\r' => "&#13;".toList
  | '\t' => "&#9;".toList
  | c => [c]

/-- The characters that have an escape. -/
def markup : List Char := ['&', '<', '>', '"', '\n', '\r', '\t']

/-- Escapes a text for an attribute value; a text without markup is returned as
it is. -/
def escapeTags (s : String) : String :=
  if s.toList.any markup.contains then .ofList (s.toList.flatMap escapeChar) else s

theorem escapeChar_of_not_mem {c : Char} (h : c ∉ markup) : escapeChar c = [c] := by
  unfold escapeChar
  split <;> simp_all [markup]

theorem toList_escapeTags (s : String) :
    (escapeTags s).toList = s.toList.flatMap escapeChar := by
  unfold escapeTags
  split
  · simp
  · rename_i h
    rw [← List.flatMap_singleton' s.toList, List.flatMap_singleton']
    rw [List.any_eq_true] at h
    generalize s.toList = cs at h
    induction cs with
    | nil => rfl
    | cons c cs ih =>
      have hc : c ∉ markup := fun hc => h ⟨c, by simp, by simpa using hc⟩
      have hcs : ¬∃ x ∈ cs, markup.contains x = true := fun ⟨x, hx, hm⟩ =>
        h ⟨x, List.mem_cons_of_mem _ hx, hm⟩
      rw [List.flatMap_cons, escapeChar_of_not_mem hc, ← ih hcs]
      rfl

def cdataStart : String := "<![CDATA["

def cdataEnd : String := "]]>"

/-- What stands for the terminator inside a section. -/
def cdataEmbeddedEnd : String := "]]>]]&gt;<![CDATA["

/-- Replaces each terminator, from the left. -/
def splitTerminators : List Char → List Char
  | ']' :: ']' :: '>' :: rest => cdataEmbeddedEnd.toList ++ splitTerminators rest
  | c :: rest => c :: splitTerminators rest
  | [] => []

def escapeCdata (s : String) : String := .ofList (splitTerminators s.toList)

/-- A text as the content of an element. -/
def cdata (s : String) : String := cdataStart ++ escapeCdata s ++ cdataEnd

end Xml
end LoggingFacade
