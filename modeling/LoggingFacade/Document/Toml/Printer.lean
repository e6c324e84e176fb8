import LoggingFacade.Document.Toml.Style

/-!
# Documents as TOML text

A document is written table by table. Under a header stand first the values of
its table, then the tables and arrays of tables in it, each under a header of
its own; a blank line stands before every header but the first line.
-/

namespace LoggingFacade
namespace Toml

/-- A list of more than one item has each item on a line of its own. -/
def fieldText (key : String) (value : Document) : String :=
  let text := match value with
    | .list (a :: b :: rest) =>
      "[\n" ++ String.join ((a :: b :: rest).map fun d => "    " ++ valueText d ++ ",\n") ++ "]"
    | d => valueText d
  keyText key ++ " = " ++ text ++ "\n"

def isTable : Document → Bool
  | .table _ => true
  | _ => false

/-- A list that is written as an array of tables. -/
def isTableArray : Document → Bool
  | .list items => !items.isEmpty && items.all isTable
  | _ => false

def isField (d : Document) : Bool :=
  match d with
  | .null => false
  | .unreadable => false
  | d => !isTable d && !isTableArray d

def pathText (path : List String) : String := ".".intercalate (path.map keyText)

def fieldLines (entries : List (String × Document)) : String :=
  String.join ((entries.filter fun e => isField e.2).map fun e => fieldText e.1 e.2)

mutual

/-- The lines of a table below its header. -/
def tableText (path : List String) : Document → String
  | .table entries => fieldLines entries ++ sectionsText path entries
  | _ => ""

/-- The tables inside a table, each with its header. -/
def sectionsText (path : List String) : List (String × Document) → String
  | [] => ""
  | (key, value) :: rest => sectionText (path ++ [key]) value ++ sectionsText path rest

def sectionText (path : List String) : Document → String
  | .table entries =>
    "\n[" ++ pathText path ++ "]\n" ++ fieldLines entries ++ sectionsText path entries
  | .list items => if isTableArray (.list items) then itemsText path items else ""
  | _ => ""

def itemsText (path : List String) : List Document → String
  | [] => ""
  | item :: rest =>
    "\n[[" ++ pathText path ++ "]]\n" ++ tableText path item ++ itemsText path rest

end

/-- The text starts with its first line, not with a blank one. -/
def print (document : Document) : String :=
  let text := tableText [] document
  match text.toList with
  | '\n' :: rest => .ofList rest
  | _ => text

end Toml
end LoggingFacade
