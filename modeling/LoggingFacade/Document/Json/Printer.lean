import LoggingFacade.Document
import LoggingFacade.Text.Hexadecimal

/-!
# Documents as JSON text

A document is written without white space, its entries in their order. Strings
escape quotes, backslashes and control characters; a number that is not finite
has no form of its own and is written as null.
-/

namespace LoggingFacade
namespace Json

open Number (Binary64)

/-- A character inside a string. -/
def escaped (c : Char) : List Char :=
  match c with
  | '"' => ['\\', '"']
  | '\\' => ['\\', '\\']
  | '\n' => ['\\', 'n']
  | '\r' => ['\\', 'r']
  | '\t' => ['\\', 't']
  | '\x08' => ['\\', 'b']
  | '\x0c' => ['\\', 'f']
  | c => if c.toNat < 0x20 then ['\\', 'u', '0', '0'] ++ Text.hexPair c.toNat else [c]

def quote (s : String) : String := "\"" ++ .ofList (s.toList.flatMap escaped) ++ "\""

def numberText (x : Binary64) : String :=
  match x with
  | .finite .. => x.text
  | _ => "null"

def print : Document → String
  | .null => "null"
  | .bool b => if b then "true" else "false"
  | .integer n => toString n
  | .float x => numberText x
  | .moment s => quote s
  | .text s => quote s
  | .character c => quote (.ofList [c])
  | .unreadable => "null"
  | .list items => "[" ++ ",".intercalate (itemTexts items) ++ "]"
  | .table entries => "\x7b" ++ ",".intercalate (entryTexts entries) ++ "\x7d"
where
  itemTexts : List Document → List String
    | [] => []
    | d :: rest => print d :: itemTexts rest
  entryTexts : List (String × Document) → List String
    | [] => []
    | (key, d) :: rest => (quote key ++ ":" ++ print d) :: entryTexts rest

end Json
end LoggingFacade
