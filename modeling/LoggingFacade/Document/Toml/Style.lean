import LoggingFacade.Document
import LoggingFacade.Document.Toml.Quote

/-!
# Values as TOML text

How a single value is written: a string in the plainest form that can hold it,
a fraction always with a point, lists and tables on one line.
-/

namespace LoggingFacade
namespace Toml

open Number (Binary64)

inductive StringForm where
  | basic
  | literal
  | multilineBasic
  | multilineLiteral
  deriving DecidableEq, Repr

namespace StringForm

def delimiter : StringForm → String
  | basic => "\""
  | literal => "'"
  | multilineBasic => "\"\"\""
  | multilineLiteral => "'''"

def isMultiline : StringForm → Bool
  | multilineBasic => true
  | multilineLiteral => true
  | _ => false

end StringForm

/-- The length of the longest run of a character. -/
def longestRun (quote : Char) (cs : List Char) : Nat := go 0 0 cs
where
  go (longest run : Nat) : List Char → Nat
    | [] => max longest run
    | c :: rest =>
      if c == quote then go longest (run + 1) rest else go (max longest run) 0 rest

/-- A control character other than a line feed. -/
def needsEscape (c : Char) : Bool := isControl c && c != '\n'

/-- The first form that holds the text, of those that a key may have; with
`multiline` also the forms on several lines. Without a fitting form the text is
escaped. -/
def formOf (multiline : Bool) (cs : List Char) : StringForm :=
  let controls := cs.any needsEscape
  let backslash := cs.contains '\\'
  let newline := cs.contains '\n'
  let doubles := longestRun '"' cs
  let singles := longestRun '\'' cs
  if !controls && !backslash && doubles == 0 && !newline then .basic
  else if !controls && singles == 0 && !newline then .literal
  else if multiline && !controls && !backslash && doubles ≤ 2 then .multilineBasic
  else if multiline && !controls && singles ≤ 2 then .multilineLiteral
  else if multiline && newline then .multilineBasic
  else .basic

def upperHex (n : Nat) : List Char := (Nat.toDigits 16 n).map Char.toUpper

/-- A character in basic text. -/
def escapeChar (c : Char) : List Char :=
  if c == '\x08' then ['\\', 'b']
  else if c == '\t' then ['\\', 't']
  else if c == '\n' then ['\\', 'n']
  else if c == '\x0c' then ['\\', 'f']
  else if c == '\r' then ['\\', 'r']
  else if c == '"' then ['\\', '"']
  else if c == '\\' then ['\\', '\\']
  else if isControl c then
    let digits := upperHex c.toNat
    ['\\', 'u'] ++ List.replicate (4 - digits.length) '0' ++ digits
  else [c]

/-- Basic text on several lines keeps line feeds, and up to two quotes in a
row. -/
def escapeLines (quotes : Nat) : List Char → List Char
  | [] => []
  | '\n' :: rest => '\n' :: escapeLines 0 rest
  | '"' :: rest =>
    if quotes < 2 then '"' :: escapeLines (quotes + 1) rest else '\\' :: '"' :: escapeLines 0 rest
  | c :: rest => escapeChar c ++ escapeLines 0 rest

def content (form : StringForm) (cs : List Char) : List Char :=
  match form with
  | .basic => cs.flatMap escapeChar
  | .multilineBasic => escapeLines 0 cs
  | _ => cs

def written (form : StringForm) (cs : List Char) : String :=
  let opening := if form.isMultiline && cs.contains '\n' then "\n" else ""
  form.delimiter ++ opening ++ .ofList (content form cs) ++ form.delimiter

def stringText (s : String) : String := written (formOf true s.toList) s.toList

def isBareKey (cs : List Char) : Bool :=
  !cs.isEmpty && cs.all fun c =>
    ('a' ≤ c && c ≤ 'z') || ('A' ≤ c && c ≤ 'Z') || ('0' ≤ c && c ≤ '9') || c == '_' || c == '-'

def keyText (key : String) : String :=
  if isBareKey key.toList then key else written (formOf false key.toList) key.toList

def floatText : Binary64 → String
  | .nan _ => "nan"
  | .infinity negative => Binary64.sign negative ++ "inf"
  | x => if x.text.toList.contains '.' then x.text else x.text ++ ".0"

/-- A value on one line. -/
def valueText : Document → String
  | .null => ""
  | .bool b => if b then "true" else "false"
  | .integer n => toString n
  | .float x => floatText x
  | .moment text => text
  | .text s => stringText s
  | .character c => stringText (.ofList [c])
  | .unreadable => ""
  | .list items => "[" ++ ", ".intercalate (itemTexts items) ++ "]"
  | .table entries =>
    if entries.isEmpty then "\x7b\x7d"
    else "\x7b " ++ ", ".intercalate (entryTexts entries) ++ " \x7d"
where
  itemTexts : List Document → List String
    | [] => []
    | item :: rest => valueText item :: itemTexts rest
  entryTexts : List (String × Document) → List String
    | [] => []
    | (key, value) :: rest => (keyText key ++ " = " ++ valueText value) :: entryTexts rest

end Toml
end LoggingFacade
