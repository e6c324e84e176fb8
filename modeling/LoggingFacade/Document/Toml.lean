import LoggingFacade.Document.Toml.Quote
import LoggingFacade.Document.Toml.Scalar
import LoggingFacade.Document.Toml.Tree

/-!
# Documents in TOML

Reads a text of either edition. Tables come out with their keys in ascending
order. The edition bounds the nesting of arrays and inline tables and the parts
of a dotted key.
-/

namespace LoggingFacade
namespace Toml

def skipBlank (cs : List Char) : List Char := cs.dropWhile isBlank

/-- The characters that end an unquoted scalar. -/
def isDelimiter (c : Char) : Bool :=
  c == ' ' || c == '\t' || c == '\n' || c == '\r' || c == ',' || c == ']' || c == '\x7d' ||
    c == '#' || c == '='

def isBareKeyChar (c : Char) : Bool :=
  ('a' ≤ c && c ≤ 'z') || ('A' ≤ c && c ≤ 'Z') || ('0' ≤ c && c ≤ '9') || c == '_' || c == '-'

/-- A comment, if one starts here, up to its line end. -/
def skipComment? : List Char → Option (List Char)
  | '#' :: rest =>
    let after := rest.dropWhile fun c => !isControl c
    if after.isEmpty || (newline? after).isSome then some after else none
  | cs => some cs

/-- What may stand between the items of an array: blanks, line ends and
comments. -/
def skipFiller? : Nat → List Char → Option (List Char)
  | 0, _ => none
  | fuel + 1, cs =>
    match skipBlank cs with
    | '#' :: rest => do skipFiller? fuel (← skipComment? ('#' :: rest))
    | cs =>
      match newline? cs with
      | some rest => skipFiller? fuel rest
      | none => some cs

/-- What may stand between the parts of an inline table: blanks, and in the later
edition whatever an array admits. -/
def skipInline? (e : Edition) (cs : List Char) : Option (List Char) :=
  if e.isLater then skipFiller? (cs.length + 1) cs else some (skipBlank cs)

/-- The end of a line or of the text, after blanks and a comment. -/
def lineEnd? (cs : List Char) : Option (List Char) := do
  let cs ← skipComment? (skipBlank cs)
  if cs.isEmpty then some [] else newline? cs

def simpleKey? (e : Edition) (cs : List Char) : Option (String × List Char) :=
  match cs with
  | '"' :: rest => (basic? e (rest.length + 1) rest).map fun (key, rest) => (.ofList key, rest)
  | '\'' :: rest => (literal? rest).map fun (key, rest) => (.ofList key, rest)
  | cs =>
    match cs.takeWhile isBareKeyChar with
    | [] => none
    | key => some (.ofList key, cs.dropWhile isBareKeyChar)

/-- A dotted key of at most so many parts: the keys in front of the last one,
and the last one. -/
def keyParts? (e : Edition) : Nat → List Char → Option ((List String × String) × List Char)
  | 0, _ => none
  | parts + 1, cs => do
    let (key, cs) ← simpleKey? e (skipBlank cs)
    match skipBlank cs with
    | '.' :: rest => do
      let ((path, last), rest) ← keyParts? e parts rest
      return ((key :: path, last), rest)
    | cs => return (([], key), cs)

def key? (e : Edition) (cs : List Char) : Option ((List String × String) × List Char) :=
  keyParts? e e.greatestDepth cs

/-- A scalar without quotes. A time may follow a date after one space. -/
def unquoted? (e : Edition) (cs : List Char) : Option (Document × List Char) :=
  let word := cs.takeWhile fun c => !isDelimiter c
  let rest := cs.dropWhile fun c => !isDelimiter c
  let joined := match rest with
    | ' ' :: more =>
      let time := more.takeWhile fun c => !isDelimiter c
      (Moment.read? e.isLater (word ++ ' ' :: time)).map fun moment =>
        (Document.moment moment.text, more.dropWhile fun c => !isDelimiter c)
    | _ => none
  match joined with
  | some result => some result
  | none => (scalar? e word).map fun d => (d, rest)

mutual

def value? (e : Edition) : Nat → Nat → List Char → Option (Document × List Char)
  | 0, _, _ => none
  | fuel + 1, depth, cs =>
    match cs with
    | '"' :: _ => (string? e cs).map fun (text, rest) => (.text (.ofList text), rest)
    | '\'' :: _ => (string? e cs).map fun (text, rest) => (.text (.ofList text), rest)
    | '[' :: rest =>
      if depth == 0 then none
      else do
        let (items, rest) ← items? e fuel (depth - 1) rest
        return (.list items, rest)
    | '\x7b' :: rest =>
      if depth == 0 then none
      else do
        match ← skipInline? e rest with
        | '\x7d' :: rest => return (.table [], rest)
        | rest => do
          let (entries, rest) ← pairs? e fuel (depth - 1) [] rest
          return (Node.toDocument (.table .header entries), rest)
    | cs => unquoted? e cs

/-- The items of an array up to its closing bracket; a comma may follow the
last one. -/
def items? (e : Edition) : Nat → Nat → List Char → Option (List Document × List Char)
  | 0, _, _ => none
  | fuel + 1, depth, cs => do
    match ← skipFiller? (cs.length + 1) cs with
    | ']' :: rest => return ([], rest)
    | cs => do
      let (value, rest) ← value? e fuel depth cs
      match ← skipFiller? (rest.length + 1) rest with
      | ',' :: rest => do
        let (more, rest) ← items? e fuel depth rest
        return (value :: more, rest)
      | ']' :: rest => return ([value], rest)
      | _ => none

/-- The pairs of an inline table up to its closing brace; in the later edition a
comma may follow the last one. -/
def pairs? (e : Edition) : Nat → Nat → Entries → List Char → Option (Entries × List Char)
  | 0, _, _, _ => none
  | fuel + 1, depth, entries, cs => do
    let ((path, key), rest) ← key? e cs
    match ← skipInline? e rest with
    | '=' :: rest => do
      let (value, rest) ← value? e fuel depth (← skipInline? e rest)
      let entries ← Entries.insertValue path key value .header entries
      match ← skipInline? e rest with
      | ',' :: rest =>
        match ← skipInline? e rest with
        | '\x7d' :: rest => if e.isLater then return (entries, rest) else none
        | rest => pairs? e fuel depth entries rest
      | '\x7d' :: rest => return (entries, rest)
      | _ => none
    | _ => none

end

/-- A header opens the table that the following lines fill. -/
structure Position where
  root : Entries
  current : List String

namespace Position

def insertValue (p : Position) (path : List String) (key : String) (value : Document) :
    Option Position := do
  let root ← Entries.change false (fun origin entries =>
    Entries.insertValue path key value origin entries) p.current .header p.root
  return { p with root := root }

end Position

/-- One line: blank, a header, or a key with a value. -/
def line? (e : Edition) (p : Position) (cs : List Char) : Option (Position × List Char) :=
  match skipBlank cs with
  | '[' :: '[' :: rest => do
    let ((path, key), rest) ← key? e rest
    match rest with
    | ']' :: ']' :: rest =>
      return (⟨← Entries.appendTable path key p.root, path ++ [key]⟩, ← lineEnd? rest)
    | _ => none
  | '[' :: rest => do
    let ((path, key), rest) ← key? e rest
    match rest with
    | ']' :: rest =>
      return (⟨← Entries.openTable path key p.root, path ++ [key]⟩, ← lineEnd? rest)
    | _ => none
  | cs =>
    match lineEnd? cs with
    | some rest => some (p, rest)
    | none => do
      let ((path, key), rest) ← key? e cs
      match rest with
      | '=' :: rest => do
        let (value, rest) ← value? e (rest.length + 1) e.greatestDepth (skipBlank rest)
        return (← p.insertValue path key value, ← lineEnd? rest)
      | _ => none

def lines? (e : Edition) : Nat → Position → List Char → Option Entries
  | 0, _, _ => none
  | _ + 1, p, [] => some p.root
  | fuel + 1, p, cs => do
    let (p, rest) ← line? e p cs
    lines? e fuel p rest

/-- A byte order mark at the start is skipped. -/
def skipMark : List Char → List Char
  | '\uFEFF' :: rest => rest
  | cs => cs

/-- Reads a whole text as one table. Every step of the reader consumes at least
one character, so the length of the text bounds the steps. -/
def read? (e : Edition) (text : String) : Option Document := do
  let cs := skipMark text.toList
  let entries ← lines? e (cs.length + 1) ⟨[], []⟩ cs
  return Node.toDocument (.table .header entries)

end Toml
end LoggingFacade
