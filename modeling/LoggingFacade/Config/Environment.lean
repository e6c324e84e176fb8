import LoggingFacade.Document
import LoggingFacade.Document.Toml.Quote
import LoggingFacade.Text.Blank
import LoggingFacade.Text.Cut
import LoggingFacade.Text.Letter
import LoggingFacade.TextMap

/-!
# Configuration from the environment

A variable whose name starts with the prefix of the program sets the value at
the path that the rest of its name spells. The value is read as a small
document: booleans, numbers, characters, quoted texts, lists and tables; what
does not read as one of them is a text.
-/

namespace LoggingFacade
namespace Environment

open Number (Binary64 Bounds readInteger decimalNatural)

def skipBlank (cs : List Char) : List Char := cs.dropWhile Text.isAsciiBlank

/-- The characters that end an unquoted value. -/
def isSeparator (c : Char) : Bool :=
  c == '\x7b' || c == '\x7d' || c == '[' || c == ']' || c == ','

def isKeyChar (c : Char) : Bool := c.isAlphanum || c == '_' || c == '-'

/-- An integer of 64 bits; a greater one is a text. -/
def integer? (word : String) : Option Int := (readInteger .any64 word).toOption

def signedExponent? : List Char → Option Int
  | '-' :: ds => (digits? ds).map fun n => -(n : Int)
  | '+' :: ds => (digits? ds).map fun n => (n : Int)
  | ds => (digits? ds).map fun n => (n : Int)
where
  digits? (ds : List Char) : Option Nat :=
    if !ds.isEmpty && ds.all Char.isDigit then some (decimalNatural ds) else none

def isExponentMark (c : Char) : Bool := c == 'e' || c == 'E'

/-- A decimal fraction: digits on at least one side of the point. -/
def unsignedFraction? (negative : Bool) (cs : List Char) : Option Binary64 := do
  let mantissa := cs.takeWhile fun c => !isExponentMark c
  let whole := mantissa.takeWhile (· != '.')
  let places := (mantissa.dropWhile (· != '.')).drop 1
  let digits := whole ++ places
  if digits.isEmpty || !digits.all Char.isDigit then none
  else do
    let e ← match cs.dropWhile fun c => !isExponentMark c with
      | [] => some 0
      | _ :: exponent => signedExponent? exponent
    return .ofDecimal negative (decimalNatural digits) (e - places.length)

/-- A number with a point. -/
def fraction? (word : String) : Option Binary64 :=
  let cs := word.toList
  if !cs.contains '.' then none
  else
    match cs with
    | '+' :: rest => unsignedFraction? false rest
    | '-' :: rest => unsignedFraction? true rest
    | rest => unsignedFraction? false rest

/-- An unquoted value. -/
def word (s : String) : Document :=
  match fraction? s with
  | some x => .float x
  | none =>
    match integer? s with
    | some n => .integer n
    | none => .text s

/-- A quoted text after its opening quote. In front of the first escape only as
many bytes are kept as there are characters. -/
def quoted? (cs : List Char) : Option (String × List Char) := do
  let (text, rest) ← Toml.basic? .v1_0 (cs.length + 1) cs
  let plain := cs.takeWhile fun c => c != '\\' && c != '"'
  match cs.drop plain.length with
  | '\\' :: _ => do
    let (kept, _) ← Text.cutAt? plain.length plain
    return (.ofList (kept ++ text.drop plain.length), rest)
  | _ => return (.ofList text, rest)

/-- Of a repeated key the last value counts. -/
def tableOf (entries : List (String × Document)) : Document :=
  .table (TextMap.ofList entries).entries

def key? (cs : List Char) : Option (String × List Char) :=
  match cs with
  | '"' :: rest => quoted? rest
  | cs =>
    match cs.takeWhile isKeyChar with
    | [] => none
    | key => some (.ofList key, cs.dropWhile isKeyChar)

mutual

/-- A value with the blanks around it. -/
def value? : Nat → List Char → Option (Document × List Char)
  | 0, _ => none
  | fuel + 1, cs => do
    let (d, rest) ← bare? fuel (skipBlank cs)
    return (d, skipBlank rest)

def bare? : Nat → List Char → Option (Document × List Char)
  | 0, _ => none
  | fuel + 1, cs =>
    match cs with
    | 't' :: 'r' :: 'u' :: 'e' :: rest => some (.bool true, rest)
    | 'f' :: 'a' :: 'l' :: 's' :: 'e' :: rest => some (.bool false, rest)
    | '\x7b' :: rest => (entries? fuel rest).map fun (es, rest) => (tableOf es, rest)
    | '[' :: rest => (items? fuel rest).map fun (ds, rest) => (.list ds, rest)
    | '"' :: rest => (quoted? rest).map fun (s, rest) => (.text s, rest)
    | '\'' :: c :: '\'' :: rest => some (.character c, rest)
    | '\'' :: _ => none
    | cs =>
      let raw := cs.takeWhile fun c => !isSeparator c
      some (word (Text.trim (.ofList raw)), cs.dropWhile fun c => !isSeparator c)

/-- The items of a list up to its closing bracket. -/
def items? : Nat → List Char → Option (List Document × List Char)
  | 0, _ => none
  | fuel + 1, cs =>
    match cs with
    | ']' :: rest => some ([], rest)
    | cs => do
      let (d, rest) ← value? fuel cs
      match rest with
      | ',' :: rest => do
        let (ds, rest) ← items? fuel rest
        return (d :: ds, rest)
      | ']' :: rest => return ([d], rest)
      | _ => none

/-- The entries of a table up to its closing brace. -/
def entries? : Nat → List Char → Option (List (String × Document) × List Char)
  | 0, _ => none
  | fuel + 1, cs =>
    match cs with
    | '\x7d' :: rest => some ([], rest)
    | cs => do
      let (key, rest) ← key? (skipBlank cs)
      match skipBlank rest with
      | '=' :: rest => do
        let (d, rest) ← value? fuel rest
        match rest with
        | ',' :: rest => do
          let (es, rest) ← entries? fuel rest
          return ((key, d) :: es, rest)
        | '\x7d' :: rest => return ([(key, d)], rest)
        | _ => none
      | _ => none

end

/-- The value of a variable. At most three steps pass between two characters that
are consumed, so three times the length of the text bounds the steps. -/
def readValue (raw : String) : Document :=
  match value? (3 * raw.toList.length + 3) raw.toList with
  | some (d, []) => d
  | _ => .text raw

/-- The path that a name spells: parts are separated by two underscores or a
point. -/
def parts : List Char → List (List Char)
  | '_' :: '_' :: rest => [] :: parts rest
  | '.' :: rest => [] :: parts rest
  | c :: rest =>
    match parts rest with
    | part :: more => (c :: part) :: more
    | [] => [[c]]
  | [] => [[]]

/-- The rest of a name after a prefix, in any case of the letters. -/
def strip? (lead name : String) : Option String :=
  let n := lead.toList.length
  if Text.sameName (.ofList (name.toList.take n)) lead then some (.ofList (name.toList.drop n))
  else none

/-- The path of keys that a variable sets, if it is one of the program's and no
part of its name is empty. Blanks around the name and after the prefix do not
count. -/
def path? (lead name : String) : Option (List String) := do
  let rest ← strip? lead (Text.trim name)
  let keys := (parts (Text.trim rest).toList).map fun part => Text.lower (.ofList part)
  if keys.any String.isEmpty then none else some keys

/-- The document that all variables together set; later ones count. -/
def document (lead : String) (settings : List (String × String)) : Document :=
  settings.foldl (fun d v =>
    match path? lead v.1 with
    | some path => d.overlay (.nested path (readValue v.2))
    | none => d) (.table [])

end Environment
end LoggingFacade
