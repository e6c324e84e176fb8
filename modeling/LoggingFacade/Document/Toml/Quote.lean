import LoggingFacade.Document.Toml.Edition
import LoggingFacade.Number.Radix

/-!
# Quoted text in TOML

The four forms of a string: basic and literal, on one line or on several. Each
reader starts after the opening delimiter and gives the content and the
characters after the closing one.
-/

namespace LoggingFacade
namespace Toml

open Number (naturalIn? characterOf?)

/-- A control character, which no text may hold as it is; a tab is none. -/
def isControl (c : Char) : Bool := (c.toNat < 0x20 && c != '\t') || c.toNat == 0x7F

def isBlank (c : Char) : Bool := c == ' ' || c == '\t'

def escape? (e : Edition) : Char → Option Char
  | 'b' => some '\x08'
  | 't' => some '\t'
  | 'n' => some '\n'
  | 'f' => some '\x0c'
  | 'r' => some '\r'
  | '"' => some '"'
  | '\\' => some '\\'
  | 'e' => if e.isLater then some '\x1b' else none
  | _ => none

/-- The character after a backslash, by name or by code point. -/
def escaped? (e : Edition) : List Char → Option (Char × List Char)
  | 'u' :: a :: b :: c :: d :: rest => do
    return (← characterOf? (← naturalIn? 16 [a, b, c, d]), rest)
  | 'U' :: a :: b :: c :: d :: e :: f :: g :: h :: rest => do
    return (← characterOf? (← naturalIn? 16 [a, b, c, d, e, f, g, h]), rest)
  | 'x' :: a :: b :: rest =>
    if e.isLater then do return (← characterOf? (← naturalIn? 16 [a, b]), rest) else none
  | c :: rest => (escape? e c).map fun escaped => (escaped, rest)
  | [] => none

/-- A line end at the start of the text. -/
def newline? : List Char → Option (List Char)
  | '\n' :: rest => some rest
  | '\r' :: '\n' :: rest => some rest
  | _ => none

/-- What a line end inside a text stands for, and what follows it. The earlier
edition reads each as a line feed, the later one keeps it as written. -/
def innerNewline? (e : Edition) : List Char → Option (List Char × List Char)
  | '\n' :: rest => some (['\n'], rest)
  | '\r' :: '\n' :: rest => some (if e.isLater then ['\r', '\n'] else ['\n'], rest)
  | _ => none

/-- A line end right after the opening delimiter is not part of the content. -/
def skipFirstNewline (cs : List Char) : List Char := (newline? cs).getD cs

/-- After a backslash at the end of a line, everything up to the next visible
character. -/
def continuation? (cs : List Char) : Option (List Char) :=
  (newline? (cs.dropWhile isBlank)).map skip
where
  skip : List Char → List Char
    | '\r' :: '\n' :: rest => skip rest
    | c :: rest => if isBlank c || c == '\n' then skip rest else c :: rest
    | [] => []

/-- One or two delimiters may stand before the closing three. -/
def closing? (quote : Char) : List Char → Option (List Char × List Char)
  | a :: b :: c :: rest =>
    if a == quote && b == quote && c == quote then
      let extra := (rest.take 2).takeWhile (· == quote)
      some (extra, rest.drop extra.length)
    else none
  | _ => none

def consed (c : Char) (r : List Char × List Char) : List Char × List Char := (c :: r.1, r.2)

def prepended (front : List Char) (r : List Char × List Char) : List Char × List Char :=
  (front ++ r.1, r.2)

def basic? (e : Edition) : Nat → List Char → Option (List Char × List Char)
  | 0, _ => none
  | fuel + 1, cs =>
    match cs with
    | '"' :: rest => some ([], rest)
    | '\\' :: rest => do
      let (c, rest) ← escaped? e rest
      return consed c (← basic? e fuel rest)
    | c :: rest => if isControl c then none else (basic? e fuel rest).map (consed c)
    | [] => none

def literal? : List Char → Option (List Char × List Char)
  | '\'' :: rest => some ([], rest)
  | c :: rest => if isControl c then none else (literal? rest).map (consed c)
  | [] => none

def multilineBasic? (e : Edition) : Nat → List Char → Option (List Char × List Char)
  | 0, _ => none
  | fuel + 1, cs =>
    match closing? '"' cs with
    | some result => some result
    | none =>
      match innerNewline? e cs with
      | some (front, rest) => (multilineBasic? e fuel rest).map (prepended front)
      | none =>
        match cs with
        | '\\' :: rest =>
          match continuation? rest with
          | some rest => multilineBasic? e fuel rest
          | none => do
            let (c, rest) ← escaped? e rest
            return consed c (← multilineBasic? e fuel rest)
        | c :: rest => if isControl c then none else (multilineBasic? e fuel rest).map (consed c)
        | [] => none

def multilineLiteral? (e : Edition) : Nat → List Char → Option (List Char × List Char)
  | 0, _ => none
  | fuel + 1, cs =>
    match closing? '\'' cs with
    | some result => some result
    | none =>
      match innerNewline? e cs with
      | some (front, rest) => (multilineLiteral? e fuel rest).map (prepended front)
      | none =>
        match cs with
        | c :: rest =>
          if isControl c then none else (multilineLiteral? e fuel rest).map (consed c)
        | [] => none

/-- A string of any form at the start of the text. -/
def string? (e : Edition) : List Char → Option (List Char × List Char)
  | '"' :: '"' :: '"' :: rest => multilineBasic? e (rest.length + 1) (skipFirstNewline rest)
  | '\'' :: '\'' :: '\'' :: rest => multilineLiteral? e (rest.length + 1) (skipFirstNewline rest)
  | '"' :: rest => basic? e (rest.length + 1) rest
  | '\'' :: rest => literal? rest
  | _ => none

end Toml
end LoggingFacade
