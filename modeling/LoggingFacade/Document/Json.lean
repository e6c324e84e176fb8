import LoggingFacade.Document
import LoggingFacade.Number.Binary64.Stepwise
import LoggingFacade.Number.Radix

/-!
# Documents in JSON

Reads a JSON text. Integers of 64 bits, signed or not, are kept exactly and all
other numbers as binary fractions. What is well formed but has no such form is
unreadable: a number beyond the greatest one, a text with a lone surrogate, and
lists and tables below the greatest depth.
-/

namespace LoggingFacade
namespace Json

open Number (Binary64 Bounds characterOf? decimalNatural naturalIn?)

def isBlank (c : Char) : Bool := c == ' ' || c == '\t' || c == '\n' || c == '\r'

def skipBlank (cs : List Char) : List Char := cs.dropWhile isBlank

def isHighSurrogate (n : Nat) : Bool := 0xD800 ≤ n && n < 0xDC00

def isLowSurrogate (n : Nat) : Bool := 0xDC00 ≤ n && n < 0xE000

def joinSurrogates (high low : Nat) : Char :=
  Char.ofNat (0x10000 + (high - 0xD800) * 0x400 + (low - 0xDC00))

def escape? : Char → Option Char
  | '"' => some '"'
  | '\\' => some '\\'
  | '/' => some '/'
  | 'b' => some '\x08'
  | 'f' => some '\x0c'
  | 'n' => some '\n'
  | 'r' => some '\r'
  | 't' => some '\t'
  | _ => none

/-- The code points up to the closing quote, surrogates among them, and what
follows the quote. -/
def codes? : List Char → Option (List Nat × List Char)
  | '"' :: rest => some ([], rest)
  | '\\' :: 'u' :: a :: b :: c :: d :: rest => do
    let code ← naturalIn? 16 [a, b, c, d]
    let (codes, rest) ← codes? rest
    return (code :: codes, rest)
  | '\\' :: c :: rest => do
    let escaped ← escape? c
    let (codes, rest) ← codes? rest
    return (escaped.toNat :: codes, rest)
  | c :: rest =>
    if c.toNat < 0x20 then none
    else do
      let (codes, rest) ← codes? rest
      return (c.toNat :: codes, rest)
  | [] => none

/-- The characters of code points, if every surrogate is half of a pair. -/
def characters? : List Nat → Option (List Char)
  | high :: low :: rest =>
    if isHighSurrogate high && isLowSurrogate low then
      (characters? rest).map (joinSurrogates high low :: ·)
    else do return (← characterOf? high) :: (← characters? (low :: rest))
  | [code] => (characterOf? code).map ([·])
  | [] => some []

/-- A text after its opening quote, if it is readable, and what follows it. -/
def string? (cs : List Char) : Option (Option String × List Char) :=
  (codes? cs).map fun (codes, rest) => ((characters? codes).map .ofList, rest)

/-- A row of digits, at least one, and what follows. -/
def digits? (cs : List Char) : Option (List Char × List Char) :=
  match cs.takeWhile Char.isDigit with
  | [] => none
  | ds => some (ds, cs.dropWhile Char.isDigit)

/-- The digits after a point, if there is one. -/
def fraction? : List Char → Option (List Char × List Char)
  | '.' :: rest => digits? rest
  | cs => some ([], cs)

/-- The exponent, if there is one. -/
def exponent? : List Char → Option (Option Int × List Char)
  | c :: rest =>
    if c == 'e' || c == 'E' then
      match rest with
      | '-' :: rest => (digits? rest).map fun (ds, rest) => (some (-(decimalNatural ds : Int)), rest)
      | '+' :: rest => (digits? rest).map fun (ds, rest) => (some (decimalNatural ds : Int), rest)
      | rest => (digits? rest).map fun (ds, rest) => (some (decimalNatural ds : Int), rest)
    else some (none, c :: rest)
  | [] => some (none, [])

/-- Digits after a number read so far, as long as it has at most 64 bits; and the
digits left over. -/
def takeDigits (value : Nat) : List Char → Nat × List Char
  | [] => (value, [])
  | c :: rest =>
    let next := value * 10 + decimalNatural [c]
    if Bounds.word64.contains next then takeDigits next rest else (value, c :: rest)

/-- The number in three parts. Of too many digits the whole ones count as places
and the others not at all. -/
def fractionOf (negative : Bool) (whole fraction : List Char) (exponent : Int) : Binary64 :=
  let (value, wholeLeft) := takeDigits 0 whole
  let (value, left) := takeDigits value fraction
  .ofSteps negative value (exponent + wholeLeft.length - (fraction.length - left.length : Nat))

/-- The document for a number in its three parts. Minus zero is a fraction. -/
def numberDocument (negative : Bool) (whole fraction : List Char) (exponent : Option Int) :
    Document :=
  let magnitude := decimalNatural whole
  let value : Int := if negative then -magnitude else magnitude
  let exact := fraction.isEmpty && exponent.isNone && !(negative && magnitude == 0) &&
    (Bounds.int64.contains value || Bounds.word64.contains value)
  if exact then .integer value
  else
    match fractionOf negative whole fraction (exponent.getD 0) with
    | .infinity _ => .unreadable
    | x => .float x

def number? (cs : List Char) : Option (Document × List Char) := do
  let (negative, cs) := match cs with
    | '-' :: rest => (true, rest)
    | cs => (false, cs)
  let (whole, cs) ← digits? cs
  if whole.length > 1 && whole.head? == some '0' then none
  else
    let (fraction, cs) ← fraction? cs
    let (exponent, cs) ← exponent? cs
    return (numberDocument negative whole fraction exponent, cs)

/-- A document that may stand at a depth at which so many levels are left. -/
def above (depth : Nat) (d : Document) : Document := if depth == 0 then .unreadable else d

/-- A table is readable if all its keys are. -/
def tableOf (members : List (Option String × Document)) : Document :=
  match members.mapM fun m => m.1.map fun key => (key, m.2) with
  | some entries => .table entries
  | none => .unreadable

mutual

/-- A value at the start of the text, and what follows it. -/
def value? : Nat → Nat → List Char → Option (Document × List Char)
  | 0, _, _ => none
  | fuel + 1, depth, cs =>
    match skipBlank cs with
    | '\x7b' :: rest =>
      match skipBlank rest with
      | '\x7d' :: rest => some (above depth (.table []), rest)
      | rest => do
        let (members, rest) ← members? fuel (depth - 1) rest
        return (above depth (tableOf members), rest)
    | '[' :: rest =>
      match skipBlank rest with
      | ']' :: rest => some (above depth (.list []), rest)
      | rest => do
        let (items, rest) ← items? fuel (depth - 1) rest
        return (above depth (.list items), rest)
    | '"' :: rest =>
      (string? rest).map fun (text, rest) => ((text.map .text).getD .unreadable, rest)
    | 't' :: 'r' :: 'u' :: 'e' :: rest => some (.bool true, rest)
    | 'f' :: 'a' :: 'l' :: 's' :: 'e' :: rest => some (.bool false, rest)
    | 'n' :: 'u' :: 'l' :: 'l' :: rest => some (.null, rest)
    | cs => number? cs

/-- The members of an object up to its closing brace. -/
def members? : Nat → Nat → List Char → Option (List (Option String × Document) × List Char)
  | 0, _, _ => none
  | fuel + 1, depth, cs =>
    match skipBlank cs with
    | '"' :: rest => do
      let (key, rest) ← string? rest
      match skipBlank rest with
      | ':' :: rest => do
        let (value, rest) ← value? fuel depth rest
        match skipBlank rest with
        | ',' :: rest => do
          let (more, rest) ← members? fuel depth rest
          return ((key, value) :: more, rest)
        | '\x7d' :: rest => some ([(key, value)], rest)
        | _ => none
      | _ => none
    | _ => none

/-- The items of an array up to its closing bracket. -/
def items? : Nat → Nat → List Char → Option (List Document × List Char)
  | 0, _, _ => none
  | fuel + 1, depth, cs => do
    let (value, rest) ← value? fuel depth cs
    match skipBlank rest with
    | ',' :: rest => do
      let (more, rest) ← items? fuel depth rest
      return (value :: more, rest)
    | ']' :: rest => some ([value], rest)
    | _ => none

end

def greatestDepth : Nat := 127

/-- Reads a whole text as one value. Every step of the reader consumes at least
one character, so the length of the text bounds the steps. -/
def read? (text : String) : Option Document := do
  let cs := text.toList
  let (document, rest) ← value? (cs.length + 1) greatestDepth cs
  if (skipBlank rest).isEmpty then some document else none

end Json
end LoggingFacade
