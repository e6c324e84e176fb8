import LoggingFacade.Document
import LoggingFacade.Document.Moment
import LoggingFacade.Document.Toml.Edition

/-!
# Unquoted scalars in TOML

Booleans, numbers and moments. An integer has at most 128 bits, with or without
a sign; a fraction beyond the greatest one is refused, but below the least one
the earlier edition reads minus infinity.
-/

namespace LoggingFacade
namespace Toml

open Number (Binary64 Bounds digitIn? naturalIn? decimalNatural)

/-- Digits with single underscores between them. -/
def grouped? (isDigit : Char → Bool) : List Char → Option (List Char)
  | [] => none
  | [c] => if isDigit c then some [c] else none
  | c :: '_' :: d :: rest =>
    if isDigit c then (grouped? isDigit (d :: rest)).map (c :: ·) else none
  | c :: rest => if isDigit c then (grouped? isDigit rest).map (c :: ·) else none

def integer? (n : Int) : Option Document :=
  if Bounds.any128.contains n then some (.integer n) else none

/-- An integer in another base has no sign. -/
def basedInteger? (base : Nat) (cs : List Char) : Option Document := do
  let digits ← grouped? (fun c => (digitIn? base c).isSome) cs
  integer? (← naturalIn? base digits)

/-- A zero in front of another digit is refused. -/
def wholePart? (cs : List Char) : Option (List Char) := do
  let digits ← grouped? Char.isDigit cs
  if digits.length > 1 && digits.head? == some '0' then none else some digits

def isExponentMark (c : Char) : Bool := c == 'e' || c == 'E'

def exponent? : List Char → Option Int
  | '-' :: cs => (grouped? Char.isDigit cs).map fun ds => -(decimalNatural ds : Int)
  | '+' :: cs => (grouped? Char.isDigit cs).map fun ds => (decimalNatural ds : Int)
  | cs => (grouped? Char.isDigit cs).map fun ds => (decimalNatural ds : Int)

def float? (edition : Edition) (x : Binary64) : Option Document :=
  match x with
  | .infinity negative => if negative && !edition.isLater then some (.float x) else none
  | x => some (.float x)

/-- A decimal number without its sign. -/
def decimal? (edition : Edition) (negative : Bool) (cs : List Char) : Option Document := do
  let mantissa := cs.takeWhile fun c => !isExponentMark c
  let exponent := (cs.dropWhile fun c => !isExponentMark c).drop 1
  let whole ← wholePart? (mantissa.takeWhile (· != '.'))
  let places := (mantissa.dropWhile (· != '.')).drop 1
  let isWhole := !cs.any fun c => c == '.' || isExponentMark c
  if isWhole then
    integer? (if negative then -(decimalNatural whole : Int) else decimalNatural whole)
  else do
    let fraction ← if mantissa.contains '.' then grouped? Char.isDigit places else some []
    let e ← if cs.any isExponentMark then exponent? exponent else some 0
    float? edition (.ofDecimal negative (decimalNatural (whole ++ fraction)) (e - fraction.length))

def signed? (edition : Edition) (negative : Bool) : List Char → Option Document
  | ['i', 'n', 'f'] => some (.float (.infinity negative))
  | ['n', 'a', 'n'] => some (.float (.nan negative))
  | cs => decimal? edition negative cs

def number? (edition : Edition) : List Char → Option Document
  | '0' :: 'x' :: cs => basedInteger? 16 cs
  | '0' :: 'o' :: cs => basedInteger? 8 cs
  | '0' :: 'b' :: cs => basedInteger? 2 cs
  | '+' :: cs => signed? edition false cs
  | '-' :: cs => signed? edition true cs
  | cs => signed? edition false cs

def scalar? (edition : Edition) (cs : List Char) : Option Document :=
  if cs == "true".toList then some (.bool true)
  else if cs == "false".toList then some (.bool false)
  else
    match Moment.read? edition.isLater cs with
    | some moment => some (.moment moment.text)
    | none => number? edition cs

end Toml
end LoggingFacade
