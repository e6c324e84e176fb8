/-!
# Bounded integers in decimal

Reading an optional sign and ASCII digits as an integer between two bounds.
The digits are taken from the left, so a number that leaves the bounds is
reported before a later character that is no digit.
-/

namespace LoggingFacade
namespace Number

inductive IntegerFault where
  | empty
  | invalidDigit
  | tooLarge
  | tooSmall
  deriving DecidableEq, Repr

namespace IntegerFault

def message : IntegerFault → String
  | empty => "cannot parse integer from empty string"
  | invalidDigit => "invalid digit found in string"
  | tooLarge => "number too large to fit in target type"
  | tooSmall => "number too small to fit in target type"

end IntegerFault

/-- The bounds of an integer type. -/
structure Bounds where
  low : Int
  high : Int
  deriving DecidableEq, Repr

namespace Bounds

def int32 : Bounds := ⟨-2147483648, 2147483647⟩
def int64 : Bounds := ⟨-9223372036854775808, 9223372036854775807⟩
def word64 : Bounds := ⟨0, 18446744073709551615⟩

/-- The integers of 64 bits, with or without a sign. -/
def any64 : Bounds := ⟨-9223372036854775808, 18446744073709551615⟩

/-- The integers of 128 bits, with or without a sign. -/
def any128 : Bounds :=
  ⟨-170141183460469231731687303715884105728, 340282366920938463463374607431768211455⟩

def contains (b : Bounds) (n : Int) : Bool := b.low ≤ n && n ≤ b.high

end Bounds

/-- The value of an ASCII digit. -/
def digit? (c : Char) : Option Nat :=
  if '0' ≤ c ∧ c ≤ '9' then some (c.toNat - '0'.toNat) else none

/-- Appends digits to the magnitude read so far; `negative` tells which bound
it grows towards. -/
def readDigits (b : Bounds) (negative : Bool) (magnitude : Nat) :
    List Char → Except IntegerFault Int
  | [] => .ok (if negative then -magnitude else magnitude)
  | c :: rest =>
    match digit? c with
    | none => .error .invalidDigit
    | some d =>
      let next := magnitude * 10 + d
      if negative then
        if (-next : Int) < b.low then .error .tooSmall else readDigits b negative next rest
      else
        if b.high < (next : Int) then .error .tooLarge else readDigits b negative next rest

/-- Reads a signed integer within the bounds; a minus sign needs a bound below
zero. -/
def readInteger (b : Bounds) (s : String) : Except IntegerFault Int :=
  match s.toList with
  | [] => .error .empty
  | ['+'] => .error .invalidDigit
  | ['-'] => .error .invalidDigit
  | '+' :: digits => readDigits b false 0 digits
  | '-' :: digits =>
    if b.low < 0 then readDigits b true 0 digits else .error .invalidDigit
  | digits => readDigits b false 0 digits

end Number
end LoggingFacade
