/-!
# Digits in a base

The values of digits and of rows of digits in bases up to sixteen.
-/

namespace LoggingFacade
namespace Number

/-- The value of a digit below the base; letters of either case follow nine. -/
def digitIn? (base : Nat) (c : Char) : Option Nat :=
  let value? :=
    if '0' ≤ c ∧ c ≤ '9' then some (c.toNat - '0'.toNat)
    else if 'a' ≤ c ∧ c ≤ 'f' then some (c.toNat - 'a'.toNat + 10)
    else if 'A' ≤ c ∧ c ≤ 'F' then some (c.toNat - 'A'.toNat + 10)
    else none
  value?.filter (· < base)

/-- The value of a row of digits, the first one the most significant. -/
def naturalIn? (base : Nat) (digits : List Char) : Option Nat :=
  digits.foldlM (fun value c => (digitIn? base c).map (value * base + ·)) 0

/-- The value of a row that holds decimal digits only. -/
def decimalNatural (digits : List Char) : Nat :=
  digits.foldl (fun n c => n * 10 + (c.toNat - '0'.toNat)) 0

/-- The character of a code point, if it is one. -/
def characterOf? (n : Nat) : Option Char :=
  if n < 0xD800 || (0xE000 ≤ n && n < 0x110000) then some (Char.ofNat n) else none

end Number
end LoggingFacade
