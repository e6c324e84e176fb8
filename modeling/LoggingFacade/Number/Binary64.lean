/-!
# Binary floating point of 64 bits

A number is kept as the integers it is made of, so reading and writing are
exact arithmetic. Reading rounds a decimal to the nearest representable number,
ties to the even mantissa. Writing finds the shortest decimal that reads back
as the same number, and among those the nearest.
-/

namespace LoggingFacade
namespace Number

/-- A finite value is `mantissa * 2 ^ exponent`, with a mantissa below `2 ^ 53`
that is at least `2 ^ 52` unless the exponent is the least one, `-1074`. -/
inductive Binary64 where
  | nan (negative : Bool)
  | infinity (negative : Bool)
  | finite (negative : Bool) (mantissa : Nat) (exponent : Int)
  deriving DecidableEq, Repr

namespace Binary64

def leastExponent : Int := -1074
def greatestExponent : Int := 971

def zero (negative : Bool) : Binary64 := finite negative 0 leastExponent

/-- The quotient `num / den` rounded to the nearest integer, ties to even. -/
def roundQuotient (num den : Nat) : Nat :=
  let q := num / den
  let r := num % den
  if 2 * r < den then q
  else if den < 2 * r then q + 1
  else if q % 2 == 0 then q else q + 1

/-- `num / den` divided by `2 ^ e`, as a quotient of naturals. -/
def scaleQuotient (num den : Nat) (e : Int) : Nat × Nat :=
  if 0 ≤ e then (num, den * Nat.pow 2 e.toNat) else (num * Nat.pow 2 (-e).toNat, den)

/-- The exponent at which `num / den` has a mantissa of 53 bits, but never less
than the least one. -/
def mantissaExponent (num den : Nat) : Int :=
  let guess : Int := (num.log2 : Int) - den.log2 - 52
  let (n, d) := scaleQuotient num den guess
  let e := if n / d < Nat.pow 2 52 then guess - 1 else guess
  if e < leastExponent then leastExponent else e

/-- The number nearest to the quotient of two positive naturals. -/
def ofQuotient (negative : Bool) (num den : Nat) : Binary64 :=
  let e := mantissaExponent num den
  let (n, d) := scaleQuotient num den e
  let m := roundQuotient n d
  let (m, e) := if m == Nat.pow 2 53 then (Nat.pow 2 52, e + 1) else (m, e)
  if greatestExponent < e then infinity negative else finite negative m e

/-- The number nearest to `digits * 10 ^ e`. Beyond 400 decimal places on
either side only the order of magnitude matters. -/
def ofDecimal (negative : Bool) (digits : Nat) (e : Int) : Binary64 :=
  if digits == 0 then zero negative
  else
    let places : Int := (Nat.toDigits 10 digits).length + e
    if places < -400 then zero negative
    else if 400 < places then infinity negative
    else if 0 ≤ e then ofQuotient negative (digits * Nat.pow 10 e.toNat) 1
    else ofQuotient negative digits (Nat.pow 10 (-e).toNat)

def ofInt (n : Int) : Binary64 := ofDecimal (n < 0) n.natAbs 0

/-- A positive decimal `digits * 10 ^ exponent`. -/
structure Decimal where
  digits : Nat
  exponent : Int
  deriving DecidableEq, Repr

/-- The reals that round to a finite number lie between `low / den` and
`high / den`, ends included when the mantissa is even; the number itself is
`value / den`. -/
structure Interval where
  low : Nat
  value : Nat
  high : Nat
  den : Nat
  closed : Bool

/-- The upper neighbour is as far away as the lower one, except above a power
of two, where the lower one is half as far. -/
def interval (m : Nat) (e : Int) : Interval :=
  let below := if m == Nat.pow 2 52 && leastExponent < e then 1 else 2
  let e := e - 2
  if 0 ≤ e then
    let unit := Nat.pow 2 e.toNat
    ⟨(4 * m - below) * unit, 4 * m * unit, (4 * m + 2) * unit, 1, m % 2 == 0⟩
  else ⟨4 * m - below, 4 * m, 4 * m + 2, Nat.pow 2 (-e).toNat, m % 2 == 0⟩

namespace Interval

/-- `num / den` rounds to the number. -/
def contains (i : Interval) (num den : Nat) : Bool :=
  let lhs := i.low * den
  let mid := num * i.den
  let rhs := i.high * den
  if i.closed then lhs ≤ mid && mid ≤ rhs else lhs < mid && mid < rhs

/-- The power of ten just above the value: `10 ^ (k-1) ≤ value / den < 10 ^ k`. -/
def magnitude (i : Interval) : Int :=
  ((Nat.toDigits 10 (i.value * Nat.pow 10 400 / i.den)).length : Int) - 400

/-- The nearest decimal with the given last place that reads back, if one of
the two neighbours on that grid does. -/
def decimalAt (i : Interval) (place : Int) : Option Decimal :=
  let (n, d) :=
    if 0 ≤ place then (i.value, i.den * Nat.pow 10 place.toNat)
    else (i.value * Nat.pow 10 (-place).toNat, i.den)
  let down := n / d
  let reads (c : Nat) : Bool :=
    if 0 ≤ place then i.contains (c * Nat.pow 10 place.toNat) 1
    else i.contains c (Nat.pow 10 (-place).toNat)
  let nearerUp := d < 2 * (n % d) || (d == 2 * (n % d) && down % 2 == 1)
  if nearerUp then
    if reads (down + 1) then some ⟨down + 1, place⟩
    else if reads down then some ⟨down, place⟩ else none
  else
    if reads down then some ⟨down, place⟩
    else if reads (down + 1) then some ⟨down + 1, place⟩ else none

/-- Tries one more significant digit until a decimal reads back. -/
def shortestFrom (i : Interval) (place : Int) : Nat → Decimal
  | 0 => ⟨i.value / i.den, 0⟩
  | fuel + 1 =>
    match i.decimalAt place with
    | some d => d
    | none => i.shortestFrom (place - 1) fuel

end Interval

/-- The shortest decimal that reads back as `m * 2 ^ e`. The search starts one
place above the leading digit, where a value just below a power of ten may
round to that power; seventeen significant digits always read back. -/
def shortest (m : Nat) (e : Int) : Decimal :=
  let i := interval m e
  i.shortestFrom i.magnitude 18

namespace Decimal

/-- Positional digits without an exponent, zeros filled in on either side. -/
def text (d : Decimal) : String :=
  let ds := (toString d.digits).toList
  if 0 ≤ d.exponent then .ofList (ds ++ List.replicate d.exponent.toNat '0')
  else
    let places := (-d.exponent).toNat
    let ds := List.replicate (places + 1 - ds.length) '0' ++ ds
    let whole := ds.length - places
    .ofList (ds.take whole ++ '.' :: ds.drop whole)

end Decimal

/-- The magnitude in positional digits. -/
def magnitudeText (m : Nat) (e : Int) : String :=
  if m == 0 then "0" else (shortest m e).text

def sign (negative : Bool) : String := if negative then "-" else ""

/-- The plain text of a number: positional, shortest, no point in an integer. -/
def text : Binary64 → String
  | nan _ => "NaN"
  | infinity negative => sign negative ++ "inf"
  | finite negative m e => sign negative ++ magnitudeText m e

end Binary64
end Number
end LoggingFacade
