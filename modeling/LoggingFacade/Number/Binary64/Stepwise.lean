import LoggingFacade.Number.Binary64

/-!
# Decimals in steps

A decimal may be read as an integer that is then multiplied or divided by a
power of ten. Every step rounds, so a decimal with many digits or a far exponent
may come out beside the nearest number.
-/

namespace LoggingFacade
namespace Number
namespace Binary64

/-- The greatest power of ten that one step reaches. -/
def greatestStep : Int := 308

/-- A magnitude multiplied or divided by the number nearest to a power of ten. -/
def shifted (e : Int) (x : Binary64) : Binary64 :=
  match x, ofDecimal false 1 e.natAbs with
  | finite negative m a, finite _ p b =>
    if m == 0 then zero negative
    else
      let (num, den) := if 0 ≤ e then scaleQuotient (m * p) 1 (-(a + b))
        else scaleQuotient m p (b - a)
      ofQuotient negative num den
  | x, _ => x

/-- The number that `digits * 10 ^ e` is read as, for digits of at most 64 bits.
Two full steps down leave nothing of them. -/
def ofSteps (negative : Bool) (digits : Nat) (e : Int) : Binary64 :=
  let x := ofDecimal negative digits 0
  if digits == 0 || e < -2 * greatestStep then zero negative
  else if greatestStep < e then infinity negative
  else if e < -greatestStep then shifted (e + greatestStep) (shifted (-greatestStep) x)
  else shifted e x

end Binary64
end Number
end LoggingFacade
