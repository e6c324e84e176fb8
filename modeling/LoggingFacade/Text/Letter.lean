/-!
# Letters without case

Names of levels, charsets, plugins and parameters are compared up to the case
of the ASCII letters; all other characters stand for themselves.
-/

namespace LoggingFacade
namespace Text

/-- Lower case for the ASCII letters only. -/
def lower (s : String) : String := .ofList (s.toList.map Char.toLower)

/-- Upper case for the ASCII letters only. -/
def upper (s : String) : String := .ofList (s.toList.map Char.toUpper)

/-- Equality up to the case of ASCII letters. -/
def sameName (a b : String) : Bool := lower a == lower b

@[simp] theorem toList_lower (s : String) : (lower s).toList = s.toList.map Char.toLower := by
  simp [lower]

@[simp] theorem toList_upper (s : String) : (upper s).toList = s.toList.map Char.toUpper := by
  simp [upper]

theorem sameName_iff (a b : String) : sameName a b = true ↔ lower a = lower b := by
  simp [sameName]

@[simp] theorem sameName_refl (a : String) : sameName a a = true := by simp [sameName]

theorem sameName_comm (a b : String) : sameName a b = sameName b a := by
  rw [Bool.eq_iff_iff, sameName_iff, sameName_iff, eq_comm]

end Text
end LoggingFacade
