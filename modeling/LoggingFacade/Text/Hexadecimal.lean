import LoggingFacade.Number.Radix
import LoggingFacade.Text.Utf8

/-!
# Bytes in hexadecimal

Two lower-case digits for a byte.
-/

namespace LoggingFacade
namespace Text

/-- The two digits of a number below 256. -/
def hexPair (n : Nat) : List Char := [Nat.digitChar (n / 16 % 16), Nat.digitChar (n % 16)]

def encodeHex (bytes : Bytes) : String := .ofList (bytes.flatMap fun b => hexPair b.toNat)

/-- Reads pairs of digits of either case. -/
def hexBytes? : List Char → Option Bytes
  | [] => some []
  | a :: b :: rest => do
    let value ← Number.naturalIn? 16 [a, b]
    return .ofNat value :: (← hexBytes? rest)
  | _ => none

def decodeHex? (text : String) : Option Bytes := hexBytes? text.toList

end Text
end LoggingFacade
