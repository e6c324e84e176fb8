/-!
# Padded text

Text filled up with spaces to a width counted in characters. Text that is
already wider is left as it is.
-/

namespace LoggingFacade
namespace Text

def spaces (count : Nat) : String := .ofList (List.replicate count ' ')

/-- Spaces in front. -/
def padLeft (width : Nat) (text : String) : String := spaces (width - text.length) ++ text

/-- Spaces behind. -/
def padRight (width : Nat) (text : String) : String := text ++ spaces (width - text.length)

theorem length_padLeft (width : Nat) (text : String) :
    (padLeft width text).length = max width text.length := by
  simp [padLeft, spaces]
  omega

theorem length_padRight (width : Nat) (text : String) :
    (padRight width text).length = max width text.length := by
  simp [padRight, spaces]
  omega

end Text
end LoggingFacade
