import LoggingFacade.Text.Graphic

/-!
# Quoted text

The quotation of a text inside a message: double quotes around it, a backslash
form for what could be mistaken, and the code point in hexadecimal digits for a
character that would not be visible on its own.
-/

namespace LoggingFacade
namespace Text

/-- Lower-case hexadecimal digits without leading zeros. -/
def hexDigits (n : Nat) : List Char := Nat.toDigits 16 n

def quoteChar (c : Char) : List Char :=
  if c == '\x00' then ['\\', '0']
  else if c == '\t' then ['\\', 't']
  else if c == '\n' then ['\\', 'n']
  else if c == '\r' then ['\\', 'r']
  else if c == '"' then ['\\', '"']
  else if c == '\\' then ['\\', '\\']
  else if isExtending c || !isGraphic c then
    ['\\', 'u', '\x7b'] ++ hexDigits c.toNat ++ ['\x7d']
  else [c]

def quoted (s : String) : String :=
  .ofList ('"' :: s.toList.flatMap quoteChar ++ ['"'])

end Text
end LoggingFacade
