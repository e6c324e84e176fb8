/-!
# Message formats

A message format turns a pattern and the texts of its arguments into a message.
The parameterized format puts the arguments, one after the other, in place of
the placeholders of the pattern.
-/

namespace LoggingFacade

structure MessageFormat where
  name : String
  format : String → List String → String

namespace MessageFormat

/-- Each placeholder takes the next argument, which is not scanned again; a
placeholder without an argument stays. -/
def fill : List Char → List String → List Char
  | '\x7b' :: '\x7d' :: rest, argument :: more => argument.toList ++ fill rest more
  | '\x7b' :: '\x7d' :: rest, [] => '\x7b' :: '\x7d' :: fill rest []
  | c :: rest, arguments => c :: fill rest arguments
  | [], _ => []

def parameterized : MessageFormat where
  name := "parameterized"
  format pattern arguments := .ofList (fill pattern.toList arguments)

theorem fill_nil_right (pattern : List Char) : fill pattern [] = pattern := by
  generalize h : ([] : List String) = arguments
  fun_induction fill pattern arguments <;> simp_all

@[simp] theorem format_parameterized_nil (pattern : String) :
    parameterized.format pattern [] = pattern := by
  simp [parameterized, fill_nil_right]

end MessageFormat
end LoggingFacade
