import LoggingFacade.Number.Integer
import LoggingFacade.Plugin

/-!
# Attribute values

Reading the text of an attribute as a value of the kind its parameter declares.
-/

namespace LoggingFacade
namespace Coercion

/-- `true` or `false`, in any case, with white space around it. -/
def readBool? (raw : String) : Option Bool :=
  let word := Text.trim raw
  if Text.sameName word "true" then some true
  else if Text.sameName word "false" then some false
  else none

/-- A decimal integer of 64 signed bits, with white space around it. -/
def readInt (raw : String) : Except Number.IntegerFault Int :=
  Number.readInteger .int64 (Text.trim raw)

def coerce (component parameter : String) (kind : ParameterKind) (raw : String) :
    Except Error Argument :=
  match kind with
  | .bool =>
    match readBool? raw with
    | some b => .ok (.bool b)
    | none =>
      .error (.coercion component parameter ("expected true or false, got " ++ Text.quoted raw))
  | .int =>
    match readInt raw with
    | .ok n => .ok (.int n)
    | .error fault =>
      .error (.coercion component parameter (Text.quoted raw ++ ": " ++ fault.message))
  | .charset =>
    match Charset.ofName raw with
    | .ok c => .ok (.charset c)
    | .error e => .error (.coercion component parameter e.message)
  | .text => .ok (.text raw)
  | .element _ =>
    .error (.coercion component parameter "nested components cannot be given as attributes")
  | .elements _ =>
    .error (.coercion component parameter "nested components cannot be given as attributes")

end Coercion
end LoggingFacade
