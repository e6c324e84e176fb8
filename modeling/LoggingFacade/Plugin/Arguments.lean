import LoggingFacade.Component
import LoggingFacade.Text.Quoted

/-!
# Arguments of plugins

The values a plugin's factory is called with, one for each parameter. Reading
one with the wrong type is a failure of the factory.
-/

namespace LoggingFacade

inductive Argument where
  | absent
  | bool (value : Bool)
  | int (value : Int)
  | charset (value : Charset)
  | text (value : String)
  | element (value : Component)
  | elements (values : List Component)

namespace Argument

/-- The value as it is shown in messages. A component would show all that it is
made of, an appender also what it holds at the time; of that its type is kept,
and two dots stand for the rest. -/
def view : Argument → String
  | absent => "Absent"
  | bool b => "Bool(" ++ (if b then "true" else "false") ++ ")"
  | int n => "Int(" ++ toString n ++ ")"
  | charset c => "Charset(" ++ c.viewName ++ ")"
  | text s => "Text(" ++ Text.quoted s ++ ")"
  | element c => "Element(" ++ c.elementType.viewName ++ "(..))"
  | elements cs =>
    "Elements([" ++ ", ".intercalate (cs.map fun c => c.elementType.viewName ++ "(..)") ++ "])"

/-- The view of a value that may not be there at all. -/
def viewOption : Option Argument → String
  | some argument => "Some(" ++ argument.view ++ ")"
  | none => "None"

def isAbsent : Argument → Bool
  | absent => true
  | _ => false

end Argument

/-- The arguments of a component, by parameter name. -/
structure Arguments where
  component : String
  values : List (String × Argument)

namespace Arguments

def empty (component : String) : Arguments := ⟨component, []⟩

/-- The value set last counts. -/
def set (a : Arguments) (name : String) (value : Argument) : Arguments :=
  { a with values := (name, value) :: a.values }

def get? (a : Arguments) (name : String) : Option Argument := a.values.lookup name

/-- The failure to read an argument as what it is not. Its text is exact unless
the argument is a component, of which `Argument.view` leaves the inside out. That
takes a factory that reads a parameter as another type than it declares. -/
def mismatch (a : Arguments) (name expected : String) : Error :=
  .factory a.component
    ("parameter " ++ name ++ " is not a " ++ expected ++ ": " ++ Argument.viewOption (a.get? name))

def bool (a : Arguments) (name : String) : Except Error Bool :=
  match a.get? name with
  | some (.bool b) => .ok b
  | _ => .error (a.mismatch name "bool")

def int (a : Arguments) (name : String) : Except Error Int :=
  match a.get? name with
  | some (.int n) => .ok n
  | _ => .error (a.mismatch name "integer")

def charset (a : Arguments) (name : String) : Except Error Charset :=
  match a.get? name with
  | some (.charset c) => .ok c
  | _ => .error (a.mismatch name "charset")

def text? (a : Arguments) (name : String) : Option String :=
  match a.get? name with
  | some (.text s) => some s
  | _ => none

def requiredText (a : Arguments) (name : String) : Except Error String :=
  match a.text? name with
  | some s => .ok s
  | none => .error (.missingParameter a.component name)

def element? (a : Arguments) (name : String) : Option Component :=
  match a.get? name with
  | some (.element c) => some c
  | _ => none

/-- No components where there is no list of them. -/
def elements (a : Arguments) (name : String) : List Component :=
  match a.get? name with
  | some (.elements cs) => cs
  | _ => []

/-- The layout among the arguments. -/
def layout? (a : Arguments) (name : String) : Option Layout :=
  (a.element? name).bind Component.asLayout?

@[simp] theorem get?_set (a : Arguments) (name other : String) (value : Argument) :
    (a.set name value).get? other = if other = name then some value else a.get? other := by
  by_cases h : other = name
  · simp [get?, set, h]
  · simp [get?, set, List.lookup_cons, h, beq_false_of_ne h]

end Arguments
end LoggingFacade
