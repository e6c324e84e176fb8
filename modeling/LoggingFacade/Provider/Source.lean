import LoggingFacade.Text.Quoted
import LoggingFacade.Traced

/-!
# Sources of provider records

A source is a record that was found, by its identity; its text may turn out to
be unreadable. A locator finds sources; chained locators are asked in order,
and one that fails contributes nothing.
-/

namespace LoggingFacade

inductive SourceBody where
  | inline (text : String)
  /-- A file, with its text if it can be read. -/
  | file (text : Option String)
  deriving DecidableEq, Repr

structure Source where
  id : String
  body : SourceBody
  deriving DecidableEq, Repr

namespace Source

def read (s : Source) : Except Error String :=
  match s.body with
  | .inline text => .ok text
  | .file (some text) => .ok text
  | .file none => .error (.discovery s.id "Unable to read" [])

def isFile (s : Source) : Bool :=
  match s.body with
  | .inline _ => false
  | .file _ => true

end Source

structure Locator (σ : Type) where
  description : String
  sources : Traced σ (Except Error (List Source))

namespace Locator

variable {σ : Type}

/-- Records that are part of the program, in the order of their identities. -/
def linked (records : List Source) : Locator σ where
  description := "linked provider records"
  sources := return .ok (records.mergeSort fun a b => a.id ≤ b.id)

instance : Inhabited (Locator σ) := ⟨linked []⟩

/-- The sources of locators in order, those that fail left out. -/
def chainedSources : List (Locator σ) → Traced σ (List Source)
  | [] => return []
  | l :: rest => do
    match ← l.sources with
    | .ok found => return found ++ (← chainedSources rest)
    | .error e =>
      Traced.report (.recordsUnlisted l.description e)
      chainedSources rest

def chained (locators : List (Locator σ)) : Locator σ where
  description := " + ".intercalate (locators.map description)
  sources := return .ok (← chainedSources locators)

def view (l : Locator σ) : String :=
  "ChainedSources \x7b locators: " ++ Text.quoted l.description ++ " \x7d"

end Locator
end LoggingFacade
