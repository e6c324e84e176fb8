import LoggingFacade.Document
import LoggingFacade.Text.Letter

/-!
# Component declarations

A declaration describes one component, whatever document it comes from: a type
name, attributes, which are texts, and the declarations nested in it.
-/

namespace LoggingFacade

/-- The kinds of components that plugins are registered for. -/
inductive ElementType where
  | layout
  | appender
  | appenders
  deriving DecidableEq, Repr, Inhabited

namespace ElementType

def name : ElementType → String
  | layout => "layout"
  | appender => "appender"
  | appenders => "appenders"

/-- The name as a constructor in a debugging view. -/
def viewName : ElementType → String
  | layout => "Layout"
  | appender => "Appender"
  | appenders => "Appenders"

def all : List ElementType := [layout, appender, appenders]

def ofName? (name : String) : Option ElementType := all.find? (·.name == name)

@[simp] theorem ofName?_name (t : ElementType) : ofName? t.name = some t := by
  cases t <;> rfl

end ElementType

structure Declaration where
  typeName : String
  attributes : TextMap String
  children : List Declaration
  deriving Inhabited

namespace Declaration

mutual

def decideEq : (a b : Declaration) → Decidable (a = b)
  | ⟨type, attributes, children⟩, ⟨type', attributes', children'⟩ =>
    match decEq type type', decEq attributes attributes', decideEqAll children children' with
    | isTrue ht, isTrue ha, isTrue hc => isTrue (by rw [ht, ha, hc])
    | isFalse ht, _, _ => isFalse fun h => ht (by injection h)
    | _, isFalse ha, _ => isFalse fun h => ha (by injection h)
    | _, _, isFalse hc => isFalse fun h => hc (by injection h)

def decideEqAll : (a b : List Declaration) → Decidable (a = b)
  | [], [] => isTrue rfl
  | [], _ :: _ => isFalse nofun
  | _ :: _, [] => isFalse nofun
  | a :: as, b :: bs =>
    match decideEq a b, decideEqAll as bs with
    | isTrue h, isTrue hs => isTrue (by rw [h, hs])
    | isFalse h, _ => isFalse fun e => h (by injection e)
    | _, isFalse hs => isFalse fun e => hs (by injection e)

end

instance : DecidableEq Declaration := decideEq

/-- The first attribute, in key order, whose name matches without regard to
case. -/
def attr? (d : Declaration) (name : String) : Option String :=
  (d.attributes.entries.find? fun e => Text.sameName e.1 name).map (·.2)

/-- The type name, with the declared name if there is one. -/
def label (d : Declaration) : String :=
  match d.attr? "name" with
  | some name => d.typeName ++ "[" ++ name ++ "]"
  | none => d.typeName

/-- Attributes keep the text of any scalar; nothing else can be one. -/
def attributes? : Document → Option (TextMap String)
  | .table entries => do
    let texts ← entries.mapM fun e => e.2.scalarText?.map fun s => (e.1, s)
    return .ofList texts
  | _ => none

/-- Reads a declaration nested at most as deep as the fuel. -/
def read? (strict : Bool) : Nat → Document → Option Declaration
  | 0, _ => none
  | fuel + 1, document => do
    let fields ← document.fields? strict ["type", "attributes", "children"]
    let type ← (← (← Document.unique? fields "type")).asText?
    let attributes ←
      match ← Document.unique? fields "attributes" with
      | some given => attributes? given
      | none => some .empty
    let children ←
      match ← Document.unique? fields "children" with
      | some given => (← given.asList?).mapM (read? strict fuel)
      | none => some []
    return ⟨type, attributes, children⟩

/-- Reads a declaration. Other keys are ignored; a key of its own that is
repeated is refused. `strict` refuses a list with more items than there are
fields. -/
def ofDocument? (strict : Bool) (document : Document) : Option Declaration :=
  read? strict document.height document

def toDocument : Declaration → Document
  | ⟨typeName, attributes, children⟩ =>
    .table [("type", .text typeName),
      ("attributes", .table (attributes.entries.map fun e => (e.1, .text e.2))),
      ("children", .list (documents children))]
where
  documents : List Declaration → List Document
    | [] => []
    | d :: rest => toDocument d :: documents rest

end Declaration
end LoggingFacade
