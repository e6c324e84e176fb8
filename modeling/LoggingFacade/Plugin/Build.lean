import LoggingFacade.Plugin.Binding
import LoggingFacade.Plugin.Coercion

/-!
# Building components

A declaration is built by the plugin of its type: the nested declarations
first, those that fail being left out; then the arguments, parameter by
parameter; then the factory, whose every failure becomes a failure to build
this one component.
-/

namespace LoggingFacade
namespace Build

variable {σ : Type}

/-- Reports the attributes that no parameter reads. -/
def reportUnknown (p : Plugin σ) (d : Declaration) : Traced σ Unit :=
  d.attributes.keys.forM fun key => do
    if !p.knows key then Traced.report (.attributeIgnored p.name key)

/-- The components of a type, in order. -/
def ofType (type : ElementType) (components : List Component) : List Component :=
  components.filter (·.elementType = type)

/-- The components of all other types, in order. -/
def notOfType (type : ElementType) (components : List Component) : List Component :=
  components.filter (·.elementType ≠ type)

/-- The argument of one parameter, and the components left for the following
ones. -/
def argument (component : String) (q : Parameter) (d : Declaration)
    (components : List Component) : Traced σ (Except Error (Argument × List Component)) :=
  match q.kind with
  | .element type => do
    let matching := ofType type components
    if matching.length > 1 then
      Traced.report (.elementsSurplus component q.name matching.length)
    let value := match matching.head? with
      | some c => Argument.element c
      | none => .absent
    return .ok (value, notOfType type components)
  | .elements type =>
    return .ok (.elements (ofType type components), notOfType type components)
  | kind =>
    match (d.attr? q.name).or q.standard with
    | some raw =>
      return (Coercion.coerce component q.name kind raw).map fun value => (value, components)
    | none => return .ok (.absent, components)

/-- The arguments of the parameters in order; a required one must not be
absent. -/
def assembleFrom (d : Declaration) :
    List Parameter → Arguments → List Component →
      Traced σ (Except Error (Arguments × List Component))
  | [], arguments, components => return .ok (arguments, components)
  | q :: rest, arguments, components => do
    match ← argument arguments.component q d components with
    | .error e => return .error e
    | .ok (value, components) =>
      if q.required && value.isAbsent then
        return .error (.missingParameter arguments.component q.name)
      else assembleFrom d rest (arguments.set q.name value) components

/-- The arguments for a plugin; components that no parameter accepts are
reported. -/
def assemble (p : Plugin σ) (d : Declaration) (components : List Component) :
    Traced σ (Except Error Arguments) := do
  match ← assembleFrom d p.parameters (.empty p.name) components with
  | .error e => return .error e
  | .ok (arguments, unused) =>
    if !unused.isEmpty then Traced.report (.elementsIgnored p.name unused.length)
    return .ok arguments

/-- What the end of a factory means for the component: a failure of another
kind, an abrupt end and a component of the wrong type are failures of the
factory. -/
def judge (p : Plugin σ) : Attempt Component → Except Error Component
  | .crashed => .error (.factory p.name "factory panicked")
  | .failed e => .error (if e.isBuildError then e else .factory p.name e.message)
  | .done c =>
    if c.elementType = p.elementType then .ok c
    else .error (.factory p.name
      ("produced a " ++ c.elementType.name ++ " but is registered as a " ++ p.elementType.name))

/-- Calls the factory. -/
def invoke (p : Plugin σ) (d : Declaration) (arguments : Arguments) :
    Traced σ (Except Error Component) := do
  match judge p (← p.factory arguments) with
  | .error e => return .error e
  | .ok c =>
    Traced.report (.componentBuilt d.label)
    return .ok c

mutual

def build (b : Binding σ) : Declaration → Traced σ (Except Error Component)
  | ⟨typeName, attributes, children⟩ =>
    match b.lookup typeName with
    | none => return .error (.unknownComponent typeName)
    | some p => do
      reportUnknown p ⟨typeName, attributes, children⟩
      let components ← buildChildren b (Declaration.label ⟨typeName, attributes, children⟩) children
      match ← assemble p ⟨typeName, attributes, children⟩ components with
      | .error e => return .error e
      | .ok arguments => invoke p ⟨typeName, attributes, children⟩ arguments

/-- The components of nested declarations; each failure is reported and leaves
a gap. -/
def buildChildren (b : Binding σ) (parent : String) :
    List Declaration → Traced σ (List Component)
  | [] => return []
  | child :: rest => do
    match ← build b child with
    | .ok c => return c :: (← buildChildren b parent rest)
    | .error e =>
      Traced.report (.childFailed parent child.label e)
      buildChildren b parent rest

end

/-- Builds one declaration and reports its failure. -/
def buildReported (b : Binding σ) (d : Declaration) : Traced σ (Except Error Component) := do
  let result ← build b d
  match result with
  | .ok _ => return result
  | .error e =>
    Traced.report (.componentFailed d.label e)
    return result

/-- Builds declarations one by one, whatever happens to the others. -/
def buildAll (b : Binding σ) (ds : List Declaration) :
    Traced σ (List (Except Error Component)) :=
  Traced.forEach (buildReported b) ds

end Build
end LoggingFacade
