import LoggingFacade.Backend.Routing
import LoggingFacade.Plugin.Build

/-!
# Declared components

Building the components that a configuration declares and giving the appenders
among them to the contexts of a backend.
-/

namespace LoggingFacade

structure ComponentFailure where
  declaration : String
  error : Error
  deriving DecidableEq, Repr

/-- What building a list of declarations came to. -/
structure ComponentReport where
  appenders : AppenderMap
  layouts : Nat
  failures : List ComponentFailure

namespace ComponentReport

def isClean (r : ComponentReport) : Bool := r.failures.isEmpty

/-- The contributions of results, in order: appenders, the number of layouts,
failures. A layout at the top is reported, since nothing uses it. -/
def sort {σ : Type} :
    List (Declaration × Except Error Component) →
      Traced σ (List Appender × Nat × List ComponentFailure)
  | [] => return ([], 0, [])
  | (d, .error e) :: rest => do
    let (appenders, layouts, failures) ← sort rest
    return (appenders, layouts, ⟨d.label, e⟩ :: failures)
  | (_, .ok (.appender a)) :: rest => do
    let (appenders, layouts, failures) ← sort rest
    return (a :: appenders, layouts, failures)
  | (_, .ok (.appenders m)) :: rest => do
    let (appenders, layouts, failures) ← sort rest
    return (m.appenders ++ appenders, layouts, failures)
  | (d, .ok (.layout _)) :: rest => do
    Traced.report (.layoutUnattached d.label)
    let (appenders, layouts, failures) ← sort rest
    return (appenders, layouts + 1, failures)

/-- Builds declarations; appenders are collected from the top level and from
sets, in order. -/
def build {σ : Type} (b : Binding σ) (ds : List Declaration) : Traced σ ComponentReport := do
  let results ← Build.buildAll b ds
  let (appenders, layouts, failures) ← sort (ds.zip results)
  return ⟨← AppenderMap.collect appenders, layouts, failures⟩

end ComponentReport

namespace Backend

/-- Configures contexts and counts those that take appenders. -/
def configureAll (map : AppenderMap) : List Context → Traced World Nat
  | [] => return 0
  | c :: rest => do
    let accepted ← c.configure map
    let others ← configureAll map rest
    return if accepted then others + 1 else others

/-- Gives appenders to the global context and to that of the default realm. The
result is the number of contexts that took them. -/
def install (b : Backend) (map : AppenderMap) : Traced World Nat := do
  let global ← b.context facadeCaller none true
  let standard ← b.context facadeCaller (some Realm.default) false
  let accepted ← configureAll map [global, standard]
  if accepted = 0 ∧ map.isEmpty = false then Traced.report (.appendersUnused b.implementation)
  else Traced.report (.appendersInstalled accepted map.size)
  return accepted

end Backend
end LoggingFacade
