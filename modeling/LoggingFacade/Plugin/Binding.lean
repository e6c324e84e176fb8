import LoggingFacade.Plugin

/-!
# Bindings

The plugins by name, in any case of its letters. Of several plugins of one name
the last one is kept, and each replacement is reported.
-/

namespace LoggingFacade

structure Binding (σ : Type) where
  plugins : TextMap (Plugin σ)

namespace Binding

variable {σ τ : Type}

def empty : Binding σ := ⟨.empty⟩

def add (b : Binding σ) (p : Plugin σ) : Binding σ :=
  ⟨b.plugins.insert (Text.lower p.name) p⟩

def lookup (b : Binding σ) (typeName : String) : Option (Plugin σ) :=
  b.plugins.get? (Text.lower typeName)

/-- The number of plugins. -/
def size (b : Binding σ) : Nat := b.plugins.entries.length

def isEmpty (b : Binding σ) : Bool := b.plugins.isEmpty

/-- Binds plugins in order. -/
def ofList (plugins : List (Plugin σ)) : Traced τ (Binding σ) := go empty plugins
where
  go (b : Binding σ) : List (Plugin σ) → Traced τ (Binding σ)
    | [] => pure b
    | p :: rest => do
      if (b.lookup p.name).isSome then Traced.report (.pluginReplaced p.name)
      go (b.add p) rest

end Binding
end LoggingFacade
