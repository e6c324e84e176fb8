import LoggingFacade.Diagnostic

/-!
# Computations that report

A computation over a state that may report diagnostics on its way. Its three
results, the value, the state after it and the diagnostics in the order they
were reported, compose by the three `bind` lemmas.
-/

namespace LoggingFacade

structure Outcome (σ α : Type) where
  value : α
  state : σ
  diagnostics : List Diagnostic

def Traced (σ α : Type) : Type := σ → Outcome σ α

namespace Traced

variable {σ α β : Type}

/-- Runs from a state. -/
def run (m : Traced σ α) (s : σ) : Outcome σ α := m s

@[ext] theorem ext {m n : Traced σ α} (h : ∀ s, m.run s = n.run s) : m = n := funext h

instance : Monad (Traced σ) where
  pure a := fun s => ⟨a, s, []⟩
  bind m f := fun s =>
    let first := m s
    let second := f first.value first.state
    ⟨second.value, second.state, first.diagnostics ++ second.diagnostics⟩

theorem run_pure (a : α) (s : σ) : (pure a : Traced σ α).run s = ⟨a, s, []⟩ := rfl

@[simp] theorem value_pure (a : α) (s : σ) : ((pure a : Traced σ α).run s).value = a := rfl

@[simp] theorem state_pure (a : α) (s : σ) : ((pure a : Traced σ α).run s).state = s := rfl

@[simp] theorem diagnostics_pure (a : α) (s : σ) :
    ((pure a : Traced σ α).run s).diagnostics = [] := rfl

@[simp] theorem value_bind (m : Traced σ α) (f : α → Traced σ β) (s : σ) :
    ((m >>= f).run s).value = ((f (m.run s).value).run (m.run s).state).value := rfl

@[simp] theorem state_bind (m : Traced σ α) (f : α → Traced σ β) (s : σ) :
    ((m >>= f).run s).state = ((f (m.run s).value).run (m.run s).state).state := rfl

@[simp] theorem diagnostics_bind (m : Traced σ α) (f : α → Traced σ β) (s : σ) :
    ((m >>= f).run s).diagnostics =
      (m.run s).diagnostics ++ ((f (m.run s).value).run (m.run s).state).diagnostics := rfl

theorem run_bind (m : Traced σ α) (f : α → Traced σ β) (s : σ) :
    (m >>= f).run s =
      ⟨((f (m.run s).value).run (m.run s).state).value,
        ((f (m.run s).value).run (m.run s).state).state,
        (m.run s).diagnostics ++ ((f (m.run s).value).run (m.run s).state).diagnostics⟩ := rfl

/-- A first part without diagnostics leaves those of the second part. -/
theorem run_bind_of_quiet {m : Traced σ α} {s t : σ} {a : α} (h : m.run s = ⟨a, t, []⟩)
    (f : α → Traced σ β) : (m >>= f).run s = (f a).run t := by
  rw [run_bind, h]
  rfl

instance : LawfulMonad (Traced σ) := LawfulMonad.mk' (Traced σ)
  (fun m => by
    ext s
    change Outcome.mk (m s).value (m s).state ((m s).diagnostics ++ []) = m s
    simp)
  (fun _ _ => by ext s; simp [bind, pure, run])
  (fun _ _ _ => by ext s; simp [bind, run])

instance : MonadStateOf σ (Traced σ) where
  get := fun s => ⟨s, s, []⟩
  set s := fun _ => ⟨(), s, []⟩
  modifyGet f := fun s => ⟨(f s).1, (f s).2, []⟩

/-- Reports a diagnostic. -/
def report (d : Diagnostic) : Traced σ Unit := fun s => ⟨(), s, [d]⟩

@[simp] theorem state_report (d : Diagnostic) (s : σ) : ((report d).run s).state = s := rfl

@[simp] theorem diagnostics_report (d : Diagnostic) (s : σ) :
    ((report d).run s).diagnostics = [d] := rfl

@[simp] theorem run_get (s : σ) : (get : Traced σ σ).run s = ⟨s, s, []⟩ := rfl

@[simp] theorem run_set (s t : σ) : (set t : Traced σ PUnit).run s = ⟨(), t, []⟩ := rfl

@[simp] theorem run_modify (f : σ → σ) (s : σ) :
    (modify f : Traced σ PUnit).run s = ⟨(), f s, []⟩ := rfl

@[simp] theorem run_modifyGet (f : σ → α × σ) (s : σ) :
    (modifyGet f : Traced σ α).run s = ⟨(f s).1, (f s).2, []⟩ := rfl

/-- A computation on a part of a larger state. -/
def onPart {τ : Type} (read : τ → σ) (write : σ → τ → τ) (m : Traced σ α) : Traced τ α := fun t =>
  let result := m.run (read t)
  ⟨result.value, write result.state t, result.diagnostics⟩

/-- Collects the results of a computation on each item, in order. -/
def forEach (f : α → Traced σ β) : List α → Traced σ (List β)
  | [] => pure []
  | a :: rest => do
    let b ← f a
    let bs ← forEach f rest
    return b :: bs

end Traced
end LoggingFacade
