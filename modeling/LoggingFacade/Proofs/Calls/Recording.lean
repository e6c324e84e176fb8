import LoggingFacade.Traced

/-!
# Recorded calls

A computation that calls foreign code can be run over a log that the calls are
noted in. The log changes nothing else: `Records` says that a computation over a
log has the value, the state and the diagnostics of the one without it, and which
calls it notes. It is preserved by every way of composing computations.

`Keeps` says that a computation leaves a part of the state alone, and `Reports` what
all its diagnostics are like. Computations that only report make no calls; `Alike`
compares them over different states.
-/

namespace LoggingFacade
namespace Traced

variable {σ κ α β : Type}

/-- Notes a call and makes it. -/
def noted (call : κ) (m : Traced σ α) : Traced (σ × List κ) α := fun t =>
  let made := m.run t.1
  ⟨made.value, (made.state, t.2 ++ [call]), made.diagnostics⟩

/-- Runs beside a log in which nothing is noted. -/
def unnoted (m : Traced σ α) : Traced (σ × List κ) α := .onPart Prod.fst (fun w t => (w, t.2)) m

/-- Over a log, the first computation does what the second one does without it,
and notes the calls, which may depend on the state it starts from. -/
def Records (m : Traced (σ × List κ) α) (n : Traced σ α) (calls : σ → List κ) : Prop :=
  ∀ w log, m.run (w, log) =
    ⟨(n.run w).value, ((n.run w).state, log ++ calls w), (n.run w).diagnostics⟩

theorem records_noted (call : κ) (m : Traced σ α) :
    Records (m.noted call) m fun _ => [call] := fun _ _ => rfl

theorem records_unnoted (m : Traced σ α) :
    Records (κ := κ) m.unnoted m fun _ => [] := by
  intro w log
  rw [List.append_nil]
  rfl

theorem records_pure (a : α) :
    Records (pure a : Traced (σ × List κ) α) (pure a) fun _ => [] := by
  intro w log
  rw [List.append_nil]
  rfl

theorem records_report (d : Diagnostic) :
    Records (report d : Traced (σ × List κ) Unit) (report d) fun _ => [] := by
  intro w log
  rw [List.append_nil]
  rfl

/-- The calls of the second part are those it makes where the first part ends. -/
theorem Records.bind {m : Traced (σ × List κ) α} {n : Traced σ α} {calls : σ → List κ}
    (hm : Records m n calls) {f : α → Traced (σ × List κ) β} {g : α → Traced σ β}
    (more : α → σ → List κ) (hf : ∀ a, Records (f a) (g a) (more a)) :
    Records (m >>= f) (n >>= g) fun w =>
      calls w ++ more (n.run w).value (n.run w).state := by
  intro w log
  rw [run_bind, run_bind, hm w log]
  simp only [hf _ _ _, List.append_assoc]

/-- The calls may be described in another way, as long as they are the same. -/
theorem Records.congr {m : Traced (σ × List κ) α} {n : Traced σ α} {calls others : σ → List κ}
    (h : Records m n calls) (hsame : ∀ w, calls w = others w) : Records m n others := by
  intro w log
  rw [h w log, hsame]

/-- A first part that makes no call leaves those of the second part. -/
theorem Records.bind_silent {m : Traced (σ × List κ) α} {n : Traced σ α}
    (hm : Records m n fun _ => []) {f : α → Traced (σ × List κ) β} {g : α → Traced σ β}
    (more : α → σ → List κ) (hf : ∀ a, Records (f a) (g a) (more a)) :
    Records (m >>= f) (n >>= g) fun w => more (n.run w).value (n.run w).state :=
  (hm.bind more hf).congr fun _ => List.nil_append _

/-- A second part that makes no call leaves those of the first part. -/
theorem Records.bind_of_silent {m : Traced (σ × List κ) α} {n : Traced σ α} {calls : σ → List κ}
    (hm : Records m n calls) {f : α → Traced (σ × List κ) β} {g : α → Traced σ β}
    (hf : ∀ a, Records (f a) (g a) fun _ => []) : Records (m >>= f) (n >>= g) calls :=
  (hm.bind (fun _ _ => []) hf).congr fun _ => List.append_nil _

/-! ## What computations leave alone -/

section Keeps

variable {γ : Type} {part : σ → γ}

/-- A computation leaves a part of the state as it is. -/
def Keeps (part : σ → γ) (m : Traced σ α) : Prop := ∀ w, part (m.run w).state = part w

theorem keeps_pure (a : α) : Keeps part (pure a : Traced σ α) := fun _ => rfl

theorem Keeps.bind {m : Traced σ α} (hm : Keeps part m) {f : α → Traced σ β}
    (hf : ∀ a, Keeps part (f a)) : Keeps part (m >>= f) := by
  intro w
  rw [state_bind, hf, hm]

/-- Reading the state changes nothing, so only what is done in the state read matters. -/
theorem keeps_get_bind {f : σ → Traced σ β} (hf : ∀ w, part ((f w).run w).state = part w) :
    Keeps part (get >>= f) := by
  intro w
  rw [run_bind_of_quiet (run_get w)]
  exact hf w

theorem Keeps.forM {m : α → Traced σ Unit} {items : List α} (h : ∀ a ∈ items, Keeps part (m a)) :
    Keeps part (items.forM m) := by
  induction items with
  | nil => exact keeps_pure _
  | cons a rest ih =>
    have hrest := ih fun b hb => h b (List.mem_cons_of_mem a hb)
    exact (h a List.mem_cons_self).bind fun _ => hrest

end Keeps

/-! ## Computations that only report -/

variable {P : Diagnostic → Prop}

/-- All diagnostics of a computation have a property. -/
def Reports (P : Diagnostic → Prop) (m : Traced σ α) : Prop :=
  ∀ w, ∀ x ∈ (m.run w).diagnostics, P x

theorem reports_of_silent {m : Traced σ α} (h : ∀ w, (m.run w).diagnostics = []) :
    Reports P m := by
  intro w x hx
  rw [h w] at hx
  contradiction

theorem reports_pure (a : α) : Reports P (pure a : Traced σ α) := reports_of_silent fun _ => rfl

theorem reports_report {d : Diagnostic} (h : P d) : Reports P (report d : Traced σ Unit) := by
  intro w x hx
  rw [diagnostics_report, List.mem_singleton] at hx
  exact hx ▸ h

theorem Reports.mono {Q : Diagnostic → Prop} {m : Traced σ α} (h : Reports P m)
    (hmono : ∀ x, P x → Q x) : Reports Q m :=
  fun w x hx => hmono x (h w x hx)

/-- Only the results that the first part can come to matter. -/
theorem Reports.bind_value {m : Traced σ α} (hm : Reports P m) {f : α → Traced σ β}
    (hf : ∀ w, Reports P (f (m.run w).value)) : Reports P (m >>= f) := by
  intro w x hx
  rw [diagnostics_bind] at hx
  rcases List.mem_append.1 hx with hx | hx
  · exact hm w x hx
  · exact hf w _ x hx

theorem Reports.bind {m : Traced σ α} (hm : Reports P m) {f : α → Traced σ β}
    (hf : ∀ a, Reports P (f a)) : Reports P (m >>= f) :=
  hm.bind_value fun _ => hf _

theorem reports_silent_bind {m : Traced σ α} {f : α → Traced σ β}
    (h : ∀ w, (m.run w).diagnostics = []) (hf : ∀ a, Reports P (f a)) : Reports P (m >>= f) :=
  (reports_of_silent h).bind hf

theorem reports_report_bind {d : Diagnostic} {f : Unit → Traced σ β} (h : P d)
    (hf : Reports P (f ())) : Reports P (report d >>= f) :=
  (reports_report h).bind fun _ => hf

theorem reports_get_bind {f : σ → Traced σ β} (hf : ∀ w, Reports P (f w)) :
    Reports P (get >>= f) := by
  intro w x hx
  rw [run_bind_of_quiet (run_get w)] at hx
  exact hf w w x hx

theorem Reports.forM {m : α → Traced σ Unit} {items : List α} (h : ∀ a ∈ items, Reports P (m a)) :
    Reports P (items.forM m) := by
  induction items with
  | nil => exact reports_pure _
  | cons a rest ih =>
    have hrest := ih fun b hb => h b (List.mem_cons_of_mem a hb)
    exact (h a List.mem_cons_self).bind fun _ => hrest

/-- Both computations leave their states as they are, and come to the same value
with the same diagnostics, which have the property. -/
def Alike {τ : Type} (P : Diagnostic → Prop) (m : Traced σ α) (n : Traced τ α) : Prop :=
  ∀ w v, m.run w = ⟨(n.run v).value, w, (n.run v).diagnostics⟩ ∧ (n.run v).state = v ∧
    ∀ x ∈ (n.run v).diagnostics, P x

section Alike

variable {τ : Type}

theorem alike_pure (a : α) : Alike P (pure a : Traced σ α) (pure a : Traced τ α) :=
  fun _ v => ⟨rfl, rfl, reports_pure a v⟩

theorem alike_report {d : Diagnostic} (h : P d) :
    Alike P (report d : Traced σ Unit) (report d : Traced τ Unit) :=
  fun _ v => ⟨rfl, rfl, reports_report h v⟩

theorem Alike.bind {m : Traced σ α} {n : Traced τ α} (hm : Alike P m n) {f : α → Traced σ β}
    {g : α → Traced τ β} (hf : ∀ a, Alike P (f a) (g a)) : Alike P (m >>= f) (n >>= g) := by
  intro w v
  obtain ⟨hrun, hstate, hfirst⟩ := hm w v
  obtain ⟨hrest, hend, hsecond⟩ := hf (n.run v).value w v
  refine ⟨?_, ?_, ?_⟩
  · rw [run_bind, run_bind, hrun]
    simp only [hrest, hstate]
  · rw [state_bind, hstate, hend]
  · intro x hx
    rw [diagnostics_bind, hstate] at hx
    rcases List.mem_append.1 hx with hx | hx
    · exact hfirst x hx
    · exact hsecond x hx

theorem Alike.value {m : Traced σ α} {n : Traced τ α} (h : Alike P m n) (w : σ) (v : τ) :
    (m.run w).value = (n.run v).value := by
  rw [(h w v).1]

theorem Alike.state {m : Traced σ α} {n : Traced τ α} (h : Alike P m n) (w : σ) (v : τ) :
    (m.run w).state = w := by
  rw [(h w v).1]

theorem Alike.reports {m n : Traced σ α} (h : Alike P m n) : Reports P n :=
  fun w => (h w w).2.2

theorem Alike.records {m : Traced (σ × List κ) α} {n : Traced σ α} (h : Alike P m n) :
    Records m n fun _ => [] := by
  intro w log
  obtain ⟨hrun, hstate, -⟩ := h (w, log) w
  rw [hrun, hstate, List.append_nil]

end Alike

end Traced
end LoggingFacade
