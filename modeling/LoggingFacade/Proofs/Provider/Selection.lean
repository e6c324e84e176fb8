import LoggingFacade.Bootstrap
import LoggingFacade.Proofs.Provider.Steady

/-!
# Which backend is selected

Selection tries the configured class, then the discovered backends, then the
fallback, and so always ends with a backend. To list the backends first and to
select among them comes to the same as to select at once, as long as locator and
catalog keep to their answers.
-/

namespace LoggingFacade

/-- The same selection with a part of its backend. -/
def Selected.map {β γ : Type} (view : β → γ) (s : Selected β) : Selected γ :=
  ⟨view s.backend, s.rule⟩

namespace Selector

variable {σ β γ : Type} (s : Selector σ β)

/-- The backend of the configured class, if there is one and it can be made. -/
def configured? (w : σ) : Option β :=
  s.overrideClass.bind fun className => s.registry.catalog.made? w className overrideSource

/-- The state once the configured class was tried. -/
def afterOverride (w : σ) : σ := (s.selectOverride.run w).state

theorem value_selectOverride (w : σ) :
    (s.selectOverride.run w).value = (s.configured? w).map fun b => ⟨b, .override⟩ := by
  rw [selectOverride, configured?]
  cases s.overrideClass with
  | none => rfl
  | some className =>
    have hmade := s.registry.value_instantiate className overrideSource w
    simp only [Traced.value_bind, Option.bind_some]
    cases hvalue : ((s.registry.instantiate className overrideSource).run w).value with
    | ok b =>
      rw [(hmade b).1 hvalue]
      rfl
    | error e =>
      have hnone : s.registry.catalog.made? w className overrideSource = none := by
        rw [Option.eq_none_iff_forall_ne_some]
        intro b hb
        rw [(hmade b).2 hb] at hvalue
        contradiction
      rw [hnone]
      rfl

/-- The rules behind the configured class. -/
theorem value_selectCandidate (candidates : List (Descriptor β)) (w : σ) :
    ((s.selectCandidate candidates).run w).value =
      match candidates.getLast? with
      | some d => ⟨d.backend, .discovered⟩
      | none => ⟨((s.fallback s.fallbackLevel).run w).value, .fallback⟩ := by
  rw [selectCandidate, selectDiscovered]
  cases candidates.getLast? with
  | none => rfl
  | some d =>
    simp only
    split <;> rfl

theorem value_select (w : σ) : (s.select.run w).value =
    match s.configured? w with
    | some b => ⟨b, .override⟩
    | none =>
      let listed := s.registry.discover.run (s.afterOverride w)
      ((s.selectCandidate listed.value).run listed.state).value := by
  rw [select, Traced.value_bind, value_selectOverride]
  cases s.configured? w <;> rfl

theorem value_selectFrom (candidates : List (Descriptor β)) (w : σ) :
    ((s.selectFrom candidates).run w).value =
      match s.configured? w with
      | some b => ⟨b, .override⟩
      | none => ((s.selectCandidate candidates).run (s.afterOverride w)).value := by
  rw [selectFrom, Traced.value_bind, value_selectOverride]
  cases s.configured? w <;> rfl

/-- A configured backend is all that selection asks for. -/
theorem run_select_of_configured {className : String} {b : β} {w : σ}
    (hclass : s.overrideClass = some className)
    (hmade : s.registry.catalog.made? w className overrideSource = some b) :
    let asked := (s.registry.catalog.instantiate className overrideSource).run w
    s.select.run w =
      ⟨⟨b, .override⟩, asked.state, asked.diagnostics ++ [.overrideUsed className]⟩ := by
  intro asked
  have hvalue := (s.registry.value_instantiate className overrideSource w b).2 hmade
  have hstate : ((s.registry.instantiate className overrideSource).run w).state = asked.state := rfl
  have hdiagnostics : ((s.registry.instantiate className overrideSource).run w).diagnostics =
      asked.diagnostics := List.append_nil _
  have hoverride : s.selectOverride.run w = ⟨some ⟨b, .override⟩, asked.state,
      asked.diagnostics ++ [.overrideUsed className]⟩ := by
    rw [selectOverride, hclass]
    simp only
    rw [Traced.run_bind, hvalue, hstate, hdiagnostics]
    rfl
  rw [select, Traced.run_bind, hoverride]
  simp [Traced.run_pure]

theorem value_select_cases (w : σ) :
    (∃ b, s.configured? w = some b ∧ (s.select.run w).value = ⟨b, .override⟩) ∨
    (s.configured? w = none ∧ ∃ d, s.registry.Wins (s.afterOverride w) d ∧
      (s.select.run w).value = ⟨d.backend, .discovered⟩) ∨
    (s.configured? w = none ∧ (∀ i d, ¬s.registry.Finds (s.afterOverride w) i d) ∧
      ∃ v, (s.select.run w).value = ⟨((s.fallback s.fallbackLevel).run v).value, .fallback⟩) := by
  rw [value_select]
  cases s.configured? w with
  | some b => exact .inl ⟨b, rfl, rfl⟩
  | none =>
    apply Or.inr
    simp only [value_selectCandidate, true_and]
    cases hlast : (s.registry.discover.run (s.afterOverride w)).value.getLast? with
    | some d => exact .inl ⟨d, s.registry.wins_of_getLast? hlast, rfl⟩
    | none =>
      rw [List.getLast?_eq_none_iff, Registry.discover_eq_nil] at hlast
      exact .inr ⟨hlast, _, rfl⟩

/-! ## Selecting among listed backends -/

variable {s} {view : β → γ} {answer : String → String → Option γ}

theorem view_configured? (h : s.registry.catalog.Steady view answer) (w : σ) :
    (s.configured? w).map view =
      s.overrideClass.bind fun className => answer className overrideSource := by
  rw [configured?]
  cases s.overrideClass with
  | none => rfl
  | some className => exact h w className overrideSource

theorem view_selectCandidate {candidates others : List (Descriptor β)}
    (hsame : candidates.map (Descriptor.map view) = others.map (Descriptor.map view))
    (hfallback : ∀ w w', view ((s.fallback s.fallbackLevel).run w).value =
      view ((s.fallback s.fallbackLevel).run w').value) (w w' : σ) :
    ((s.selectCandidate candidates).run w).value.map view =
      ((s.selectCandidate others).run w').value.map view := by
  have hlast := congrArg List.getLast? hsame
  rw [List.getLast?_map, List.getLast?_map] at hlast
  rw [value_selectCandidate, value_selectCandidate]
  cases hd : candidates.getLast? with
  | none =>
    rw [hd, Option.map_none, eq_comm, Option.map_eq_none_iff] at hlast
    rw [hlast]
    simp [Selected.map, hfallback w w']
  | some d =>
    rw [hd, Option.map_some, eq_comm, Option.map_eq_some_iff] at hlast
    obtain ⟨d', hd', hview⟩ := hlast
    have hbackend : view d'.backend = view d.backend := congrArg Descriptor.backend hview
    rw [hd']
    simp [Selected.map, hbackend]

/-- A list that was made before is as good as one made now. -/
theorem view_selectFrom (hcatalog : s.registry.catalog.Steady view answer)
    {found : Except Error (List Source)} (hlocator : s.registry.locator.Steady found)
    (hfallback : ∀ w w', view ((s.fallback s.fallbackLevel).run w).value =
      view ((s.fallback s.fallbackLevel).run w').value) (w w₁ w₂ : σ) :
    ((s.selectFrom (s.registry.discover.run w₁).value).run w₂).value.map view =
      (s.select.run w).value.map view := by
  have hview := (view_configured? hcatalog w₂).trans (view_configured? hcatalog w).symm
  rw [value_selectFrom, value_select]
  cases hb : s.configured? w with
  | some b =>
    rw [hb, Option.map_some, Option.map_eq_some_iff] at hview
    obtain ⟨b', hb', hview⟩ := hview
    rw [hb']
    simp [Selected.map, hview]
  | none =>
    rw [hb, Option.map_none, Option.map_eq_none_iff] at hview
    rw [hview]
    exact view_selectCandidate (hcatalog.view_discover_of_steady hlocator _ _) hfallback _ _

end Selector

/-! ## Falling back to the simple backend -/

namespace Selector

variable {σ : Type}

/-- A selector over a state that the world is a part of, with the simple backend
to fall back to. -/
def withSimple (read : σ → World) (write : World → σ → σ) (overrideClass : Option String)
    (registry : Registry σ Backend) (level : Level) : Selector σ Backend where
  overrideClass := overrideClass
  registry := registry
  fallbackLevel := level
  fallback := fun level => .onPart read write (Backend.simple level)

/-- The selector of the process is one. -/
theorem selector_eq_withSimple (r : Registrations) (h : Host) (c : ManagerConfig) :
    Bootstrap.selector r h c = withSimple id (fun w _ => w) c.overrideClass
      (Bootstrap.selector r h c).registry c.fallbackLevel := rfl

end Selector
end LoggingFacade
