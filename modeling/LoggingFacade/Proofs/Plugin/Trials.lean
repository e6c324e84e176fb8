import LoggingFacade.Proofs.Plugin.Pruning

/-!
# What became of each declaration

Building a declaration tries the nested ones first, each in the state that the one before
it left. `trials` says what became of every declaration that is tried, at any depth, in
the order in which they are done; `results` says it for a list of declarations without
what is nested in them. Both are functions of the state to start from, whatever factories
do with it.
-/

namespace LoggingFacade
namespace Build

variable {σ : Type}

/-- A declaration and what it was built into. -/
abbrev Trial : Type := Declaration × Except Error Component

/-- What becomes of declarations that are built one by one. -/
def results (b : Binding σ) : List Declaration → σ → List Trial
  | [], _ => []
  | d :: rest, w => (d, ((build b d).run w).value) :: results b rest ((build b d).run w).state

mutual

/-- What becomes of a declaration, after all that is nested in it. Without a plugin
nothing nested is tried. -/
def trials (b : Binding σ) : Declaration → σ → List Trial
  | ⟨typeName, attributes, children⟩, w =>
    (if (b.lookup typeName).isSome then trialsAll b children w else []) ++
      [(⟨typeName, attributes, children⟩,
        ((build b ⟨typeName, attributes, children⟩).run w).value)]

def trialsAll (b : Binding σ) : List Declaration → σ → List Trial
  | [], _ => []
  | d :: rest, w => trials b d w ++ trialsAll b rest ((build b d).run w).state

end

variable {b : Binding σ} {d : Declaration} {p : Plugin σ}

/-! ## One declaration -/

theorem trials_of_none (h : b.lookup d.typeName = none) (w : σ) :
    trials b d w = [(d, ((build b d).run w).value)] := by
  obtain ⟨typeName, attributes, children⟩ := d
  rw [trials]
  dsimp only at h
  rw [h]
  rfl

theorem trials_of_some (h : b.lookup d.typeName = some p) (w : σ) :
    trials b d w = trialsAll b d.children w ++ [(d, ((build b d).run w).value)] := by
  obtain ⟨typeName, attributes, children⟩ := d
  rw [trials]
  dsimp only at h
  rw [h]
  rfl

theorem run_build_of_none (h : b.lookup d.typeName = none) (w : σ) :
    (build b d).run w = ⟨.error (.unknownComponent d.typeName), w, []⟩ := by
  obtain ⟨typeName, attributes, children⟩ := d
  rw [build]
  dsimp only at h
  simp only [h]
  rfl

/-- The state that a declaration's own factory is called in. -/
def stateBelow (b : Binding σ) (d : Declaration) (w : σ) : σ :=
  ((buildChildren b d.label d.children).run w).state

theorem state_invoke (p : Plugin σ) (d : Declaration) (a : Arguments) (w : σ) :
    ((invoke p d a).run w).state = ((p.factory a).run w).state := by
  rw [invoke, Traced.state_bind]
  cases judge p ((p.factory a).run w).value <;> rfl

theorem state_assemble (p : Plugin σ) (d : Declaration) (components : List Component) (w : σ) :
    ((assemble p d components).run w).state = w :=
  (alike_assemble p p rfl rfl rfl components).state w w

/-- The nested declarations come first, and then the factory, if its arguments can be
made. -/
theorem build_of_some (h : b.lookup d.typeName = some p) (w : σ) :
    let v := stateBelow b d w
    ((build b d).run w).value = (match assembled p d (nested b d w) with
      | .error e => .error e
      | .ok a => judge p ((p.factory a).run v).value) ∧
    ((build b d).run w).state = match assembled p d (nested b d w) with
      | .error _ => v
      | .ok a => ((p.factory a).run v).state := by
  obtain ⟨typeName, attributes, children⟩ := d
  dsimp only at h
  have hunknown := (alike_reportUnknown p p rfl rfl
    (d := ⟨typeName, attributes, children⟩) rfl).state w w
  rw [build]
  simp only [h, Traced.value_bind, Traced.state_bind, hunknown, value_assemble, state_assemble]
  rw [nested, stateBelow]
  cases assembled p ⟨typeName, attributes, children⟩
      ((buildChildren b (Declaration.label ⟨typeName, attributes, children⟩)
        children).run w).value with
  | error e => exact ⟨rfl, rfl⟩
  | ok a => exact ⟨value_invoke p _ a _, state_invoke p _ a _⟩

/-- What was built has a plugin. -/
theorem exists_plugin {w : σ} {c : Component} (h : ((build b d).run w).value = .ok c) :
    ∃ p, b.lookup d.typeName = some p := by
  cases hp : b.lookup d.typeName with
  | some p => exact ⟨p, rfl⟩
  | none =>
    rw [run_build_of_none hp] at h
    contradiction

/-! ## Lists of declarations -/

/-- The state after building declarations one by one. -/
def stateAfter (b : Binding σ) (ds : List Declaration) (w : σ) : σ :=
  ds.foldl (fun v d => ((build b d).run v).state) w

theorem state_buildChildren (b : Binding σ) (parent : String) (ds : List Declaration) (w : σ) :
    ((buildChildren b parent ds).run w).state = stateAfter b ds w := by
  induction ds generalizing w with
  | nil =>
    rw [buildChildren]
    rfl
  | cons d rest ih => rw [state_buildChildren_cons, ih, stateAfter, stateAfter, List.foldl_cons]

/-- Nested declarations that fail leave a gap. -/
theorem value_buildChildren (b : Binding σ) (parent : String) (ds : List Declaration) (w : σ) :
    ((buildChildren b parent ds).run w).value =
      (results b ds w).filterMap fun t => t.2.toOption := by
  induction ds generalizing w with
  | nil =>
    rw [buildChildren, results]
    rfl
  | cons d rest ih =>
    rw [value_buildChildren_cons, results, ih]
    cases hvalue : ((build b d).run w).value with
    | ok c => rfl
    | error e => rfl

theorem state_buildReported (b : Binding σ) (d : Declaration) (w : σ) :
    ((buildReported b d).run w).state = ((build b d).run w).state := by
  rw [buildReported, Traced.state_bind]
  split <;> rfl

/-- A batch has the results of its declarations in order. -/
theorem run_buildAll (b : Binding σ) (ds : List Declaration) (w : σ) :
    ((buildAll b ds).run w).value = (results b ds w).map Prod.snd ∧
      ((buildAll b ds).run w).state = stateAfter b ds w := by
  unfold buildAll
  induction ds generalizing w with
  | nil => exact ⟨rfl, rfl⟩
  | cons d rest ih =>
    obtain ⟨hvalue, hstate⟩ := ih ((build b d).run w).state
    rw [Traced.forEach, Traced.value_bind, Traced.value_bind, Traced.value_pure, Traced.state_bind,
      Traced.state_bind, Traced.state_pure, value_buildReported, state_buildReported, hvalue,
      hstate]
    exact ⟨rfl, rfl⟩

section Related

variable {R : σ → σ → Prop}

mutual

/-- What the factories of a binding do to the state, building does. -/
theorem related_build (hrefl : ∀ w, R w w) (htrans : ∀ u v w, R u v → R v w → R u w)
    (hb : ∀ typeName p, b.lookup typeName = some p → ∀ a w, R w ((p.factory a).run w).state)
    (d : Declaration) (w : σ) : R w ((build b d).run w).state := by
  obtain ⟨typeName, attributes, children⟩ := d
  cases hp : b.lookup typeName with
  | none =>
    rw [run_build_of_none (d := ⟨typeName, attributes, children⟩) hp]
    exact hrefl w
  | some p =>
    have hnested := related_after hrefl htrans hb children w
    rw [(build_of_some (d := ⟨typeName, attributes, children⟩) hp w).2, stateBelow,
      state_buildChildren]
    split
    · exact hnested
    · exact htrans _ _ _ hnested (hb typeName p hp _ _)

theorem related_after (hrefl : ∀ w, R w w) (htrans : ∀ u v w, R u v → R v w → R u w)
    (hb : ∀ typeName p, b.lookup typeName = some p → ∀ a w, R w ((p.factory a).run w).state)
    (ds : List Declaration) (w : σ) : R w (stateAfter b ds w) := by
  cases ds with
  | nil => exact hrefl w
  | cons d rest =>
    exact htrans _ _ _ (related_build hrefl htrans hb d w) (related_after hrefl htrans hb rest _)

end

end Related

theorem map_fst_results (b : Binding σ) (ds : List Declaration) (w : σ) :
    (results b ds w).map Prod.fst = ds := by
  induction ds generalizing w with
  | nil => rfl
  | cons d rest ih => rw [results, List.map_cons, ih]

theorem sublist_trials (b : Binding σ) (d : Declaration) (w : σ) :
    [(d, ((build b d).run w).value)].Sublist (trials b d w) := by
  cases hp : b.lookup d.typeName with
  | none => rw [trials_of_none hp]
  | some p =>
    rw [trials_of_some hp]
    exact List.sublist_append_right _ _

/-- What becomes of declarations is part of what becomes of all that is tried. -/
theorem results_sublist_trialsAll (b : Binding σ) (ds : List Declaration) (w : σ) :
    (results b ds w).Sublist (trialsAll b ds w) := by
  induction ds generalizing w with
  | nil => exact List.nil_sublist _
  | cons d rest ih =>
    rw [results, trialsAll]
    exact (sublist_trials b d w).append (ih _)

end Build
end LoggingFacade
