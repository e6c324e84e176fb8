import LoggingFacade.Proofs.Plugin.Invocations

/-!
# Failures of nested declarations

A nested declaration that cannot be built is as good as left out. Where factories
are functions of their arguments, to remove all such declarations, at every depth,
changes neither what a declaration is built into nor what its factory is called
with; and then no nested failure is left to report. The declarations of a batch
have no influence on each other at all.
-/

namespace LoggingFacade

open Traced (Reports)

variable {σ : Type}

/-- What a factory answers is a function of its arguments. -/
def Binding.Functional (b : Binding σ) : Prop :=
  ∀ typeName p, b.lookup typeName = some p → ∃ f : Arguments → Attempt Component,
    ∀ a w, ((p.factory a).run w).value = f a

/-- Factories leave it to the builder to report nested failures. -/
def Binding.Discreet (b : Binding σ) : Prop :=
  ∀ typeName p, b.lookup typeName = some p → ∀ a, Reports (¬·.IsNestedFailure) (p.factory a)

/-- Factories that do nothing but answer are of both kinds. -/
theorem Binding.functional_and_discreet {b : Binding σ}
    (h : ∀ typeName p, b.lookup typeName = some p →
      ∃ f : Arguments → Attempt Component, ∀ a, p.factory a = pure (f a)) :
    b.Functional ∧ b.Discreet := by
  constructor
  · intro typeName p hp
    obtain ⟨f, hf⟩ := h typeName p hp
    refine ⟨f, fun a w => ?_⟩
    rw [hf, Traced.value_pure]
  · intro typeName p hp a
    obtain ⟨f, hf⟩ := h typeName p hp
    rw [hf]
    exact Traced.reports_pure _

namespace Build

mutual

/-- The declaration without the nested ones that cannot be built by themselves, at
every depth. They are tried in the given state. -/
def prune (b : Binding σ) (w : σ) : Declaration → Declaration
  | ⟨typeName, attributes, children⟩ => ⟨typeName, attributes, pruneAll b w children⟩

def pruneAll (b : Binding σ) (w : σ) : List Declaration → List Declaration
  | [] => []
  | child :: rest =>
    match ((build b child).run w).value with
    | .ok _ => prune b w child :: pruneAll b w rest
    | .error _ => pruneAll b w rest

end

/-! ## What a declaration is built into -/

theorem assembled_congr (p : Plugin σ) {d e : Declaration}
    (hattributes : d.attributes = e.attributes) (components : List Component) :
    assembled p d components = assembled p e components := by
  rw [assembled, assembled]
  have hvalue := (alike_assembleFrom (σ := Unit) (τ := Unit) hattributes p.parameters
    (.empty p.name) components).value () ()
  rw [hvalue]

theorem value_invoke (p : Plugin σ) (d : Declaration) (a : Arguments) (w : σ) :
    ((invoke p d a).run w).value = judge p ((p.factory a).run w).value := by
  rw [invoke, Traced.value_bind]
  cases judge p ((p.factory a).run w).value <;> rfl

theorem value_build_of_none {b : Binding σ} {d : Declaration} (h : b.lookup d.typeName = none)
    (w : σ) : ((build b d).run w).value = .error (.unknownComponent d.typeName) := by
  obtain ⟨typeName, attributes, children⟩ := d
  rw [build]
  simp only [h]
  rfl

/-- With a factory that is a function, the arguments alone decide. -/
theorem value_build_of_some {b : Binding σ} {d : Declaration} {p : Plugin σ}
    (h : b.lookup d.typeName = some p) {f : Arguments → Attempt Component}
    (hf : ∀ a w, ((p.factory a).run w).value = f a) (w : σ) : ((build b d).run w).value =
      match assembled p d (nested b d w) with
      | .error e => .error e
      | .ok a => judge p (f a) := by
  obtain ⟨typeName, attributes, children⟩ := d
  have hstate := (alike_reportUnknown p p rfl rfl
    (d := ⟨typeName, attributes, children⟩) rfl).state w w
  rw [build]
  simp only [h, Traced.value_bind, hstate, value_assemble]
  cases hmade : assembled p ⟨typeName, attributes, children⟩
      ((buildChildren b (Declaration.label ⟨typeName, attributes, children⟩)
        children).run w).value with
  | error e =>
    rw [nested, hmade]
    rfl
  | ok a =>
    rw [nested, hmade]
    dsimp only
    rw [value_invoke, hf]

theorem value_buildChildren_cons (b : Binding σ) (parent : String) (child : Declaration)
    (rest : List Declaration) (w : σ) : ((buildChildren b parent (child :: rest)).run w).value =
      match ((build b child).run w).value with
      | .ok c => c :: ((buildChildren b parent rest).run ((build b child).run w).state).value
      | .error _ => ((buildChildren b parent rest).run ((build b child).run w).state).value := by
  rw [buildChildren, Traced.value_bind]
  cases ((build b child).run w).value <;> rfl

theorem attributes_prune (b : Binding σ) (w : σ) (d : Declaration) :
    (prune b w d).attributes = d.attributes := by
  obtain ⟨typeName, attributes, children⟩ := d
  rw [prune]

theorem typeName_prune (b : Binding σ) (w : σ) (d : Declaration) :
    (prune b w d).typeName = d.typeName := by
  obtain ⟨typeName, attributes, children⟩ := d
  rw [prune]

theorem children_prune (b : Binding σ) (w : σ) (d : Declaration) :
    (prune b w d).children = pruneAll b w d.children := by
  obtain ⟨typeName, attributes, children⟩ := d
  rw [prune]

mutual

/-- Without the nested declarations that cannot be built, and in whatever states,
the declaration is built into the same. -/
theorem value_build_prune {b : Binding σ} (h : b.Functional) (w₀ : σ) (d : Declaration)
    (w v : σ) : ((build b (prune b w₀ d)).run v).value = ((build b d).run w).value := by
  obtain ⟨typeName, attributes, children⟩ := d
  have htype := typeName_prune b w₀ ⟨typeName, attributes, children⟩
  cases hp : b.lookup typeName with
  | none =>
    rw [value_build_of_none (d := ⟨typeName, attributes, children⟩) hp,
      value_build_of_none (by rw [htype, hp]), htype]
  | some p =>
    obtain ⟨f, hf⟩ := h typeName p hp
    rw [value_build_of_some (d := ⟨typeName, attributes, children⟩) hp hf,
      value_build_of_some (by rw [htype, hp]) hf]
    have hnested : nested b (prune b w₀ ⟨typeName, attributes, children⟩) v =
        nested b ⟨typeName, attributes, children⟩ w := by
      rw [nested, nested, children_prune]
      exact value_buildChildren_pruneAll h w₀ children _ _ w v
    rw [hnested, assembled_congr p (attributes_prune b w₀ ⟨typeName, attributes, children⟩)]

theorem value_buildChildren_pruneAll {b : Binding σ} (h : b.Functional) (w₀ : σ)
    (ds : List Declaration) (parent other : String) (w v : σ) :
    ((buildChildren b other (pruneAll b w₀ ds)).run v).value =
      ((buildChildren b parent ds).run w).value := by
  cases ds with
  | nil =>
    rw [pruneAll, buildChildren, buildChildren]
    rfl
  | cons child rest =>
    have hchild := value_build_prune h w₀ child
    -- the state that the child is tried in is not the one it is built in
    have htried : ((build b child).run w₀).value = ((build b child).run w).value :=
      (hchild w₀ v).symm.trans (hchild w v)
    rw [value_buildChildren_cons, pruneAll, htried]
    cases hvalue : ((build b child).run w).value with
    | ok c =>
      dsimp only
      rw [value_buildChildren_cons, hchild w v, hvalue]
      dsimp only
      rw [value_buildChildren_pruneAll h w₀ rest parent other]
    | error e =>
      exact value_buildChildren_pruneAll h w₀ rest parent other _ v

end

/-- The state a declaration is built in does not matter. -/
theorem value_build_steady {b : Binding σ} (h : b.Functional) (d : Declaration) (w v : σ) :
    ((build b d).run v).value = ((build b d).run w).value :=
  (value_build_prune h w d v v).symm.trans (value_build_prune h w d w v)

/-! ## What its factory is called with -/

/-- The calls of factories for the nested declarations of a declaration. -/
def invokedBelow (b : Binding σ) (d : Declaration) (w : σ) : List (FactoryCall σ) :=
  match b.lookup d.typeName with
  | none => []
  | some _ => ((buildChildren b.recording d.label d.children).run (w, [])).state.2

/-- The call of the declaration's own plugin comes last. -/
theorem invoked_of_some {b : Binding σ} {d : Declaration} {p : Plugin σ}
    (h : b.lookup d.typeName = some p) (w : σ) :
    invoked b d w = invokedBelow b d w ++ ownInvocation p d (nested b d w) := by
  obtain ⟨typeName, attributes, children⟩ := d
  dsimp only at h
  rw [invoked_eq, invocations, invokedBelow]
  simp only [h]
  rw [records_buildChildren b _ children w []]
  rfl

theorem invoked_of_none {b : Binding σ} {d : Declaration} (h : b.lookup d.typeName = none)
    (w : σ) : invoked b d w = [] ∧ invokedBelow b d w = [] := by
  obtain ⟨typeName, attributes, children⟩ := d
  dsimp only at h
  rw [invoked_eq, invocations, invokedBelow]
  simp only [h, and_self]

theorem length_ownInvocation_le (p : Plugin σ) (d : Declaration) (components : List Component) :
    (ownInvocation p d components).length ≤ 1 := by
  unfold ownInvocation
  split
  · exact Nat.le_refl 1
  · exact Nat.zero_le 1

theorem nested_prune {b : Binding σ} (h : b.Functional) (w₀ : σ) (d : Declaration) (w v : σ) :
    nested b (prune b w₀ d) v = nested b d w := by
  rw [nested, nested, children_prune]
  exact value_buildChildren_pruneAll h w₀ d.children _ _ w v

theorem ownInvocation_prune {b : Binding σ} (h : b.Functional) (p : Plugin σ) (w₀ : σ)
    (d : Declaration) (w v : σ) :
    ownInvocation p (prune b w₀ d) (nested b (prune b w₀ d) v) =
      ownInvocation p d (nested b d w) := by
  rw [ownInvocation, ownInvocation, nested_prune h w₀ d w v,
    assembled_congr p (attributes_prune b w₀ d)]

/-- One call at most is made for the declaration itself, the same one in every
state and with or without the nested declarations that cannot be built. -/
theorem exists_ownCall {b : Binding σ} (h : b.Functional) (w₀ : σ) (d : Declaration) :
    ∃ own : List (FactoryCall σ), own.length ≤ 1 ∧
      (∀ call ∈ own, b.lookup d.typeName = some call.1) ∧
      ∀ w, invoked b d w = invokedBelow b d w ++ own ∧
        invoked b (prune b w₀ d) w = invokedBelow b (prune b w₀ d) w ++ own := by
  have htype := typeName_prune b w₀ d
  cases hp : b.lookup d.typeName with
  | none =>
    refine ⟨[], Nat.zero_le 1, fun call hcall => by contradiction, ?_⟩
    intro w
    obtain ⟨hcalls, hbelow⟩ := invoked_of_none hp w
    obtain ⟨hcalls', hbelow'⟩ := invoked_of_none (d := prune b w₀ d) (by rw [htype, hp]) w
    rw [hcalls, hbelow, hcalls', hbelow']
    exact ⟨rfl, rfl⟩
  | some p =>
    refine ⟨ownInvocation p d (nested b d w₀), length_ownInvocation_le p d _, ?_, ?_⟩
    · intro call hcall
      rw [(mem_ownInvocation hcall).1]
    · intro w
      rw [invoked_of_some hp, invoked_of_some (d := prune b w₀ d) (by rw [htype, hp])]
      have hown := ownInvocation_prune h p w₀ d
      have hsame : ownInvocation p d (nested b d w) = ownInvocation p d (nested b d w₀) :=
        (hown w w).symm.trans (hown w₀ w)
      rw [hown w₀ w, hsame]
      exact ⟨rfl, rfl⟩

/-! ## What is reported -/

theorem reports_invoke {P : Diagnostic → Prop} {p : Plugin σ} {d : Declaration} {a : Arguments}
    (hbuilt : P (.componentBuilt d.label)) (h : Reports P (p.factory a)) :
    Reports P (invoke p d a) := by
  unfold invoke
  refine h.bind ?_
  intro attempt
  split
  · exact Traced.reports_pure _
  · exact (Traced.reports_report hbuilt).bind fun _ => Traced.reports_pure _

mutual

/-- No nested failure is left to report. -/
theorem reports_build_prune {b : Binding σ} (h : b.Functional) (hdiscreet : b.Discreet) (w₀ : σ)
    (d : Declaration) : Reports (¬·.IsNestedFailure) (build b (prune b w₀ d)) := by
  obtain ⟨typeName, attributes, children⟩ := d
  rw [prune, build]
  cases hp : b.lookup typeName with
  | none => exact Traced.reports_pure _
  | some p =>
    have hunknown := (alike_reportUnknown p p rfl rfl
      (d := ⟨typeName, attributes, pruneAll b w₀ children⟩) rfl).reports
    refine (hunknown.mono fun _ => Diagnostic.IsUnused.not_nestedFailure).bind fun _ => ?_
    refine (reports_buildChildren_pruneAll h hdiscreet w₀ _ children).bind fun components => ?_
    have hassemble := (alike_assemble p p rfl rfl
      (d := ⟨typeName, attributes, pruneAll b w₀ children⟩) rfl components).reports
    refine (hassemble.mono fun _ => Diagnostic.IsUnused.not_nestedFailure).bind fun result => ?_
    cases result with
    | error e => exact Traced.reports_pure _
    | ok a => exact reports_invoke nofun (hdiscreet typeName p hp a)

theorem reports_buildChildren_pruneAll {b : Binding σ} (h : b.Functional)
    (hdiscreet : b.Discreet) (w₀ : σ) (parent : String) (ds : List Declaration) :
    Reports (¬·.IsNestedFailure) (buildChildren b parent (pruneAll b w₀ ds)) := by
  cases ds with
  | nil =>
    rw [pruneAll, buildChildren]
    exact Traced.reports_pure _
  | cons child rest =>
    have hrest := reports_buildChildren_pruneAll h hdiscreet w₀ parent rest
    rw [pruneAll]
    cases hvalue : ((build b child).run w₀).value with
    | error e => exact hrest
    | ok c =>
      dsimp only
      rw [buildChildren]
      refine (reports_build_prune h hdiscreet w₀ child).bind_value ?_
      intro w
      -- what is kept can be built, so the branch that reports is never taken
      rw [value_build_prune h w₀ child w₀ w, hvalue]
      exact hrest.bind fun _ => Traced.reports_pure _

end

/-! ## Batches -/

theorem value_buildReported (b : Binding σ) (d : Declaration) (w : σ) :
    ((buildReported b d).run w).value = ((build b d).run w).value := by
  rw [buildReported, Traced.value_bind]
  split <;> rfl

theorem value_buildAll {b : Binding σ} (h : b.Functional) (ds : List Declaration) (w v : σ) :
    ((buildAll b ds).run w).value = ds.map fun d => ((build b d).run v).value := by
  unfold buildAll
  induction ds generalizing w with
  | nil => rfl
  | cons d rest ih =>
    rw [Traced.forEach, Traced.value_bind, Traced.value_bind, Traced.value_pure, ih,
      value_buildReported, value_build_steady h d v w, List.map_cons]

/-- A nested declaration that cannot be built, at any depth, has no influence but
its report: with all of them left out, a declaration is built into the same
component or fails for the same reason, its own factory is called with the same
arguments, and the builder has no nested failure to report. In a batch each result
is that of its declaration alone. -/
theorem nested_failures_isolated {b : Binding σ} (h : b.Functional) (w₀ : σ) (d : Declaration) :
    (∀ w v, ((build b (prune b w₀ d)).run v).value = ((build b d).run w).value) ∧
    (∃ own : List (FactoryCall σ), own.length ≤ 1 ∧
      (∀ call ∈ own, b.lookup d.typeName = some call.1) ∧
      ∀ w, invoked b d w = invokedBelow b d w ++ own ∧
        invoked b (prune b w₀ d) w = invokedBelow b (prune b w₀ d) w ++ own) ∧
    (b.Discreet → ∀ w parent child e,
      .childFailed parent child e ∉ ((build b (prune b w₀ d)).run w).diagnostics) ∧
    ∀ ds w v, ((buildAll b ds).run w).value = ds.map fun d => ((build b d).run v).value := by
  refine ⟨value_build_prune h w₀ d, exists_ownCall h w₀ d, ?_, value_buildAll h⟩
  intro hdiscreet w parent child e hreported
  have hnot := reports_build_prune h hdiscreet w₀ d w _ hreported
  exact hnot ⟨parent, child, e, rfl⟩

/-- A box around a layout, which gives up without one, is built around the layout
that is left when one of an unknown type and one with a bad attribute are gone. -/
theorem nested_failures_isolated_box :
    let box : Plugin Unit := ⟨"Box", .layout, "", [.optional "layout" (.element .layout)],
      fun a => pure (match a.layout? "layout" with
        | some l => .done (.layout l)
        | none => .crashed)⟩
    let b : Binding Unit := ⟨(TextMap.empty.insert "xmllayout" Plugin.xml).insert "box" box⟩
    let d : Declaration := ⟨"Box", .empty, [⟨"Lost", .empty, []⟩,
      ⟨"XMLLayout", TextMap.empty.insert "complete" "maybe", []⟩, ⟨"XMLLayout", .empty, []⟩]⟩
    b.Functional ∧ b.Discreet ∧ (prune b () d).children.map Declaration.typeName = ["XMLLayout"] ∧
      (∃ c, ((build b d).run ()).value = .ok c ∧ ((build b (prune b () d)).run ()).value = .ok c) ∧
      ∀ parent child e,
        .childFailed parent child e ∉ ((build b (prune b () d)).run ()).diagnostics := by
  intro box b d
  obtain ⟨hfunctional, hdiscreet⟩ : b.Functional ∧ b.Discreet := by
    refine Binding.functional_and_discreet fun typeName p hp => ?_
    rw [Binding.lookup, TextMap.get?_insert, TextMap.get?_insert] at hp
    split at hp
    · cases hp
      exact ⟨_, fun a => rfl⟩
    · split at hp
      · cases hp
        exact ⟨_, fun a => rfl⟩
      · contradiction
  obtain ⟨hsame, -, hquiet, -⟩ := nested_failures_isolated hfunctional () d
  obtain ⟨c, hc⟩ : ∃ c, ((build b d).run ()).value = .ok c := ⟨_, by rfl⟩
  refine ⟨hfunctional, hdiscreet, by rfl, ⟨c, hc, ?_⟩, hquiet hdiscreet ()⟩
  rw [hsame () (), hc]

end Build
end LoggingFacade
