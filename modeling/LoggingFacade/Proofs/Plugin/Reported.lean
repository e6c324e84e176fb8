import LoggingFacade.Proofs.Plugin.Trials

/-!
# What building one declaration reports

The reports of a declaration stand in a fixed order: the attributes that no parameter
reads, what the nested declarations report, each followed by its failure, the components
that are left unused, and what comes from the factory. The parameters take the nested
components in turn, each from those that the ones before it left.
-/

namespace LoggingFacade

/-! ## One parameter -/

namespace Parameter

/-- The type of the components that a parameter takes. -/
def nested? (q : Parameter) : Option ElementType :=
  match q.kind with
  | .element type => some type
  | .elements type => some type
  | _ => none

/-- The components that a parameter takes, in order. -/
def picks (q : Parameter) (components : List Component) : List Component :=
  components.filter fun c => q.nested? = some c.elementType

/-- The components that it leaves for the following parameters. -/
def leaves (q : Parameter) (components : List Component) : List Component :=
  components.filter fun c => q.nested? ≠ some c.elementType

/-- The argument that is made of the components taken, or else of the attributes. -/
def read (q : Parameter) (component : String) (d : Declaration) (picked : List Component) :
    Except Error Argument :=
  match q.kind with
  | .element _ => .ok ((picked.head?.map Argument.element).getD .absent)
  | .elements _ => .ok (.elements picked)
  | kind =>
    match q.raw? d with
    | some raw => Coercion.coerce component q.name kind raw
    | none => .ok .absent

/-- A parameter that holds one component reports it if it takes several. -/
def surplus (q : Parameter) (component : String) (picked : List Component) : List Diagnostic :=
  match q.kind with
  | .element _ =>
    if 1 < picked.length then [.elementsSurplus component q.name picked.length] else []
  | _ => []

variable {q : Parameter} {type : ElementType}

theorem nested?_of_element (h : q.kind = .element type) : q.nested? = some type := by
  unfold nested?
  rw [h]

theorem nested?_of_elements (h : q.kind = .elements type) : q.nested? = some type := by
  unfold nested?
  rw [h]

theorem nested?_of_attribute (h : q.kind.isAttribute = true) : q.nested? = none := by
  unfold nested?
  split <;> simp_all [ParameterKind.isAttribute]

theorem kind_of_nested? (h : q.nested? = some type) :
    q.kind = .element type ∨ q.kind = .elements type := by
  obtain hattribute | ⟨t, hkind⟩ | ⟨t, hkind⟩ := q.kind.attribute_or_nested
  · rw [nested?_of_attribute hattribute] at h
    contradiction
  · rw [nested?_of_element hkind] at h
    cases h
    exact .inl hkind
  · rw [nested?_of_elements hkind] at h
    cases h
    exact .inr hkind

theorem picks_of_nested? (h : q.nested? = some type) (components : List Component) :
    q.picks components = Build.ofType type components := by
  apply List.filter_congr
  intro c _
  rw [h]
  simp [eq_comm]

theorem leaves_of_nested? (h : q.nested? = some type) (components : List Component) :
    q.leaves components = Build.notOfType type components := by
  apply List.filter_congr
  intro c _
  rw [h]
  simp [eq_comm]

theorem leaves_of_attribute (h : q.kind.isAttribute = true) (components : List Component) :
    q.leaves components = components := by
  simp [leaves, nested?_of_attribute h]

theorem read_attribute (h : q.kind.isAttribute = true) (component : String) (d : Declaration)
    (picked : List Component) : q.read component d picked =
    match q.raw? d with
    | some raw => Coercion.coerce component q.name q.kind raw
    | none => .ok .absent := by
  unfold read
  cases hkind : q.kind with
  | element type => simp [hkind, ParameterKind.isAttribute] at h
  | elements type => simp [hkind, ParameterKind.isAttribute] at h
  | _ => rfl

/-- Each component is either taken or left. -/
theorem length_picks_add_leaves (q : Parameter) (components : List Component) :
    (q.picks components).length + (q.leaves components).length = components.length := by
  induction components with
  | nil => rfl
  | cons c rest ih =>
    unfold picks leaves at ih ⊢
    by_cases h : q.nested? = some c.elementType
    · simp [h] at ih ⊢
      omega
    · simp [h] at ih ⊢
      omega

end Parameter

namespace Build

variable {σ : Type}

theorem run_argument (component : String) (q : Parameter) (d : Declaration)
    (components : List Component) (w : σ) : (argument component q d components).run w =
      ⟨(q.read component d (q.picks components)).map fun value => (value, q.leaves components), w,
        q.surplus component (q.picks components)⟩ := by
  unfold argument Parameter.read Parameter.surplus Parameter.raw?
  cases hkind : q.kind with
  | element type =>
    rw [Parameter.picks_of_nested? (Parameter.nested?_of_element hkind),
      Parameter.leaves_of_nested? (Parameter.nested?_of_element hkind)]
    dsimp only
    split <;> cases (ofType type components).head? <;> rfl
  | elements type =>
    rw [Parameter.picks_of_nested? (Parameter.nested?_of_elements hkind),
      Parameter.leaves_of_nested? (Parameter.nested?_of_elements hkind)]
    rfl
  | _ =>
    rw [Parameter.leaves_of_attribute (by rw [hkind]; rfl)]
    cases (d.attr? q.name).or q.standard <;> rfl

/-! ## All parameters -/

/-- The first parameter that takes components of a type. -/
def taker? (parameters : List Parameter) (type : ElementType) : Option Parameter :=
  parameters.find? fun q => q.nested? = some type

/-- The components that each parameter takes, from those that the ones before it left. -/
def shares : List Parameter → List Component → List (Parameter × List Component)
  | [], _ => []
  | q :: rest, components => (q, q.picks components) :: shares rest (q.leaves components)

/-- The components that no parameter takes. -/
def untaken (parameters : List Parameter) (components : List Component) : List Component :=
  components.filter fun c => (taker? parameters c.elementType).isNone

theorem untaken_cons (q : Parameter) (rest : List Parameter) (components : List Component) :
    untaken (q :: rest) components = untaken rest (q.leaves components) := by
  unfold untaken Parameter.leaves
  rw [List.filter_filter]
  apply List.filter_congr
  intro c _
  unfold taker?
  by_cases h : q.nested? = some c.elementType
  · simp [h]
  · simp [h]

section AssembleFrom

variable {d : Declaration} {parameters : List Parameter} {a made : Arguments}
  {components unused : List Component} {w : σ}

/-- The first parameter reads its argument from what it takes, and the others read theirs
from what it leaves. -/
theorem assembleFrom_cons_reads {q : Parameter}
    (h : ((assembleFrom d (q :: parameters) a components).run w).value = .ok (made, unused)) :
    ∃ value, q.read a.component d (q.picks components) = .ok value ∧
      let rest := (assembleFrom d parameters (a.set q.name value) (q.leaves components)).run w
      rest.value = .ok (made, unused) ∧
        ((assembleFrom d (q :: parameters) a components).run w).diagnostics =
          q.surplus a.component (q.picks components) ++ rest.diagnostics := by
  rw [assembleFrom, Traced.value_bind, run_argument] at h
  rw [assembleFrom, Traced.diagnostics_bind, run_argument]
  cases hread : q.read a.component d (q.picks components) with
  | error e =>
    rw [hread] at h
    contradiction
  | ok value =>
    rw [hread] at h
    simp only [Except.map] at h ⊢
    split at h
    · contradiction
    · rename_i hpresent
      rw [if_neg hpresent]
      exact ⟨value, rfl, h, rfl⟩

theorem untaken_of_assembleFrom
    (h : ((assembleFrom d parameters a components).run w).value = .ok (made, unused)) :
    unused = untaken parameters components := by
  induction parameters generalizing a components with
  | nil =>
    cases h
    exact (List.filter_eq_self.2 fun _ _ => rfl).symm
  | cons q rest ih =>
    obtain ⟨value, -, hrest, -⟩ := assembleFrom_cons_reads h
    rw [untaken_cons]
    exact ih hrest

theorem diagnostics_assembleFrom
    (h : ((assembleFrom d parameters a components).run w).value = .ok (made, unused)) :
    ((assembleFrom d parameters a components).run w).diagnostics =
      (shares parameters components).flatMap fun s => s.1.surplus a.component s.2 := by
  induction parameters generalizing a components with
  | nil => rfl
  | cons q rest ih =>
    obtain ⟨value, -, hrest, hdiagnostics⟩ := assembleFrom_cons_reads h
    rw [hdiagnostics, ih hrest, shares, List.flatMap_cons]
    rfl

/-- What was set stays, and each parameter sets what it reads. -/
theorem mem_values_assembleFrom
    (h : ((assembleFrom d parameters a components).run w).value = .ok (made, unused)) :
    (∀ x ∈ a.values, x ∈ made.values) ∧ ∀ s ∈ shares parameters components,
      ∃ value, s.1.read a.component d s.2 = .ok value ∧ (s.1.name, value) ∈ made.values := by
  induction parameters generalizing a components with
  | nil =>
    cases h
    exact ⟨fun x hx => hx, nofun⟩
  | cons q rest ih =>
    obtain ⟨value, hread, hrest, -⟩ := assembleFrom_cons_reads h
    obtain ⟨hset, hshares⟩ := ih hrest
    constructor
    · intro x hx
      exact hset x (List.mem_cons_of_mem _ hx)
    · intro s hs
      rcases List.mem_cons.1 hs with rfl | hs
      · exact ⟨value, hread, hset _ List.mem_cons_self⟩
      · exact hshares s hs

end AssembleFrom

/-! ## One declaration -/

/-- What is left unused of the components of nested declarations, as it is reported. -/
def unusedReports (p : Plugin σ) (components : List Component) : List Diagnostic :=
  ((shares p.parameters components).flatMap fun s => s.1.surplus p.name s.2) ++
    if untaken p.parameters components = [] then []
    else [.elementsIgnored p.name (untaken p.parameters components).length]

/-- The attributes of a declaration that no parameter reads. -/
def unread (p : Plugin σ) (d : Declaration) : List String :=
  d.attributes.keys.filter fun key => !p.knows key

/-- What building nested declarations comes to, one by one. -/
def outcomes (b : Binding σ) :
    List Declaration → σ → List (Declaration × Outcome σ (Except Error Component))
  | [], _ => []
  | d :: rest, w => (d, (build b d).run w) :: outcomes b rest ((build b d).run w).state

/-- What a nested declaration reports, and then its failure, if it fails. -/
def childReports (parent : String) (x : Declaration × Outcome σ (Except Error Component)) :
    List Diagnostic :=
  x.2.diagnostics ++ match x.2.value with
    | .ok _ => []
    | .error e => [.childFailed parent x.1.label e]

/-- What a factory reports, and then that it built a component. -/
def factoryReports (p : Plugin σ) (d : Declaration) (a : Arguments) (w : σ) : List Diagnostic :=
  ((p.factory a).run w).diagnostics ++ match judge p ((p.factory a).run w).value with
    | .ok _ => [.componentBuilt d.label]
    | .error _ => []

variable {b : Binding σ} {d : Declaration} {p : Plugin σ} {a : Arguments}

theorem diagnostics_buildChildren (b : Binding σ) (parent : String) (ds : List Declaration)
    (w : σ) : ((buildChildren b parent ds).run w).diagnostics =
      (outcomes b ds w).flatMap (childReports parent) := by
  induction ds generalizing w with
  | nil =>
    rw [buildChildren, outcomes]
    rfl
  | cons d rest ih =>
    rw [buildChildren, outcomes, Traced.diagnostics_bind, List.flatMap_cons, childReports,
      List.append_assoc, ← ih]
    congr 1
    cases hvalue : ((build b d).run w).value with
    | ok c =>
      rw [Traced.diagnostics_bind, Traced.diagnostics_pure, List.append_nil]
      rfl
    | error e => rfl

theorem diagnostics_reportUnknown (p : Plugin σ) (d : Declaration) (w : σ) :
    ((reportUnknown p d).run w).diagnostics =
      (unread p d).map fun key => .attributeIgnored p.name key := by
  unfold reportUnknown unread
  induction d.attributes.keys with
  | nil => rfl
  | cons key rest ih =>
    rw [List.forM, Traced.diagnostics_bind]
    cases hknows : p.knows key with
    | true =>
      rw [List.filter_cons_of_neg (by simp [hknows])]
      exact ih
    | false =>
      rw [List.filter_cons_of_pos (by simp [hknows]), List.map_cons]
      exact congrArg (Diagnostic.attributeIgnored p.name key :: ·) ih

theorem diagnostics_invoke (p : Plugin σ) (d : Declaration) (a : Arguments) (w : σ) :
    ((invoke p d a).run w).diagnostics = factoryReports p d a w := by
  rw [invoke, factoryReports, Traced.diagnostics_bind]
  congr 1
  cases judge p ((p.factory a).run w).value <;> rfl

theorem exists_assembleFrom {components : List Component}
    (h : assembled p d components = .ok a) (w : σ) :
    ∃ unused, ((assembleFrom d p.parameters (.empty p.name) components).run w).value =
      .ok (a, unused) := by
  have hvalue := (alike_assembleFrom (σ := σ) (τ := Unit) (d := d) rfl p.parameters
    (.empty p.name) components).value w ()
  rw [hvalue]
  rw [assembled] at h
  cases hmade : ((assembleFrom d p.parameters (.empty p.name) components :
      Traced Unit _).run ()).value with
  | error e =>
    rw [hmade] at h
    contradiction
  | ok made =>
    rw [hmade] at h
    cases h
    exact ⟨made.2, rfl⟩

theorem diagnostics_assemble {components : List Component}
    (h : assembled p d components = .ok a) (w : σ) :
    ((assemble p d components).run w).diagnostics = unusedReports p components := by
  obtain ⟨unused, hvalue⟩ := exists_assembleFrom h w
  have hunused := untaken_of_assembleFrom hvalue
  have hdiagnostics := diagnostics_assembleFrom hvalue
  rw [assemble, Traced.diagnostics_bind, hvalue, hdiagnostics, unusedReports, ← hunused]
  cases unused with
  | nil => rfl
  | cons c rest => rfl

/-- The reports of a declaration whose factory is called. -/
theorem diagnostics_build (hp : b.lookup d.typeName = some p) {w : σ}
    (hmade : assembled p d (nested b d w) = .ok a) :
    ((build b d).run w).diagnostics =
      ((unread p d).map fun key => .attributeIgnored p.name key) ++
        (outcomes b d.children w).flatMap (childReports d.label) ++
        unusedReports p (nested b d w) ++ factoryReports p d a (stateBelow b d w) := by
  obtain ⟨typeName, attributes, children⟩ := d
  dsimp only at hp
  have hunknown := (alike_reportUnknown p p rfl rfl
    (d := ⟨typeName, attributes, children⟩) rfl).state w w
  rw [build]
  simp only [hp, Traced.diagnostics_bind, diagnostics_reportUnknown, hunknown, value_assemble,
    state_assemble, List.append_assoc]
  rw [diagnostics_buildChildren]
  congr 2
  rw [nested] at hmade
  rw [hmade, diagnostics_assemble hmade]
  exact congrArg (_ ++ ·) (diagnostics_invoke p _ a _)

end Build
end LoggingFacade
