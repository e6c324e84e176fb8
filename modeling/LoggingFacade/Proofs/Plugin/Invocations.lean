import LoggingFacade.Plugin.Linked
import LoggingFacade.Proofs.Plugin.Assembly
import LoggingFacade.Proofs.TextMap

/-!
# What factories are called with

Built over a log, a declaration shows which factories are called on its way, and
with which arguments. Nested declarations come first, and then the plugin of the
declaration itself, if its arguments can be made. Whatever is called so gets
arguments that fit the schema of its plugin.
-/

namespace LoggingFacade

open Traced (Alike Records)

/-- A call of a plugin's factory with arguments. -/
abbrev FactoryCall (σ : Type) : Type := Plugin σ × Arguments

/-- The same plugin, noting each call of its factory. -/
def Plugin.recording {σ : Type} (p : Plugin σ) : Plugin (σ × List (FactoryCall σ)) :=
  ⟨p.name, p.elementType, p.description, p.parameters, fun a => (p.factory a).noted (p, a)⟩

/-- The same plugins under the same names, noting each call of a factory. -/
def Binding.recording {σ : Type} (b : Binding σ) : Binding (σ × List (FactoryCall σ)) :=
  ⟨b.plugins.map Plugin.recording⟩

theorem Binding.lookup_recording {σ : Type} (b : Binding σ) (typeName : String) :
    b.recording.lookup typeName = (b.lookup typeName).map Plugin.recording :=
  b.plugins.get?_map Plugin.recording (Text.lower typeName)

namespace Build

variable {σ : Type}

/-- The calls of factories in building a declaration. -/
def invoked (b : Binding σ) (d : Declaration) (w : σ) : List (FactoryCall σ) :=
  ((build b.recording d).run (w, [])).state.2

/-- The components that the nested declarations of a declaration are built into. -/
def nested (b : Binding σ) (d : Declaration) (w : σ) : List Component :=
  ((buildChildren b d.label d.children).run w).value

/-- The call of a declaration's own plugin, if its arguments can be made. -/
def ownInvocation (p : Plugin σ) (d : Declaration) (components : List Component) :
    List (FactoryCall σ) :=
  match assembled p d components with
  | .ok a => [(p, a)]
  | .error _ => []

mutual

/-- The calls of factories, by the structure of the declaration: those of nested
declarations in their order, and then that of its own plugin. -/
def invocations (b : Binding σ) : Declaration → σ → List (FactoryCall σ)
  | ⟨typeName, attributes, children⟩, w =>
    match b.lookup typeName with
    | none => []
    | some p =>
      nestedInvocations b children w ++ ownInvocation p ⟨typeName, attributes, children⟩
        (nested b ⟨typeName, attributes, children⟩ w)

def nestedInvocations (b : Binding σ) : List Declaration → σ → List (FactoryCall σ)
  | [], _ => []
  | child :: rest, w =>
    invocations b child w ++ nestedInvocations b rest ((build b child).run w).state

end

theorem records_invoke (p : Plugin σ) (d : Declaration) (a : Arguments) :
    Records (invoke p.recording d a) (invoke p d a) fun _ => [(p, a)] := by
  unfold invoke
  refine (Traced.records_noted (p, a) (p.factory a)).bind_of_silent ?_
  intro attempt
  have hjudge : judge p.recording attempt = judge p attempt := rfl
  simp only [hjudge]
  cases judge p attempt with
  | error e => exact Traced.records_pure _
  | ok c => exact (Traced.records_report _).bind_of_silent fun _ => Traced.records_pure _

/-- The part of building behind the nested declarations. -/
theorem records_own (p : Plugin σ) (d : Declaration) (components : List Component) :
    Records
      (assemble p.recording d components >>= fun result => match result with
        | .error e => pure (.error e)
        | .ok a => invoke p.recording d a)
      (assemble p d components >>= fun result => match result with
        | .error e => pure (.error e)
        | .ok a => invoke p d a)
      fun _ => ownInvocation p d components := by
  have hassemble := (alike_assemble p.recording p rfl rfl rfl (d := d) components).records
  refine (hassemble.bind_silent (fun result _ => match result with
    | .error _ => []
    | .ok a => [(p, a)]) ?_).congr ?_
  · intro result
    cases result with
    | error e => exact Traced.records_pure _
    | ok a => exact records_invoke p d a
  · intro w
    rw [value_assemble, ownInvocation]
    cases assembled p d components <;> rfl

mutual

theorem records_build (b : Binding σ) (d : Declaration) :
    Records (build b.recording d) (build b d) (invocations b d) := by
  obtain ⟨typeName, attributes, children⟩ := d
  unfold build
  rw [Binding.lookup_recording]
  cases hp : b.lookup typeName with
  | none =>
    refine (Traced.records_pure _).congr ?_
    intro w
    rw [invocations, hp]
  | some p =>
    have hunknown := alike_reportUnknown p.recording p rfl rfl
      (d := ⟨typeName, attributes, children⟩) rfl
    have hchildren := records_buildChildren b
      (Declaration.label ⟨typeName, attributes, children⟩) children
    refine (hunknown.records.bind_silent _ fun _ => hchildren.bind _ fun components =>
      records_own p ⟨typeName, attributes, children⟩ components).congr ?_
    intro w
    have hstate := (alike_reportUnknown p p rfl rfl
      (d := ⟨typeName, attributes, children⟩) rfl).state w w
    rw [hstate, invocations, hp]
    rfl

theorem records_buildChildren (b : Binding σ) (parent : String) (ds : List Declaration) :
    Records (buildChildren b.recording parent ds) (buildChildren b parent ds)
      (nestedInvocations b ds) := by
  cases ds with
  | nil =>
    refine (Traced.records_pure _).congr ?_
    intro w
    rw [nestedInvocations]
  | cons child rest =>
    unfold buildChildren
    refine ((records_build b child).bind (fun _ => nestedInvocations b rest) ?_).congr ?_
    · intro result
      have hrest := records_buildChildren b parent rest
      cases result with
      | ok c => exact hrest.bind_of_silent fun _ => Traced.records_pure _
      | error e => exact (Traced.records_report _).bind_silent _ fun _ => hrest
    · intro w
      rw [nestedInvocations]

end

theorem invoked_eq (b : Binding σ) (d : Declaration) (w : σ) :
    invoked b d w = invocations b d w := by
  rw [invoked, records_build b d w []]
  rfl

/-! ## Where factories are called -/

/-- Building the first declaration from the first state comes to building the
second one, which is that declaration or nested in it, from the second state. -/
inductive Visits (b : Binding σ) : Declaration → σ → Declaration → σ → Prop
  | self (d : Declaration) (w : σ) : Visits b d w d w
  | nested {d : Declaration} {w : σ} {p : Plugin σ} {before after : List Declaration}
      {child node : Declaration} {v : σ} :
      b.lookup d.typeName = some p → d.children = before ++ child :: after →
      Visits b child ((buildChildren b d.label before).run w).state node v →
      Visits b d w node v

theorem state_buildChildren_cons (b : Binding σ) (parent : String) (child : Declaration)
    (rest : List Declaration) (w : σ) : ((buildChildren b parent (child :: rest)).run w).state =
      ((buildChildren b parent rest).run ((build b child).run w).state).state := by
  rw [buildChildren, Traced.state_bind]
  cases ((build b child).run w).value <;> rfl

theorem mem_ownInvocation {p q : Plugin σ} {d : Declaration} {components : List Component}
    {a : Arguments} (h : (p, a) ∈ ownInvocation q d components) :
    p = q ∧ assembled p d components = .ok a := by
  unfold ownInvocation at h
  cases hmade : assembled q d components with
  | error e =>
    rw [hmade] at h
    contradiction
  | ok made =>
    rw [hmade, List.mem_singleton] at h
    cases h
    exact ⟨rfl, hmade⟩

/-- A call is made for a declaration that building comes to. -/
def CalledAt (b : Binding σ) (d : Declaration) (w : σ) (call : FactoryCall σ) : Prop :=
  ∃ node v, Visits b d w node v ∧ b.lookup node.typeName = some call.1 ∧
    assembled call.1 node (nested b node v) = .ok call.2

mutual

theorem calledAt_of_mem_invocations (b : Binding σ) (d : Declaration) (w : σ)
    (call : FactoryCall σ) (h : call ∈ invocations b d w) : CalledAt b d w call := by
  obtain ⟨typeName, attributes, children⟩ := d
  rw [invocations] at h
  cases hp : b.lookup typeName with
  | none =>
    rw [hp] at h
    contradiction
  | some p =>
    rw [hp] at h
    rcases List.mem_append.1 h with h | h
    · obtain ⟨before, child, after, hsplit, node, v, hvisits, hnode⟩ :=
        calledAt_of_mem_nestedInvocations b
          (Declaration.label ⟨typeName, attributes, children⟩) children w call h
      exact ⟨node, v, .nested hp hsplit hvisits, hnode⟩
    · obtain ⟨rfl, hmade⟩ := mem_ownInvocation h
      exact ⟨_, w, .self _ w, hp, hmade⟩

theorem calledAt_of_mem_nestedInvocations (b : Binding σ) (parent : String)
    (ds : List Declaration) (w : σ) (call : FactoryCall σ) (h : call ∈ nestedInvocations b ds w) :
    ∃ before child after, ds = before ++ child :: after ∧
      CalledAt b child ((buildChildren b parent before).run w).state call := by
  cases ds with
  | nil =>
    rw [nestedInvocations] at h
    contradiction
  | cons child rest =>
    rw [nestedInvocations] at h
    rcases List.mem_append.1 h with h | h
    · exact ⟨[], child, rest, rfl, calledAt_of_mem_invocations b child w call h⟩
    · obtain ⟨before, node, after, rfl, hcalled⟩ :=
        calledAt_of_mem_nestedInvocations b parent rest _ call h
      refine ⟨child :: before, node, after, rfl, ?_⟩
      rw [state_buildChildren_cons]
      exact hcalled

end

/-- Every call of a factory, anywhere in a declaration that is built, passes
arguments that fit the plugin's schema: one value for each parameter, made from
the attributes of the declaration it is called for and from the components nested
there. A parameter of a boolean, an integer or a charset that is given or required
can then be read as one. -/
theorem invoked_arguments_fit {b : Binding σ} {d : Declaration} {w : σ} {p : Plugin σ}
    {a : Arguments} (hcall : (p, a) ∈ invoked b d w)
    (hnames : (p.parameters.map Parameter.name).Nodup) :
    ∃ node v, Visits b d w node v ∧ b.lookup node.typeName = some p ∧
      a.Fit p node (nested b node v) ∧
      ∀ q ∈ p.parameters, q.standard.isSome = true ∨ q.required = true → a.Reads q := by
  rw [invoked_eq] at hcall
  obtain ⟨node, v, hvisits, hlookup, hmade⟩ := calledAt_of_mem_invocations b d w (p, a) hcall
  have hfit := fit_of_assembled hnames hmade
  refine ⟨node, v, hvisits, hlookup, hfit, ?_⟩
  intro q hq hgiven
  exact hfit.reads hq hgiven

/-- An XML layout nested in a set of appenders, behind one that cannot be built. -/
theorem invoked_arguments_fit_xml :
    let b : Binding Unit :=
      ⟨(TextMap.empty.insert "xmllayout" Plugin.xml).insert "appenders" Plugin.appenderSet⟩
    let d : Declaration :=
      ⟨"Appenders", .empty, [⟨"XMLLAYOUT", TextMap.empty.insert "complete" "maybe", []⟩,
        ⟨"XMLLayout", TextMap.empty.insert "COMPLETE" " True ", []⟩]⟩
    let parameters := (Plugin.xml (σ := Unit)).parameters
    (parameters.map Parameter.name).Nodup ∧ ∃ a, (Plugin.xml, a) ∈ invoked b d () ∧
      a.bool "complete" = .ok true ∧ ∀ q ∈ parameters, a.Reads q := by
  intro b d parameters
  have hnames : (parameters.map Parameter.name).Nodup := by decide
  have hgiven : ∀ q ∈ parameters, q.standard.isSome = true := by decide
  obtain ⟨a, hcall, hcomplete⟩ : ∃ a, (Plugin.xml, a) ∈ invoked b d () ∧
      a.bool "complete" = .ok true := ⟨_, List.mem_cons_self, by rfl⟩
  refine ⟨hnames, a, hcall, hcomplete, ?_⟩
  intro q hq
  obtain ⟨node, v, -, -, -, hreads⟩ := invoked_arguments_fit hcall hnames
  exact hreads q hq (.inl (hgiven q hq))

end Build
end LoggingFacade
