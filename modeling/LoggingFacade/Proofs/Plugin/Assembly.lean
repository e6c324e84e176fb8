import LoggingFacade.Plugin.Build
import LoggingFacade.Proofs.Calls.Recording
import Mathlib.Data.List.Perm.Basic

/-!
# Assembled arguments

What a factory can rely on. Making the arguments of a plugin only reports, so it
comes to the same in every state. If it comes to arguments, these hold one value
for each parameter of the schema, and the value is of the parameter's kind.
-/

namespace LoggingFacade

open Traced (Alike)

/-- The report that a nested declaration could not be built. -/
def Diagnostic.IsNestedFailure (x : Diagnostic) : Prop :=
  ∃ parent child e, x = .childFailed parent child e

/-- A report of something that is not used for the arguments of a plugin. -/
inductive Diagnostic.IsUnused : Diagnostic → Prop
  | attribute (component key : String) : IsUnused (.attributeIgnored component key)
  | surplus (component parameter : String) (count : Nat) :
    IsUnused (.elementsSurplus component parameter count)
  | elements (component : String) (count : Nat) : IsUnused (.elementsIgnored component count)

theorem Diagnostic.IsUnused.not_nestedFailure {x : Diagnostic} (h : x.IsUnused) :
    ¬x.IsNestedFailure := by
  rintro ⟨parent, child, e, rfl⟩
  contradiction

namespace Argument

/-- The value has the form that the kind of a parameter asks for. -/
def HasKind : ParameterKind → Argument → Prop
  | .bool, bool _ => True
  | .int, int _ => True
  | .charset, charset _ => True
  | .text, text _ => True
  | .element type, element c => c.elementType = type
  | .elements type, elements cs => ∀ c ∈ cs, c.elementType = type
  | _, _ => False

end Argument

/-- Values are attributes, a nested component, or nested components. -/
theorem ParameterKind.attribute_or_nested (kind : ParameterKind) : kind.isAttribute = true ∨
    (∃ type, kind = .element type) ∨ ∃ type, kind = .elements type := by
  cases kind with
  | element type => exact .inr (.inl ⟨type, rfl⟩)
  | elements type => exact .inr (.inr ⟨type, rfl⟩)
  | bool => exact .inl rfl
  | int => exact .inl rfl
  | charset => exact .inl rfl
  | text => exact .inl rfl

namespace Parameter

/-- The text that an attribute is read from: the one given under the name in any
case of its letters, else the standard one. -/
def raw? (q : Parameter) (d : Declaration) : Option String := (d.attr? q.name).or q.standard

/-- The value of an attribute: what its text is read as, which is of the
parameter's kind; nothing without a text. -/
def SuitsAttribute (q : Parameter) (component : String) (d : Declaration) (value : Argument) :
    Prop :=
  match q.raw? d with
  | some raw =>
    Coercion.coerce component q.name q.kind raw = .ok value ∧ value.HasKind q.kind
  | none => value = .absent

/-- The value that a parameter gets from the attributes of a declaration and the
components nested in it. -/
def Suits (q : Parameter) (component : String) (d : Declaration) (nested : List Component)
    (value : Argument) : Prop :=
  match q.kind with
  | .element type => value = .absent ∨ ∃ c ∈ nested, c.elementType = type ∧ value = .element c
  | .elements type =>
    ∃ cs, value = .elements cs ∧ cs.Sublist nested ∧ ∀ c ∈ cs, c.elementType = type
  | _ => q.SuitsAttribute component d value

variable {q : Parameter} {component : String} {d : Declaration} {value : Argument}

theorem suits_attribute (h : q.kind.isAttribute = true) (nested : List Component) :
    q.Suits component d nested value ↔ q.SuitsAttribute component d value := by
  unfold Suits
  cases hkind : q.kind with
  | element type => simp [hkind, ParameterKind.isAttribute] at h
  | elements type => simp [hkind, ParameterKind.isAttribute] at h
  | bool => rfl
  | int => rfl
  | charset => rfl
  | text => rfl

/-- Components that come from a part of the nested ones come from these. -/
theorem Suits.mono {part nested : List Component} (h : q.Suits component d part value)
    (hpart : part.Sublist nested) : q.Suits component d nested value := by
  obtain hattribute | ⟨type, hkind⟩ | ⟨type, hkind⟩ := q.kind.attribute_or_nested
  · rw [suits_attribute hattribute] at h ⊢
    exact h
  · unfold Suits at h ⊢
    rw [hkind] at h ⊢
    obtain h | ⟨c, hc, htype, hvalue⟩ := h
    · exact .inl h
    · exact .inr ⟨c, hpart.subset hc, htype, hvalue⟩
  · unfold Suits at h ⊢
    rw [hkind] at h ⊢
    obtain ⟨cs, hvalue, hcs, htype⟩ := h
    exact ⟨cs, hvalue, hcs.trans hpart, htype⟩

end Parameter

namespace Coercion

theorem hasKind_of_coerce {component parameter raw : String} {kind : ParameterKind}
    {value : Argument} (h : coerce component parameter kind raw = .ok value) :
    value.HasKind kind := by
  unfold coerce at h
  cases kind with
  | bool =>
    generalize readBool? raw = read at h
    cases read with
    | some b =>
      cases h
      trivial
    | none => contradiction
  | int =>
    generalize readInt raw = read at h
    cases read with
    | ok n =>
      cases h
      trivial
    | error fault => contradiction
  | charset =>
    generalize Charset.ofName raw = read at h
    cases read with
    | ok c =>
      cases h
      trivial
    | error e => contradiction
  | text =>
    cases h
    trivial
  | element type => contradiction
  | elements type => contradiction

end Coercion

namespace Build

variable {σ τ : Type}

/-! ## The state does not matter

All that these steps report is what they leave unused.
-/

theorem alike_reportUnknown (p : Plugin σ) (q : Plugin τ) (hname : p.name = q.name)
    (hparameters : p.parameters = q.parameters) {d e : Declaration}
    (hattributes : d.attributes = e.attributes) :
    Alike Diagnostic.IsUnused (reportUnknown p d) (reportUnknown q e) := by
  unfold reportUnknown
  rw [hattributes, hname]
  induction e.attributes.keys with
  | nil => exact Traced.alike_pure _
  | cons key rest ih =>
    rw [List.forM, List.forM]
    refine Alike.bind ?_ fun _ => ih
    have hknows : p.knows key = q.knows key := by rw [Plugin.knows, Plugin.knows, hparameters]
    rw [hknows]
    split
    · exact Traced.alike_report (.attribute _ _)
    · exact Traced.alike_pure _

theorem alike_argument (component : String) (q : Parameter) {d e : Declaration}
    (hattributes : d.attributes = e.attributes) (components : List Component) :
    Alike Diagnostic.IsUnused (argument component q d components : Traced σ _)
      (argument component q e components : Traced τ _) := by
  have hattr : d.attr? q.name = e.attr? q.name := by
    rw [Declaration.attr?, Declaration.attr?, hattributes]
  unfold argument
  rw [hattr]
  split
  · dsimp only
    split
    · exact (Traced.alike_report (.surplus _ _ _)).bind fun _ => Traced.alike_pure _
    · exact Traced.alike_pure _
  · exact Traced.alike_pure _
  · split
    · exact Traced.alike_pure _
    · exact Traced.alike_pure _

theorem alike_assembleFrom {d e : Declaration} (hattributes : d.attributes = e.attributes)
    (parameters : List Parameter) (a : Arguments) (components : List Component) :
    Alike Diagnostic.IsUnused (assembleFrom d parameters a components : Traced σ _)
      (assembleFrom e parameters a components : Traced τ _) := by
  induction parameters generalizing a components with
  | nil => exact Traced.alike_pure _
  | cons q rest ih =>
    refine (alike_argument a.component q hattributes components).bind ?_
    intro result
    cases result with
    | error e => exact Traced.alike_pure _
    | ok made =>
      obtain ⟨value, left⟩ := made
      dsimp only
      split
      · exact Traced.alike_pure _
      · exact ih _ _

theorem alike_assemble (p : Plugin σ) (q : Plugin τ) (hname : p.name = q.name)
    (hparameters : p.parameters = q.parameters) {d e : Declaration}
    (hattributes : d.attributes = e.attributes) (components : List Component) :
    Alike Diagnostic.IsUnused (assemble p d components) (assemble q e components) := by
  unfold assemble
  rw [hname, hparameters]
  refine (alike_assembleFrom hattributes _ _ components).bind ?_
  intro result
  cases result with
  | error e => exact Traced.alike_pure _
  | ok made =>
    obtain ⟨a, unused⟩ := made
    dsimp only
    split
    · exact (Traced.alike_report (.elements _ _)).bind fun _ => Traced.alike_pure _
    · exact Traced.alike_pure _

/-- What the parameters of a plugin come to, in any state. -/
def assembled (p : Plugin σ) (d : Declaration) (components : List Component) :
    Except Error Arguments :=
  let result := (assembleFrom d p.parameters (.empty p.name) components : Traced Unit _).run ()
  result.value.map Prod.fst

theorem value_assemble (p : Plugin σ) (d : Declaration) (components : List Component) (w : σ) :
    ((assemble p d components).run w).value = assembled p d components := by
  have hfrom := (alike_assembleFrom (σ := σ) (τ := Unit) (d := d) rfl p.parameters
    (.empty p.name) components).value w ()
  rw [assemble, Traced.value_bind, hfrom, assembled]
  cases ((assembleFrom d p.parameters (.empty p.name) components : Traced Unit _).run ()).value with
  | error e => rfl
  | ok made =>
    dsimp only
    split <;> rfl

/-! ## What the arguments hold -/

section Contents

variable {component : String} {q : Parameter} {d : Declaration}

theorem sublist_ofType (type : ElementType) (components : List Component) :
    (ofType type components).Sublist components := List.filter_sublist

theorem sublist_notOfType (type : ElementType) (components : List Component) :
    (notOfType type components).Sublist components := List.filter_sublist

theorem elementType_of_mem_ofType {type : ElementType} {components : List Component}
    {c : Component} (h : c ∈ ofType type components) : c.elementType = type := by
  simpa using (List.mem_filter.1 h).2

theorem value_argument_element {type : ElementType} (hkind : q.kind = .element type)
    (components : List Component) (w : σ) :
    ((argument component q d components).run w).value =
      .ok ((((ofType type components).head?.map Argument.element).getD .absent),
        notOfType type components) := by
  unfold argument
  simp only [hkind]
  split <;> cases (ofType type components).head? <;> rfl

theorem value_argument_elements {type : ElementType} (hkind : q.kind = .elements type)
    (components : List Component) (w : σ) :
    ((argument component q d components).run w).value =
      .ok (.elements (ofType type components), notOfType type components) := by
  unfold argument
  simp only [hkind]
  rfl

theorem value_argument_attribute (hkind : q.kind.isAttribute = true)
    (components : List Component) (w : σ) :
    ((argument component q d components).run w).value =
      match q.raw? d with
      | some raw => (Coercion.coerce component q.name q.kind raw).map fun v => (v, components)
      | none => .ok (.absent, components) := by
  unfold argument Parameter.raw?
  split
  · rename_i type h
    simp [h, ParameterKind.isAttribute] at hkind
  · rename_i type h
    simp [h, ParameterKind.isAttribute] at hkind
  · cases (d.attr? q.name).or q.standard <;> rfl

/-- The argument of a parameter suits it. The components left for the following
ones keep their order. -/
theorem argument_eq_ok {components left : List Component} {value : Argument} {w : σ}
    (h : ((argument component q d components).run w).value = .ok (value, left)) :
    q.Suits component d components value ∧ left.Sublist components := by
  obtain hattribute | ⟨type, hkind⟩ | ⟨type, hkind⟩ := q.kind.attribute_or_nested
  · rw [value_argument_attribute hattribute] at h
    rw [Parameter.suits_attribute hattribute, Parameter.SuitsAttribute]
    cases hraw : q.raw? d with
    | none =>
      rw [hraw] at h
      cases h
      exact ⟨rfl, List.Sublist.refl _⟩
    | some raw =>
      rw [hraw] at h
      dsimp only at h ⊢
      cases hread : Coercion.coerce component q.name q.kind raw with
      | error e =>
        rw [hread] at h
        contradiction
      | ok v =>
        rw [hread] at h
        cases h
        exact ⟨⟨rfl, Coercion.hasKind_of_coerce hread⟩, List.Sublist.refl _⟩
  · rw [value_argument_element hkind] at h
    cases h
    refine ⟨?_, sublist_notOfType type components⟩
    unfold Parameter.Suits
    rw [hkind]
    cases hhead : (ofType type components).head? with
    | none => exact .inl rfl
    | some c =>
      have hc : c ∈ ofType type components := List.mem_of_head? hhead
      have hmem : c ∈ components := (sublist_ofType type components).subset hc
      exact .inr ⟨c, hmem, elementType_of_mem_ofType hc, rfl⟩
  · rw [value_argument_elements hkind] at h
    cases h
    refine ⟨?_, sublist_notOfType type components⟩
    unfold Parameter.Suits
    rw [hkind]
    exact ⟨_, rfl, sublist_ofType type components, fun c hc => elementType_of_mem_ofType hc⟩

/-- The first parameter gets its argument, and the others get theirs from what it
leaves. -/
theorem assembleFrom_cons_eq_ok {rest : List Parameter} {a made : Arguments}
    {components unused : List Component} {w : σ}
    (h : ((assembleFrom d (q :: rest) a components).run w).value = .ok (made, unused)) :
    ∃ value left, q.Suits a.component d components value ∧ left.Sublist components ∧
      (value.isAbsent = true → q.required = false) ∧
      ((assembleFrom d rest (a.set q.name value) left).run w).value = .ok (made, unused) := by
  rw [assembleFrom, Traced.value_bind] at h
  have hstate := (alike_argument (σ := σ) (τ := σ) a.component q (d := d) rfl components).state w w
  cases hvalue : ((argument a.component q d components).run w).value with
  | error e =>
    rw [hvalue] at h
    contradiction
  | ok result =>
    obtain ⟨value, left⟩ := result
    obtain ⟨hsuits, hleft⟩ := argument_eq_ok hvalue
    rw [hvalue, hstate] at h
    dsimp only at h
    split at h
    · contradiction
    · rename_i hpresent
      refine ⟨value, left, hsuits, hleft, ?_, h⟩
      intro habsent
      simpa [habsent] using hpresent

theorem component_assembleFrom {parameters : List Parameter} {a made : Arguments}
    {components unused : List Component} {w : σ}
    (h : ((assembleFrom d parameters a components).run w).value = .ok (made, unused)) :
    made.component = a.component := by
  induction parameters generalizing a components with
  | nil =>
    cases h
    rfl
  | cons q rest ih =>
    obtain ⟨value, left, -, -, -, hrest⟩ := assembleFrom_cons_eq_ok h
    have hcomponent : made.component = (a.set q.name value).component := ih hrest
    exact hcomponent

/-- Each parameter adds one value. -/
theorem names_assembleFrom {parameters : List Parameter} {a made : Arguments}
    {components unused : List Component} {w : σ}
    (h : ((assembleFrom d parameters a components).run w).value = .ok (made, unused)) :
    made.values.map Prod.fst =
      (parameters.map Parameter.name).reverse ++ a.values.map Prod.fst := by
  induction parameters generalizing a components with
  | nil =>
    cases h
    rfl
  | cons q rest ih =>
    obtain ⟨value, left, -, -, -, hrest⟩ := assembleFrom_cons_eq_ok h
    rw [ih hrest]
    simp [Arguments.set]

/-- What was set before stays, under other names. -/
theorem get?_assembleFrom {parameters : List Parameter} {a made : Arguments}
    {components unused : List Component} {w : σ} {name : String}
    (hname : name ∉ parameters.map Parameter.name)
    (h : ((assembleFrom d parameters a components).run w).value = .ok (made, unused)) :
    made.get? name = a.get? name := by
  induction parameters generalizing a components with
  | nil =>
    cases h
    rfl
  | cons q rest ih =>
    rw [List.map_cons, List.mem_cons, not_or] at hname
    obtain ⟨value, left, -, -, -, hrest⟩ := assembleFrom_cons_eq_ok h
    rw [ih hname.2 hrest, Arguments.get?_set, if_neg hname.1]

/-- Each parameter has a value that suits it, if all their names differ. -/
theorem suits_assembleFrom {parameters : List Parameter} {a made : Arguments}
    {components nested unused : List Component} {w : σ}
    (hnames : (parameters.map Parameter.name).Nodup) (hpart : components.Sublist nested)
    (h : ((assembleFrom d parameters a components).run w).value = .ok (made, unused))
    {p : Parameter} (hp : p ∈ parameters) :
    ∃ value, made.get? p.name = some value ∧ p.Suits a.component d nested value ∧
      (value.isAbsent = true → p.required = false) := by
  induction parameters generalizing a components with
  | nil => contradiction
  | cons q rest ih =>
    rw [List.map_cons, List.nodup_cons] at hnames
    obtain ⟨value, left, hsuits, hleft, hpresent, hrest⟩ := assembleFrom_cons_eq_ok h
    rcases List.mem_cons.1 hp with rfl | hp
    · refine ⟨value, ?_, hsuits.mono hpart, hpresent⟩
      rw [get?_assembleFrom hnames.1 hrest, Arguments.get?_set, if_pos rfl]
    · obtain ⟨found, hfound, hfits, hthere⟩ := ih hnames.2 (hleft.trans hpart) hrest hp
      exact ⟨found, hfound, hfits, hthere⟩

end Contents

end Build

/-- Arguments as the schema of a plugin asks for them: one value for each
parameter, which suits it and is there if it is required. -/
structure Arguments.Fit {σ : Type} (a : Arguments) (p : Plugin σ) (d : Declaration)
    (nested : List Component) : Prop where
  component : a.component = p.name
  names : (a.values.map Prod.fst).Perm (p.parameters.map Parameter.name)
  suits : ∀ q ∈ p.parameters, ∃ value, a.get? q.name = some value ∧
    q.Suits p.name d nested value ∧ (value.isAbsent = true → q.required = false)

theorem Build.fit_of_assembled {σ : Type} {p : Plugin σ} {d : Declaration}
    {components : List Component} {a : Arguments}
    (hnames : (p.parameters.map Parameter.name).Nodup) (h : assembled p d components = .ok a) :
    a.Fit p d components := by
  rw [assembled] at h
  cases hmade : ((assembleFrom d p.parameters (.empty p.name) components :
      Traced Unit _).run ()).value with
  | error e =>
    rw [hmade] at h
    contradiction
  | ok made =>
    obtain ⟨made, unused⟩ := made
    rw [hmade] at h
    cases h
    refine ⟨component_assembleFrom hmade, ?_, ?_⟩
    · rw [names_assembleFrom hmade]
      simp [Arguments.empty]
    · intro q hq
      exact suits_assembleFrom hnames (List.Sublist.refl components) hmade hq

namespace Arguments

/-- A parameter of one of the kinds that are read by force can be read so. -/
def Reads (a : Arguments) (q : Parameter) : Prop :=
  match q.kind with
  | .bool => ∃ b, a.bool q.name = .ok b
  | .int => ∃ n, a.int q.name = .ok n
  | .charset => ∃ c, a.charset q.name = .ok c
  | _ => True

/-- With a standard value, or if it is required, an attribute is never missing,
and so never of another kind. -/
theorem Fit.reads {σ : Type} {a : Arguments} {p : Plugin σ} {d : Declaration}
    {nested : List Component} (h : a.Fit p d nested) {q : Parameter} (hq : q ∈ p.parameters)
    (hgiven : q.standard.isSome = true ∨ q.required = true) : a.Reads q := by
  obtain ⟨value, hvalue, hsuits, hpresent⟩ := h.suits q hq
  have hkind : q.kind.isAttribute = true → value.HasKind q.kind := by
    intro hattribute
    rw [Parameter.suits_attribute hattribute, Parameter.SuitsAttribute] at hsuits
    cases hraw : q.raw? d with
    | some raw =>
      rw [hraw] at hsuits
      exact hsuits.2
    | none =>
      rw [hraw] at hsuits
      have hoptional := hpresent (by rw [hsuits]; rfl)
      have hstandard : q.standard = none := (Option.or_eq_none_iff.1 hraw).2
      rw [hstandard, hoptional] at hgiven
      simp at hgiven
  unfold Reads
  cases hattribute : q.kind with
  | bool =>
    rw [hattribute] at hkind
    cases value with
    | bool b => exact ⟨b, by rw [Arguments.bool, hvalue]⟩
    | _ => exact (hkind rfl).elim
  | int =>
    rw [hattribute] at hkind
    cases value with
    | int n => exact ⟨n, by rw [Arguments.int, hvalue]⟩
    | _ => exact (hkind rfl).elim
  | charset =>
    rw [hattribute] at hkind
    cases value with
    | charset c => exact ⟨c, by rw [Arguments.charset, hvalue]⟩
    | _ => exact (hkind rfl).elim
  | text => trivial
  | element type => trivial
  | elements type => trivial

end Arguments
end LoggingFacade
