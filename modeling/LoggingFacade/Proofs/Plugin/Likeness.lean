import LoggingFacade.Proofs.Plugin.Linked
import LoggingFacade.Proofs.Plugin.Reported
import Mathlib.Data.List.Forall2

/-!
# Components that are alike

The identity of an appender depends on all that was made before it, so building a declaration
twice never gives the same appender. What is meant by alike is therefore left open: any
relation of appenders extends to components, arguments and ends of factories. If factories
end alike when their arguments are alike, whatever the states, then a declaration is built
into like components in any two states, or fails for the same reason in both.
-/

namespace LoggingFacade

/-- Both fail for the same reason, or both succeed, with related values. -/
inductive Agree {α β : Type} (R : α → β → Prop) : Except Error α → Except Error β → Prop
  | ok {a : α} {b : β} (h : R a b) : Agree R (.ok a) (.ok b)
  | error (e : Error) : Agree R (.error e) (.error e)

theorem Agree.map {α β γ δ : Type} {R : α → β → Prop} {S : γ → δ → Prop} {first : Except Error α}
    {second : Except Error β} (h : Agree R first second) {f : α → γ} {g : β → δ}
    (hfg : ∀ a b, R a b → S (f a) (g b)) : Agree S (first.map f) (second.map g) := by
  cases h with
  | ok h => exact .ok (hfg _ _ h)
  | error e => exact .error e

variable {same : Appender → Appender → Prop}

/-- Maps are alike if they have like appenders under each name, in whatever order. -/
inductive Component.Like (same : Appender → Appender → Prop) : Component → Component → Prop
  | layout (l : Layout) : Like same (.layout l) (.layout l)
  | appender {a b : Appender} (h : same a b) : Like same (.appender a) (.appender b)
  | appenders {m n : AppenderMap} (h : ∀ name, Option.Rel same (m.get? name) (n.get? name)) :
    Like same (.appenders m) (.appenders n)

inductive Argument.Like (same : Appender → Appender → Prop) : Argument → Argument → Prop
  | absent : Like same .absent .absent
  | bool (value : Bool) : Like same (.bool value) (.bool value)
  | int (value : Int) : Like same (.int value) (.int value)
  | charset (value : Charset) : Like same (.charset value) (.charset value)
  | text (value : String) : Like same (.text value) (.text value)
  | element {c d : Component} (h : c.Like same d) : Like same (.element c) (.element d)
  | elements {cs ds : List Component} (h : List.Forall₂ (Component.Like same) cs ds) :
    Like same (.elements cs) (.elements ds)

structure Arguments.Like (same : Appender → Appender → Prop) (a b : Arguments) : Prop where
  component : a.component = b.component
  values : List.Forall₂ (fun x y => x.1 = y.1 ∧ x.2.Like same y.2) a.values b.values

inductive Attempt.Like (same : Appender → Appender → Prop) :
    Attempt Component → Attempt Component → Prop
  | done {c d : Component} (h : c.Like same d) : Like same (.done c) (.done d)
  | failed (e : Error) : Like same (.failed e) (.failed e)
  | crashed : Like same .crashed .crashed

/-- Given like arguments, a factory ends alike in any two states. -/
def Binding.Respects {σ : Type} (b : Binding σ) (same : Appender → Appender → Prop) : Prop :=
  ∀ typeName p, b.lookup typeName = some p → ∀ x y, Arguments.Like same x y → ∀ w v,
    ((p.factory x).run w).value.Like same ((p.factory y).run v).value

theorem Component.Like.elementType {c d : Component} (h : c.Like same d) :
    c.elementType = d.elementType := by
  cases h <;> rfl

namespace Argument

theorem Like.isAbsent {x y : Argument} (h : x.Like same y) : x.isAbsent = y.isAbsent := by
  cases h <;> rfl

theorem Like.view {x y : Argument} (h : x.Like same y) : x.view = y.view := by
  cases h with
  | element h => simp [Argument.view, h.elementType]
  | elements h =>
    have hviews {cs ds : List Component} (h : List.Forall₂ (Component.Like same) cs ds) :
        (cs.map fun c => c.elementType.viewName ++ "(..)") =
          ds.map fun c => c.elementType.viewName ++ "(..)" := by
      induction h with
      | nil => rfl
      | cons hc _ ih => simp [hc.elementType, ih]
    simp [Argument.view, hviews h]
  | _ => rfl

/-- Values of attributes hold no appenders. -/
theorem like_of_hasKind {value : Argument} {kind : ParameterKind} (hkind : kind.isAttribute = true)
    (h : value.HasKind kind) : value.Like same value := by
  cases value with
  | element c => cases kind <;> simp_all [HasKind, ParameterKind.isAttribute]
  | elements cs => cases kind <;> simp_all [HasKind, ParameterKind.isAttribute]
  | absent => exact .absent
  | bool b => exact .bool b
  | int n => exact .int n
  | charset c => exact .charset c
  | text s => exact .text s

end Argument

/-! ## Building -/

/-- A choice by type makes the same choice among like components. -/
theorem Component.like_filter {cs ds : List Component}
    (h : List.Forall₂ (Component.Like same) cs ds) (accepts : ElementType → Bool) :
    List.Forall₂ (Component.Like same) (cs.filter fun c => accepts c.elementType)
      (ds.filter fun c => accepts c.elementType) := by
  apply List.rel_filter _ h
  intro c d hcd
  simp [hcd.elementType]

theorem Parameter.like_read (q : Parameter) (component : String) (d : Declaration)
    {cs ds : List Component} (h : List.Forall₂ (Component.Like same) cs ds) :
    Agree (Argument.Like same) (q.read component d cs) (q.read component d ds) := by
  obtain hattribute | ⟨type, hkind⟩ | ⟨type, hkind⟩ := q.kind.attribute_or_nested
  · rw [read_attribute hattribute, read_attribute hattribute]
    cases q.raw? d with
    | none => exact .ok .absent
    | some raw =>
      simp only
      cases hread : Coercion.coerce component q.name q.kind raw with
      | error e => exact .error e
      | ok value =>
        exact .ok (Argument.like_of_hasKind hattribute (Coercion.hasKind_of_coerce hread))
  · unfold read
    simp only [hkind]
    cases h with
    | nil => exact .ok .absent
    | cons hc _ => exact .ok (.element hc)
  · unfold read
    simp only [hkind]
    exact .ok (.elements h)

namespace Build

variable {σ : Type} {b : Binding σ} {p : Plugin σ} {d : Declaration}

theorem like_assembleFrom (parameters : List Parameter) {x y : Arguments}
    {cs ds : List Component} (hxy : x.Like same y)
    (h : List.Forall₂ (Component.Like same) cs ds) (w : σ) :
    Agree (fun made other => made.1.Like same other.1)
      ((assembleFrom d parameters x cs).run w).value
      ((assembleFrom d parameters y ds).run w).value := by
  induction parameters generalizing x y cs ds with
  | nil => exact .ok hxy
  | cons q rest ih =>
    simp only [assembleFrom, Traced.value_bind, run_argument, hxy.component]
    have hpicks := Component.like_filter h fun type => q.nested? = some type
    have hleaves := Component.like_filter h fun type => q.nested? ≠ some type
    have hread := q.like_read y.component d hpicks
    change Agree _ (q.read y.component d (q.picks cs)) (q.read y.component d (q.picks ds)) at hread
    generalize q.read y.component d (q.picks cs) = first at hread ⊢
    generalize q.read y.component d (q.picks ds) = second at hread ⊢
    cases hread with
    | error e => exact .error e
    | ok hvalue =>
      simp only [Except.map, hvalue.isAbsent]
      split
      · exact .error _
      · exact ih ⟨hxy.component, .cons ⟨rfl, hvalue⟩ hxy.values⟩ hleaves

theorem like_assembled (p : Plugin σ) (d : Declaration) {cs ds : List Component}
    (h : List.Forall₂ (Component.Like same) cs ds) :
    Agree (Arguments.Like same) (assembled p d cs) (assembled p d ds) := by
  have hmade := like_assembleFrom (d := d) p.parameters (x := .empty p.name) ⟨rfl, .nil⟩ h ()
  exact hmade.map fun _ _ hargs => hargs

theorem like_judge (p : Plugin σ) {first second : Attempt Component}
    (h : first.Like same second) :
    Agree (Component.Like same) (judge p first) (judge p second) := by
  cases h with
  | crashed => exact .error _
  | failed e => exact .error _
  | done hc =>
    simp only [judge, hc.elementType]
    split
    · exact .ok hc
    · exact .error _

mutual

/-- In any two states a declaration is built into like components. -/
theorem like_build (hb : b.Respects same) (d : Declaration) (w v : σ) :
    Agree (Component.Like same) ((build b d).run w).value ((build b d).run v).value := by
  obtain ⟨typeName, attributes, children⟩ := d
  cases hp : b.lookup typeName with
  | none =>
    rw [value_build_of_none (d := ⟨typeName, attributes, children⟩) hp,
      value_build_of_none (d := ⟨typeName, attributes, children⟩) hp]
    exact .error _
  | some p =>
    rw [(build_of_some (d := ⟨typeName, attributes, children⟩) hp w).1,
      (build_of_some (d := ⟨typeName, attributes, children⟩) hp v).1]
    have hnested := like_buildChildren hb children w v
      (Declaration.label ⟨typeName, attributes, children⟩)
    have hmade := like_assembled p ⟨typeName, attributes, children⟩ hnested
    rw [nested, nested]
    simp only
    generalize assembled p ⟨typeName, attributes, children⟩ _ = first at hmade ⊢
    generalize assembled p ⟨typeName, attributes, children⟩ _ = second at hmade ⊢
    cases hmade with
    | error e => exact .error e
    | ok hargs => exact like_judge p (hb typeName p hp _ _ hargs _ _)

theorem like_buildChildren (hb : b.Respects same) (ds : List Declaration) (w v : σ)
    (parent : String) : List.Forall₂ (Component.Like same)
      ((buildChildren b parent ds).run w).value ((buildChildren b parent ds).run v).value := by
  cases ds with
  | nil =>
    rw [buildChildren]
    exact .nil
  | cons child rest =>
    rw [value_buildChildren_cons, value_buildChildren_cons]
    have hchild := like_build hb child w v
    have hrest := like_buildChildren hb rest ((build b child).run w).state
      ((build b child).run v).state parent
    generalize ((build b child).run w).value = first at hchild ⊢
    generalize ((build b child).run v).value = second at hchild ⊢
    cases hchild with
    | error e => exact hrest
    | ok hc => exact .cons hc hrest

end

/-! ## Nested components of other types -/

section Others

variable {accepts : ElementType → Bool}

/-- The arguments are the same without the components that no parameter takes. -/
theorem assembleFrom_filter {parameters : List Parameter}
    (h : ∀ q ∈ parameters, ∀ type, q.nested? = some type → accepts type = true) (a : Arguments)
    (components : List Component) (w : σ) :
    ((assembleFrom d parameters a (components.filter fun c => accepts c.elementType)).run
        w).value.map Prod.fst =
      ((assembleFrom d parameters a components).run w).value.map Prod.fst := by
  induction parameters generalizing a components with
  | nil => rfl
  | cons q rest ih =>
    obtain ⟨hq, hrest⟩ := List.forall_mem_cons.1 h
    have hpicks : q.picks (components.filter fun c => accepts c.elementType) =
        q.picks components := by
      unfold Parameter.picks
      rw [List.filter_filter]
      apply List.filter_congr
      intro c _
      by_cases hc : q.nested? = some c.elementType
      · simp [hc, hq _ hc]
      · simp [hc]
    have hleaves : q.leaves (components.filter fun c => accepts c.elementType) =
        (q.leaves components).filter fun c => accepts c.elementType := by
      unfold Parameter.leaves
      rw [List.filter_comm]
    simp only [assembleFrom, Traced.value_bind, run_argument, hpicks, hleaves]
    cases q.read a.component d (q.picks components) with
    | error e => rfl
    | ok value =>
      cases habsent : q.required && value.isAbsent with
      | true => simp only [Except.map, habsent, ↓reduceIte]
      | false =>
        simp only [Except.map, habsent, Bool.false_eq_true, ↓reduceIte]
        exact ih hrest _ _

theorem assembled_filter
    (h : ∀ q ∈ p.parameters, ∀ type, q.nested? = some type → accepts type = true)
    (components : List Component) :
    assembled p d (components.filter fun c => accepts c.elementType) =
      assembled p d components :=
  assembleFrom_filter h (.empty p.name) components ()

/-- Where it is known of the declarations which ones are built into components of certain
types, those alone are built into like components of these types. -/
theorem like_filter_buildChildren (hb : b.Respects same) {keep : Declaration → Bool}
    (hkeep : ∀ d w, keep d = ((build b d).run w).value.toOption.any (accepts ·.elementType))
    (ds : List Declaration) (w v : σ) (parent : String) : List.Forall₂ (Component.Like same)
      (((buildChildren b parent ds).run w).value.filter fun c => accepts c.elementType)
      ((buildChildren b parent (ds.filter keep)).run v).value := by
  -- The two runs need not be in like states: whether a declaration is kept is the same in all.
  induction ds generalizing w v with
  | nil =>
    rw [List.filter_nil, buildChildren]
    exact .nil
  | cons child rest ih =>
    rw [value_buildChildren_cons]
    cases hchild : keep child with
    | false =>
      have hother := hkeep child w
      rw [hchild] at hother
      rw [List.filter_cons_of_neg (by simp [hchild])]
      have hrest := ih ((build b child).run w).state v
      generalize ((build b child).run w).value = value at hother ⊢
      cases value with
      | error e => exact hrest
      | ok c =>
        rw [List.filter_cons_of_neg (by simpa [Except.toOption] using hother.symm)]
        exact hrest
    | true =>
      have htaken := hkeep child w
      rw [hchild] at htaken
      rw [List.filter_cons_of_pos hchild, value_buildChildren_cons]
      have hlike := like_build hb child w v
      have hrest := ih ((build b child).run w).state ((build b child).run v).state
      generalize ((build b child).run w).value = first at htaken hlike ⊢
      generalize ((build b child).run v).value = second at hlike ⊢
      cases hlike with
      | error e => simp [Except.toOption] at htaken
      | ok hc =>
        rw [List.filter_cons_of_pos (by simpa [Except.toOption] using htaken.symm)]
        exact .cons hc hrest

/-- Nested declarations that are not built into what a parameter takes have no part in what
is built. -/
theorem like_build_filter (hb : b.Respects same) (hp : b.lookup d.typeName = some p)
    (haccepts : ∀ q ∈ p.parameters, ∀ type, q.nested? = some type → accepts type = true)
    {keep : Declaration → Bool}
    (hkeep : ∀ d w, keep d = ((build b d).run w).value.toOption.any (accepts ·.elementType))
    (w v : σ) : Agree (Component.Like same) ((build b d).run w).value
      ((build b { d with children := d.children.filter keep }).run v).value := by
  have hother : b.lookup { d with children := d.children.filter keep }.typeName = some p := hp
  rw [(build_of_some hp w).1, (build_of_some hother v).1]
  have hnested := like_filter_buildChildren hb hkeep d.children w v d.label
  have hmade := like_assembled p d hnested
  rw [assembled_filter haccepts] at hmade
  change Agree _ (assembled p d (nested b d w))
    (assembled p d (nested b { d with children := d.children.filter keep } v)) at hmade
  rw [assembled_congr p (d := d) (e := { d with children := d.children.filter keep }) rfl
    (nested b { d with children := d.children.filter keep } v)] at hmade
  generalize assembled p d _ = first at hmade ⊢
  generalize assembled p { d with children := d.children.filter keep } _ = second at hmade ⊢
  cases hmade with
  | error e => exact .error e
  | ok hargs => exact like_judge p (hb _ p hp _ _ hargs _ _)

end Others

end Build

/-! ## Reading arguments -/

namespace Arguments

variable {a b : Arguments}

theorem Like.get? (h : a.Like same b) (name : String) :
    Option.Rel (Argument.Like same) (a.get? name) (b.get? name) := by
  obtain ⟨component, values⟩ := a
  obtain ⟨other, others⟩ := b
  obtain ⟨-, hvalues⟩ := h
  unfold Arguments.get?
  simp only at hvalues ⊢
  induction hvalues with
  | nil => exact .none
  | @cons x y _ _ hxy _ ih =>
    obtain ⟨key, value⟩ := x
    obtain ⟨_, other⟩ := y
    obtain ⟨rfl, hvalue⟩ := hxy
    rw [TextMap.lookup_cons_eq, TextMap.lookup_cons_eq]
    split
    · exact .some hvalue
    · exact ih

/-- Like arguments have like values under a name, or none. -/
theorem Like.get?_cases (h : a.Like same b) (name : String) :
    (a.get? name = none ∧ b.get? name = none) ∨
      ∃ x y, a.get? name = some x ∧ b.get? name = some y ∧ x.Like same y := by
  have hget := h.get? name
  generalize a.get? name = first at hget ⊢
  generalize b.get? name = second at hget ⊢
  cases hget with
  | none => exact .inl ⟨rfl, rfl⟩
  | some hxy => exact .inr ⟨_, _, rfl, rfl, hxy⟩

theorem Like.mismatch (h : a.Like same b) (name expected : String) :
    a.mismatch name expected = b.mismatch name expected := by
  rw [Arguments.mismatch, Arguments.mismatch, h.component]
  rcases h.get?_cases name with ⟨ha, hb⟩ | ⟨x, y, ha, hb, hxy⟩
  · rw [ha, hb]
  · simp only [ha, hb, Argument.viewOption, hxy.view]

theorem Like.bool (h : a.Like same b) (name : String) : a.bool name = b.bool name := by
  rw [Arguments.bool, Arguments.bool, h.mismatch]
  rcases h.get?_cases name with ⟨ha, hb⟩ | ⟨x, y, ha, hb, hxy⟩
  · rw [ha, hb]
  · rw [ha, hb]
    cases hxy <;> rfl

theorem Like.charset (h : a.Like same b) (name : String) : a.charset name = b.charset name := by
  rw [Arguments.charset, Arguments.charset, h.mismatch]
  rcases h.get?_cases name with ⟨ha, hb⟩ | ⟨x, y, ha, hb, hxy⟩
  · rw [ha, hb]
  · rw [ha, hb]
    cases hxy <;> rfl

theorem Like.text? (h : a.Like same b) (name : String) : a.text? name = b.text? name := by
  rw [Arguments.text?, Arguments.text?]
  rcases h.get?_cases name with ⟨ha, hb⟩ | ⟨x, y, ha, hb, hxy⟩
  · rw [ha, hb]
  · rw [ha, hb]
    cases hxy <;> rfl

theorem Like.requiredText (h : a.Like same b) (name : String) :
    a.requiredText name = b.requiredText name := by
  rw [Arguments.requiredText, Arguments.requiredText, h.text?, h.component]

theorem Like.layout? (h : a.Like same b) (name : String) : a.layout? name = b.layout? name := by
  rw [Arguments.layout?, Arguments.layout?, Arguments.element?, Arguments.element?]
  rcases h.get?_cases name with ⟨ha, hb⟩ | ⟨x, y, ha, hb, hxy⟩
  · rw [ha, hb]
  · rw [ha, hb]
    cases hxy with
    | element hc => cases hc <;> rfl
    | _ => rfl

theorem Like.elements (h : a.Like same b) (name : String) :
    List.Forall₂ (Component.Like same) (a.elements name) (b.elements name) := by
  rw [Arguments.elements, Arguments.elements]
  rcases h.get?_cases name with ⟨ha, hb⟩ | ⟨x, y, ha, hb, hxy⟩
  · rw [ha, hb]
    exact .nil
  · rw [ha, hb]
    cases hxy with
    | elements hcs => exact hcs
    | _ => exact .nil

end Arguments

/-! ## The linked plugins -/

/-- The appenders have the same name and the same layout. -/
def Appender.Twins (a b : Appender) : Prop := a.name = b.name ∧ a.layout = b.layout

theorem getLast?_rel {α β : Type} {R : α → β → Prop} {l : List α} {m : List β}
    (h : List.Forall₂ R l m) : Option.Rel R l.getLast? m.getLast? := by
  have hreverse := List.rel_reverse h
  rw [List.getLast?_eq_head?_reverse, List.getLast?_eq_head?_reverse]
  generalize l.reverse = first at hreverse ⊢
  generalize m.reverse = second at hreverse ⊢
  cases hreverse with
  | nil => exact .none
  | cons hlast _ => exact .some hlast

theorem AppenderMap.like_collected {as bs : List Appender}
    (hname : ∀ a b, same a b → a.name = b.name) (h : List.Forall₂ same as bs) (name : String) :
    Option.Rel same ((collected as).get? name) ((collected bs).get? name) := by
  rw [get?_collected, get?_collected]
  apply getLast?_rel
  apply List.rel_filter _ h
  intro a b hab
  simp [hname a b hab]

/-- What the linked plugins make has the name and the layout that the arguments say. -/
theorem Binding.Linked.respects_twins {b : Binding World} (hb : b.Linked) :
    b.Respects Appender.Twins := by
  intro typeName p hp x y hxy w v
  have hlinked := hb typeName p hp
  simp only [Plugin.linked, List.mem_cons, List.not_mem_nil, or_false] at hlinked
  rcases hlinked with rfl | rfl | rfl | rfl
  · have hsame : Plugin.xmlLayout x = Plugin.xmlLayout y := by
      simp only [Plugin.xmlLayout, hxy.bool, hxy.charset]
    simp only [Plugin.xml, hsame, Traced.value_pure]
    cases Plugin.xmlLayout y with
    | error e => exact .failed e
    | ok made => exact .done (.layout _)
  · have hsame : Plugin.consoleSettings x = Plugin.consoleSettings y := by
      simp only [Plugin.consoleSettings, hxy.requiredText, hxy.text?]
    simp only [Plugin.factory_console, hsame]
    cases Plugin.consoleSettings y with
    | error e => exact .failed e
    | ok settings => exact .done (.appender ⟨rfl, hxy.layout? "layout"⟩)
  · simp only [Plugin.factory_memory, hxy.requiredText]
    cases y.requiredText "name" with
    | error e => exact .failed e
    | ok name =>
      simp only [Traced.value_bind, Traced.value_pure]
      rw [(Appender.run_publishedMemory name (x.layout? "layout") w).1,
        (Appender.run_publishedMemory name (y.layout? "layout") v).1]
      exact .done (.appender ⟨rfl, hxy.layout? "layout"⟩)
  · rw [Plugin.value_appenderSet, Plugin.value_appenderSet]
    refine .done (.appenders (AppenderMap.like_collected (fun a b hab => hab.1) ?_))
    refine List.rel_filterMap ?_ (hxy.elements "appenders")
    intro c d hcd
    cases hcd with
    | appender hab => exact .some hab
    | _ => exact .none

end LoggingFacade
