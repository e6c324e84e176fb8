import LoggingFacade.Proofs.Plugin.Reported
import Mathlib.Data.List.Forall2

/-!
# The order in which factories are called

Building a declaration tries what is nested in it first, in order and at every depth, and
calls the declaration's own factory last: once, if its arguments can be made, which takes
that the text of every attribute is of its kind and that no required parameter goes
without. How the factories before it ended has no part in this.

`tried` lists the declarations in the order in which they are done, each under its address.
Of two entries the earlier one is never above the later one, so no declaration is done twice,
and none before what is nested in it.
-/

namespace LoggingFacade

/-! ## Arguments that can be made -/

theorem Argument.HasKind.isAbsent {value : Argument} {kind : ParameterKind}
    (h : value.HasKind kind) : value.isAbsent = false := by
  cases value with
  | absent => cases kind <;> exact h.elim
  | _ => rfl

namespace Parameter

/-- The text of an attribute, given or standard, is one of the parameter's kind. -/
def Coerces (q : Parameter) (component : String) (d : Declaration) : Prop :=
  q.kind.isAttribute = true → ∀ raw, q.raw? d = some raw →
    ∃ value, Coercion.coerce component q.name q.kind raw = .ok value

/-- There is nothing to make the argument of: no text, or no component of its type among
those that the parameters before it left. -/
def Missing (q : Parameter) (d : Declaration) (picked : List Component) : Prop :=
  match q.kind with
  | .element _ => picked = []
  | .elements _ => False
  | _ => q.raw? d = none

/-- The argument that a parameter sets, and the name that it sets it under. -/
structure Sets (q : Parameter) (component : String) (d : Declaration) (picked : List Component)
    (x : String × Argument) : Prop where
  name : x.1 = q.name
  read : q.read component d picked = .ok x.2
  present : q.required = true → x.2.isAbsent = false

variable {q : Parameter} {component : String} {d : Declaration} {picked : List Component}

theorem missing_attribute (h : q.kind.isAttribute = true) :
    q.Missing d picked ↔ q.raw? d = none := by
  unfold Missing
  cases hkind : q.kind with
  | element type => simp [hkind, ParameterKind.isAttribute] at h
  | elements type => simp [hkind, ParameterKind.isAttribute] at h
  | _ => rfl

/-- What a parameter reads is absent only if there was nothing to read. -/
theorem isAbsent_read {value : Argument} (h : q.read component d picked = .ok value) :
    value.isAbsent = true ↔ q.Missing d picked := by
  obtain hattribute | ⟨type, hkind⟩ | ⟨type, hkind⟩ := q.kind.attribute_or_nested
  · rw [missing_attribute hattribute]
    rw [read_attribute hattribute] at h
    cases hraw : q.raw? d with
    | none =>
      simp only [hraw, Except.ok.injEq] at h
      simp [← h, Argument.isAbsent]
    | some raw =>
      simp only [hraw] at h
      simp [(Coercion.hasKind_of_coerce h).isAbsent]
  · unfold read at h
    simp only [hkind, Except.ok.injEq] at h
    cases picked <;> simp [Missing, hkind, ← h, Argument.isAbsent]
  · unfold read at h
    simp only [hkind, Except.ok.injEq] at h
    simp [Missing, hkind, ← h, Argument.isAbsent]

theorem exists_read_iff : (∃ value, q.read component d picked = .ok value) ↔
    q.Coerces component d := by
  unfold Coerces
  obtain hattribute | ⟨type, hkind⟩ | ⟨type, hkind⟩ := q.kind.attribute_or_nested
  · rw [read_attribute hattribute]
    cases q.raw? d with
    | none => simp
    | some raw => simp [hattribute]
  · unfold read
    simp [hkind, ParameterKind.isAttribute]
  · unfold read
    simp [hkind, ParameterKind.isAttribute]

/-- A parameter sets an argument if its text is of its kind and it does not go without. -/
theorem exists_sets_iff : (∃ x, q.Sets component d picked x) ↔
    q.Coerces component d ∧ (q.required = true → ¬q.Missing d picked) := by
  have hreads : (∃ value, q.read component d picked = .ok value) ↔ q.Coerces component d :=
    exists_read_iff
  rw [← hreads]
  constructor
  · rintro ⟨x, -, hread, hpresent⟩
    refine ⟨⟨x.2, hread⟩, fun hrequired hmissing => ?_⟩
    have habsent := (isAbsent_read hread).2 hmissing
    simp [hpresent hrequired] at habsent
  · rintro ⟨⟨value, hread⟩, hgiven⟩
    refine ⟨(q.name, value), rfl, hread, fun hrequired => ?_⟩
    rw [← Bool.not_eq_true, isAbsent_read hread]
    exact hgiven hrequired

end Parameter

namespace Build

variable {σ : Type} {b : Binding σ} {p : Plugin σ} {d : Declaration} {a : Arguments}
  {components : List Component}

/-- Each parameter in turn sets an argument from what it takes, or there are none. -/
theorem value_assembleFrom_iff {parameters : List Parameter} {made : Arguments}
    {unused : List Component} {w : σ} :
    ((assembleFrom d parameters a components).run w).value = .ok (made, unused) ↔
      ∃ given, List.Forall₂ (fun s x => s.1.Sets a.component d s.2 x)
          (shares parameters components) given ∧
        made = ⟨a.component, given.reverse ++ a.values⟩ ∧
        unused = untaken parameters components := by
  induction parameters generalizing a components with
  | nil =>
    have hall : untaken [] components = components := List.filter_eq_self.2 fun _ _ => rfl
    simp [assembleFrom, shares, hall, eq_comm]
  | cons q rest ih =>
    rw [assembleFrom, Traced.value_bind, run_argument, untaken_cons, shares]
    constructor
    · intro h
      cases hread : q.read a.component d (q.picks components) with
      | error e => simp [hread, Except.map] at h
      | ok value =>
        simp only [hread, Except.map] at h
        split at h
        · simp at h
        · rename_i hpresent
          obtain ⟨given, hgiven, rfl, hunused⟩ := ih.1 h
          refine ⟨(q.name, value) :: given, .cons ⟨rfl, hread, ?_⟩ hgiven, ?_, hunused⟩
          · intro hrequired
            rw [hrequired, Bool.true_and] at hpresent
            exact Bool.not_eq_true _ ▸ hpresent
          · simp [Arguments.set]
    · rintro ⟨given, hgiven, rfl, hunused⟩
      obtain ⟨x, later, hx, hlater, rfl⟩ := List.forall₂_cons_left_iff.1 hgiven
      obtain ⟨name, value⟩ := x
      obtain ⟨hname, hread, hpresent⟩ := hx
      obtain rfl : name = q.name := hname
      simp only [hread, Except.map]
      split
      · rename_i habsent
        rw [Bool.and_eq_true] at habsent
        simp [hpresent habsent.1] at habsent
      · exact ih.2 ⟨later, hlater, by simp [Arguments.set], hunused⟩

/-- Arguments hold what each parameter sets, in the order of the schema from the back. -/
structure SetBy (a : Arguments) (p : Plugin σ) (d : Declaration) (components : List Component) :
    Prop where
  component : a.component = p.name
  values : List.Forall₂ (fun s x => s.1.Sets p.name d s.2 x) (shares p.parameters components)
    a.values.reverse

theorem assembled_eq_ok_iff : assembled p d components = .ok a ↔ SetBy a p d components := by
  rw [assembled]
  constructor
  · intro h
    cases hvalue : ((assembleFrom d p.parameters (.empty p.name) components :
        Traced Unit _).run ()).value with
    | error e => simp [hvalue, Except.map] at h
    | ok made =>
      simp only [hvalue, Except.map, Except.ok.injEq] at h
      obtain ⟨given, hgiven, hmade, -⟩ := value_assembleFrom_iff.1 hvalue
      rw [← h, hmade]
      exact ⟨rfl, by simpa [Arguments.empty] using hgiven⟩
  · rintro ⟨hcomponent, hvalues⟩
    have hvalue : ((assembleFrom d p.parameters (.empty p.name) components :
        Traced Unit _).run ()).value = .ok (a, untaken p.parameters components) := by
      refine value_assembleFrom_iff.2 ⟨_, hvalues, ?_, rfl⟩
      simp [Arguments.empty, ← hcomponent]
    simp [hvalue, Except.map]

/-- Nothing stands in the way of the arguments. -/
def Complete (p : Plugin σ) (d : Declaration) (components : List Component) : Prop :=
  ∀ s ∈ shares p.parameters components,
    s.1.Coerces p.name d ∧ (s.1.required = true → ¬s.1.Missing d s.2)

theorem exists_forall₂_iff {α β : Type} {R : α → β → Prop} {l : List α} :
    (∃ m, List.Forall₂ R l m) ↔ ∀ x ∈ l, ∃ y, R x y := by
  induction l with
  | nil => simp
  | cons x rest ih =>
    rw [List.forall_mem_cons, ← ih]
    constructor
    · rintro ⟨m, hm⟩
      obtain ⟨y, later, hy, hlater, rfl⟩ := List.forall₂_cons_left_iff.1 hm
      exact ⟨⟨y, hy⟩, later, hlater⟩
    · rintro ⟨⟨y, hy⟩, later, hlater⟩
      exact ⟨y :: later, .cons hy hlater⟩

theorem exists_assembled_iff : (∃ a, assembled p d components = .ok a) ↔
    Complete p d components := by
  unfold Complete
  simp only [← Parameter.exists_sets_iff, ← exists_forall₂_iff, assembled_eq_ok_iff]
  constructor
  · rintro ⟨a, -, hvalues⟩
    exact ⟨_, hvalues⟩
  · rintro ⟨given, hgiven⟩
    exact ⟨⟨p.name, given.reverse⟩, rfl, by simpa using hgiven⟩

/-! ## Declarations that are tried -/

/-- A declaration that is tried, where it stands in the one that is built, and the state it
is tried in. -/
structure Tried (σ : Type) where
  address : List Nat
  node : Declaration
  state : σ

namespace Tried

/-- The same as a part of the declaration that it is nested in. -/
def under (i : Nat) (t : Tried σ) : Tried σ := { t with address := i :: t.address }

/-- The call of its own factory, if its arguments can be made. -/
def calls (b : Binding σ) (t : Tried σ) : List (FactoryCall σ) :=
  match b.lookup t.node.typeName with
  | none => []
  | some p => ownInvocation p t.node (nested b t.node t.state)

end Tried

mutual

/-- The declarations that are tried in building one, in the order in which they are done. -/
def tried (b : Binding σ) : Declaration → σ → List (Tried σ)
  | ⟨typeName, attributes, children⟩, w =>
    (if (b.lookup typeName).isSome then triedAll b 0 children w else []) ++
      [⟨[], ⟨typeName, attributes, children⟩, w⟩]

/-- The same for nested declarations, the first of which stands at a given place. -/
def triedAll (b : Binding σ) : Nat → List Declaration → σ → List (Tried σ)
  | _, [], _ => []
  | i, child :: rest, w =>
    (tried b child w).map (Tried.under i) ++ triedAll b (i + 1) rest ((build b child).run w).state

end

/-- Declarations that are built one by one, with the states that they are tried in. -/
def starts (b : Binding σ) : List Declaration → σ → List (Declaration × σ)
  | [], _ => []
  | d :: rest, w => (d, w) :: starts b rest ((build b d).run w).state

theorem tried_of_none (h : b.lookup d.typeName = none) (w : σ) : tried b d w = [⟨[], d, w⟩] := by
  obtain ⟨typeName, attributes, children⟩ := d
  rw [tried]
  simp only at h
  simp [h]

theorem nestedInvocations_eq (b : Binding σ) (ds : List Declaration) (w : σ) :
    nestedInvocations b ds w = (starts b ds w).flatMap fun s => invoked b s.1 s.2 := by
  induction ds generalizing w with
  | nil => rw [nestedInvocations, starts, List.flatMap_nil]
  | cons d rest ih => rw [nestedInvocations, starts, List.flatMap_cons, ih, invoked_eq]

theorem invokedBelow_of_some (h : b.lookup d.typeName = some p) (w : σ) :
    invokedBelow b d w = nestedInvocations b d.children w := by
  rw [invokedBelow, h]
  simp only [records_buildChildren b d.label d.children w [], List.nil_append]

theorem length_calls_le (b : Binding σ) (t : Tried σ) : (t.calls b).length ≤ 1 := by
  unfold Tried.calls
  split
  · exact Nat.zero_le 1
  · exact length_ownInvocation_le _ _ _

/-- A call is made for the plugin of the declaration, with arguments that were made. -/
theorem mem_calls {t : Tried σ} {call : FactoryCall σ} (h : call ∈ t.calls b) :
    b.lookup t.node.typeName = some call.1 ∧
      SetBy call.2 call.1 t.node (nested b t.node t.state) := by
  unfold Tried.calls at h
  split at h
  · contradiction
  · rename_i p hp
    obtain ⟨rfl, hmade⟩ := mem_ownInvocation h
    exact ⟨hp, assembled_eq_ok_iff.1 hmade⟩

mutual

/-- The calls are those of the declarations that are tried. -/
theorem flatMap_calls_tried (b : Binding σ) (d : Declaration) (w : σ) :
    (tried b d w).flatMap (Tried.calls b) = invocations b d w := by
  obtain ⟨typeName, attributes, children⟩ := d
  rw [tried, invocations]
  cases hp : b.lookup typeName with
  | none => simp [Tried.calls, hp]
  | some p =>
    have hnested := flatMap_calls_triedAll b 0 children w
    simp [Tried.calls, hp, hnested]

theorem flatMap_calls_triedAll (b : Binding σ) (i : Nat) (ds : List Declaration) (w : σ) :
    (triedAll b i ds w).flatMap (Tried.calls b) = nestedInvocations b ds w := by
  cases ds with
  | nil => rw [triedAll, nestedInvocations, List.flatMap_nil]
  | cons child rest =>
    have hcalls : Tried.calls b ∘ Tried.under i = Tried.calls b := rfl
    rw [triedAll, nestedInvocations, List.flatMap_append, List.flatMap_map, ← Function.comp_def,
      hcalls, flatMap_calls_tried b child, flatMap_calls_triedAll b (i + 1) rest]

end

/-! ## Where they stand -/

end Build

/-- The declaration at an address: the places of the nested declarations on the way there. -/
def Declaration.at? : Declaration → List Nat → Option Declaration
  | d, [] => some d
  | d, i :: rest => d.children[i]?.bind fun child => child.at? rest

namespace Build

variable {σ : Type} {b : Binding σ} {p : Plugin σ} {d : Declaration}

theorem address_of_mem_triedAll {i : Nat} {ds : List Declaration} {w : σ} {t : Tried σ}
    (h : t ∈ triedAll b i ds w) : ∃ j rest, t.address = j :: rest ∧ i ≤ j := by
  induction ds generalizing i w with
  | nil =>
    rw [triedAll] at h
    contradiction
  | cons child rest ih =>
    rw [triedAll, List.mem_append, List.mem_map] at h
    obtain ⟨u, -, rfl⟩ | h := h
    · exact ⟨i, u.address, rfl, Nat.le_refl i⟩
    · obtain ⟨j, address, haddress, hle⟩ := ih h
      exact ⟨j, address, haddress, by omega⟩

mutual

theorem at?_of_mem_tried (b : Binding σ) (d : Declaration) (w : σ) {t : Tried σ}
    (h : t ∈ tried b d w) : d.at? t.address = some t.node := by
  obtain ⟨typeName, attributes, children⟩ := d
  rw [tried, List.mem_append, List.mem_singleton] at h
  obtain h | rfl := h
  · split at h
    · obtain ⟨j, rest, haddress, hnode⟩ := at?_of_mem_triedAll b 0 children w h
      rw [haddress, Declaration.at?, ← hnode, Nat.zero_add]
    · contradiction
  · rfl

theorem at?_of_mem_triedAll (b : Binding σ) (i : Nat) (ds : List Declaration) (w : σ) {t : Tried σ}
    (h : t ∈ triedAll b i ds w) : ∃ j rest, t.address = (i + j) :: rest ∧
      (ds[j]?.bind fun child => child.at? rest) = some t.node := by
  cases ds with
  | nil =>
    rw [triedAll] at h
    contradiction
  | cons child ds =>
    rw [triedAll, List.mem_append, List.mem_map] at h
    obtain ⟨u, hu, rfl⟩ | h := h
    · exact ⟨0, u.address, rfl, at?_of_mem_tried b child w hu⟩
    · obtain ⟨j, rest, haddress, hnode⟩ := at?_of_mem_triedAll b (i + 1) ds _ h
      exact ⟨j + 1, rest, by rw [haddress]; congr 1; omega, hnode⟩

end

mutual

/-- An earlier declaration is not above a later one, nor the same. -/
theorem pairwise_tried (b : Binding σ) (d : Declaration) (w : σ) :
    (tried b d w).Pairwise fun t u => ¬t.address <+: u.address := by
  obtain ⟨typeName, attributes, children⟩ := d
  rw [tried, List.pairwise_append]
  split
  · refine ⟨pairwise_triedAll b 0 children w, List.pairwise_singleton _ _, ?_⟩
    intro t ht u hu
    obtain ⟨j, rest, haddress, -⟩ := address_of_mem_triedAll ht
    rw [List.mem_singleton] at hu
    simp [haddress, hu]
  · simp

theorem pairwise_triedAll (b : Binding σ) (i : Nat) (ds : List Declaration) (w : σ) :
    (triedAll b i ds w).Pairwise fun t u => ¬t.address <+: u.address := by
  cases ds with
  | nil =>
    rw [triedAll]
    exact .nil
  | cons child rest =>
    rw [triedAll, List.pairwise_append, List.pairwise_map]
    refine ⟨?_, pairwise_triedAll b (i + 1) rest _, ?_⟩
    · refine (pairwise_tried b child w).imp ?_
      intro t u hnot
      simpa [Tried.under] using hnot
    · -- Addresses in the first child start with `i`, those in the others with a later place.
      intro t ht u hu
      obtain ⟨t, -, rfl⟩ := List.mem_map.1 ht
      obtain ⟨j, address, haddress, hle⟩ := address_of_mem_triedAll hu
      rw [haddress, Tried.under, List.cons_prefix_cons]
      omega

end

theorem exists_root (b : Binding σ) (d : Declaration) (w : σ) :
    ∃ t ∈ tried b d w, t.address = [] := by
  obtain ⟨typeName, attributes, children⟩ := d
  rw [tried]
  exact ⟨_, List.mem_append_right _ (List.mem_singleton_self _), rfl⟩

theorem exists_place {i j : Nat} {ds : List Declaration} {w : σ} (h : j < ds.length) :
    ∃ t ∈ triedAll b i ds w, t.address = [i + j] := by
  induction ds generalizing i j w with
  | nil => simp at h
  | cons child rest ih =>
    rw [triedAll]
    cases j with
    | zero =>
      obtain ⟨t, ht, haddress⟩ := exists_root b child w
      exact ⟨t.under i, List.mem_append_left _ (List.mem_map_of_mem ht), by
        simp [Tried.under, haddress]⟩
    | succ j =>
      obtain ⟨t, ht, haddress⟩ := ih (i := i + 1) (j := j) (by simpa using h)
      exact ⟨t, List.mem_append_right _ ht, by rw [haddress]; congr 1; omega⟩

mutual

/-- Everything directly nested in a declaration that has a plugin is tried with it. -/
theorem exists_nested_tried (b : Binding σ) (d : Declaration) (w : σ) {t : Tried σ}
    (h : t ∈ tried b d w) (hp : b.lookup t.node.typeName = some p) {i : Nat}
    (hi : i < t.node.children.length) : ∃ u ∈ tried b d w, u.address = t.address ++ [i] := by
  obtain ⟨typeName, attributes, children⟩ := d
  rw [tried, List.mem_append, List.mem_singleton] at h
  rw [tried]
  obtain h | rfl := h
  · split at h
    · rename_i hsome
      obtain ⟨u, hu, haddress⟩ := exists_nested_triedAll b 0 children w h hp hi
      exact ⟨u, List.mem_append_left _ (by simpa [hsome] using hu), haddress⟩
    · contradiction
  · obtain ⟨u, hu, haddress⟩ := exists_place (b := b) (i := 0) (w := w) hi
    simp only at hp
    exact ⟨u, List.mem_append_left _ (by simpa [hp] using hu), by simp [haddress]⟩

theorem exists_nested_triedAll (b : Binding σ) (j : Nat) (ds : List Declaration) (w : σ)
    {t : Tried σ} (h : t ∈ triedAll b j ds w) (hp : b.lookup t.node.typeName = some p) {i : Nat}
    (hi : i < t.node.children.length) :
    ∃ u ∈ triedAll b j ds w, u.address = t.address ++ [i] := by
  cases ds with
  | nil =>
    rw [triedAll] at h
    contradiction
  | cons child rest =>
    rw [triedAll, List.mem_append, List.mem_map] at h
    rw [triedAll]
    obtain ⟨v, hv, rfl⟩ | h := h
    · obtain ⟨u, hu, haddress⟩ := exists_nested_tried b child w hv hp hi
      exact ⟨u.under j, List.mem_append_left _ (List.mem_map_of_mem hu), by
        simp [Tried.under, haddress]⟩
    · obtain ⟨u, hu, haddress⟩ := exists_nested_triedAll b (j + 1) rest _ h hp hi
      exact ⟨u, List.mem_append_right _ hu, haddress⟩

end

/-- Without a plugin nothing is called, and nothing nested is tried. With one, the calls are
those of the nested declarations in their order and then one of the declaration's own
factory, if and only if its attributes can be read and no required parameter goes without.
At every depth, a declaration is tried after all that is nested in it and makes one call at
most, for its own plugin and with what the parameters read; and if it makes one, then
everything directly nested in it was tried. -/
theorem factories_called_in_order (b : Binding σ) (d : Declaration) (w : σ) :
    (b.lookup d.typeName = none → invoked b d w = [] ∧ tried b d w = [⟨[], d, w⟩]) ∧
    (∀ p, b.lookup d.typeName = some p →
      let below := (starts b d.children w).flatMap fun s => invoked b s.1 s.2
      (Complete p d (nested b d w) →
        ∃ a, SetBy a p d (nested b d w) ∧ invoked b d w = below ++ [(p, a)]) ∧
      (¬Complete p d (nested b d w) → invoked b d w = below)) ∧
    invoked b d w = (tried b d w).flatMap (Tried.calls b) ∧
    ((tried b d w).Pairwise fun t u => ¬t.address <+: u.address) ∧
    ∀ t ∈ tried b d w, d.at? t.address = some t.node ∧ (t.calls b).length ≤ 1 ∧
      ∀ call ∈ t.calls b, b.lookup t.node.typeName = some call.1 ∧
        SetBy call.2 call.1 t.node (nested b t.node t.state) ∧
        ∀ i < t.node.children.length, ∃ u ∈ tried b d w, u.address = t.address ++ [i] := by
  refine ⟨?_, ?_, ?_, pairwise_tried b d w, ?_⟩
  · intro hp
    exact ⟨(invoked_of_none hp w).1, tried_of_none hp w⟩
  · intro p hp below
    have hsplit : invoked b d w = below ++ ownInvocation p d (nested b d w) := by
      rw [invoked_of_some hp, invokedBelow_of_some hp, nestedInvocations_eq]
    rw [hsplit]
    unfold ownInvocation
    constructor
    · intro hcomplete
      obtain ⟨a, ha⟩ := exists_assembled_iff.2 hcomplete
      exact ⟨a, assembled_eq_ok_iff.1 ha, by rw [ha]⟩
    · intro hincomplete
      cases hmade : assembled p d (nested b d w) with
      | error e => exact List.append_nil _
      | ok a => exact absurd (exists_assembled_iff.1 ⟨a, hmade⟩) hincomplete
  · rw [flatMap_calls_tried, invoked_eq]
  · intro t ht
    refine ⟨at?_of_mem_tried b d w ht, length_calls_le b t, ?_⟩
    intro call hcall
    obtain ⟨hp, hset⟩ := mem_calls hcall
    exact ⟨hp, hset, fun i hi => exists_nested_tried b d w ht hp hi⟩

end Build
end LoggingFacade
