import LoggingFacade.Proofs.Plugin.Linked
import LoggingFacade.Proofs.Plugin.Reported
import Mathlib.Algebra.GroupWithZero.Nat
import Mathlib.Data.List.Nodup

/-!
# What becomes of nested components

Each type of component belongs to the first parameter that takes it, and the parameters
share the components out between them: what one takes, no other one does, and what none
takes is ignored. So each nested declaration comes to exactly one end: it failed, its
component stands at its place in the argument of the parameter that takes its type, it is
one too many for that parameter, or no parameter takes it.
-/

namespace LoggingFacade

/-- The argument under a name has a component at a place. -/
def Arguments.HoldsAt (a : Arguments) (name : String) (place : Nat) (c : Component) : Prop :=
  (a.get? name = some (.element c) ∧ place = 0) ∨
    ∃ cs, a.get? name = some (.elements cs) ∧ cs[place]? = some c

/-- Beside a single component there is no further place. -/
theorem Arguments.HoldsAt.place_eq_zero {a : Arguments} {name : String} {place : Nat}
    {c first : Component} (h : a.HoldsAt name place c)
    (hfirst : a.get? name = some (.element first)) : place = 0 := by
  rcases h with ⟨-, hplace⟩ | ⟨cs, hcs, -⟩
  · exact hplace
  · rw [hfirst] at hcs
    injection Option.some.inj hcs

/-- Where names do not repeat, a value is found under its name. -/
theorem Arguments.get?_of_mem {a : Arguments} (hnames : (a.values.map Prod.fst).Nodup)
    {name : String} {value : Argument} (h : (name, value) ∈ a.values) :
    a.get? name = some value := by
  obtain ⟨component, values⟩ := a
  rw [get?]
  induction values with
  | nil => contradiction
  | cons x rest ih =>
    obtain ⟨first, found⟩ := x
    rw [List.map_cons, List.nodup_cons] at hnames
    rw [TextMap.lookup_cons_eq]
    rcases List.mem_cons.1 h with heq | hrest
    · cases heq
      rw [if_pos rfl]
    · have hne : name ≠ first := by
        rintro rfl
        exact hnames.1 (List.mem_map.2 ⟨_, hrest, rfl⟩)
      rw [if_neg hne]
      exact ih hnames.2 hrest

namespace Build

variable {σ : Type} {b : Binding σ} {p : Plugin σ} {d : Declaration} {a : Arguments}

/-! ## Sharing out -/

/-- The components of the types that belong to a parameter. -/
def taken (parameters : List Parameter) (q : Parameter) (components : List Component) :
    List Component :=
  components.filter fun c => taker? parameters c.elementType = some q

theorem taker?_cons (q : Parameter) (rest : List Parameter) (type : ElementType) :
    taker? (q :: rest) type = if q.nested? = some type then some q else taker? rest type := by
  unfold taker?
  rw [List.find?_cons]
  by_cases h : q.nested? = some type <;> simp [h]

theorem mem_of_taker? {parameters : List Parameter} {type : ElementType} {q : Parameter}
    (h : taker? parameters type = some q) : q ∈ parameters ∧ q.nested? = some type := by
  constructor
  · exact List.mem_of_find?_eq_some h
  · simpa using List.find?_some h

/-- What a parameter finds when its turn comes are the components that belong to it. -/
theorem shares_eq {parameters : List Parameter} (hdistinct : parameters.Nodup)
    (components : List Component) :
    shares parameters components =
      parameters.map fun q => (q, taken parameters q components) := by
  induction parameters generalizing components with
  | nil => rfl
  | cons q rest ih =>
    obtain ⟨hq, hrest⟩ := List.nodup_cons.1 hdistinct
    rw [shares, List.map_cons, ih hrest]
    congr 1
    · unfold Parameter.picks taken
      congr 1
      apply List.filter_congr
      intro c _
      rw [taker?_cons]
      by_cases h : q.nested? = some c.elementType
      · simp [h]
      · have hother : taker? rest c.elementType ≠ some q := fun hsome =>
          hq (mem_of_taker? hsome).1
        simp [h, hother]
    · apply List.map_congr_left
      intro r hr
      have hne : q ≠ r := by
        rintro rfl
        exact hq hr
      unfold taken Parameter.leaves
      rw [List.filter_filter]
      congr 1
      apply List.filter_congr
      intro c _
      rw [taker?_cons]
      by_cases h : q.nested? = some c.elementType
      · simp [h, hne]
      · simp [h]

/-- The first parameter of a type has all components of the type, and any other one has
none. -/
theorem taken_eq {parameters : List Parameter} {q : Parameter} {type : ElementType}
    (h : q.nested? = some type) (components : List Component) :
    taken parameters q components =
      if taker? parameters type = some q then ofType type components else [] := by
  have htype : ∀ c : Component, taker? parameters c.elementType = some q →
      c.elementType = type := by
    intro c hc
    have hnested := (mem_of_taker? hc).2
    rw [h] at hnested
    exact (Option.some.inj hnested).symm
  split
  · rename_i htaker
    apply List.filter_congr
    intro c _
    by_cases hc : c.elementType = type
    · simp [hc, htaker]
    · have hother : taker? parameters c.elementType ≠ some q := fun hsome => hc (htype c hsome)
      simp [hc, hother]
  · rename_i htaker
    apply List.filter_eq_nil_iff.2
    intro c _ hc
    have hsome := of_decide_eq_true hc
    rw [htype c hsome] at hsome
    exact htaker hsome

/-- Nothing is lost between the parameters. -/
theorem sum_length_shares (parameters : List Parameter) (components : List Component) :
    ((shares parameters components).map fun s => s.2.length).sum +
      (untaken parameters components).length = components.length := by
  induction parameters generalizing components with
  | nil =>
    have hall : untaken [] components = components := List.filter_eq_self.2 fun _ _ => rfl
    rw [hall]
    simp [shares]
  | cons q rest ih =>
    have hrest := ih (q.leaves components)
    have hfirst := q.length_picks_add_leaves components
    rw [untaken_cons, shares, List.map_cons, List.sum_cons]
    dsimp only
    omega

section Assembled

variable {components : List Component}

/-- The argument of each parameter is what it reads from the components that belong to
it. -/
theorem get?_of_assembled (hnames : (p.parameters.map Parameter.name).Nodup)
    (h : assembled p d components = .ok a) (w : σ) {q : Parameter} (hq : q ∈ p.parameters) :
    ∃ value, q.read p.name d (taken p.parameters q components) = .ok value ∧
      a.get? q.name = some value := by
  obtain ⟨unused, hvalue⟩ := exists_assembleFrom h w
  have hshare : (q, taken p.parameters q components) ∈ shares p.parameters components := by
    rw [shares_eq (List.Nodup.of_map _ hnames)]
    exact List.mem_map_of_mem hq
  obtain ⟨value, hread, hmem⟩ := (mem_values_assembleFrom hvalue).2 _ hshare
  have hvalues : (a.values.map Prod.fst).Nodup := by
    rw [names_assembleFrom hvalue]
    simpa [Arguments.empty, List.nodup_reverse] using hnames
  exact ⟨value, hread, Arguments.get?_of_mem hvalues hmem⟩

theorem get?_element (hnames : (p.parameters.map Parameter.name).Nodup)
    (h : assembled p d components = .ok a) (w : σ) {q : Parameter} (hq : q ∈ p.parameters)
    {type : ElementType} (hkind : q.kind = .element type) :
    a.get? q.name =
      some (((taken p.parameters q components).head?.map Argument.element).getD .absent) := by
  obtain ⟨value, hread, hvalue⟩ := get?_of_assembled hnames h w hq
  unfold Parameter.read at hread
  rw [hkind] at hread
  rw [hvalue, ← Except.ok.inj hread]

theorem get?_elements (hnames : (p.parameters.map Parameter.name).Nodup)
    (h : assembled p d components = .ok a) (w : σ) {q : Parameter} (hq : q ∈ p.parameters)
    {type : ElementType} (hkind : q.kind = .elements type) :
    a.get? q.name = some (.elements (taken p.parameters q components)) := by
  obtain ⟨value, hread, hvalue⟩ := get?_of_assembled hnames h w hq
  unfold Parameter.read at hread
  rw [hkind] at hread
  rw [hvalue, ← Except.ok.inj hread]

end Assembled

/-- The number of components that an argument accounts for: those in it, or, where it is
one component, all of its type. -/
def accountsFor (components : List Component) : Argument → Nat
  | .element c => (ofType c.elementType components).length
  | .elements cs => cs.length
  | _ => 0

theorem accountsFor_attribute {q : Parameter} (hattribute : q.kind.isAttribute = true)
    {component : String} {picked components : List Component} {value : Argument}
    (h : q.read component d picked = .ok value) : accountsFor components value = 0 := by
  have hkind : value = .absent ∨ value.HasKind q.kind := by
    unfold Parameter.read at h
    cases hraw : q.raw? d with
    | none =>
      rw [hraw] at h
      split at h <;> simp_all [ParameterKind.isAttribute]
    | some raw =>
      rw [hraw] at h
      right
      split at h <;> first | exact Coercion.hasKind_of_coerce h | simp_all [ParameterKind.isAttribute]
  rcases hkind with rfl | hkind
  · rfl
  · cases value with
    | element c => cases hq : q.kind <;> simp_all [Argument.HasKind, ParameterKind.isAttribute]
    | elements cs => cases hq : q.kind <;> simp_all [Argument.HasKind, ParameterKind.isAttribute]
    | _ => rfl

theorem accountsFor_read {parameters : List Parameter} {components : List Component}
    {q : Parameter} {component : String} {value : Argument}
    (h : q.read component d (taken parameters q components) = .ok value) :
    accountsFor components value = (taken parameters q components).length := by
  obtain hattribute | ⟨type, hkind⟩ | ⟨type, hkind⟩ := q.kind.attribute_or_nested
  · have hnone : taken parameters q components = [] := by
      apply List.filter_eq_nil_iff.2
      intro c _ hc
      have hnested := (mem_of_taker? (of_decide_eq_true hc)).2
      rw [Parameter.nested?_of_attribute hattribute] at hnested
      contradiction
    rw [hnone, List.length_nil]
    exact accountsFor_attribute hattribute h
  · unfold Parameter.read at h
    rw [hkind] at h
    rw [← Except.ok.inj h, taken_eq (Parameter.nested?_of_element hkind)]
    split
    · cases hmatching : ofType type components with
      | nil => rfl
      | cons c rest =>
        have hc : c.elementType = type :=
          elementType_of_mem_ofType (hmatching ▸ List.mem_cons_self)
        simp [accountsFor, hc, hmatching]
    · rfl
  · unfold Parameter.read at h
    rw [hkind] at h
    rw [← Except.ok.inj h]
    rfl

/-! ## Each declaration -/

/-- The components that were built. -/
def built (ts : List Trial) : List Component := ts.filterMap fun t => t.2.toOption

/-- How many components of a type were built before a position. -/
def rank (ts : List Trial) (i : Nat) (type : ElementType) : Nat :=
  (ofType type (built (ts.take i))).length

theorem nested_eq_built (b : Binding σ) (d : Declaration) (w : σ) :
    nested b d w = built (results b d.children w) :=
  value_buildChildren b d.label d.children w

/-- A component stands behind those of its type that were built before it. -/
theorem getElem?_rank {ts : List Trial} {i : Nat} {child : Declaration} {c : Component}
    (h : ts[i]? = some (child, .ok c)) :
    (ofType c.elementType (built ts))[rank ts i c.elementType]? = some c := by
  obtain ⟨hi, hget⟩ := List.getElem?_eq_some_iff.1 h
  have hsplit : ts = ts.take i ++ (child, .ok c) :: ts.drop (i + 1) := by
    rw [← hget, List.getElem_cons_drop, List.take_append_drop]
  have hbuilt : ofType c.elementType (built ts) = ofType c.elementType (built (ts.take i)) ++
      c :: ofType c.elementType (built (ts.drop (i + 1))) := by
    conv_lhs => rw [hsplit]
    simp [built, ofType, Except.toOption]
  rw [hbuilt, rank, List.getElem?_append_right (Nat.le_refl _)]
  simp

/-- A later component of a type stands at a later place. -/
theorem rank_lt {ts : List Trial} {i j : Nat} {child : Declaration} {c : Component}
    (h : ts[i]? = some (child, .ok c)) (hlt : i < j) :
    rank ts i c.elementType < rank ts j c.elementType := by
  have hnext : rank ts (i + 1) c.elementType = rank ts i c.elementType + 1 := by
    unfold rank
    rw [List.take_add_one, h]
    simp [built, ofType, Except.toOption]
  have hmono : rank ts (i + 1) c.elementType ≤ rank ts j c.elementType := by
    have hpart : (ts.take (i + 1)).Sublist (ts.take j) := List.take_sublist_take_left hlt
    exact ((hpart.filterMap _).filter _).length_le
  omega

/-- What becomes of a nested declaration. -/
inductive Fate where
  | failed (e : Error)
  | bound (q : Parameter) (place : Nat)
  | surplus (q : Parameter)
  | unaccepted

/-- What becomes of the declaration at a position, for all that are tried and the arguments
made of what is built: it fails, its component is the one at its place in the argument of
the first parameter of its type, that parameter holds an earlier one alone, or there is no
parameter of its type. -/
inductive Becomes (p : Plugin σ) (a : Arguments) (ts : List Trial) (i : Nat) : Fate → Prop
  | failed {child : Declaration} {e : Error} (htried : ts[i]? = some (child, .error e)) :
    Becomes p a ts i (.failed e)
  | bound {child : Declaration} {c : Component} {q : Parameter}
      (htried : ts[i]? = some (child, .ok c))
      (hq : taker? p.parameters c.elementType = some q)
      (hheld : a.HoldsAt q.name (rank ts i c.elementType) c) :
    Becomes p a ts i (.bound q (rank ts i c.elementType))
  | surplus {child : Declaration} {c first : Component} {q : Parameter}
      (htried : ts[i]? = some (child, .ok c))
      (hq : taker? p.parameters c.elementType = some q)
      (hfirst : a.get? q.name = some (.element first))
      (hlater : 0 < rank ts i c.elementType) :
    Becomes p a ts i (.surplus q)
  | unaccepted {child : Declaration} {c : Component} (htried : ts[i]? = some (child, .ok c))
      (hq : taker? p.parameters c.elementType = none) :
    Becomes p a ts i .unaccepted

theorem Becomes.unique {ts : List Trial} {i : Nat} {fate other : Fate}
    (h : Becomes p a ts i fate) (h' : Becomes p a ts i other) : fate = other := by
  cases h with
  | failed htried =>
    cases h' with
    | failed htried' =>
      rw [htried] at htried'
      cases htried'
      rfl
    | _ => simp_all
  | bound htried hq hheld =>
    cases h' with
    | bound htried' hq' _ =>
      rw [htried] at htried'
      cases htried'
      rw [hq] at hq'
      cases hq'
      rfl
    | surplus htried' hq' hfirst hlater =>
      rw [htried] at htried'
      cases htried'
      rw [hq] at hq'
      cases hq'
      have hplace := hheld.place_eq_zero hfirst
      omega
    | _ => simp_all
  | surplus htried hq hfirst hlater =>
    cases h' with
    | bound htried' hq' hheld =>
      rw [htried] at htried'
      cases htried'
      rw [hq] at hq'
      cases hq'
      have hplace := hheld.place_eq_zero hfirst
      omega
    | surplus htried' hq' _ _ =>
      rw [htried] at htried'
      cases htried'
      rw [hq] at hq'
      cases hq'
      rfl
    | _ => simp_all
  | unaccepted htried hq =>
    cases h' with
    | unaccepted => rfl
    | _ => simp_all

/-- No two declarations come to one place. -/
theorem Becomes.place_unique {ts : List Trial} {i j : Nat} {q : Parameter} {place : Nat}
    (hi : Becomes p a ts i (.bound q place)) (hj : Becomes p a ts j (.bound q place)) :
    i = j := by
  generalize hfate : Fate.bound q place = fate at hj
  cases hi with
  | bound htried hq hheld =>
    cases hj with
    | bound htried' hq' hheld' =>
      injection hfate with hsame hplace
      have htype := (mem_of_taker? hq).2
      rw [hsame, (mem_of_taker? hq').2, Option.some.injEq] at htype
      rw [htype] at hplace
      rcases Nat.lt_trichotomy i j with hlt | heq | hlt
      · have hless := rank_lt htried hlt
        omega
      · exact heq
      · have hless := rank_lt htried' hlt
        rw [htype] at hless
        omega
    | _ => contradiction

/-- Every declaration comes to an end, if the arguments can be made. -/
theorem exists_becomes (hnames : (p.parameters.map Parameter.name).Nodup) {ts : List Trial}
    (h : assembled p d (built ts) = .ok a) (w : σ) {i : Nat} (hi : i < ts.length) :
    ∃ fate, Becomes p a ts i fate := by
  have htried : ts[i]? = some ts[i] := List.getElem?_eq_getElem hi
  generalize ts[i] = t at htried
  obtain ⟨child, result⟩ := t
  cases result with
  | error e => exact ⟨_, .failed htried⟩
  | ok c =>
    cases hq : taker? p.parameters c.elementType with
    | none => exact ⟨_, .unaccepted htried hq⟩
    | some q =>
      obtain ⟨hmem, hnested⟩ := mem_of_taker? hq
      have hown : taken p.parameters q (built ts) = ofType c.elementType (built ts) := by
        rw [taken_eq hnested, if_pos hq]
      have hplace := getElem?_rank htried
      rcases Parameter.kind_of_nested? hnested with hkind | hkind
      · have hvalue := get?_element hnames h w hmem hkind
        rw [hown] at hvalue
        cases hmatching : ofType c.elementType (built ts) with
        | nil => simp [hmatching] at hplace
        | cons first rest =>
          rw [hmatching] at hplace hvalue
          cases hrank : rank ts i c.elementType with
          | zero =>
            rw [hrank] at hplace
            cases hplace
            exact ⟨_, .bound htried hq (.inl ⟨hvalue, hrank⟩)⟩
          | succ n => exact ⟨_, .surplus htried hq hvalue (by omega)⟩
      · have hvalue := get?_elements hnames h w hmem hkind
        rw [hown] at hvalue
        exact ⟨_, .bound htried hq (.inr ⟨_, hvalue, hplace⟩)⟩

/-- Of the declarations nested in one whose arguments can be made, each comes to exactly one
end, and no two to the same place in an argument. A parameter for one component has the
first of its type and one for several has all of them, in their order, unless an earlier
parameter took them. What is left unused is reported with its number, so that the numbers
add up to what was built. -/
theorem nested_components_accounted (hp : b.lookup d.typeName = some p)
    (hnames : (p.parameters.map Parameter.name).Nodup) {w : σ}
    (hmade : assembled p d (nested b d w) = .ok a) :
    let ts := results b d.children w
    let cs := built ts
    let ignored := untaken p.parameters cs
    (∀ i < d.children.length, ∃! fate, Becomes p a ts i fate) ∧
    (∀ i j q place, Becomes p a ts i (.bound q place) → Becomes p a ts j (.bound q place) →
      i = j) ∧
    (∀ q ∈ p.parameters, ∀ type,
      let own := taken p.parameters q cs
      (q.nested? = some type →
        own = if taker? p.parameters type = some q then ofType type cs else []) ∧
      (q.kind = .element type →
        a.get? q.name = some ((own.head?.map Argument.element).getD .absent)) ∧
      (q.kind = .elements type → a.get? q.name = some (.elements own))) ∧
    ((build b d).run w).diagnostics =
      ((unread p d).map fun key => .attributeIgnored p.name key) ++
        (outcomes b d.children w).flatMap (childReports d.label) ++
        ((p.parameters.flatMap fun q => q.surplus p.name (taken p.parameters q cs)) ++
          if ignored = [] then [] else [.elementsIgnored p.name ignored.length]) ++
        factoryReports p d a (stateBelow b d w) ∧
    cs.length = (p.parameters.map fun q =>
      ((a.get? q.name).map (accountsFor cs)).getD 0).sum + ignored.length := by
  intro ts cs ignored
  have hnested : nested b d w = cs := nested_eq_built b d w
  have hmade' := hmade
  rw [hnested] at hmade'
  have hshares := shares_eq (List.Nodup.of_map _ hnames) cs
  refine ⟨?_, fun i j q place => Becomes.place_unique, ?_, ?_, ?_⟩
  · intro i hi
    have hlength : ts.length = d.children.length := by
      rw [← map_fst_results b d.children w, List.length_map]
    obtain ⟨fate, hfate⟩ := exists_becomes hnames hmade' w (hlength ▸ hi)
    exact ⟨fate, hfate, fun other hother => hother.unique hfate⟩
  · intro q hq type own
    refine ⟨fun hnested => taken_eq hnested cs, ?_, ?_⟩
    · intro hkind
      exact get?_element hnames hmade' w hq hkind
    · intro hkind
      exact get?_elements hnames hmade' w hq hkind
  · rw [diagnostics_build hp hmade, hnested, unusedReports, hshares, List.flatMap_map]
  · have hsum := sum_length_shares p.parameters cs
    rw [hshares, List.map_map] at hsum
    rw [← hsum]
    congr 2
    apply List.map_congr_left
    intro q hq
    obtain ⟨value, hread, hvalue⟩ := get?_of_assembled hnames hmade' w hq
    rw [hvalue]
    exact (accountsFor_read hread).symm

/-- Two layouts, a set of appenders and an unknown declaration in a box for one layout. The
second layout is one too many, although a later parameter could hold it, and nothing takes
the set. -/
theorem nested_components_accounted_box :
    let box : Plugin Unit := ⟨"Box", .layout, "", [.optional "layout" (.element .layout),
      .optional "more" (.elements .layout), .optional "shown" (.elements .appender)],
      fun a => pure (match a.layout? "layout" with
        | some l => .done (.layout l)
        | none => .crashed)⟩
    let b : Binding Unit := ⟨((TextMap.empty.insert "xmllayout" Plugin.xml).insert "appenders"
      Plugin.appenderSet).insert "box" box⟩
    let d : Declaration := ⟨"Box", .empty, [⟨"XMLLayout", .empty, []⟩, ⟨"Nowhere", .empty, []⟩,
      ⟨"XMLLayout", .empty, []⟩, ⟨"Appenders", .empty, []⟩]⟩
    let ts := results b d.children ()
    b.lookup d.typeName = some box ∧ (box.parameters.map Parameter.name).Nodup ∧
      ∃ a, assembled box d (nested b d ()) = .ok a ∧
        (∀ i < 4, ∃! fate, Becomes box a ts i fate) ∧ a.elements "more" = [] ∧
        .elementsSurplus "Box" "layout" 2 ∈ ((build b d).run ()).diagnostics ∧
        .elementsIgnored "Box" 1 ∈ ((build b d).run ()).diagnostics := by
  intro box b d ts
  have hp : b.lookup d.typeName = some box := by
    dsimp only [b, d]
    rfl
  have hnames : (box.parameters.map Parameter.name).Nodup := by decide
  obtain ⟨a, hmade, hmore⟩ : ∃ a, assembled box d (nested b d ()) = .ok a ∧
      a.elements "more" = [] := ⟨_, by rfl, by rfl⟩
  obtain ⟨heach, -, -, hdiagnostics, -⟩ := nested_components_accounted hp hnames hmade
  have hunused : (box.parameters.flatMap fun q =>
      q.surplus box.name (taken box.parameters q (built ts))) = [.elementsSurplus "Box" "layout" 2] ∧
      (untaken box.parameters (built ts)).length = 1 := ⟨by rfl, by rfl⟩
  refine ⟨hp, hnames, a, hmade, heach, hmore, ?_, ?_⟩
  · rw [hdiagnostics, hunused.1]
    simp
  · have hsome : untaken box.parameters (built ts) ≠ [] := by
      intro hnone
      have hlength := hunused.2
      rw [hnone] at hlength
      contradiction
    rw [hdiagnostics, if_neg hsome, hunused.2]
    simp [box]

end Build
end LoggingFacade
