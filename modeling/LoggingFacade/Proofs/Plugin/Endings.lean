import LoggingFacade.Proofs.Plugin.Report
import LoggingFacade.Proofs.Plugin.Reported

/-!
# How building ends

Building a declaration ends in one of three ways: there is no plugin, its arguments cannot
be made, or its factory was called and how that ended is judged. So it ends with a
component of the plugin's type or with a failure to build, whatever factories do, and a
factory that crashes is as good as one that returns this judgement itself.
-/

namespace LoggingFacade

variable {σ : Type}

/-! ## Arguments that cannot be made -/

theorem Coercion.eq_coercion_of_coerce {component parameter raw : String} {kind : ParameterKind}
    {e : Error} (h : coerce component parameter kind raw = .error e) :
    ∃ reason, e = .coercion component parameter reason := by
  unfold coerce at h
  cases kind with
  | bool =>
    generalize readBool? raw = read at h
    cases read <;> cases h
    exact ⟨_, rfl⟩
  | int =>
    generalize readInt raw = read at h
    cases read <;> cases h
    exact ⟨_, rfl⟩
  | charset =>
    generalize Charset.ofName raw = read at h
    cases read <;> cases h
    exact ⟨_, rfl⟩
  | text => contradiction
  | element type =>
    cases h
    exact ⟨_, rfl⟩
  | elements type =>
    cases h
    exact ⟨_, rfl⟩

/-- The text of an attribute is not of its parameter's kind, or a required parameter is
missing. -/
inductive Parameter.Lacks (q : Parameter) (component : String) : Error → Prop
  | coercion (reason : String) : Lacks q component (.coercion component q.name reason)
  | missing (h : q.required = true) : Lacks q component (.missingParameter component q.name)

theorem Parameter.Lacks.isBuildError {q : Parameter} {component : String} {e : Error}
    (h : q.Lacks component e) : e.isBuildError = true := by
  cases h <;> rfl

theorem Parameter.lacks_of_read {q : Parameter} {component : String} {d : Declaration}
    {picked : List Component} {e : Error} (h : q.read component d picked = .error e) :
    q.Lacks component e := by
  unfold read at h
  split at h
  · contradiction
  · contradiction
  · split at h
    · obtain ⟨reason, rfl⟩ := Coercion.eq_coercion_of_coerce h
      exact .coercion reason
    · contradiction

namespace Build

theorem lacks_of_assembleFrom {d : Declaration} {parameters : List Parameter} {a : Arguments}
    {components : List Component} {w : σ} {e : Error}
    (h : ((assembleFrom d parameters a components).run w).value = .error e) :
    ∃ q ∈ parameters, q.Lacks a.component e := by
  induction parameters generalizing a components with
  | nil => contradiction
  | cons q rest ih =>
    rw [assembleFrom, Traced.value_bind, run_argument] at h
    cases hread : q.read a.component d (q.picks components) with
    | error failure =>
      rw [hread] at h
      cases h
      exact ⟨q, List.mem_cons_self, Parameter.lacks_of_read hread⟩
    | ok value =>
      rw [hread] at h
      simp only [Except.map] at h
      split at h
      · rename_i hmissing
        cases h
        rw [Bool.and_eq_true] at hmissing
        exact ⟨q, List.mem_cons_self, .missing hmissing.1⟩
      · obtain ⟨lacking, hmem, hlacks⟩ := ih h
        exact ⟨lacking, List.mem_cons_of_mem q hmem, hlacks⟩

/-- The failure names the plugin and one of its parameters. -/
theorem lacks_of_assembled {p : Plugin σ} {d : Declaration} {components : List Component}
    {e : Error} (h : assembled p d components = .error e) :
    ∃ q ∈ p.parameters, q.Lacks p.name e := by
  rw [assembled] at h
  cases hmade : ((assembleFrom d p.parameters (.empty p.name) components :
      Traced Unit _).run ()).value with
  | error failure =>
    rw [hmade] at h
    cases h
    exact lacks_of_assembleFrom hmade
  | ok made =>
    rw [hmade] at h
    contradiction

/-! ## What the end of a factory means -/

/-- The result that the end of a plugin's factory means. -/
inductive Judged (p : Plugin σ) : Attempt Component → Except Error Component → Prop
  | made {c : Component} (h : c.elementType = p.elementType) : Judged p (.done c) (.ok c)
  | mistyped {c : Component} (h : c.elementType ≠ p.elementType) :
    Judged p (.done c) (.error (.factory p.name
      ("produced a " ++ c.elementType.name ++ " but is registered as a " ++ p.elementType.name)))
  | refused {e : Error} (h : e.isBuildError = true) : Judged p (.failed e) (.error e)
  | failed {e : Error} (h : e.isBuildError = false) :
    Judged p (.failed e) (.error (.factory p.name e.message))
  | crashed : Judged p .crashed (.error (.factory p.name "factory panicked"))

theorem judged_judge (p : Plugin σ) (answer : Attempt Component) :
    Judged p answer (judge p answer) := by
  cases answer with
  | done c =>
    rw [judge]
    split
    · rename_i h
      exact .made h
    · rename_i h
      exact .mistyped h
  | failed e =>
    rw [judge]
    split
    · rename_i h
      exact .refused h
    · rename_i h
      exact .failed (Bool.eq_false_iff.2 h)
  | crashed => exact .crashed

/-- What building may end with for a plugin: a component of the type it is registered for,
or a failure to build. -/
def Settled (p : Plugin σ) : Except Error Component → Prop
  | .ok c => c.elementType = p.elementType
  | .error e => e.isBuildError = true

theorem Judged.settled {p : Plugin σ} {answer : Attempt Component}
    {result : Except Error Component} (h : Judged p answer result) : Settled p result := by
  cases h with
  | made h => exact h
  | mistyped h => rfl
  | refused h => exact h
  | failed h => rfl
  | crashed => rfl

/-- To judge a judgement again changes nothing. -/
theorem judge_ofExcept {p : Plugin σ} {result : Except Error Component} (h : Settled p result) :
    judge p (.ofExcept result) = result := by
  cases result with
  | ok c => exact if_pos h
  | error e => exact congrArg Except.error (if_pos h)

/-! ## The three ends -/

/-- How building a declaration from a state ends. -/
inductive Ends (b : Binding σ) (d : Declaration) (w : σ) : Except Error Component → Prop
  | unknown (h : b.lookup d.typeName = none) : Ends b d w (.error (.unknownComponent d.typeName))
  | lacking {p : Plugin σ} {q : Parameter} {e : Error} (hp : b.lookup d.typeName = some p)
      (hq : q ∈ p.parameters) (h : q.Lacks p.name e) : Ends b d w (.error e)
  | judged {p : Plugin σ} {a : Arguments} {result : Except Error Component}
      (hp : b.lookup d.typeName = some p) (ha : assembled p d (nested b d w) = .ok a)
      (h : Judged p ((p.factory a).run (stateBelow b d w)).value result) : Ends b d w result

theorem ends_build (b : Binding σ) (d : Declaration) (w : σ) :
    Ends b d w ((build b d).run w).value := by
  cases hp : b.lookup d.typeName with
  | none =>
    rw [run_build_of_none hp]
    exact .unknown hp
  | some p =>
    rw [(build_of_some hp w).1]
    cases ha : assembled p d (nested b d w) with
    | error e =>
      obtain ⟨q, hq, hlacks⟩ := lacks_of_assembled ha
      exact .lacking hp hq hlacks
    | ok a => exact .judged hp ha (judged_judge p _)

theorem Ends.exists_settled {b : Binding σ} {d : Declaration} {w : σ} {c : Component}
    (h : Ends b d w (.ok c)) :
    ∃ p, b.lookup d.typeName = some p ∧ c.elementType = p.elementType := by
  cases h with
  | judged hp ha h => exact ⟨_, hp, h.settled⟩

theorem Ends.isBuildError {b : Binding σ} {d : Declaration} {w : σ} {e : Error}
    (h : Ends b d w (.error e)) : e.isBuildError = true := by
  cases h with
  | unknown h => rfl
  | lacking hp hq h => exact h.isBuildError
  | judged hp ha h => exact h.settled

theorem isBuildError_of_mem_results {b : Binding σ} {ds : List Declaration} {w : σ}
    {d : Declaration} {e : Error} (h : (d, .error e) ∈ results b ds w) :
    e.isBuildError = true := by
  induction ds generalizing w with
  | nil => contradiction
  | cons first rest ih =>
    rcases List.mem_cons.1 h with h | h
    · have hvalue : ((build b first).run w).value = .error e := (congrArg Prod.snd h).symm
      have hend := ends_build b first w
      rw [hvalue] at hend
      exact hend.isBuildError
    · exact ih h

end Build

/-! ## Factories that cannot do any harm -/

/-- The same plugin with a factory that judges its own end. -/
def Plugin.tamed (p : Plugin σ) : Plugin σ :=
  { p with factory := fun a => do return .ofExcept (Build.judge p (← p.factory a)) }

def Binding.tamed (b : Binding σ) : Binding σ := ⟨b.plugins.map Plugin.tamed⟩

/-- The factory returns a component of its type, or a failure to build. -/
def Plugin.Tame (p : Plugin σ) : Prop :=
  ∀ a w, ∃ result, ((p.factory a).run w).value = .ofExcept result ∧ Build.Settled p result

theorem Binding.lookup_tamed (b : Binding σ) (typeName : String) :
    b.tamed.lookup typeName = (b.lookup typeName).map Plugin.tamed :=
  b.plugins.get?_map Plugin.tamed (Text.lower typeName)

theorem Plugin.tame_tamed (p : Plugin σ) : p.tamed.Tame :=
  fun _ _ => ⟨_, rfl, (Build.judged_judge p _).settled⟩

namespace Build

theorem invoke_tamed (p : Plugin σ) (d : Declaration) (a : Arguments) :
    invoke p.tamed d a = invoke p d a := by
  have hfactory : p.tamed.factory a =
      p.factory a >>= fun answer => pure (.ofExcept (judge p answer)) := rfl
  have hjudge : ∀ answer, judge p.tamed (.ofExcept (judge p answer)) = judge p answer :=
    fun answer => judge_ofExcept (p := p.tamed) (judged_judge p answer).settled
  rw [invoke, hfactory, invoke]
  simp only [bind_assoc, pure_bind, hjudge]

mutual

theorem build_tamed (b : Binding σ) (d : Declaration) : build b.tamed d = build b d := by
  obtain ⟨typeName, attributes, children⟩ := d
  rw [build, build, Binding.lookup_tamed]
  cases b.lookup typeName with
  | none => rfl
  | some p =>
    have hunknown : reportUnknown p.tamed = reportUnknown p := rfl
    have hassemble : assemble p.tamed = assemble p := rfl
    simp only [Option.map_some, hunknown, hassemble, invoke_tamed, buildChildren_tamed b]

theorem buildChildren_tamed (b : Binding σ) (parent : String) (ds : List Declaration) :
    buildChildren b.tamed parent ds = buildChildren b parent ds := by
  cases ds with
  | nil => rw [buildChildren, buildChildren]
  | cons child rest =>
    rw [buildChildren, buildChildren]
    simp only [build_tamed b child, buildChildren_tamed b parent rest]

end

/-- Building ends with a component of the type that the plugin is registered for or with a
failure to build. How the plugin's own factory ended decides which: a failure to build is
passed on, and a failure of another kind, a crash and a component of another type are
failures of the factory of this plugin. Factories of the declaration and of those nested in
it, at any depth, are as good as ones that do no worse than that, so none of their crashes
is seen from outside. The failures of a batch and of its report are failures to build. -/
theorem build_ends_settled (b : Binding σ) (d : Declaration) (ds : List Declaration) (w : σ) :
    let result := ((build b d).run w).value
    ((∃ p c, b.lookup d.typeName = some p ∧ result = .ok c ∧ c.elementType = p.elementType) ∨
      ∃ e, result = .error e ∧ e.isBuildError = true) ∧
    (∀ p a, b.lookup d.typeName = some p → assembled p d (nested b d w) = .ok a →
      Judged p ((p.factory a).run (stateBelow b d w)).value result) ∧
    ((∀ typeName p, b.tamed.lookup typeName = some p → p.Tame) ∧ build b.tamed d = build b d) ∧
    (∀ e, .error e ∈ ((buildAll b ds).run w).value → e.isBuildError = true) ∧
    ∀ f ∈ ((ComponentReport.build b ds).run w).value.failures, f.error.isBuildError = true := by
  intro result
  have hend : Ends b d w result := ends_build b d w
  refine ⟨?_, ?_, ⟨?_, build_tamed b d⟩, ?_, ?_⟩
  · cases hresult : result with
    | ok c =>
      rw [hresult] at hend
      obtain ⟨p, hp, htype⟩ := hend.exists_settled
      exact .inl ⟨p, c, hp, rfl, htype⟩
    | error e =>
      rw [hresult] at hend
      exact .inr ⟨e, rfl, hend.isBuildError⟩
  · intro p a hp ha
    have hvalue := (build_of_some hp w).1
    rw [ha] at hvalue
    rw [show result = judge p _ from hvalue]
    exact judged_judge p _
  · intro typeName p hp
    rw [Binding.lookup_tamed, Option.map_eq_some_iff] at hp
    obtain ⟨q, -, rfl⟩ := hp
    exact q.tame_tamed
  · intro e he
    rw [(run_buildAll b ds w).1] at he
    obtain ⟨⟨node, result⟩, ht, rfl⟩ := List.mem_map.1 he
    exact isBuildError_of_mem_results ht
  · intro f hf
    rw [(ComponentReport.run_build b ds w).2.1] at hf
    obtain ⟨⟨d, result⟩, ht, hfailure⟩ := List.mem_filterMap.1 hf
    cases result with
    | ok c => contradiction
    | error e =>
      cases hfailure
      exact isBuildError_of_mem_results ht

/-- A box around a pretended layout: both factories misbehave, each in its own way, and the
box is blamed for its crash alone. -/
theorem build_ends_settled_box :
    let box : Plugin Unit := ⟨"Box", .layout, "", [.optional "layout" (.element .layout)],
      fun a => pure (if (a.element? "layout").isSome then .failed (.internal "full") else .crashed)⟩
    let liar : Plugin Unit := ⟨"Liar", .layout, "", [], fun _ => pure (.done (.appenders .empty))⟩
    let b : Binding Unit := ⟨(TextMap.empty.insert "liar" liar).insert "box" box⟩
    let d : Declaration := ⟨"BOX", .empty, [⟨"Liar", .empty, []⟩]⟩
    b.lookup "BOX" = some box ∧ (∃ a, assembled box d (nested b d ()) = .ok a) ∧
      Judged box .crashed ((build b d).run ()).value ∧
      ((build b d).run ()).value = .error (.factory "Box" "factory panicked") ∧
      .error (.factory "Box" "factory panicked") ∈ ((buildAll b [d]).run ()).value ∧
      (Error.factory "Box" "factory panicked").isBuildError = true := by
  intro box liar b d
  have hp : b.lookup "BOX" = some box := by rfl
  obtain ⟨a, ha, hcrash⟩ : ∃ a, assembled box d (nested b d ()) = .ok a ∧
      ((box.factory a).run (stateBelow b d ())).value = .crashed := ⟨_, by rfl, by rfl⟩
  obtain ⟨-, hjudged, -, hbatch, -⟩ := build_ends_settled b d [d] ()
  have hresult := hjudged box a hp ha
  rw [hcrash] at hresult
  have hmem : .error (.factory "Box" "factory panicked") ∈ ((buildAll b [d]).run ()).value := by
    rw [(run_buildAll b [d] ()).1]
    exact List.mem_singleton.2 (by cases hresult; rfl)
  exact ⟨hp, ⟨a, ha⟩, hresult, by rfl, hmem, hbatch _ hmem⟩

end Build
end LoggingFacade
