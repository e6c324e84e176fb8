import LoggingFacade.Inspection
import LoggingFacade.Proofs.Plugin.Linked

/-!
# Clean reports

A report is clean if all declarations at the top were built. What is nested in them may
have failed all the same: such failures are reported as diagnostics alone. Together, the
diagnostics name the declarations that could not be built, at every depth, in the order
in which they were tried; so all declarations were built if the report is clean and no
nested failure was reported.
-/

namespace LoggingFacade

open Traced (Reports)

namespace Diagnostic

/-- The declaration at the top that could not be built. -/
def topFailure? : Diagnostic → Option ComponentFailure
  | .componentFailed label e => some ⟨label, e⟩
  | _ => none

/-- The declaration, at the top or nested, that could not be built. -/
def failure? : Diagnostic → Option ComponentFailure
  | .componentFailed label e => some ⟨label, e⟩
  | .childFailed _ label e => some ⟨label, e⟩
  | _ => none

theorem IsUnused.failure?_eq_none {x : Diagnostic} (h : x.IsUnused) : x.failure? = none := by
  cases h <;> rfl

theorem topFailure?_eq_none {x : Diagnostic} (h : x.failure? = none) : x.topFailure? = none := by
  cases x <;> first | rfl | contradiction

end Diagnostic

/-- Factories leave it to the builder to report what could not be built. -/
def Binding.Reticent {σ : Type} (b : Binding σ) : Prop :=
  ∀ typeName p, b.lookup typeName = some p → ∀ a, Reports (·.failure? = none) (p.factory a)

namespace Declaration

mutual

/-- The declarations nested in a declaration, at every depth, and then itself. -/
def nodes : Declaration → List Declaration
  | ⟨typeName, attributes, children⟩ => nodesAll children ++ [⟨typeName, attributes, children⟩]

def nodesAll : List Declaration → List Declaration
  | [] => []
  | d :: rest => nodes d ++ nodesAll rest

end

end Declaration

namespace Build

variable {σ : Type} {b : Binding σ} {d : Declaration} {p : Plugin σ}

/-! ## What building reports -/

/-- What becomes of the declarations nested in a declaration, at every depth. -/
def below (b : Binding σ) (d : Declaration) (w : σ) : List Trial :=
  if (b.lookup d.typeName).isSome then trialsAll b d.children w else []

theorem trials_eq (b : Binding σ) (d : Declaration) (w : σ) :
    trials b d w = below b d w ++ [(d, ((build b d).run w).value)] := by
  obtain ⟨typeName, attributes, children⟩ := d
  rw [trials, below]

/-- The part of building behind the nested declarations. -/
theorem reports_own {P : Diagnostic → Prop} (hunused : ∀ x, x.IsUnused → P x)
    (hbuilt : P (.componentBuilt d.label)) (hfactory : ∀ a, Reports P (p.factory a))
    (components : List Component) :
    Reports P (assemble p d components >>= fun result => match result with
      | .error e => pure (.error e)
      | .ok a => invoke p d a) := by
  have hassemble := (alike_assemble p p rfl rfl (d := d) rfl components).reports
  refine (hassemble.mono hunused).bind fun result => ?_
  cases result with
  | error e => exact Traced.reports_pure _
  | ok a => exact reports_invoke hbuilt (hfactory a)

mutual

/-- Building reports unused parts, nested failures and what was built, besides what
factories report. -/
theorem reports_build {P : Diagnostic → Prop} (hunused : ∀ x, x.IsUnused → P x)
    (hbuilt : ∀ label, P (.componentBuilt label))
    (hchild : ∀ parent label e, P (.childFailed parent label e))
    (hfactory : ∀ typeName p, b.lookup typeName = some p → ∀ a, Reports P (p.factory a))
    (d : Declaration) : Reports P (build b d) := by
  obtain ⟨typeName, attributes, children⟩ := d
  rw [build]
  cases hp : b.lookup typeName with
  | none => exact Traced.reports_pure _
  | some p =>
    have hunknown := (alike_reportUnknown p p rfl rfl
      (d := ⟨typeName, attributes, children⟩) rfl).reports
    refine (hunknown.mono hunused).bind fun _ => ?_
    refine (reports_buildChildren hunused hbuilt hchild hfactory _ children).bind fun _ => ?_
    exact reports_own hunused (hbuilt _) (hfactory typeName p hp) _

theorem reports_buildChildren {P : Diagnostic → Prop} (hunused : ∀ x, x.IsUnused → P x)
    (hbuilt : ∀ label, P (.componentBuilt label))
    (hchild : ∀ parent label e, P (.childFailed parent label e))
    (hfactory : ∀ typeName p, b.lookup typeName = some p → ∀ a, Reports P (p.factory a))
    (parent : String) (ds : List Declaration) : Reports P (buildChildren b parent ds) := by
  cases ds with
  | nil =>
    rw [buildChildren]
    exact Traced.reports_pure _
  | cons d rest =>
    have hrest := reports_buildChildren hunused hbuilt hchild hfactory parent rest
    rw [buildChildren]
    refine (reports_build hunused hbuilt hchild hfactory d).bind fun result => ?_
    cases result with
    | ok c => exact hrest.bind fun _ => Traced.reports_pure _
    | error e => exact Traced.reports_report_bind (hchild _ _ _) hrest

end

theorem filterMap_failure?_of_reports {α : Type} {m : Traced σ α}
    (h : Reports (·.failure? = none) m) (w : σ) :
    (m.run w).diagnostics.filterMap Diagnostic.failure? = [] :=
  List.filterMap_eq_nil_iff.2 (h w)

theorem failures_build_of_some (hb : b.Reticent) (hp : b.lookup d.typeName = some p) (w : σ) :
    ((build b d).run w).diagnostics.filterMap Diagnostic.failure? =
      ((buildChildren b d.label d.children).run w).diagnostics.filterMap Diagnostic.failure? := by
  obtain ⟨typeName, attributes, children⟩ := d
  dsimp only at hp
  have hunknown := alike_reportUnknown p p rfl rfl
    (d := ⟨typeName, attributes, children⟩) rfl
  have hquiet := hunknown.reports.mono fun _ => Diagnostic.IsUnused.failure?_eq_none
  have hown (components : List Component) := reports_own (P := fun x => x.failure? = none)
    (d := ⟨typeName, attributes, children⟩) (fun _ => Diagnostic.IsUnused.failure?_eq_none) rfl
    (hb typeName p hp) components
  rw [build]
  simp only [hp]
  rw [Traced.diagnostics_bind, Traced.diagnostics_bind, List.filterMap_append,
    List.filterMap_append, filterMap_failure?_of_reports hquiet, hunknown.state w w,
    List.nil_append]
  exact (congrArg (_ ++ ·) (filterMap_failure?_of_reports (hown _) _)).trans (List.append_nil _)

mutual

/-- The failures reported in building a declaration are those of the nested ones. -/
theorem failures_build (hb : b.Reticent) (d : Declaration) (w : σ) :
    ((build b d).run w).diagnostics.filterMap Diagnostic.failure? =
      (below b d w).filterMap ComponentReport.failure? := by
  obtain ⟨typeName, attributes, children⟩ := d
  cases hp : b.lookup typeName with
  | none =>
    rw [run_build_of_none (d := ⟨typeName, attributes, children⟩) hp, below]
    simp only [hp]
    rfl
  | some p =>
    rw [failures_build_of_some (d := ⟨typeName, attributes, children⟩) hb hp, below]
    simp only [hp]
    exact failures_buildChildren hb _ children w

theorem failures_buildChildren (hb : b.Reticent) (parent : String) (ds : List Declaration)
    (w : σ) : ((buildChildren b parent ds).run w).diagnostics.filterMap Diagnostic.failure? =
      (trialsAll b ds w).filterMap ComponentReport.failure? := by
  cases ds with
  | nil =>
    rw [buildChildren, trialsAll]
    rfl
  | cons d rest =>
    have hfirst := failures_build hb d w
    have hrest := failures_buildChildren hb parent rest ((build b d).run w).state
    rw [buildChildren, Traced.diagnostics_bind, List.filterMap_append, hfirst, trialsAll,
      trials_eq, List.append_assoc, List.filterMap_append]
    congr 1
    cases hvalue : ((build b d).run w).value with
    | ok c =>
      rw [Traced.diagnostics_bind, Traced.diagnostics_pure, List.append_nil, hrest]
      rfl
    | error e =>
      rw [Traced.diagnostics_bind, List.filterMap_append]
      exact congrArg (ComponentFailure.mk d.label e :: ·) hrest

end

theorem diagnostics_buildReported (b : Binding σ) (d : Declaration) (w : σ) :
    ((buildReported b d).run w).diagnostics = ((build b d).run w).diagnostics ++
      match ((build b d).run w).value with
      | .ok _ => []
      | .error e => [.componentFailed d.label e] := by
  rw [buildReported, Traced.diagnostics_bind]
  cases ((build b d).run w).value <;> rfl

/-- The failures reported in a batch, in their order. -/
theorem failures_buildAll (hb : b.Reticent) (ds : List Declaration) (w : σ) :
    ((buildAll b ds).run w).diagnostics.filterMap Diagnostic.failure? =
      (trialsAll b ds w).filterMap ComponentReport.failure? := by
  unfold buildAll
  induction ds generalizing w with
  | nil => rfl
  | cons d rest ih =>
    have hfirst := failures_build hb d w
    have hrest := ih ((build b d).run w).state
    rw [Traced.forEach, Traced.diagnostics_bind, Traced.diagnostics_bind, Traced.diagnostics_pure,
      List.append_nil, state_buildReported, diagnostics_buildReported, List.filterMap_append,
      List.filterMap_append, hfirst, hrest, trialsAll, trials_eq, List.filterMap_append,
      List.filterMap_append]
    congr 2
    cases ((build b d).run w).value <;> rfl

/-- Those of the declarations at the top. -/
theorem topFailures_buildAll (hb : b.Reticent) (ds : List Declaration) (w : σ) :
    ((buildAll b ds).run w).diagnostics.filterMap Diagnostic.topFailure? =
      (results b ds w).filterMap ComponentReport.failure? := by
  have hbuild (d : Declaration) : Reports (·.topFailure? = none) (build b d) :=
    reports_build (fun _ hx => Diagnostic.topFailure?_eq_none hx.failure?_eq_none) (fun _ => rfl)
      (fun _ _ _ => rfl)
      (fun typeName p hp a => (hb typeName p hp a).mono fun _ => Diagnostic.topFailure?_eq_none) d
  unfold buildAll
  induction ds generalizing w with
  | nil => rfl
  | cons d rest ih =>
    have hfirst := List.filterMap_eq_nil_iff.2 (hbuild d w)
    have hrest := ih ((build b d).run w).state
    rw [Traced.forEach, Traced.diagnostics_bind, Traced.diagnostics_bind, Traced.diagnostics_pure,
      List.append_nil, state_buildReported, diagnostics_buildReported, List.filterMap_append,
      List.filterMap_append, hfirst, hrest, results, List.nil_append]
    cases ((build b d).run w).value <;> rfl

/-! ## All declarations -/

theorem failures_eq_nil {ts : List Trial} :
    ts.filterMap ComponentReport.failure? = [] ↔ ∀ t ∈ ts, ∃ c, t.2 = .ok c := by
  rw [List.filterMap_eq_nil_iff]
  refine forall₂_congr fun t _ => ?_
  obtain ⟨d, result⟩ := t
  cases result with
  | error e => exact ⟨nofun, nofun⟩
  | ok c => exact ⟨fun _ => ⟨c, rfl⟩, fun _ => rfl⟩

mutual

/-- If nothing fails, then everything was tried. -/
theorem map_fst_trials (b : Binding σ) (d : Declaration) (w : σ)
    (h : ∀ t ∈ trials b d w, ∃ c, t.2 = .ok c) : (trials b d w).map Prod.fst = d.nodes := by
  obtain ⟨typeName, attributes, children⟩ := d
  -- only without a plugin are the nested declarations left out, and then it fails
  obtain ⟨c, hc⟩ := h _ (List.singleton_sublist.1 (sublist_trials b _ w))
  obtain ⟨p, hp⟩ := exists_plugin hc
  rw [trials_of_some hp] at h ⊢
  have hchildren := map_fst_trialsAll b children w fun t ht => h t (List.mem_append_left _ ht)
  rw [List.map_append, hchildren, Declaration.nodes]
  rfl

theorem map_fst_trialsAll (b : Binding σ) (ds : List Declaration) (w : σ)
    (h : ∀ t ∈ trialsAll b ds w, ∃ c, t.2 = .ok c) :
    (trialsAll b ds w).map Prod.fst = Declaration.nodesAll ds := by
  cases ds with
  | nil => rfl
  | cons d rest =>
    rw [trialsAll] at h ⊢
    have hfirst := map_fst_trials b d w fun t ht => h t (List.mem_append_left _ ht)
    have hrest := map_fst_trialsAll b rest _ fun t ht => h t (List.mem_append_right _ ht)
    rw [List.map_append, hfirst, hrest, Declaration.nodesAll]

end

end Build

namespace ComponentReport

variable {σ : Type}

theorem reports_sort {P : Diagnostic → Prop} (h : ∀ label, P (.layoutUnattached label))
    (entries : List Build.Trial) : Reports P (sort entries : Traced σ _) := by
  induction entries with
  | nil => exact Traced.reports_pure _
  | cons entry rest ih =>
    obtain ⟨d, result⟩ := entry
    cases result with
    | error e => exact ih.bind fun _ => Traced.reports_pure _
    | ok c =>
      cases c with
      | appender a => exact ih.bind fun _ => Traced.reports_pure _
      | appenders m => exact ih.bind fun _ => Traced.reports_pure _
      | layout l =>
        exact Traced.reports_report_bind (h _) (ih.bind fun _ => Traced.reports_pure _)

/-- Making a report reports no failures besides those of building. -/
theorem filterMap_diagnostics {γ : Type} {pick : Diagnostic → Option γ}
    (hunattached : ∀ label, pick (.layoutUnattached label) = none)
    (hreplaced : ∀ name, pick (.appenderReplaced name) = none) (b : Binding σ)
    (ds : List Declaration) (w : σ) : ((build b ds).run w).diagnostics.filterMap pick =
      ((Build.buildAll b ds).run w).diagnostics.filterMap pick := by
  have hrest (results : List (Except Error Component)) :
      Reports (pick · = none) (sort (ds.zip results) >>= fun sorted => do
        return ComponentReport.mk (← AppenderMap.collect sorted.1) sorted.2.1 sorted.2.2 :
          Traced σ ComponentReport) :=
    (reports_sort hunattached _).bind fun _ =>
      (AppenderMap.reports_collect hreplaced _).bind fun _ => Traced.reports_pure _
  rw [build, Traced.diagnostics_bind, List.filterMap_append]
  exact (congrArg (_ ++ ·) (List.filterMap_eq_nil_iff.2 (hrest _ _))).trans (List.append_nil _)

end ComponentReport

namespace Inspection

/-- The check succeeds if the report is clean. -/
theorem value_check (r : Registrations) (ds : List Declaration) (w : World) :
    let b := ((r.binding : Traced World (Binding World)).run w).value
    ((check r ds).run w).value = .ok () ↔
      ((ComponentReport.build b ds).run w).value.isClean = true := by
  intro b
  rw [check]
  simp only [Traced.value_bind, Registrations.binding, Binding.state_ofList]
  split
  · rename_i hclean
    exact iff_of_true rfl hclean
  · rename_i hclean
    exact iff_of_false nofun hclean

/-- The linked plugins leave the report of failures to the builder. -/
theorem reticent_standard (w : World) :
    ((Registrations.standard.binding : Traced World (Binding World)).run w).value.Reticent :=
  fun _ _ hp a => Plugin.reports_linked (fun _ => rfl) (fun _ => rfl) (fun _ => rfl)
    (Binding.mem_of_lookup_ofList hp) a

/-- A report is clean, and the check succeeds, if all declarations at the top were built.
Its failures are the reported ones at the top, and all that are reported are those of
declarations at any depth, in the order in which these were tried. So if no nested failure
is reported either, then all declarations at all depths were tried and built. -/
theorem clean_iff_built (r : Registrations) (w : World) (ds : List Declaration)
    (hreticent : ((r.binding : Traced World (Binding World)).run w).value.Reticent) :
    let b := ((r.binding : Traced World (Binding World)).run w).value
    let o := (ComponentReport.build b ds).run w
    (o.value.isClean = true ↔ ∀ t ∈ Build.results b ds w, ∃ c, t.2 = .ok c) ∧
    (((check r ds).run w).value = .ok () ↔ o.value.isClean = true) ∧
    o.diagnostics.filterMap Diagnostic.topFailure? = o.value.failures ∧
    o.diagnostics.filterMap Diagnostic.failure? =
      (Build.trialsAll b ds w).filterMap ComponentReport.failure? ∧
    (o.value.isClean = true ∧ (∀ parent label e, .childFailed parent label e ∉ o.diagnostics) ↔
      (Build.trialsAll b ds w).map Prod.fst = Declaration.nodesAll ds ∧
        ∀ t ∈ Build.trialsAll b ds w, ∃ c, t.2 = .ok c) := by
  intro b o
  obtain ⟨-, hfailures, -⟩ := ComponentReport.run_build b ds w
  have htop : o.diagnostics.filterMap Diagnostic.topFailure? = o.value.failures := by
    rw [hfailures, ← Build.topFailures_buildAll hreticent]
    exact ComponentReport.filterMap_diagnostics (fun _ => rfl) (fun _ => rfl) b ds w
  have hall : o.diagnostics.filterMap Diagnostic.failure? =
      (Build.trialsAll b ds w).filterMap ComponentReport.failure? := by
    rw [← Build.failures_buildAll hreticent]
    exact ComponentReport.filterMap_diagnostics (fun _ => rfl) (fun _ => rfl) b ds w
  have hclean : o.value.isClean = true ↔ o.value.failures = [] := List.isEmpty_iff
  refine ⟨?_, value_check r ds w, htop, hall, fun h => ?_, fun h => ?_⟩
  · rw [hclean, hfailures]
    exact Build.failures_eq_nil
  · have hnone : o.diagnostics.filterMap Diagnostic.failure? = [] := by
      rw [hclean, ← htop, List.filterMap_eq_nil_iff] at h
      refine List.filterMap_eq_nil_iff.2 fun x hx => ?_
      cases x with
      | childFailed parent label e => exact absurd hx (h.2 parent label e)
      | componentFailed label e => exact absurd (h.1 _ hx) nofun
      | _ => rfl
    have hbuilt := Build.failures_eq_nil.1 (hall.symm.trans hnone)
    exact ⟨Build.map_fst_trialsAll b ds w hbuilt, hbuilt⟩
  · have hnone := List.filterMap_eq_nil_iff.1 (hall.trans (Build.failures_eq_nil.2 h.2))
    refine ⟨?_, fun parent label e hx => absurd (hnone _ hx) nofun⟩
    rw [hclean, hfailures, Build.failures_eq_nil]
    exact fun t ht => h.2 t ((Build.results_sublist_trialsAll b ds w).subset ht)

/-- A memory appender is built although a declaration nested in it has no plugin: the
report is clean and the check succeeds, but not everything was built. -/
theorem clean_with_nested_failure :
    let r := Registrations.standard
    let w := World.initial 0 "main"
    let b := ((r.binding : Traced World (Binding World)).run w).value
    let ds : List Declaration :=
      [⟨"Memory", TextMap.empty.insert "name" "m", [⟨"Teleporter", .empty, []⟩]⟩]
    let o := (ComponentReport.build b ds).run w
    o.value.isClean = true ∧ ((check r ds).run w).value = .ok () ∧
      ¬(∀ t ∈ Build.trialsAll b ds w, ∃ c, t.2 = .ok c) ∧
      .childFailed "Memory[m]" "Teleporter" (.unknownComponent "Teleporter") ∈ o.diagnostics := by
  intro r w b ds o
  have hreport : o.diagnostics.head? =
    some (.childFailed "Memory[m]" "Teleporter" (.unknownComponent "Teleporter")) := by rfl
  have hfailed : (Build.trialsAll b ds w).filterMap ComponentReport.failure? =
      [⟨"Teleporter", .unknownComponent "Teleporter"⟩] := by
    dsimp only [r, w, b, ds]
    rfl
  refine ⟨rfl, rfl, fun hbuilt => ?_, List.mem_of_head? hreport⟩
  rw [Build.failures_eq_nil.2 hbuilt] at hfailed
  contradiction

/-- A set with two appenders, one of which has a layout: nothing is reported besides, and all
four were built, the innermost first. -/
theorem clean_iff_built_standard :
    let r := Registrations.standard
    let w := World.initial 0 "main"
    let b := ((r.binding : Traced World (Binding World)).run w).value
    let layout : Declaration := ⟨"XmlLayout", .empty, []⟩
    let console : Declaration := ⟨"Console", TextMap.empty.insert "name" "c", [layout]⟩
    let memory : Declaration := ⟨"Memory", TextMap.empty.insert "name" "m", []⟩
    let set : Declaration := ⟨"Appenders", .empty, [console, memory]⟩
    let o := (ComponentReport.build b [set]).run w
    b.Reticent ∧ o.value.isClean = true ∧
      (∀ parent label e, .childFailed parent label e ∉ o.diagnostics) ∧
      (Build.trialsAll b [set] w).map Prod.fst = [layout, console, memory, set] ∧
      ∀ t ∈ Build.trialsAll b [set] w, ∃ c, t.2 = .ok c := by
  intro r w b layout console memory set o
  have hreticent : b.Reticent := reticent_standard w
  obtain ⟨-, -, -, -, hcomplete⟩ := clean_iff_built r w [set] hreticent
  have hclean : o.value.isClean = true := by decide +kernel
  have hdiagnostics : o.diagnostics = [.componentBuilt "XmlLayout", .componentBuilt "Console[c]",
      .componentBuilt "Memory[m]", .appendersCollected 2, .componentBuilt "Appenders"] := by
    decide +kernel
  have hquiet : ∀ parent label e, .childFailed parent label e ∉ o.diagnostics := by
    rw [hdiagnostics]
    simp
  exact ⟨hreticent, hclean, hquiet, hcomplete.1 ⟨hclean, hquiet⟩⟩

end Inspection
end LoggingFacade
