import LoggingFacade.Report
import LoggingFacade.Proofs.Plugin.Trials

/-!
# Reports of built components

What a report says is a function of the results at the top: the appenders that they
contribute, the last one under each name, and the failures in their order. Making the
report changes nothing besides.
-/

namespace LoggingFacade

open Traced (Reports)

/-- Of appenders that are put under their names one after the other, the last one of a
name is found. -/
theorem lookup_foldl {μ : Type} {put : μ → Appender → μ} {find : μ → String → Option Appender}
    (hput : ∀ m a name, find (put m a) name = if name = a.name then some a else find m name)
    (appenders : List Appender) (m : μ) (name : String) :
    find (appenders.foldl put m) name =
      ((appenders.filter (·.name = name)).getLast?).or (find m name) := by
  induction appenders generalizing m with
  | nil => rfl
  | cons a rest ih =>
    rw [List.foldl_cons, ih, hput, List.filter_cons]
    by_cases hname : a.name = name
    · simp only [hname, decide_true, if_true]
      cases hlast : (rest.filter (·.name = name)).getLast? with
      | none => simp [List.getLast?_eq_none_iff.1 hlast]
      | some last => simp [List.getLast?_cons, hlast]
    · simp only [hname, Ne.symm hname, decide_false, if_false, Bool.false_eq_true]

namespace AppenderMap

/-- Each appender is under its own name. -/
def Named (m : AppenderMap) : Prop := ∀ e ∈ m.entries, e.1 = e.2.name

theorem mem_put {name : String} {a : Appender} {l : List (String × Appender)}
    {e : String × Appender} (h : e ∈ put name a l) : e = (name, a) ∨ e ∈ l := by
  induction l with
  | nil => exact .inl (List.mem_singleton.1 h)
  | cons head rest ih =>
    obtain ⟨n, b⟩ := head
    rw [put] at h
    split at h
    · rcases List.mem_cons.1 h with hnew | hold
      · exact .inl hnew
      · exact .inr (List.mem_cons_of_mem _ hold)
    · rcases List.mem_cons.1 h with hhead | hrest
      · exact .inr (hhead ▸ List.mem_cons_self)
      · exact (ih hrest).imp_right (List.mem_cons_of_mem _)

theorem named_empty : empty.Named := nofun

theorem Named.insert {m : AppenderMap} (h : m.Named) (a : Appender) :
    (m.insert a.name a).Named := by
  intro e he
  rcases mem_put he with rfl | hold
  · rfl
  · exact h e hold

/-- A name has one appender at most. -/
theorem Named.filter_appenders {m : AppenderMap} (h : m.Named) (name : String) :
    m.appenders.filter (·.name = name) = (m.get? name).toList := by
  have hentries : ∀ l : List (String × Appender), (∀ e ∈ l, e.1 = e.2.name) →
      (l.map (·.1)).Nodup → (l.map (·.2)).filter (·.name = name) = (l.lookup name).toList := by
    intro l hnamed hdistinct
    induction l with
    | nil => rfl
    | cons head rest ih =>
      obtain ⟨n, a⟩ := head
      obtain rfl : n = a.name := hnamed _ List.mem_cons_self
      obtain ⟨hhead, hrest⟩ := List.nodup_cons.1 hdistinct
      have htail := ih (fun e he => hnamed e (List.mem_cons_of_mem _ he)) hrest
      rw [List.map_cons, List.filter_cons, htail, TextMap.lookup_cons_eq]
      by_cases hname : a.name = name
      · have hnone : rest.lookup name = none := by
          refine List.lookup_eq_none_iff.2 fun e he => bne_iff_ne.2 ?_
          rintro rfl
          rw [hname] at hhead
          exact hhead (List.mem_map.2 ⟨e, he, rfl⟩)
        simp [hname, hnone]
      · simp [hname, Ne.symm hname]
  exact hentries m.entries h m.distinct

/-- What appenders are collected into. -/
def collected (appenders : List Appender) : AppenderMap :=
  appenders.foldl (fun m a => m.insert a.name a) empty

/-- The names of the entries that are overwritten when appenders are put into a map. -/
def overwritten (m : AppenderMap) : List Appender → List String
  | [] => []
  | a :: rest =>
    (if (m.get? a.name).isSome then [a.name] else []) ++ overwritten (m.insert a.name a) rest

variable {σ : Type}

theorem run_collect (appenders : List Appender) (w : σ) : (collect appenders).run w =
    ⟨collected appenders, w, (empty.overwritten appenders).map .appenderReplaced⟩ := by
  have hgo : ∀ m, (collect.go m appenders).run w =
      ⟨appenders.foldl (fun m a => m.insert a.name a) m, w,
        (m.overwritten appenders).map .appenderReplaced⟩ := by
    induction appenders with
    | nil => exact fun m => rfl
    | cons a rest ih =>
      intro m
      rw [collect.go, overwritten]
      split
      · rw [Traced.run_bind, Traced.state_report, ih]
        rfl
      · exact ih _
  exact hgo empty

theorem get?_collected (appenders : List Appender) (name : String) :
    (collected appenders).get? name = (appenders.filter (·.name = name)).getLast? := by
  rw [collected, lookup_foldl fun m a other => get?_insert m a.name other a]
  exact Option.or_none

theorem named_collected (appenders : List Appender) : (collected appenders).Named := by
  have hfold : ∀ m : AppenderMap, m.Named →
      (appenders.foldl (fun m a => m.insert a.name a) m).Named := by
    induction appenders with
    | nil => exact fun m h => h
    | cons a rest ih => exact fun m h => ih _ (h.insert a)
  exact hfold empty named_empty

theorem reports_collect {P : Diagnostic → Prop} (h : ∀ name, P (.appenderReplaced name))
    (appenders : List Appender) : Reports P (collect appenders : Traced σ AppenderMap) := by
  have hgo : ∀ m, Reports P (collect.go m appenders : Traced σ AppenderMap) := by
    induction appenders with
    | nil => exact fun m => Traced.reports_pure _
    | cons a rest ih =>
      intro m
      rw [collect.go]
      split
      · exact Traced.reports_report_bind (h _) (ih _)
      · exact ih _
  exact hgo empty

end AppenderMap

/-! ## What is contributed -/

namespace Component

/-- The appenders that a component at the top contributes. -/
def contribution : Component → List Appender
  | .appender a => [a]
  | .appenders m => m.appenders
  | .layout _ => []

end Component

namespace ComponentReport

variable {σ : Type}

/-- A declaration that could not be built, as the report has it. -/
def failure? (t : Build.Trial) : Option ComponentFailure :=
  match t.2 with
  | .error e => some ⟨t.1.label, e⟩
  | .ok _ => none

/-- The result is a layout at the top. -/
def isLayout (t : Build.Trial) : Bool :=
  match t.2 with
  | .ok (.layout _) => true
  | _ => false

/-- The report of a layout at the top. -/
def unattached? (t : Build.Trial) : Option Diagnostic :=
  match t.2 with
  | .ok (.layout _) => some (.layoutUnattached t.1.label)
  | _ => none

theorem run_sort (entries : List Build.Trial) (w : σ) : (sort entries).run w =
    ⟨((entries.filterMap fun t => t.2.toOption).flatMap Component.contribution,
      entries.countP isLayout, entries.filterMap failure?), w, entries.filterMap unattached?⟩ := by
  induction entries with
  | nil => rfl
  | cons entry rest ih =>
    obtain ⟨d, result⟩ := entry
    cases result with
    | error e =>
      rw [sort, Traced.run_bind, ih]
      simp [Traced.run_pure, List.filterMap_cons, Except.toOption, isLayout, failure?,
        unattached?]
    | ok c =>
      cases c with
      | appender a =>
        rw [sort, Traced.run_bind, ih]
        simp [Traced.run_pure, List.filterMap_cons, Except.toOption, Component.contribution,
          isLayout, failure?, unattached?]
      | appenders m =>
        rw [sort, Traced.run_bind, ih]
        simp [Traced.run_pure, List.filterMap_cons, Except.toOption, Component.contribution,
          isLayout, failure?, unattached?]
      | layout l =>
        rw [sort, Traced.run_bind, Traced.run_bind, Traced.state_report, ih]
        simp [Traced.run_pure, List.filterMap_cons, List.countP_cons, Except.toOption,
          Component.contribution, isLayout, failure?, unattached?]

/-- The report has the contributions of what was built, the last one of each name, and the
failures of what was not. -/
theorem run_build (b : Binding σ) (ds : List Declaration) (w : σ) :
    let o := (build b ds).run w
    o.value.appenders = AppenderMap.collected
        (((Build.results b ds w).filterMap fun t => t.2.toOption).flatMap
          Component.contribution) ∧
      o.value.failures = (Build.results b ds w).filterMap failure? ∧
      o.state = Build.stateAfter b ds w := by
  intro o
  obtain ⟨hvalue, hstate⟩ := Build.run_buildAll b ds w
  have hzip : ds.zip ((Build.results b ds w).map Prod.snd) = Build.results b ds w :=
    (List.zip_of_prod (Build.map_fst_results b ds w) rfl).symm
  have ho : o = (build b ds).run w := rfl
  rw [build, Traced.run_bind, hvalue, hstate, hzip, Traced.run_bind, run_sort] at ho
  simp only [Traced.run_bind, AppenderMap.run_collect] at ho
  rw [ho]
  exact ⟨rfl, rfl, rfl⟩

end ComponentReport

end LoggingFacade
