import LoggingFacade.Proofs.Plugin.Likeness
import LoggingFacade.Proofs.Plugin.Publication

/-!
# Merging what was built

A report on a list of declarations is made of their results in two steps: the results are
sorted into failures, layouts and appenders, and the appenders are collected under their
names. A set brings its appenders in an order that means nothing. Since it has one appender
of each name at most, that order cannot show in the report: under each name there is the
last appender that any declaration brings under it. Declarations that bring none could as
well be left out.
-/

namespace LoggingFacade

/-! ## Replaced appenders -/

namespace AppenderMap

theorem count_overwritten (m : AppenderMap) (appenders : List Appender) (name : String) :
    (m.overwritten appenders).count name =
      (appenders.filter (·.name = name)).length - if (m.get? name).isSome then 0 else 1 := by
  induction appenders generalizing m with
  | nil => simp [overwritten]
  | cons a rest ih =>
    rw [overwritten, List.count_append, ih, get?_insert, List.filter_cons]
    by_cases hname : name = a.name
    · subst hname
      cases (m.get? a.name).isSome
      · simp
      · simp
        omega
    · cases (m.get? a.name).isSome
      · simp [hname, Ne.symm hname]
      · simp [hname, Ne.symm hname]

end AppenderMap

namespace ComponentReport

open Build (Trial results)

variable {σ : Type}

/-! ## Results -/

/-- The appender that a result brings under a name. -/
def under? (name : String) (t : Trial) : Option Appender :=
  match t.2 with
  | .ok (.appender a) => if a.name = name then some a else none
  | .ok (.appenders m) => m.get? name
  | _ => none

/-- The result is neither a failure nor a layout. -/
def contributes (t : Trial) : Bool :=
  match t.2 with
  | .ok (.appender _) => true
  | .ok (.appenders _) => true
  | _ => false

/-- All sets have each appender under its own name. -/
def NamedSets (entries : List Trial) : Prop :=
  ∀ t ∈ entries, ∀ m, t.2 = .ok (.appenders m) → m.Named

/-- The results are the same, but for the order in which a set lists its appenders. -/
inductive Reordered : Trial → Trial → Prop
  | same (t : Trial) : Reordered t t
  | set (d : Declaration) {m n : AppenderMap} (h : m.entries.Perm n.entries) :
    Reordered (d, .ok (.appenders m)) (d, .ok (.appenders n))

/-- The report on results. -/
def ofTrials (entries : List Trial) : Traced σ ComponentReport := do
  let (appenders, layouts, failures) ← sort entries
  return ⟨← AppenderMap.collect appenders, layouts, failures⟩

/-- What making a report on results comes to. -/
structure Merges (entries : List Trial) (w : σ) (o : Outcome σ ComponentReport) : Prop where
  failures : o.value.failures = entries.filterMap failure?
  layouts : o.value.layouts = entries.countP isLayout
  /-- The last appender of a name counts. -/
  appenders : ∀ name, o.value.appenders.get? name = (entries.filterMap (under? name)).getLast?
  named : o.value.appenders.Named
  state : o.state = w
  /-- Every appender of a name but the first overwrites one. -/
  diagnostics : ∃ overwritten : List String,
    o.diagnostics = entries.filterMap unattached? ++ overwritten.map .appenderReplaced ∧
      ∀ name, overwritten.count name = (entries.filterMap (under? name)).length - 1

variable {entries others : List Trial}

/-- The appenders of a name among all that are brought. -/
theorem filter_contributions (h : NamedSets entries) (name : String) :
    ((entries.filterMap fun t => t.2.toOption).flatMap Component.contribution).filter
      (·.name = name) = entries.filterMap (under? name) := by
  induction entries with
  | nil => rfl
  | cons t rest ih =>
    have hrest := ih fun u hu => h u (List.mem_cons_of_mem t hu)
    obtain ⟨d, result⟩ := t
    rw [List.filterMap_cons, List.filterMap_cons, ← hrest]
    cases result with
    | error e => rfl
    | ok c =>
      cases c with
      | layout l => rfl
      | appender a => by_cases hname : a.name = name <;> simp [under?, hname,
          Except.toOption, Component.contribution]
      | appenders m =>
        -- A set that is named brings one appender of a name at most, the one under it.
        have hnamed := h _ List.mem_cons_self m rfl
        simp only [Except.toOption, List.flatMap_cons, List.filter_append, under?]
        change m.appenders.filter _ ++ _ = _
        rw [hnamed.filter_appenders]
        cases m.get? name <;> rfl

theorem run_ofTrials (entries : List Trial) (w : σ) :
    let brought := (entries.filterMap fun t => t.2.toOption).flatMap Component.contribution
    (ofTrials entries).run w = ⟨⟨AppenderMap.collected brought, entries.countP isLayout,
      entries.filterMap failure?⟩, w, entries.filterMap unattached? ++
        (AppenderMap.empty.overwritten brought).map .appenderReplaced⟩ := by
  rw [ofTrials, Traced.run_bind, run_sort]
  simp only [Traced.run_bind, AppenderMap.run_collect, Traced.run_pure, List.append_nil]

theorem merges_ofTrials (h : NamedSets entries) (w : σ) :
    Merges entries w ((ofTrials entries).run w) := by
  rw [run_ofTrials]
  refine ⟨rfl, rfl, fun name => ?_, AppenderMap.named_collected _, rfl, _, rfl, fun name => ?_⟩
  · rw [AppenderMap.get?_collected, filter_contributions h]
  · rw [AppenderMap.count_overwritten, filter_contributions h]
    rfl

/-! ## The order of sets -/

theorem Reordered.under?_eq {t u : Trial} (h : Reordered t u) (name : String) :
    under? name t = under? name u := by
  cases h with
  | same => rfl
  | @set d m n hperm => exact TextMap.lookup_perm hperm m.distinct name

theorem Reordered.failure?_eq {t u : Trial} (h : Reordered t u) : failure? t = failure? u := by
  cases h <;> rfl

theorem Reordered.isLayout_eq {t u : Trial} (h : Reordered t u) : isLayout t = isLayout u := by
  cases h <;> rfl

theorem Reordered.unattached?_eq {t u : Trial} (h : Reordered t u) :
    unattached? t = unattached? u := by
  cases h <;> rfl

theorem Reordered.named {t u : Trial} (h : Reordered t u)
    (ht : ∀ m, t.2 = .ok (.appenders m) → m.Named) :
    ∀ n, u.2 = .ok (.appenders n) → n.Named := by
  cases h with
  | same => exact ht
  | @set d m n hperm =>
    rintro _ ⟨⟩ e he
    exact ht m rfl e (hperm.mem_iff.2 he)

theorem NamedSets.reordered (h : NamedSets entries) (hothers : List.Forall₂ Reordered entries others) :
    NamedSets others := by
  induction hothers with
  | nil => exact h
  | cons htu _ ih =>
    obtain ⟨hfirst, hrest⟩ := List.forall_mem_cons.1 h
    exact List.forall_mem_cons.2 ⟨htu.named hfirst, ih hrest⟩

theorem countP_isLayout_reordered (h : List.Forall₂ Reordered entries others) :
    entries.countP isLayout = others.countP isLayout := by
  induction h with
  | nil => rfl
  | cons htu _ ih => rw [List.countP_cons, List.countP_cons, ih, htu.isLayout_eq]

theorem filterMap_eq_of_forall₂ {α β γ : Type} {R : α → β → Prop} {f : α → Option γ}
    {g : β → Option γ} {l : List α} {m : List β} (h : List.Forall₂ R l m)
    (hfg : ∀ x y, R x y → f x = g y) : l.filterMap f = m.filterMap g := by
  induction h with
  | nil => rfl
  | cons hxy _ ih => rw [List.filterMap_cons, List.filterMap_cons, hfg _ _ hxy, ih]

/-- Results that differ in the order of their sets come to one report. -/
theorem Merges.of_reordered {w : σ} {o : Outcome σ ComponentReport} (h : Merges others w o)
    (hothers : List.Forall₂ Reordered entries others) : Merges entries w o where
  failures := by
    rw [filterMap_eq_of_forall₂ hothers fun _ _ => Reordered.failure?_eq]
    exact h.failures
  layouts := by
    rw [countP_isLayout_reordered hothers]
    exact h.layouts
  appenders name := by
    rw [filterMap_eq_of_forall₂ hothers fun _ _ htu => htu.under?_eq name]
    exact h.appenders name
  named := h.named
  state := h.state
  diagnostics := by
    obtain ⟨overwritten, hreported, hcount⟩ := h.diagnostics
    refine ⟨overwritten, ?_, fun name => ?_⟩
    · rw [filterMap_eq_of_forall₂ hothers fun _ _ => Reordered.unattached?_eq]
      exact hreported
    · rw [filterMap_eq_of_forall₂ hothers fun _ _ htu => htu.under?_eq name]
      exact hcount name

/-! ## Declarations that are left out -/

theorem under?_of_not_contributes {t : Trial} (h : contributes t = false) (name : String) :
    under? name t = none := by
  obtain ⟨d, result⟩ := t
  cases result with
  | error e => rfl
  | ok c => cases c <;> first | rfl | contradiction

/-- Failures and layouts bring nothing under any name. -/
theorem filterMap_under?_filter (entries : List Trial) (name : String) :
    (entries.filter contributes).filterMap (under? name) = entries.filterMap (under? name) := by
  induction entries with
  | nil => rfl
  | cons t rest ih =>
    cases h : contributes t with
    | true => simp [h, List.filterMap_cons, ih]
    | false => simp [h, ih, under?_of_not_contributes h]

theorem NamedSets.filter (h : NamedSets entries) : NamedSets (entries.filter contributes) :=
  fun t ht => h t (List.mem_filter.1 ht).1

/-- The same declaration, built into something alike. -/
def Rebuilt (same : Appender → Appender → Prop) (t u : Trial) : Prop :=
  t.1 = u.1 ∧ Agree (Component.Like same) t.2 u.2

variable {b : Binding σ} {same : Appender → Appender → Prop}

/-- The declarations that neither fail nor are built into layouts. -/
def kept (b : Binding σ) (ds : List Declaration) (w : σ) : List Declaration :=
  ((results b ds w).filter contributes).map Prod.fst

/-- Without the other declarations, these are built into something alike. -/
theorem rebuilt_kept (hb : b.Respects same) (ds : List Declaration) (w v : σ) :
    List.Forall₂ (Rebuilt same) ((results b ds w).filter contributes)
      (results b (kept b ds w) v) := by
  induction ds generalizing w v with
  | nil => exact .nil
  | cons d rest ih =>
    rw [kept, results, List.filter_cons]
    split
    · exact .cons ⟨rfl, Build.like_build hb d w v⟩ (ih _ _)
    · exact ih _ _

theorem under?_rebuilt (hname : ∀ x y, same x y → x.name = y.name) {t u : Trial}
    (h : Rebuilt same t u) (name : String) :
    Option.Rel same (under? name t) (under? name u) := by
  obtain ⟨d, result⟩ := t
  obtain ⟨_, other⟩ := u
  obtain ⟨rfl, hresult⟩ := h
  simp only at hresult
  cases hresult with
  | error e => exact .none
  | ok hc =>
    cases hc with
    | layout l => exact .none
    | appenders hm => exact hm name
    | appender hxy =>
      simp only [under?, hname _ _ hxy]
      split
      · exact .some hxy
      · exact .none

/-- A map that is like one with each appender under its own name is such a map itself. -/
theorem named_of_like (hname : ∀ x y, same x y → x.name = y.name) {m n : AppenderMap}
    (h : ∀ name, Option.Rel same (m.get? name) (n.get? name)) (hm : m.Named) : n.Named := by
  rintro ⟨name, y⟩ hy
  have hget := h name
  rw [AppenderMap.get?_eq_some.2 hy] at hget
  cases hx : m.get? name with
  | none =>
    rw [hx] at hget
    contradiction
  | some x =>
    rw [hx] at hget
    cases hget with
    | some hxy => exact (hm _ (AppenderMap.get?_eq_some.1 hx)).trans (hname x y hxy)

theorem NamedSets.rebuilt (hname : ∀ x y, same x y → x.name = y.name) (h : NamedSets entries)
    (hothers : List.Forall₂ (Rebuilt same) entries others) : NamedSets others := by
  induction hothers with
  | nil => exact h
  | @cons t u _ _ htu _ ih =>
    obtain ⟨hfirst, hrest⟩ := List.forall_mem_cons.1 h
    refine List.forall_mem_cons.2 ⟨fun n hn => ?_, ih hrest⟩
    obtain ⟨d, result⟩ := t
    obtain ⟨_, other⟩ := u
    obtain ⟨-, hresult⟩ := htu
    simp only at hresult hn
    subst hn
    cases hresult with
    | ok hc =>
      cases hc with
      | appenders hm => exact named_of_like hname hm (hfirst _ rfl)

/-! ## Reports on declarations -/

/-- A report on declarations is the report on their results. -/
theorem run_build_eq (b : Binding σ) (ds : List Declaration) (w : σ) :
    let first := (Build.buildAll b ds).run w
    let merged := (ofTrials (results b ds w)).run first.state
    (build b ds).run w =
      ⟨merged.value, merged.state, first.diagnostics ++ merged.diagnostics⟩ := by
  have hzip : ds.zip ((Build.buildAll b ds).run w).value = results b ds w := by
    rw [(Build.run_buildAll b ds w).1]
    exact (List.zip_of_prod (Build.map_fst_results b ds w) rfl).symm
  dsimp only
  rw [← hzip]
  rfl

theorem getElem?_results (b : Binding σ) (ds : List Declaration) (w : σ) (i : Nat) :
    (results b ds w)[i]? = ds[i]?.map fun d =>
      (d, ((Build.build b d).run (Build.stateAfter b (ds.take i) w)).value) := by
  induction ds generalizing w i with
  | nil => rfl
  | cons d rest ih =>
    cases i with
    | zero => rfl
    | succ i => exact ih _ i

theorem get?_build {ds : List Declaration} {w : σ} (h : NamedSets (results b ds w)) (name : String) :
    ((build b ds).run w).value.appenders.get? name =
      ((results b ds w).filterMap (under? name)).getLast? := by
  rw [run_build_eq]
  exact (merges_ofTrials h _).appenders name

/-- A report on declarations is the report on their results, each of which is that of the
declaration at its place, built in the state that the ones before it left. It does not
depend on the order in which sets list their appenders, and says for each name what was
brought under it last. Failures and layouts bring nothing, so the appenders are the same
without them; and if factories treat like arguments alike, a report on the other
declarations alone has like appenders, in whatever state they are built. -/
theorem report_independent_of_order (b : Binding σ) (ds : List Declaration) (w : σ)
    (hnamed : NamedSets (results b ds w)) :
    let o := (build b ds).run w
    let first := (Build.buildAll b ds).run w
    let merged := (ofTrials (results b ds w)).run first.state
    o = ⟨merged.value, merged.state, first.diagnostics ++ merged.diagnostics⟩ ∧
    (∀ i, (results b ds w)[i]? = ds[i]?.map fun d =>
      (d, ((Build.build b d).run (Build.stateAfter b (ds.take i) w)).value)) ∧
    (∀ entries, List.Forall₂ Reordered (results b ds w) entries →
      ∀ v : σ, Merges (results b ds w) v ((ofTrials entries).run v)) ∧
    (∀ (v : σ) name, ((ofTrials ((results b ds w).filter contributes)).run v).value.appenders.get? name =
      o.value.appenders.get? name) ∧
    ∀ same : Appender → Appender → Prop, (∀ x y, same x y → x.name = y.name) → b.Respects same →
      ∀ v name, Option.Rel same (o.value.appenders.get? name)
        (((build b (kept b ds w)).run v).value.appenders.get? name) := by
  intro o first merged
  refine ⟨run_build_eq b ds w, getElem?_results b ds w, ?_, ?_, ?_⟩
  · intro entries hentries v
    exact (merges_ofTrials (hnamed.reordered hentries) v).of_reordered hentries
  · intro v name
    rw [(merges_ofTrials hnamed.filter v).appenders, filterMap_under?_filter, get?_build hnamed]
  · intro same hname hb v name
    have hrebuilt := rebuilt_kept hb ds w v
    rw [get?_build hnamed, get?_build (hnamed.filter.rebuilt hname hrebuilt),
      ← filterMap_under?_filter]
    refine getLast?_rel (List.rel_filterMap ?_ hrebuilt)
    exact fun t u htu => under?_rebuilt hname htu name

/-- The linked plugins put each appender of a set under its own name. -/
theorem namedSets_of_linked {b : Binding World} (hb : b.Linked) (ds : List Declaration)
    (w : World) : NamedSets (results b ds w) := by
  intro t ht m hm
  obtain ⟨i, hi⟩ := List.getElem?_of_mem ht
  rw [getElem?_results, Option.map_eq_some_iff] at hi
  obtain ⟨d, -, rfl⟩ := hi
  rw [Build.eq_collected hb hm]
  exact AppenderMap.named_collected _

/-- A memory appender, one of an unknown type, a layout, and a set with a console appender that
has the name of the memory appender. -/
theorem report_independent_of_order_linked :
    let w := World.initial 0 "main"
    let b := ((Registrations.standard.binding : Traced World (Binding World)).run w).value
    let named := TextMap.empty.insert "name" "m"
    let memory : Declaration := ⟨"Memory", named, []⟩
    let set : Declaration := ⟨"Appenders", .empty, [⟨"Console", named, []⟩]⟩
    let ds := [memory, ⟨"Lost", .empty, []⟩, ⟨"XMLLayout", .empty, []⟩, set]
    let o := (build b ds).run w
    NamedSets (results b ds w) ∧ b.Respects Appender.Twins ∧
      o.value.appenders.get? "m" = some ⟨1, "m", none⟩ ∧
      ∃ y, ((build b (kept b ds w)).run w).value.appenders.get? "m" = some y ∧
        Appender.Twins ⟨1, "m", none⟩ y := by
  intro w b named memory set ds o
  have hb : b.Linked := fun typeName p hp => Binding.mem_of_lookup_ofList hp
  have hnamed := namedSets_of_linked hb ds w
  have hget : o.value.appenders.get? "m" = some ⟨1, "m", none⟩ := by rfl
  obtain ⟨-, -, -, -, hkept⟩ := report_independent_of_order b ds w hnamed
  have hlike := hkept Appender.Twins (fun x y hxy => hxy.1) hb.respects_twins w "m"
  change Option.Rel _ (o.value.appenders.get? "m") _ at hlike
  rw [hget] at hlike
  refine ⟨hnamed, hb.respects_twins, hget, ?_⟩
  generalize ((build b (kept b ds w)).run w).value.appenders.get? "m" = other at hlike
  cases hlike with
  | some htwins => exact ⟨_, rfl, htwins⟩

end ComponentReport
end LoggingFacade
