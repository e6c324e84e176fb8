import LoggingFacade.Proofs.Appender.Closing
import LoggingFacade.Proofs.Backend.References
import LoggingFacade.Proofs.Context.Delivery
import LoggingFacade.Report

/-!
# Appenders that are installed again and again

Installing a map of appenders puts it in force in two contexts, the global one and that of
the default realm, one after the other. Both had the same map before, so what it drops is
stopped twice and what it keeps is spared twice. All that the contexts of other realms can
notice is that an appender they share was dropped.
-/

namespace LoggingFacade

open AppenderMap (used Keyed DropForGood)

/-! ## Stopping appenders twice -/

/-- Two worlds have the same devices and the same streams. -/
structure World.SameOutputs (v w : World) : Prop where
  devices : v.devices = w.devices
  streams : ∀ target, v.stream target = w.stream target

theorem World.SameOutputs.trans {u v w : World} (h : u.SameOutputs v) (h' : v.SameOutputs w) :
    u.SameOutputs w :=
  ⟨h.devices.trans h'.devices, fun target => (h.streams target).trans (h'.streams target)⟩

theorem World.sameOutputs_updateContext (w : World) (c : Context)
    (f : ContextState → ContextState) : (w.updateContext c f).SameOutputs w := by
  refine ⟨rfl, ?_⟩
  intro target
  cases target <;> rfl

namespace AppenderMap

variable {u v w : World} {entries : List (String × Appender)}

/-- To stop appenders a second time changes nothing: what was open is closed once. -/
theorem stop_twice (hv : v.SameOutputs w)
    (hu : u.SameOutputs ((entries.forM stopDropped).run v).state) :
    let last := ((entries.forM stopDropped).run u).state
    (∀ a : Appender, a.stopped? last =
      (a.stopped? w).map fun stopped => stopped || entries.any fun e => e.2.id = a.id) ∧
    ((∀ e ∈ entries, (e.2.stopped? w).isSome = true) →
      (∀ a : Appender, (∀ e ∈ entries, e.2.id = a.id → e.2 = a) →
        last.devices.get? a.id =
          if (entries.any fun e => e.2.id = a.id) = true then
            (w.devices.get? a.id).map a.closedDevice
          else w.devices.get? a.id) ∧
      ((entries.map fun e => e.2.id).Nodup → ∀ target, (last.stream target).bytes =
        (w.stream target).bytes ++ entries.flatMap fun e => e.2.closing w target)) := by
  intro last
  have hstopped : ∀ a : Appender, a.stopped? u =
      (a.stopped? w).map fun stopped => stopped || entries.any fun e => e.2.id = a.id := by
    intro a
    rw [Appender.stopped?_congr hu.devices, Appender.stopped?_stopAll,
      Appender.stopped?_congr hv.devices]
  constructor
  · intro a
    rw [Appender.stopped?_stopAll, hstopped, Option.map_map]
    congr 1
    funext stopped
    simp
  · intro hframes
    have hframes' : ∀ e ∈ entries, (e.2.stopped? v).isSome = true := by
      intro e he
      rw [Appender.stopped?_congr hv.devices]
      exact hframes e he
    have hall : ∀ e ∈ entries, e.2.stopped? u = some true := by
      intro e he
      obtain ⟨stopped, hwas⟩ := Option.isSome_iff_exists.1 (hframes e he)
      have hany : (entries.any fun x => x.2.id = e.2.id) = true :=
        List.any_eq_true.2 ⟨e, he, decide_eq_true rfl⟩
      rw [hstopped, hwas, hany, Option.map_some, Bool.or_true]
    obtain ⟨hdevices, hstreams⟩ := Appender.stopAll_of_stopped hall
    constructor
    · intro a hsame
      rw [hdevices, hu.devices, Appender.device_stopAll hframes' hsame, hv.devices]
    · intro hdistinct target
      rw [hstreams, hu.streams, Appender.stream_stopAll hdistinct hframes', hv.streams]
      congr 1
      apply List.flatMap_congr
      intro e _
      exact Appender.closing_congr (by rw [hv.devices]) target

/-- An appender is among those dropped if the one map has it and the next one lacks it. -/
theorem Keyed.any_dropped {maps : List AppenderMap} {previous next : AppenderMap}
    (h : Keyed maps) (hprevious : previous ∈ maps) (hnext : next ∈ maps) (a : Appender) :
    ((previous.dropped next).any fun e => e.2.id = a.id) =
      (previous.holds a && !next.holds a) := by
  rw [h.dropped_eq hprevious hnext, Bool.eq_iff_iff, Bool.and_eq_true, List.any_eq_true]
  have hid : ∀ b : Appender, b.id = a.id → next.holds b = next.holds a := by
    intro b hb
    rw [holds, holds, hb]
  constructor
  · rintro ⟨e, he, hsame⟩
    obtain ⟨hmem, hlacks⟩ := List.mem_filter.1 he
    have hsame := of_decide_eq_true hsame
    rw [hid _ hsame] at hlacks
    exact ⟨List.any_eq_true.2 ⟨e.2, List.mem_map_of_mem hmem, decide_eq_true hsame⟩, hlacks⟩
  · rintro ⟨hholds, hlacks⟩
    obtain ⟨c, hc, hsame⟩ := List.any_eq_true.1 hholds
    obtain ⟨name, hname⟩ := mem_appenders.1 hc
    refine ⟨(name, c), List.mem_filter.2 ⟨hname, ?_⟩, hsame⟩
    rw [hid c (of_decide_eq_true hsame)]
    exact hlacks

end AppenderMap

/-! ## The table of a target -/

namespace Backend

variable {w v : World} {b : Backend} {c : Context} {k : Option Realm} {next : AppenderMap}

/-- The table of a context of the backend; there is nothing in one that was not made yet. -/
def tableAt (w : World) (b : Backend) (k : Option Realm) : AppenderMap :=
  ((b.known? w k).map fun c => (w.contextState c).table).getD .empty

theorem tableAt_of_known (h : b.known? w k = some c) : b.tableAt w k = (w.contextState c).table := by
  rw [tableAt, h]
  rfl

theorem Indexed.has_tableAt (h : b.Indexed w) (hc : b.known? w k = some c) :
    c.Has w (b.tableAt w k) := by
  obtain ⟨m, hm⟩ := h.has hc
  rw [tableAt_of_known hc, hm.table]
  exact hm

theorem tableAt_congr (h : v.contexts = w.contexts) (hbackends : v.backends = w.backends)
    (k : Option Realm) : b.tableAt v k = b.tableAt w k := by
  unfold tableAt World.contextState
  rw [known?_congr hbackends, h]

/-- A context that is made has an empty table, as if it had not been made. -/
theorem Indexed.tableAt_withContext (h : b.Indexed w) {realm : Realm}
    (hnew : b.known? w (some realm) = none) (k : Option Realm) :
    b.tableAt (b.withContext w realm) k = b.tableAt w k := by
  have hknown := h.known?_withContext hnew k
  unfold tableAt
  rw [hknown]
  by_cases hk : k = some realm
  · rw [if_pos hk, hk, hnew]
    exact (Context.has_newContext b realm w).table
  · rw [if_neg hk]
    simp only [Context.contextState_withContext]

/-- A request for the context of a realm finds it or makes it, and touches nothing else. -/
theorem Indexed.context_of_realm (h : b.Indexed w) (hkind : b.kind = .standard)
    (caller : String) (realm : Realm) :
    let o := (b.context caller (some realm) false).run w
    b.Indexed o.state ∧ b.known? o.state (some realm) = some o.value ∧
      (∀ k c, b.known? w k = some c → b.known? o.state k = some c) ∧
      (∀ c, o.state.contextState c = w.contextState c) ∧
      (∀ k, b.tableAt o.state k = b.tableAt w k) ∧ World.SameOutputs o.state w := by
  intro o
  have hrealm : w.realm = w.realm.toList.head? := Option.head?_toList.symm
  have htarget : b.target w.realm.toList (some realm) false = some realm := by
    rw [target, hkind]
    rfl
  obtain ⟨hindexed, -, hknown, hkept, -, -⟩ := h.context hrealm caller (some realm) false
  rw [htarget] at hknown
  refine ⟨hindexed, hknown, hkept, ?_⟩
  rcases run_context (b := b) hrealm caller (some realm) false with
    ⟨-, hstate⟩ | ⟨-, other, hother, hnew, -, hstate⟩
  · change o.state = w at hstate
    rw [hstate]
    exact ⟨fun _ => rfl, fun _ => rfl, rfl, fun _ => rfl⟩
  · change o.state = b.withContext w other at hstate
    rw [hother] at hnew
    rw [hstate]
    refine ⟨Context.contextState_withContext b other w, h.tableAt_withContext hnew, rfl, ?_⟩
    intro target
    cases target <;> rfl

/-! ## One context -/

/-- To configure a context changes its table and no other one, and stops what it dropped. -/
theorem Indexed.configure (h : b.Indexed w) (hkind : b.kind = .standard)
    (hc : b.known? w k = some c) (next : AppenderMap) :
    let o := (c.configure next).run w
    let v := w.updateContext c fun s => { s with table := next }
    o.value = true ∧ b.Indexed o.state ∧ o.state.backends = w.backends ∧
      (∀ k', b.tableAt o.state k' = if k' = k then next else b.tableAt w k') ∧
      (∀ k' d, b.known? w k' = some d → k' ≠ k → o.state.contextState d = w.contextState d) ∧
      o.state = ((((b.tableAt w k).dropped next).forM AppenderMap.stopDropped).run v).state := by
  intro o v
  have hstandard : c.kind = .standard := (h.kind hc).trans hkind
  have hstate : o.state =
      ((((b.tableAt w k).dropped next).forM AppenderMap.stopDropped).run v).state := by
    rw [tableAt_of_known hc]
    change ((c.configure next).run w).state = _
    rw [Context.run_configure hstandard, AppenderMap.run_replace]
  have hindex : o.state.index = v.index := by
    change ((c.configure next).run w).state.index = _
    rw [Context.run_configure hstandard]
    exact AppenderMap.keeps_index_replace _ next v
  obtain ⟨hcontexts, hbackends, hloggers, -⟩ := World.of_index_eq hindex
  have hdistinct : ∀ k' d, b.known? w k' = some d → (d.id = c.id ↔ k' = k) := by
    intro k' d hd
    constructor
    · exact h.distinct hd hc
    · rintro rfl
      rw [hc] at hd
      exact congrArg Context.id (Option.some.inj hd).symm
  refine ⟨?_, ?_, hbackends, ?_, ?_, hstate⟩
  · change ((c.configure next).run w).value = true
    rw [Context.run_configure hstandard]
  · have hv : b.Indexed v := h.congr rfl rfl
      (fun d name => Context.existing?_publish d c next w name)
      fun d m hm => ⟨_, hm.publishIn c next⟩
    exact hv.of_contexts hcontexts hbackends hloggers
  · intro k'
    rw [tableAt_congr hcontexts hbackends]
    cases hd : b.known? w k' with
    | none =>
      have hne : k' ≠ k := by
        rintro rfl
        rw [hc] at hd
        contradiction
      have hd' : b.known? v k' = none := (known?_congr rfl k').trans hd
      rw [if_neg hne, tableAt, tableAt, hd', hd]
      rfl
    | some d =>
      have hhas := (h.has_tableAt hd).publishIn c next
      have hd' : b.known? v k' = some d := (known?_congr rfl k').trans hd
      rw [tableAt_of_known hd', hhas.table]
      simp only [hdistinct k' d hd]
  · intro k' d hd hne
    have hid : d.id ≠ c.id := fun hid => hne ((hdistinct k' d hd).1 hid)
    unfold World.contextState
    rw [hcontexts]
    exact congrArg (Option.getD · ContextState.empty) (Store.get?_update_of_ne _ _ hid)

/-! ## Both contexts -/

/-- An installation configures the global context and that of the default realm. -/
theorem run_install (hkind : b.kind = .standard) (next : AppenderMap) (w : World) :
    let found := (b.context facadeCaller (some Realm.default) false).run w
    let o := (configureAll next [b.root, found.value]).run found.state
    ((b.install next).run w).value = o.value ∧ ((b.install next).run w).state = o.state := by
  intro found o
  have hglobal : (b.context facadeCaller none true).run w = ⟨b.root, w, []⟩ := by
    rw [Backend.context, hkind]
    rfl
  rw [install, Traced.run_bind_of_quiet hglobal, Traced.value_bind, Traced.value_bind,
    Traced.state_bind, Traced.state_bind]
  split <;> exact ⟨rfl, rfl⟩

theorem run_configureAll_pair {c d : Context} {next : AppenderMap} {w : World}
    (hc : ((c.configure next).run w).value = true)
    (hd : ((d.configure next).run ((c.configure next).run w).state).value = true) :
    let o := (configureAll next [c, d]).run w
    o.value = 2 ∧ o.state = ((d.configure next).run ((c.configure next).run w).state).state := by
  intro o
  have ho : o = (configureAll next [c, d]).run w := rfl
  simp only [configureAll, Traced.run_bind, Traced.run_pure, hc, hd] at ho
  rw [ho]
  exact ⟨rfl, rfl⟩

/-- What each of both contexts drops for the new map is stopped, and no other context is
touched. -/
theorem Indexed.install (h : b.Indexed w) (hkind : b.kind = .standard) (next : AppenderMap) :
    let o := (b.install next).run w
    let stop := fun (m : AppenderMap) (v : World) =>
      (((m.dropped next).forM AppenderMap.stopDropped).run v).state
    o.value = 2 ∧ b.Indexed o.state ∧
      (∀ k, b.tableAt o.state k =
        if k = none ∨ k = some Realm.default then next else b.tableAt w k) ∧
      (∀ k c, b.known? w k = some c → b.known? o.state k = some c ∧
        (k ≠ none → k ≠ some Realm.default → o.state.contextState c = w.contextState c)) ∧
      (b.known? o.state (some Realm.default)).isSome = true ∧
      ∃ first second, World.SameOutputs first w ∧
        World.SameOutputs second (stop (b.tableAt w none) first) ∧
        o.state = stop (b.tableAt w (some Realm.default)) second := by
  intro o stop
  obtain ⟨hindexed, hknown, hkept, hstates, htables, hsame⟩ :=
    h.context_of_realm hkind facadeCaller Realm.default
  obtain ⟨hvalue, hstate⟩ := run_install hkind next w
  change o.value = _ at hvalue
  change o.state = _ at hstate
  generalize (b.context facadeCaller (some Realm.default) false).run w = found at *
  have hglobal : b.known? found.state none = some b.root := rfl
  obtain ⟨htaken, hindexed₁, hbackends₁, htables₁, hstates₁, hstate₁⟩ :=
    hindexed.configure hkind hglobal next
  have hknown₁ : b.known? ((b.root.configure next).run found.state).state (some Realm.default) =
      some found.value := (known?_congr hbackends₁ _).trans hknown
  obtain ⟨htaken₂, hindexed₂, hbackends₂, htables₂, hstates₂, hstate₂⟩ :=
    hindexed₁.configure hkind hknown₁ next
  obtain ⟨htwo, hend⟩ := run_configureAll_pair htaken htaken₂
  rw [hend] at hstate
  rw [htables] at hstate₁
  rw [htables₁, if_neg (Option.some_ne_none _), htables] at hstate₂
  refine ⟨hvalue.trans htwo, hstate ▸ hindexed₂, ?_, ?_, ?_, ?_⟩
  · intro k
    rw [hstate, htables₂, htables₁, htables]
    by_cases hk : k = some Realm.default
    · simp [hk]
    · simp [hk]
  · intro k c hc
    have hc₁ := (known?_congr hbackends₁ k).trans (hkept k c hc)
    refine ⟨hstate ▸ (known?_congr hbackends₂ k).trans hc₁, ?_⟩
    intro hnone hother
    rw [hstate, hstates₂ k c hc₁ hother, hstates₁ k c (hkept k c hc) hnone, hstates]
  · rw [hstate, known?_congr hbackends₂, hknown₁]
    rfl
  · refine ⟨found.state.updateContext b.root fun s => { s with table := next },
      ((b.root.configure next).run found.state).state.updateContext found.value
        fun s => { s with table := next }, ?_, ?_, hstate.trans hstate₂⟩
    · exact (World.sameOutputs_updateContext _ _ _).trans hsame
    · rw [hstate₁]
      exact World.sameOutputs_updateContext _ _ _

/-! ## Runs -/

/-- What happens to a world: a map is installed, or something else makes it another one. -/
inductive Turn where
  | install (map : AppenderMap)
  | meanwhile (w : World)

namespace Turn

def after (b : Backend) (w : World) : Turn → World
  | install map => ((b.install map).run w).state
  | meanwhile v => v

def run (b : Backend) (w : World) (turns : List Turn) : World := turns.foldl (after b) w

def map? : Turn → Option AppenderMap
  | install map => some map
  | meanwhile _ => none

/-- The maps that are installed, in order. -/
def maps (turns : List Turn) : List AppenderMap := turns.filterMap map?

/-- The map that was installed last. -/
def last (installed : List AppenderMap) : AppenderMap := installed.getLast?.getD .empty

/-- What happens besides leaves the tables of both contexts alone, and it neither stops nor
reopens the appenders that were in them. -/
structure Undisturbed (b : Backend) (appenders : List Appender) (w v : World) : Prop where
  indexed : b.Indexed v
  root : b.tableAt v none = b.tableAt w none
  standard : b.tableAt v (some Realm.default) = b.tableAt w (some Realm.default)
  stopped : ∀ a ∈ appenders, a.stopped? v = a.stopped? w
  closed : ∀ a ∈ appenders, a.Closed w → a.Closed v

/-- After some maps were installed, both contexts are configured by installing further ones
only, and an appender that none of the maps before had is open when it is installed. -/
def Fair (b : Backend) : List AppenderMap → World → List Turn → Prop
  | _, _, [] => True
  | installed, w, .install map :: rest =>
    (∀ a ∈ map.appenders, installed.any (·.holds a) = false → a.stopped? w = some false) ∧
      Fair b (installed ++ [map]) ((b.install map).run w).state rest
  | installed, w, .meanwhile v :: rest =>
    Undisturbed b (used installed) w v ∧ Fair b installed v rest

/-- Both contexts have the map that was installed last. Its appenders are open, and all
others that were in one of the maps are closed. -/
structure Installed (b : Backend) (installed : List AppenderMap) (w : World) : Prop where
  indexed : b.Indexed w
  root : b.tableAt w none = last installed
  standard : b.tableAt w (some Realm.default) = last installed
  stopped : ∀ a ∈ used installed, a.stopped? w = some (!(last installed).holds a)
  closed : ∀ a ∈ used installed, (last installed).holds a = false → a.Closed w

variable {maps installed : List AppenderMap} {a : Appender}

/-! ### Maps -/

theorem last_concat (installed : List AppenderMap) (next : AppenderMap) :
    last (installed ++ [next]) = next := by
  simp [last]

theorem last_mem (installed : List AppenderMap) :
    last installed ∈ AppenderMap.empty :: installed := by
  unfold last
  cases hlast : installed.getLast? with
  | none => exact List.mem_cons_self
  | some m => exact List.mem_cons_of_mem _ (List.mem_of_getLast? hlast)

theorem mem_used_of_last (h : a ∈ (last installed).appenders) : a ∈ used installed := by
  rcases List.mem_cons.1 (last_mem installed) with hempty | hmem
  · rw [hempty] at h
    contradiction
  · exact AppenderMap.mem_used.2 ⟨_, hmem, h⟩

/-- What was in a map and is not in the last one does not come back. -/
theorem not_holds_of_gone (hgood : DropForGood (installed ++ [next]))
    (hsome : installed.any (·.holds a) = true) (hlacks : (last installed).holds a = false) :
    next.holds a = false := by
  obtain ⟨m, hm, hholds⟩ := List.any_eq_true.1 hsome
  obtain ⟨before, l, rfl⟩ : ∃ before l, installed = before ++ [l] :=
    (List.eq_nil_or_concat' installed).resolve_left (List.ne_nil_of_mem hm)
  rw [last_concat] at hlacks
  have hbefore : m ∈ before := by
    rcases List.mem_append.1 hm with hbefore | hlast
    · exact hbefore
    · rw [List.mem_singleton.1 hlast, hlacks] at hholds
      contradiction
  have hpart : [m, l, next].Sublist (before ++ [l] ++ [next]) := by
    rw [List.append_assoc]
    exact (List.singleton_sublist.2 hbefore).append (List.Sublist.refl [l, next])
  exact hgood a m l next hpart hholds hlacks

/-! ### Steps -/

theorem Installed.meanwhile (h : Installed b installed w)
    (hv : Undisturbed b (used installed) w v) : Installed b installed v := by
  refine ⟨hv.indexed, hv.root.trans h.root, hv.standard.trans h.standard, ?_, ?_⟩
  · intro a ha
    rw [hv.stopped a ha, h.stopped a ha]
  · intro a ha hgone
    exact hv.closed a ha (h.closed a ha hgone)

/-- What an installation does to appenders and to their outputs. -/
theorem Installed.outputs (h : Installed b installed w) (hkind : b.kind = .standard)
    (hkeyed : Keyed maps) (hinstalled : installed ⊆ maps) (hnext : next ∈ maps) :
    let o := (b.install next).run w
    let leaving := (last installed).leaving next
    (∀ a : Appender, a.stopped? o.state = (a.stopped? w).map fun stopped =>
      stopped || ((last installed).holds a && !next.holds a)) ∧
    (∀ a : Appender, (∀ d ∈ leaving, d.id = a.id → d = a) → o.state.devices.get? a.id =
      if ((last installed).holds a && !next.holds a) = true then
        (w.devices.get? a.id).map a.closedDevice
      else w.devices.get? a.id) ∧
    ∀ target, (o.state.stream target).bytes =
      (w.stream target).bytes ++ leaving.flatMap fun a => a.closing w target := by
  intro o leaving
  obtain ⟨-, -, -, -, -, first, second, hfirst, hsecond, hstate⟩ :=
    h.indexed.install hkind next
  change o.state = _ at hstate
  rw [h.root] at hsecond
  rw [h.standard] at hstate
  have hall := hkeyed.cons_empty
  have hlast : last installed ∈ AppenderMap.empty :: maps :=
    List.cons_subset_cons _ hinstalled (last_mem installed)
  have hnext' : next ∈ AppenderMap.empty :: maps := List.mem_cons_of_mem _ hnext
  have hleaving : ((last installed).dropped next).map (·.2) = leaving :=
    hall.appenders_dropped hlast hnext'
  have hused : ∀ e ∈ (last installed).dropped next, e.2 ∈ leaving := by
    intro e he
    rw [← hleaving]
    exact List.mem_map_of_mem he
  obtain ⟨hstopped, houtputs⟩ := AppenderMap.stop_twice hfirst hsecond
  have hframes : ∀ e ∈ (last installed).dropped next, (e.2.stopped? w).isSome = true := by
    intro e he
    rw [h.stopped e.2 (mem_used_of_last (List.mem_filter.1 (hused e he)).1)]
    rfl
  obtain ⟨hdevices, hstreams⟩ := houtputs hframes
  rw [hstate]
  refine ⟨?_, ?_, ?_⟩
  · intro a
    rw [hstopped, hall.any_dropped hlast hnext']
  · intro a hsame
    rw [hdevices a fun e he => hsame e.2 (hused e he), hall.any_dropped hlast hnext']
  · intro target
    have hdistinct : (((last installed).dropped next).map fun e => e.2.id).Nodup := by
      have hids := hall.nodup_leaving hlast next
      rw [← hall.appenders_dropped hlast hnext', List.map_map] at hids
      exact hids
    rw [hstreams hdistinct, ← hleaving, List.flatMap_map]

/-- An appender that leaves was in a map that was installed. -/
theorem mem_used_of_leaving {d : Appender} (hd : d ∈ (last installed).leaving next) :
    d ∈ used installed :=
  mem_used_of_last (List.mem_filter.1 hd).1

theorem used_subset (h : installed ⊆ maps) : used installed ⊆ used maps := by
  intro a ha
  obtain ⟨m, hm, hmem⟩ := AppenderMap.mem_used.1 ha
  exact AppenderMap.mem_used.2 ⟨m, h hm, hmem⟩

theorem Installed.install (h : Installed b installed w) (hkind : b.kind = .standard)
    (hkeyed : Keyed maps) (hinstalled : installed ++ [next] ⊆ maps)
    (hgood : DropForGood (installed ++ [next]))
    (hopen : ∀ a ∈ next.appenders, installed.any (·.holds a) = false →
      a.stopped? w = some false) :
    Installed b (installed ++ [next]) ((b.install next).run w).state := by
  have hbefore : installed ⊆ maps := fun m hm => hinstalled (List.mem_append_left _ hm)
  have hnext : next ∈ maps := hinstalled (List.mem_append_right _ List.mem_cons_self)
  obtain ⟨-, hindexed, htables, -, -, -⟩ := h.indexed.install hkind next
  obtain ⟨hstopped, hdevices, -⟩ := h.outputs hkind hkeyed hbefore hnext
  have hold : ∀ a ∈ used (installed ++ [next]), next.holds a = false → a ∈ used installed := by
    intro a ha hlacks
    obtain ⟨m, hm, hmem⟩ := AppenderMap.mem_used.1 ha
    rcases List.mem_append.1 hm with hold | hnew
    · exact AppenderMap.mem_used.2 ⟨m, hold, hmem⟩
    · rw [List.mem_singleton.1 hnew] at hmem
      rw [AppenderMap.holds_of_mem hmem] at hlacks
      contradiction
  refine ⟨hindexed, ?_, ?_, ?_, ?_⟩
  · rw [htables, if_pos (.inl rfl), last_concat]
  · rw [htables, if_pos (.inr rfl), last_concat]
  · intro a ha
    rw [hstopped, last_concat]
    cases hholds : next.holds a with
    | false =>
      rw [h.stopped a (hold a ha hholds)]
      cases (last installed).holds a <;> rfl
    | true =>
      have hwas : a.stopped? w = some false := by
        have hused : a ∈ used maps := used_subset hinstalled ha
        cases hsome : installed.any (·.holds a) with
        | false => exact hopen a (hkeyed.mem_of_holds hnext hused hholds) hsome
        | true =>
          obtain ⟨m, hm, hmem⟩ := List.any_eq_true.1 hsome
          have hin : a ∈ used installed := AppenderMap.mem_used.2
            ⟨m, hm, hkeyed.mem_of_holds (hbefore hm) hused hmem⟩
          -- had it been dropped, it would not be back
          have hkept : (last installed).holds a = true := by
            by_contra hlacks
            rw [not_holds_of_gone hgood hsome (by simpa using hlacks)] at hholds
            contradiction
          rw [h.stopped a hin, hkept]
          rfl
      rw [hwas]
      cases (last installed).holds a <;> rfl
  · intro a ha hlacks
    rw [last_concat] at hlacks
    have hused := hold a ha hlacks
    have hdevice := hdevices a fun d hd => hkeyed.identified d
      (used_subset hbefore (mem_used_of_leaving hd)) a (used_subset hbefore hused)
    cases hwas : (last installed).holds a with
    | false =>
      rw [hwas, Bool.false_and] at hdevice
      exact (h.closed a hused hwas).congr hdevice
    | true =>
      have hopen := h.stopped a hused
      rw [hwas] at hopen
      rw [hwas, hlacks] at hdevice
      exact Appender.closed_of_closedDevice hopen hdevice

/-! ### All of it -/

theorem maps_append (before after : List Turn) :
    Turn.maps (before ++ after) = Turn.maps before ++ Turn.maps after :=
  List.filterMap_append

theorem maps_install (next : AppenderMap) (rest : List Turn) (installed : List AppenderMap) :
    installed ++ Turn.maps (.install next :: rest) = installed ++ [next] ++ Turn.maps rest := by
  simp [Turn.maps, map?]

theorem Installed.run {turns : List Turn} (h : Installed b installed w)
    (hkind : b.kind = .standard) (hkeyed : Keyed maps)
    (hinstalled : installed ++ Turn.maps turns ⊆ maps)
    (hgood : DropForGood (installed ++ Turn.maps turns)) (hfair : Fair b installed w turns) :
    Installed b (installed ++ Turn.maps turns) (run b w turns) := by
  induction turns generalizing w installed with
  | nil => rwa [Turn.maps, List.filterMap_nil, List.append_nil]
  | cons t rest ih =>
    cases t with
    | install next =>
      obtain ⟨hopen, hrest⟩ := hfair
      rw [maps_install] at hinstalled hgood ⊢
      have hpart : (installed ++ [next]).Sublist (installed ++ [next] ++ Turn.maps rest) :=
        List.sublist_append_left _ _
      have hstep := h.install hkind hkeyed (List.Subset.trans hpart.subset hinstalled)
        (hgood.sublist hpart) hopen
      exact ih hstep hinstalled hgood hrest
    | meanwhile v =>
      obtain ⟨hv, hrest⟩ := hfair
      exact ih (h.meanwhile hv) hinstalled hgood hrest

theorem Fair.of_append {before after : List Turn} (h : Fair b installed w (before ++ after)) :
    Fair b installed w before ∧
      Fair b (installed ++ Turn.maps before) (run b w before) after := by
  induction before generalizing w installed with
  | nil => exact ⟨trivial, by rwa [Turn.maps, List.filterMap_nil, List.append_nil]⟩
  | cons t rest ih =>
    cases t with
    | install next =>
      obtain ⟨hfirst, hrest⟩ := ih h.2
      rw [maps_install]
      exact ⟨⟨h.1, hfirst⟩, hrest⟩
    | meanwhile v =>
      obtain ⟨hfirst, hrest⟩ := ih h.2
      exact ⟨⟨h.1, hfirst⟩, hrest⟩

/-- Before anything is installed. -/
theorem installed_nil (hindexed : b.Indexed w) (hroot : b.tableAt w none = .empty)
    (hstandard : b.tableAt w (some Realm.default) = .empty) : Installed b [] w :=
  ⟨hindexed, hroot, hstandard, nofun, nofun⟩

/-- However often appenders are installed: after each time both contexts have exactly the
new map, none of its appenders is stopped, also if it was in a map before, and all appenders
of earlier maps that it lacks are stopped and closed. Those that leave now are closed now,
each of them once, and nothing else is written. In the contexts of other realms nothing
changes, except that they may share an appender that leaves. -/
theorem installs_replace {turns before after : List Turn} (hindexed : b.Indexed w)
    (hkind : b.kind = .standard) (hroot : b.tableAt w none = .empty)
    (hstandard : b.tableAt w (some Realm.default) = .empty) (hkeyed : Keyed (Turn.maps turns))
    (hgood : DropForGood (Turn.maps turns)) (hfair : Fair b [] w turns)
    (hsplit : turns = before ++ .install next :: after) :
    let v := run b w before
    let o := (b.install next).run v
    let leaving := (last (Turn.maps before)).leaving next
    o.value = 2 ∧ (o.state.contextState b.root).table = next ∧
    (∃ c, b.known? o.state (some Realm.default) = some c ∧
      (o.state.contextState c).table = next) ∧
    (∀ a ∈ next.appenders, a.stopped? o.state = some false) ∧
    (∀ m ∈ Turn.maps before, ∀ a ∈ m.appenders, next.holds a = false →
      a.stopped? o.state = some true ∧ a.Closed o.state) ∧
    (∀ a ∈ leaving, a.stopped? v = some false ∧
      o.state.devices.get? a.id = (v.devices.get? a.id).map a.closedDevice) ∧
    (∀ target, (o.state.stream target).bytes =
      (v.stream target).bytes ++ leaving.flatMap fun a => a.closing v target) ∧
    ∀ realm c, realm ≠ Realm.default → b.known? v (some realm) = some c →
      b.known? o.state (some realm) = some c ∧ o.state.contextState c = v.contextState c ∧
      ∀ a ∈ (v.contextState c).table.appenders, (∀ d ∈ leaving, d.id ≠ a.id) →
        o.state.devices.get? a.id = v.devices.get? a.id := by
  intro v o leaving
  subst hsplit
  have hmaps : Turn.maps (before ++ .install next :: after) =
      Turn.maps before ++ [next] ++ Turn.maps after := by
    rw [maps_append, maps_install]
  obtain ⟨hfairBefore, hopen, -⟩ := hfair.of_append
  rw [hmaps] at hkeyed hgood
  have hparts : (Turn.maps before ++ [next]).Sublist
      (Turn.maps before ++ [next] ++ Turn.maps after) := List.sublist_append_left _ _
  have hbefore : (Turn.maps before).Sublist (Turn.maps before ++ [next] ++ Turn.maps after) :=
    (List.sublist_append_left _ _).trans hparts
  have hnext : next ∈ Turn.maps before ++ [next] ++ Turn.maps after := hparts.subset (by simp)
  have hv : Installed b (Turn.maps before) v :=
    (installed_nil hindexed hroot hstandard).run hkind hkeyed hbefore.subset
      (hgood.sublist hbefore) hfairBefore
  have ho : Installed b (Turn.maps before ++ [next]) o.state :=
    hv.install hkind hkeyed hparts.subset (hgood.sublist hparts) hopen
  obtain ⟨htwo, -, -, hothers, hmade, -⟩ := hv.indexed.install hkind next
  obtain ⟨-, hdevices, hstreams⟩ := hv.outputs hkind hkeyed hbefore.subset hnext
  have hstays : ∀ a : Appender, (∀ d ∈ leaving, d.id ≠ a.id) →
      ((last (Turn.maps before)).holds a && !next.holds a) = false := by
    intro a hother
    by_contra hleaves
    rw [Bool.not_eq_false, Bool.and_eq_true, Bool.not_eq_true'] at hleaves
    obtain ⟨hholds, hlacks⟩ := hleaves
    obtain ⟨d, hd, hsame⟩ := List.any_eq_true.1 hholds
    have hid : d.id = a.id := of_decide_eq_true hsame
    have hleaving : next.holds d = false := by
      rw [← hlacks, AppenderMap.holds, AppenderMap.holds, hid]
    exact hother d (List.mem_filter.2 ⟨hd, by rw [hleaving]; rfl⟩) hid
  refine ⟨htwo, ?_, ?_, ?_, ?_, ?_, hstreams, ?_⟩
  · have htable := ho.root
    rw [last_concat] at htable
    exact htable
  · obtain ⟨c, hc⟩ := Option.isSome_iff_exists.1 hmade
    have htable := ho.standard
    rw [last_concat, tableAt_of_known hc] at htable
    exact ⟨c, hc, htable⟩
  · intro a ha
    have hholds : next.holds a = true := AppenderMap.holds_of_mem ha
    rw [ho.stopped a (AppenderMap.mem_used.2 ⟨next, by simp, ha⟩), last_concat, hholds]
    rfl
  · intro m hm a ha hlacks
    have hclosed := ho.closed a (AppenderMap.mem_used.2 ⟨m, List.mem_append_left _ hm, ha⟩)
    rw [last_concat] at hclosed
    exact ⟨(hclosed hlacks).stopped?, hclosed hlacks⟩
  · intro a ha
    have hused := mem_used_of_leaving ha
    obtain ⟨hmem, hlacks⟩ := List.mem_filter.1 ha
    have hholds := AppenderMap.holds_of_mem hmem
    constructor
    · rw [hv.stopped a hused, hholds]
      rfl
    · have hdevice := hdevices a fun d hd => hkeyed.identified d
        (used_subset hbefore.subset (mem_used_of_leaving hd)) a
        (used_subset hbefore.subset hused)
      rw [hholds, hlacks] at hdevice
      exact hdevice
  · intro realm c hrealm hc
    obtain ⟨hknown, hstate⟩ := hothers (some realm) c hc
    refine ⟨hknown, hstate (Option.some_ne_none _) (by simpa using hrealm), ?_⟩
    intro a _ hother
    have hdevice := hdevices a fun d hd hid => absurd hid (hother d hd)
    rw [hstays a hother] at hdevice
    exact hdevice

/-- Two appenders are installed and then only one of them, which the context of another
realm has as well: the one that stays is open in all three contexts, and the other one is
closed. -/
theorem installs_replace_kept :
    let m : Appender := ⟨0, "m", none⟩
    let n : Appender := ⟨1, "n", none⟩
    let one : AppenderMap := ⟨[("m", m)], by simp⟩
    let both : AppenderMap := ⟨[("m", m), ("n", n)], by simp⟩
    let devices : Store Device := ⟨[.memory (.fresh .empty), .console .systemOut false false]⟩
    let opened := (Backend.standardNamed Backend.standardClass .info).run
      { World.initial 0 "main" with devices := devices }
    let b := opened.value
    let other := (Client.begin opened.state).run b [.context "" (some "x") false, .configure 0 one]
    let before := [meanwhile other.world, install both]
    let v := run b opened.state before
    let o := (b.install one).run v
    o.value = 2 ∧ m.stopped? o.state = some false ∧ n.Closed o.state ∧
      ∀ c, b.known? v (some "x") = some c → o.state.contextState c = v.contextState c := by
  intro m n one both devices opened b other before v o
  have hopened := Client.sound_opened .standard Backend.standardClass .info
    { World.initial 0 "main" with devices := devices }
  have hmaps : Turn.maps (before ++ [install one]) = [both, one] := rfl
  have hkeyed : Keyed (Turn.maps (before ++ [install one])) := by
    rw [hmaps]
    have hused : ∀ a ∈ used [both, one], a = m ∨ a = n := by
      intro a ha
      have hall : a ∈ [m, n, m] := ha
      simp only [List.mem_cons, List.not_mem_nil, or_false] at hall
      tauto
    constructor
    · decide
    · intro a ha a' ha' hid
      rcases hused a ha with rfl | rfl <;> rcases hused a' ha' with rfl | rfl <;>
        first | rfl | simp [m, n] at hid
  have hgood : DropForGood (Turn.maps (before ++ [install one])) := .of_length (by simp [hmaps])
  have hfair : Fair b [] opened.state (before ++ [install one]) := by
    refine ⟨⟨(hopened.run _).indexed, rfl, rfl, nofun, nofun⟩, ?_, ?_, trivial⟩
    · intro a ha _
      have hall : a ∈ [m, n] := ha
      simp only [List.mem_cons, List.not_mem_nil, or_false] at hall
      rcases hall with rfl | rfl <;> rfl
    · intro a ha hnew
      rw [List.mem_singleton.1 ha] at hnew
      contradiction
  have hroot : b.tableAt opened.state none = .empty := rfl
  have hstandard : b.tableAt opened.state (some Realm.default) = .empty := rfl
  have hkind : b.kind = .standard := rfl
  have hindexed : b.Indexed opened.state := hopened.indexed
  have hlacks : one.holds n = false := rfl
  -- nothing about the run itself has to be evaluated from here on
  clear_value b opened other
  obtain ⟨htwo, -, -, hopen, hclosed, -, -, hothers⟩ :=
    installs_replace hindexed hkind hroot hstandard hkeyed hgood hfair rfl
  refine ⟨htwo, hopen m List.mem_cons_self, ?_, ?_⟩
  · have hmem : n ∈ both.appenders := by simp [both, AppenderMap.appenders]
    exact (hclosed both List.mem_cons_self n hmem hlacks).2
  · intro c hc
    exact (hothers "x" c (by decide) hc).2.1

/-- The context of another realm shares an appender that is installed and then dropped. It
keeps its table, and what it has there is stopped from then on. -/
theorem installed_appender_shared :
    let m : Appender := ⟨0, "m", none⟩
    let one : AppenderMap := ⟨[("m", m)], by simp⟩
    let opened := (Backend.standardNamed Backend.standardClass .info).run
      { World.initial 0 "main" with devices := ⟨[.memory (.fresh .empty)]⟩ }
    let b := opened.value
    let other := (Client.begin opened.state).run b [.context "" (some "x") false, .configure 0 one]
    let before := [meanwhile other.world, install one]
    let v := run b opened.state before
    let o := (b.install .empty).run v
    (b.Indexed opened.state ∧ Keyed (Turn.maps (before ++ [install .empty])) ∧
      DropForGood (Turn.maps (before ++ [install .empty])) ∧
      Fair b [] opened.state (before ++ [install .empty])) ∧
    ∃ c, b.known? v (some "x") = some c ∧ (o.state.contextState c).table.holds m = true ∧
      m.stopped? v = some false ∧ m.stopped? o.state = some true := by
  intro m one opened b other before v o
  have hopened := Client.sound_opened .standard Backend.standardClass .info
    { World.initial 0 "main" with devices := ⟨[.memory (.fresh .empty)]⟩ }
  have hmaps : Turn.maps (before ++ [install .empty]) = [one, .empty] := rfl
  refine ⟨⟨hopened.indexed, ?_, ?_, ?_⟩, ?_⟩
  · rw [hmaps]
    have hused : ∀ a ∈ used [one, .empty], a = m := by
      intro a ha
      have hall : a ∈ [m] := ha
      exact List.mem_singleton.1 hall
    constructor
    · decide
    · intro a ha a' ha' _
      rw [hused a ha, hused a' ha']
  · exact .of_length (by simp [hmaps])
  · refine ⟨⟨(hopened.run _).indexed, rfl, rfl, nofun, nofun⟩, ?_, nofun, trivial⟩
    intro a ha _
    rw [List.mem_singleton.1 ha]
    rfl
  · refine ⟨⟨1, .standard, "x", .info⟩, ?_, ?_, ?_, ?_⟩
    · decide +kernel
    · decide +kernel
    · decide +kernel
    · decide +kernel

end Turn

end Backend
end LoggingFacade
