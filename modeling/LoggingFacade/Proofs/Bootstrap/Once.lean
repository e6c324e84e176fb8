import LoggingFacade.Proofs.Bootstrap.Shutdown

/-!
# Bootstraps happen once

A cell takes the first backend that it is asked to select, and all who ask later are given
that one: nothing is selected a second time. The process has such a cell, and with it goes
the installation of the declared components, which only the call that selected makes. No
later call changes anything; only a shutdown takes the appenders away, and it leaves the
backend.
-/

namespace LoggingFacade

/-! ## Cells -/

namespace BackendCell

variable {σ β : Type}

/-- What a cell is asked for: the backend with a selector to fill it, the backend or a
locator over it with any computation to fill it, or what it has. -/
inductive Request (σ β : Type) where
  | resolve (s : Selector σ β)
  | getOrSelect (select : Traced σ (Selected β))
  | locator (select : Traced σ (Selected β))
  | get
  /-- Something else happens to the state. -/
  | meanwhile (w : σ)

inductive Answer (β : Type) where
  /-- A selected backend, with whether it was selected here. -/
  | selection (selected : Selected β) (here : Bool)
  | selected (selected : Selected β)
  | backend (b : β)
  | content (cell : BackendCell β)
  | nothing

/-- Resolves a cell and keeps what it is resolved to. -/
def fill (select : Traced σ (Selected β)) :
    Traced (σ × BackendCell β) (Selected β × Bool) := fun s =>
  let o := (resolve s.2 select).run s.1
  ⟨o.value, (o.state, some o.value.1), o.diagnostics⟩

namespace Request

def perform : Request σ β → Traced (σ × BackendCell β) (Answer β)
  | resolve s => do
    let (selected, here) ← fill s.select
    return .selection selected here
  | getOrSelect select => do return .selected (← fill select).1
  | locator select => do return .backend (← fill select).1.backend
  | get => do return .content (← MonadState.get).2
  | meanwhile w => do
    set (w, (← MonadState.get).2)
    return .nothing

/-- How a cell is to be filled if it is empty. -/
def select? : Request σ β → Option (Traced σ (Selected β))
  | resolve s => some s.select
  | getOrSelect select => some select
  | locator select => some select
  | get => none
  | meanwhile _ => none

/-- The answer that goes with a selected backend. -/
def answer (selected : Selected β) (here : Bool) : Request σ β → Answer β
  | resolve _ => .selection selected here
  | getOrSelect _ => .selected selected
  | locator _ => .backend selected.backend
  | get => .content (some selected)
  | meanwhile _ => .nothing

/-- The state after a request that selects nothing. -/
def after (w : σ) : Request σ β → σ
  | meanwhile v => v
  | _ => w

end Request

/-- The state and the cell after some requests. -/
def run (s : σ × BackendCell β) (requests : List (Request σ β)) : σ × BackendCell β :=
  requests.foldl (fun s r => (r.perform.run s).state) s

variable {w : σ} {cell : BackendCell β} {chosen : Selected β} {r : Request σ β}
  {requests : List (Request σ β)}

theorem run_fill_none (select : Traced σ (Selected β)) (w : σ) :
    let o := select.run w
    (fill select).run (w, none) = ⟨(o.value, true), (o.state, some o.value), o.diagnostics⟩ := by
  have hresolve : (resolve none select).run w =
      ⟨((select.run w).value, true), (select.run w).state, (select.run w).diagnostics⟩ := by
    simp only [resolve, Traced.run_bind, Traced.run_pure, List.append_nil]
  change Outcome.mk _ _ _ = _
  rw [hresolve]

/-- The request that fills a cell makes its selection and nothing else. -/
theorem perform_of_none {select : Traced σ (Selected β)} (h : r.select? = some select) (w : σ) :
    let o := select.run w
    r.perform.run (w, none) = ⟨r.answer o.value true, (o.state, some o.value), o.diagnostics⟩ := by
  have hfill := run_fill_none select w
  cases r with
  | resolve s =>
    obtain rfl := Option.some.inj h
    simp only [Request.perform, Traced.run_bind, Traced.run_pure, hfill, List.append_nil]
    rfl
  | getOrSelect m =>
    obtain rfl := Option.some.inj h
    simp only [Request.perform, Traced.run_bind, Traced.run_pure, hfill, List.append_nil]
    rfl
  | locator m =>
    obtain rfl := Option.some.inj h
    simp only [Request.perform, Traced.run_bind, Traced.run_pure, hfill, List.append_nil]
    rfl
  | get => contradiction
  | meanwhile v => contradiction

/-- Whoever asks a filled cell is given what it has. -/
theorem perform_of_some (r : Request σ β) (w : σ) (chosen : Selected β) :
    r.perform.run (w, some chosen) = ⟨r.answer chosen false, (r.after w, some chosen), []⟩ := by
  cases r <;> rfl

/-- Without a selection a cell stays empty. -/
theorem perform_of_quiet (h : r.select? = none) (w : σ) :
    (r.perform.run (w, none)).state = (r.after w, none) ∧
      (r.perform.run (w, none)).diagnostics = [] := by
  cases r with
  | get => exact ⟨rfl, rfl⟩
  | meanwhile v => exact ⟨rfl, rfl⟩
  | resolve s => contradiction
  | getOrSelect select => contradiction
  | locator select => contradiction

theorem run_of_quiet (h : ∀ q ∈ requests, q.select? = none) (w : σ) :
    (run (w, none) requests).2 = none := by
  induction requests generalizing w with
  | nil => rfl
  | cons q rest ih =>
    rw [run, List.foldl_cons, (perform_of_quiet (h q List.mem_cons_self) w).1]
    exact ih (fun x hx => h x (List.mem_cons_of_mem q hx)) _

theorem run_of_some (requests : List (Request σ β)) (w : σ) (chosen : Selected β) :
    (run (w, some chosen) requests).2 = some chosen := by
  induction requests generalizing w with
  | nil => rfl
  | cons q rest ih =>
    rw [run, List.foldl_cons, perform_of_some]
    exact ih _

/-- A cell has what the first request made that could fill it. -/
theorem run_of_first {earlier later : List (Request σ β)} {first : Request σ β}
    {select : Traced σ (Selected β)} (hquiet : ∀ q ∈ earlier, q.select? = none)
    (hfirst : first.select? = some select) (w : σ) :
    (run (w, none) (earlier ++ first :: later)).2 =
      some (select.run (run (w, none) earlier).1).value := by
  have hempty : run (w, none) earlier = ((run (w, none) earlier).1, none) :=
    Prod.ext rfl (run_of_quiet hquiet w)
  have hsplit : run (w, none) (earlier ++ first :: later) =
      run (first.perform.run (run (w, none) earlier)).state later := by
    rw [run, List.foldl_append]
    rfl
  rw [hsplit, hempty, perform_of_none hfirst]
  exact run_of_some later _ _

end BackendCell

/-! ## The process -/

namespace Bootstrap

/-- What a process does with its backend. -/
inductive Call where
  | start (h : Host) (c : Config)
  | locator (h : Host)
  | shutdown
  /-- Something else happens to the world. -/
  | meanwhile (w : World)

inductive Answer where
  | selected (s : Selected Backend)
  | backend (b : Backend)
  | nothing

namespace Call

def perform (r : Registrations) : Call → Traced World Answer
  | start h c => do return .selected (← Bootstrap.start r h c)
  | locator h => do return .backend (← Bootstrap.backend r h)
  | shutdown => do
    Bootstrap.shutdown
    return .nothing
  | meanwhile w => do
    set w
    return .nothing

/-- The configuration to start with, if nothing was selected yet, and where it is from. -/
def configuration? : Call → Option (Host × Traced World Config)
  | start h c => some (h, return c)
  | locator h => some (h, usualConfig h)
  | shutdown => none
  | meanwhile _ => none

/-- The answer that goes with a selected backend. -/
def answer (s : Selected Backend) : Call → Answer
  | start _ _ => .selected s
  | locator _ => .backend s.backend
  | shutdown => .nothing
  | meanwhile _ => .nothing

end Call

/-- The world after some calls. -/
def run (r : Registrations) (w : World) (calls : List Call) : World :=
  calls.foldl (fun w call => ((call.perform r).run w).state) w

/-- What else happens leaves the backend of the process to the bootstrap, and in order. -/
def Undisturbed (r : Registrations) : World → List Call → Prop
  | _, [] => True
  | w, .meanwhile v :: rest => w.Steady v ∧ Undisturbed r v rest
  | w, call :: rest => Undisturbed r ((call.perform r).run w).state rest

/-- The warning about a configured class that is not that of the selected backend. -/
def overrideReports (s : Selected Backend) (c : ManagerConfig) : List Diagnostic :=
  (c.overrideClass.toList.filter (· ≠ s.backend.implementation)).map fun requested =>
    .overrideIgnored requested s.backend.implementation

/-- The world in which a backend was selected, and nothing installed yet. -/
def selecting (r : Registrations) (h : Host) (c : ManagerConfig) (w : World) : World :=
  let chosen := (selector r h c).select.run w
  { chosen.state with selected := some chosen.value }

variable {r : Registrations} {w v : World} {s : Selected Backend} {call : Call}
  {calls : List Call} {h : Host} {read : Traced World Config}

/-! ### Starting -/

theorem run_reportOverride (s : Selected Backend) (c : ManagerConfig) (w : World) :
    (reportOverride s c).run w = ⟨(), w, overrideReports s c⟩ := by
  unfold reportOverride overrideReports
  cases c.overrideClass with
  | none => rfl
  | some requested =>
    by_cases hsame : requested = s.backend.implementation
    · simp [hsame, Traced.run_pure]
    · simp [hsame]
      rfl

theorem run_start_of_some (hw : w.selected = some s) (r : Registrations) (h : Host) (c : Config) :
    (start r h c).run w = ⟨s, w, overrideReports s c.manager⟩ := by
  have hresolve : (BackendCell.resolve w.selected (selector r h c.manager).select).run w =
      ⟨(s, false), w, []⟩ := by
    rw [hw]
    rfl
  have hsame : { w with selected := some s } = w := by rw [← hw]
  rw [start, Traced.run_bind_of_quiet (Traced.run_get w), Traced.run_bind_of_quiet hresolve]
  dsimp only
  rw [Traced.run_bind_of_quiet (Traced.run_modify _ w), hsame]
  simp only [Bool.false_eq_true, if_false, Traced.run_bind, run_reportOverride, Traced.run_pure,
    List.append_nil]

/-- The first call selects, and then it installs what its configuration declares. -/
theorem run_start_of_none (hw : w.selected = none) (r : Registrations) (h : Host) (c : Config) :
    let chosen := (selector r h c.manager).select.run w
    let installed := (installComponents r chosen.value.backend c.components).run
      (selecting r h c.manager w)
    (start r h c).run w =
      ⟨chosen.value, installed.state, chosen.diagnostics ++ installed.diagnostics⟩ := by
  intro chosen installed
  have hresolve : (BackendCell.resolve w.selected (selector r h c.manager).select).run w =
      ⟨(chosen.value, true), chosen.state, chosen.diagnostics⟩ := by
    rw [hw]
    simp only [BackendCell.resolve, Traced.run_bind, Traced.run_pure, List.append_nil]
    rfl
  rw [start, Traced.run_bind_of_quiet (Traced.run_get w), Traced.run_bind, hresolve]
  dsimp only
  rw [Traced.run_bind_of_quiet (Traced.run_modify _ chosen.state)]
  simp only [if_true, Traced.run_bind, Traced.run_pure, List.append_nil]
  rfl

theorem state_usualConfig (h : Host) (w : World) : ((usualConfig h).run w).state = w := by
  have hchoose : ((ConfigLoader.standard.choose h).run w).state = w := by
    unfold ConfigLoader.choose
    split
    · split <;> rfl
    · split <;> rfl
  have hload : ((ConfigLoader.standard.load h).run w).state = w := by
    rw [ConfigLoader.load, Traced.state_bind, hchoose]
    split <;> rfl
  rw [usualConfig, Traced.state_bind, hload]
  split <;> rfl

/-- A call that finds no backend selects one, if it needs one. -/
theorem perform_of_none (hw : w.selected = none) (hcall : call.configuration? = some (h, read)) :
    let c := read.run w
    let chosen := (selector r h c.value.manager).select.run w
    let installed := (installComponents r chosen.value.backend c.value.components).run
      (selecting r h c.value.manager w)
    (call.perform r).run w = ⟨call.answer chosen.value, installed.state,
      c.diagnostics ++ chosen.diagnostics ++ installed.diagnostics⟩ := by
  cases call with
  | start h' c =>
    obtain ⟨rfl, rfl⟩ := Prod.mk.inj (Option.some.inj hcall)
    simp only [Call.perform, Traced.run_bind, Traced.run_pure, run_start_of_none hw,
      List.append_nil, List.nil_append]
    rfl
  | locator h' =>
    obtain ⟨rfl, rfl⟩ := Prod.mk.inj (Option.some.inj hcall)
    have hbackend : (Bootstrap.backend r h').run w =
        (do return (← start r h' (← usualConfig h')).backend : Traced World Backend).run w := by
      rw [Bootstrap.backend, Traced.run_bind_of_quiet (Traced.run_get w), hw]
    simp only [Call.perform, Traced.run_bind, Traced.run_pure, hbackend, state_usualConfig,
      run_start_of_none hw, List.append_nil, List.append_assoc]
    rfl
  | shutdown => contradiction
  | meanwhile v => contradiction

/-- Before a backend is selected there is nothing to shut down. -/
theorem shutdown_of_none (hw : w.selected = none) : shutdown.run w = ⟨(), w, []⟩ := by
  rw [shutdown, Traced.run_bind_of_quiet (Traced.run_get w), hw]
  rfl

theorem state_shutdown_of_some (hw : w.selected = some s) :
    (shutdown.run w).state = ((s.backend.install .empty).run w).state := by
  rw [shutdown, Traced.run_bind_of_quiet (Traced.run_get w), hw]
  rfl

/-- What a call does that finds a backend selected. -/
theorem perform_of_some (hw : w.selected = some s) (r : Registrations) (call : Call) :
    ((call.perform r).run w).value = call.answer s ∧
      (∀ h c, call = .start h c → ((call.perform r).run w).state = w ∧
        ((call.perform r).run w).diagnostics = overrideReports s c.manager) ∧
      ∀ h, call = .locator h → ((call.perform r).run w).state = w ∧
        ((call.perform r).run w).diagnostics = [] := by
  cases call with
  | start h c =>
    have hrun : ((Call.start h c).perform r).run w =
        ⟨.selected s, w, overrideReports s c.manager⟩ := by
      simp only [Call.perform, Traced.run_bind, Traced.run_pure, run_start_of_some hw,
        List.append_nil]
    rw [hrun]
    refine ⟨rfl, ?_, nofun⟩
    intro h' c' hsame
    obtain ⟨-, rfl⟩ := Call.start.inj hsame
    exact ⟨rfl, rfl⟩
  | locator h =>
    have hbackend : (Bootstrap.backend r h).run w = ⟨s.backend, w, []⟩ := by
      rw [Bootstrap.backend, Traced.run_bind_of_quiet (Traced.run_get w), hw]
      rfl
    have hrun : ((Call.locator h).perform r).run w = ⟨.backend s.backend, w, []⟩ := by
      rw [Call.perform, Traced.run_bind_of_quiet hbackend]
      rfl
    rw [hrun]
    exact ⟨rfl, nofun, fun _ _ => ⟨rfl, rfl⟩⟩
  | shutdown => exact ⟨rfl, nofun, nofun⟩
  | meanwhile v => exact ⟨rfl, nofun, nofun⟩

/-! ### Runs -/

/-- The backend is the selected one, and in order. -/
structure Holds (w : World) (s : Selected Backend) : Prop where
  selected : w.selected = some s
  indexed : s.backend.Indexed w

/-- Installing components does nothing to the selection. -/
theorem Holds.installComponents (hr : r.Careful) (hs : Holds w s) (ds : List Declaration) :
    Holds ((installComponents r s.backend ds).run w).state s := by
  unfold Bootstrap.installComponents
  split
  · exact hs
  · have hbuilt := hr.report w ds
    have hindexed := hbuilt.indexed s hs.selected hs.indexed
    have hselected := s.backend.keeps_selected_install
    constructor
    · exact (hselected _ _).trans (hbuilt.selected.trans hs.selected)
    · exact hindexed.after_install _

/-- The call that selects a backend leaves it selected and in order. -/
theorem holds_first (hr : r.Careful) (hw : w.selected = none)
    (hcall : call.configuration? = some (h, read)) :
    Holds ((call.perform r).run w).state
      ((selector r h (read.run w).value.manager).select.run w).value := by
  rw [perform_of_none hw hcall]
  obtain ⟨-, hindexed⟩ := hr.provides_select h (read.run w).value.manager w
  apply Holds.installComponents hr
  exact ⟨rfl, (hindexed _ List.mem_cons_self).of_contexts rfl rfl rfl⟩

/-- One call after the selection. -/
theorem Holds.perform (hs : Holds w s) (hcalm : Undisturbed r w [call]) :
    Holds ((call.perform r).run w).state s := by
  obtain ⟨-, hstart, hlocator⟩ := perform_of_some hs.selected r call
  cases call with
  | start h c =>
    rw [(hstart h c rfl).1]
    exact hs
  | locator h =>
    rw [(hlocator h rfl).1]
    exact hs
  | shutdown =>
    have hstate : ((Call.shutdown.perform r).run w).state =
        ((s.backend.install .empty).run w).state := state_shutdown_of_some hs.selected
    rw [hstate]
    exact ⟨(s.backend.keeps_selected_install _ w).trans hs.selected, hs.indexed.after_install _⟩
  | meanwhile v =>
    obtain ⟨hsame, hindexed⟩ := hcalm.1
    exact ⟨hsame.trans hs.selected, hindexed s hs.selected hs.indexed⟩

/-- Logging is one of the things that may happen besides. -/
theorem steady_perform (l : Logger) (event : Client.Call) (w : World) :
    w.Steady ((event.perform l).run w).state := by
  obtain ⟨hcontexts, hbackends, hloggers, -⟩ :=
    World.of_index_eq (l.keeps_index_perform event w)
  refine .of_contexts ?_ hcontexts hbackends hloggers
  refine Logger.keeps_perform (fun e a => ?_) (fun _ _ => rfl) event w
  intro v
  rw [Appender.state_offer]
  exact Appender.untouched_selected.keeps_append a e v

theorem undisturbed_append {before after : List Call} :
    Undisturbed r w (before ++ after) ↔
      Undisturbed r w before ∧ Undisturbed r (run r w before) after := by
  induction before generalizing w with
  | nil => exact ⟨fun h => ⟨trivial, h⟩, fun h => h.2⟩
  | cons call rest ih =>
    cases call with
    | start h c => exact ih
    | locator h => exact ih
    | shutdown => exact ih
    | meanwhile v => exact (and_congr_right' ih).trans and_assoc.symm

theorem Holds.run (hs : Holds w s) (hcalm : Undisturbed r w calls) :
    Holds (run r w calls) s := by
  induction calls generalizing w with
  | nil => exact hs
  | cons call rest ih =>
    obtain ⟨hfirst, hrest⟩ := undisturbed_append.1 (show Undisturbed r w ([call] ++ rest) from hcalm)
    exact ih (hs.perform hfirst) hrest

/-- Without a call that needs a backend none is selected. -/
theorem selected_of_quiet (hw : w.selected = none) (hcalm : Undisturbed r w calls)
    (hquiet : ∀ d ∈ calls, d.configuration? = none) : (run r w calls).selected = none := by
  induction calls generalizing w with
  | nil => exact hw
  | cons call rest ih =>
    have hrest : ∀ d ∈ rest, d.configuration? = none := fun d hd =>
      hquiet d (List.mem_cons_of_mem call hd)
    have hcall := hquiet call List.mem_cons_self
    cases call with
    | start h c => contradiction
    | locator h => contradiction
    | shutdown =>
      have hstate : ((Call.shutdown.perform r).run w).state = w :=
        congrArg Outcome.state (shutdown_of_none hw)
      have hnone : ((Call.shutdown.perform r).run w).state.selected = none := by rw [hstate, hw]
      exact ih hnone hcalm hrest
    | meanwhile v =>
      obtain ⟨⟨hsame, -⟩, hlater⟩ := hcalm
      exact ih (hsame.trans hw) hlater hrest

theorem run_append (before after : List Call) :
    run r w (before ++ after) = run r (run r w before) after :=
  List.foldl_append

/-- After the first call that needs a backend, its selection is that of the process. -/
theorem holds_of_first (hr : r.Careful) (hw : w.selected = none) {earlier later : List Call}
    {first : Call} (hcalm : Undisturbed r w (earlier ++ first :: later))
    (hquiet : ∀ d ∈ earlier, d.configuration? = none)
    (hfirst : first.configuration? = some (h, read)) :
    let u := run r w earlier
    Holds (run r w (earlier ++ first :: later))
      ((selector r h (read.run u).value.manager).select.run u).value := by
  intro u
  obtain ⟨hbefore, hafter⟩ := undisturbed_append.1 hcalm
  have hnone : u.selected = none := selected_of_quiet hw hbefore hquiet
  have hrest : Undisturbed r ((first.perform r).run u).state later :=
    (undisturbed_append.1 (show Undisturbed r u ([first] ++ later) from hafter)).2
  rw [run_append]
  exact (holds_first hr hnone hfirst).run hrest

/-- The first call that needs a backend selects one, stores it and installs the components of
its own configuration. Every later call is given the same backend; none of them changes
anything, apart from shutdowns, and a request for another class is reported. A shutdown does
nothing before there is a backend; later it leaves the selection and empties both contexts
of a standard backend, whose appenders are all stopped. In the same way any other cell is
filled by the first request that can fill it, which alone makes its selection, and is the
only one that is told so. -/
theorem selects_once (r : Registrations) (hr : r.Careful) (w : World) (hw : w.selected = none)
    (before : List Call) (call : Call) (hcalm : Undisturbed r w before) :
    let v := run r w before
    let o := (call.perform r).run v
    ((∀ d ∈ before, d.configuration? = none) → v.selected = none ∧
      (call = .shutdown → o.state = v ∧ o.diagnostics = []) ∧
      ∀ h read, call.configuration? = some (h, read) →
        let c := read.run v
        let chosen := (selector r h c.value.manager).select.run v
        let installed := (installComponents r chosen.value.backend c.value.components).run
          (selecting r h c.value.manager v)
        o = ⟨call.answer chosen.value, installed.state,
          c.diagnostics ++ chosen.diagnostics ++ installed.diagnostics⟩ ∧
        o.state.selected = some chosen.value) ∧
    (∀ earlier first later h read, before = earlier ++ first :: later →
      (∀ d ∈ earlier, d.configuration? = none) → first.configuration? = some (h, read) →
      let u := run r w earlier
      let s := ((selector r h (read.run u).value.manager).select.run u).value
      v.selected = some s ∧ o.value = call.answer s ∧
      (∀ h c, call = .start h c → o.state = v ∧ o.diagnostics = overrideReports s c.manager) ∧
      (∀ h, call = .locator h → o.state = v ∧ o.diagnostics = []) ∧
      (call = .shutdown → o.state.selected = some s ∧
        (s.backend.kind = .simple → o.state = v) ∧
        (s.backend.kind = .standard →
          (s.backend.known? o.state (some Realm.default)).isSome = true ∧
          ∀ k, k = none ∨ k = some Realm.default → s.backend.tableAt o.state k = .empty ∧
            ∀ a ∈ (s.backend.tableAt v k).appenders, a.Ended o.state))) ∧
    ∀ (σ β : Type) (x : σ) (requests : List (BackendCell.Request σ β))
        (q : BackendCell.Request σ β),
      let y := BackendCell.run (x, none) requests
      let p := q.perform.run y
      ((∀ d ∈ requests, d.select? = none) → y.2 = none ∧
        (q.select? = none → p.state = (q.after y.1, none) ∧ p.diagnostics = []) ∧
        ∀ select, q.select? = some select →
          let chosen := select.run y.1
          p = ⟨q.answer chosen.value true, (chosen.state, some chosen.value),
            chosen.diagnostics⟩) ∧
      ∀ (earlier : List (BackendCell.Request σ β)) (first : BackendCell.Request σ β)
          (later : List (BackendCell.Request σ β)) (select : Traced σ (Selected β)),
        requests = earlier ++ first :: later →
        (∀ d ∈ earlier, d.select? = none) → first.select? = some select →
        let s := (select.run (BackendCell.run (x, none) earlier).1).value
        y.2 = some s ∧ p = ⟨q.answer s false, (q.after y.1, some s), []⟩ := by
  intro v o
  refine ⟨?_, ?_, ?_⟩
  · intro hquiet
    have hnone : v.selected = none := selected_of_quiet hw hcalm hquiet
    refine ⟨hnone, ?_, ?_⟩
    · rintro rfl
      have ho : o = ⟨.nothing, v, []⟩ := by
        have hshutdown := shutdown_of_none hnone
        change (Call.shutdown.perform r).run v = _
        rw [Call.perform, Traced.run_bind_of_quiet hshutdown]
        rfl
      rw [ho]
      exact ⟨rfl, rfl⟩
    · intro h read hcall
      exact ⟨perform_of_none hnone hcall, (holds_first hr hnone hcall).selected⟩
  · rintro earlier first later h read rfl hquiet hfirst u s
    have hs : Holds v s := holds_of_first hr hw hcalm hquiet hfirst
    obtain ⟨hvalue, hstart, hlocator⟩ := perform_of_some hs.selected r call
    refine ⟨hs.selected, hvalue, hstart, hlocator, ?_⟩
    rintro rfl
    have hstate : o.state = ((s.backend.install .empty).run v).state :=
      state_shutdown_of_some hs.selected
    rw [hstate]
    refine ⟨?_, ?_, ?_⟩
    · exact (s.backend.keeps_selected_install _ v).trans hs.selected
    · intro hkind
      exact hs.indexed.install_simple hkind _
    · intro hkind
      exact hs.indexed.install_empty hkind
  · intro σ β x requests q y p
    constructor
    · intro hquiet
      have hempty : y = (y.1, none) := Prod.ext rfl (BackendCell.run_of_quiet hquiet x)
      refine ⟨BackendCell.run_of_quiet hquiet x, ?_, ?_⟩
      · intro hq
        have hrun := BackendCell.perform_of_quiet hq y.1
        rw [← hempty] at hrun
        exact hrun
      · intro select hq
        have hrun := BackendCell.perform_of_none hq y.1
        rw [← hempty] at hrun
        exact hrun
    · rintro earlier first later select rfl hquiet hfirst s
      have hfull : y = (y.1, some s) :=
        Prod.ext rfl (BackendCell.run_of_first hquiet hfirst x)
      refine ⟨congrArg Prod.snd hfull, ?_⟩
      have hrun := BackendCell.perform_of_some q y.1 s
      rw [← hfull] at hrun
      exact hrun

/-- The standard backend is asked for by name and given a memory appender, which takes an
event. Another class comes too late, and a shutdown stops the appender. -/
theorem selects_once_standard :
    let r := Registrations.standard
    let h : Host := ⟨⟨[], []⟩, []⟩
    let memory : Declaration := ⟨"Memory", TextMap.empty.insert "name" "m", []⟩
    let first : Config :=
      ⟨⟨some Backend.standardClass, [], true, .error⟩, .standard, [memory]⟩
    let other : Config := ⟨⟨some "lumber.providers.Elsewhere", [], true, .error⟩, .standard, []⟩
    let b : Backend := ⟨0, .standard, Backend.standardClass, .info, ⟨0, .standard, "global", .info⟩⟩
    let w := World.initial 0 "main"
    let event : Client.Call := .message .info "on"
    let logged := ((event.perform ⟨0, "app", .info, .parameterized, b.root⟩).run
      (run r w [.shutdown, .start h first])).state
    let v := run r w [.shutdown, .start h first, .meanwhile logged]
    let again := ((Call.start h other).perform r).run v
    let down := (Call.shutdown.perform r).run v
    again.value = .selected ⟨b, .override⟩ ∧ again.state = v ∧
      again.diagnostics = [.overrideIgnored "lumber.providers.Elsewhere" Backend.standardClass] ∧
      down.state.selected = some ⟨b, .override⟩ ∧ b.tableAt down.state none = .empty ∧
      (b.tableAt v none).appenders.map Appender.name = ["m"] ∧
      ∀ a ∈ (b.tableAt v none).appenders, a.stopped? v = some false ∧ a.Ended down.state := by
  intro r h memory first other b w event logged v again down
  have hr : r.Careful := Registrations.careful_standard
  have hw : w.selected = none := rfl
  have hcalm : Undisturbed r w [.shutdown, .start h first, .meanwhile logged] :=
    ⟨steady_perform _ event _, trivial⟩
  have hquiet : ∀ d ∈ [Call.shutdown], d.configuration? = none := by
    intro d hd
    rw [List.mem_singleton.1 hd]
    rfl
  have hchosen : ((selector r h first.manager).select.run (run r w [.shutdown])).value =
      ⟨b, .override⟩ := by decide +kernel
  have hnames : (b.tableAt v none).appenders.map Appender.name = ["m"] := by decide +kernel
  have hopen : (b.tableAt v none).appenders.all (fun a => a.stopped? v = some false) = true := by
    decide +kernel
  -- nothing about the run itself has to be evaluated from here on
  clear_value r w logged
  obtain ⟨-, hstart, -⟩ :=
    selects_once r hr w hw [.shutdown, .start h first, .meanwhile logged] (.start h other) hcalm
  obtain ⟨-, hshutdown, -⟩ :=
    selects_once r hr w hw [.shutdown, .start h first, .meanwhile logged] .shutdown hcalm
  obtain ⟨-, hvalue, hsame, -⟩ :=
    hstart [.shutdown] (.start h first) [.meanwhile logged] h (return first) rfl hquiet rfl
  obtain ⟨-, -, -, -, hdown⟩ :=
    hshutdown [.shutdown] (.start h first) [.meanwhile logged] h (return first) rfl hquiet rfl
  rw [Traced.value_pure, hchosen] at hvalue hsame hdown
  obtain ⟨hstate, hreports⟩ := hsame h other rfl
  obtain ⟨hselected, -, hstandard⟩ := hdown rfl
  obtain ⟨hempty, hended⟩ := (hstandard rfl).2 none (.inl rfl)
  refine ⟨hvalue, hstate, hreports, hselected, hempty, hnames, ?_⟩
  intro a ha
  exact ⟨of_decide_eq_true (List.all_eq_true.1 hopen a ha), hended a ha⟩

end Bootstrap
end LoggingFacade
