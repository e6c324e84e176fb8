import LoggingFacade.Proofs.Appender.Separate
import LoggingFacade.Proofs.Context.Routing

/-!
# Steps of log calls and replacements

Any number of log calls and of replacements of the map in force run at the same time.
A log call takes the map in force once, then appends its event to each appender of that
map; a replacement puts its map in force, then stops each appender it drops. Only these
parts are indivisible: the steps of one call come in any order with those of others. A
call, or a replacement, that runs alone takes its steps one after the other.
-/

namespace LoggingFacade
namespace Interleaving

/-- A log call under way. -/
structure LogCall where
  logger : Logger
  event : Event
  /-- The number of the published map that it took, once it took one. -/
  taken : Option Nat
  /-- The appenders that are still to be offered the event. -/
  pending : List Appender

/-- An event that a call appended to an appender, and what came of it. -/
structure Offer where
  call : Nat
  event : Event
  appender : Appender
  result : Except Error Unit

/-- The world, with what the calls and replacements did and have still to do. -/
structure State where
  world : World
  /-- All maps that were in force, up to the one that is. -/
  published : List AppenderMap
  calls : List LogCall
  offers : List Offer
  /-- For each replacement, the dropped appenders that are still to be stopped. -/
  stopping : List (List (String × Appender))

/-- One step of a call or of a replacement, which are known by their numbers. -/
inductive Action where
  | begin (l : Logger) (e : Event)
  | snapshot (call : Nat)
  | append (call place : Nat)
  | swap (next : AppenderMap)
  | stop (replacement place : Nat)

namespace State

/-- Nothing runs yet. -/
def start (w : World) : State := ⟨w, [.empty], [], [], []⟩

def begin (s : State) (l : Logger) (e : Event) : State :=
  { s with calls := s.calls ++ [⟨l, e, none, []⟩] }

def snapshot (c : Context) (s : State) (i : Nat) (call : LogCall) : State :=
  { s with
    calls := s.calls.set i { call with
      taken := some (s.published.length - 1)
      pending := (s.world.contextState c).table.appenders } }

def append (s : State) (i j : Nat) (call : LogCall) (a : Appender) : State :=
  let o := (a.append call.event).run s.world
  { s with
    world := o.state
    calls := s.calls.set i { call with pending := call.pending.eraseIdx j }
    offers := s.offers ++ [⟨i, call.event, a, o.value⟩] }

def swap (c : Context) (s : State) (next : AppenderMap) : State :=
  { s with
    world := s.world.updateContext c fun state => { state with table := next }
    published := s.published ++ [next]
    stopping := s.stopping ++ [(s.world.contextState c).table.dropped next] }

def stop (s : State) (k j : Nat) (entries : List (String × Appender))
    (entry : String × Appender) : State :=
  { s with
    world := ((AppenderMap.stopDropped entry).run s.world).state
    stopping := s.stopping.set k (entries.eraseIdx j) }

/-- One step, where it can be taken: a call begins if the threshold of its logger lets
the event through, and takes one map. -/
def step? (c : Context) (s : State) : Action → Option State
  | .begin l e => if l.context = c ∧ l.isEnabled e.level = true then some (s.begin l e) else none
  | .snapshot i => (s.calls[i]?.filter fun call => call.taken.isNone).map (s.snapshot c i)
  | .append i j => s.calls[i]?.bind fun call => call.pending[j]?.map (s.append i j call)
  | .swap next => some (s.swap c next)
  | .stop k j => s.stopping[k]?.bind fun entries => entries[j]?.map (s.stop k j entries)

def run? (c : Context) (s : State) (actions : List Action) : Option State :=
  actions.foldlM (step? c) s

variable {c : Context} {s t : State}

theorem step?_begin {l : Logger} {e : Event} : s.step? c (.begin l e) = some t ↔
    (l.context = c ∧ l.isEnabled e.level = true) ∧ s.begin l e = t := by
  simp [step?]

theorem step?_snapshot {i : Nat} : s.step? c (.snapshot i) = some t ↔
    ∃ call, (s.calls[i]? = some call ∧ call.taken = none) ∧ s.snapshot c i call = t := by
  simp [step?, Option.filter_eq_some_iff]

theorem step?_append {i j : Nat} : s.step? c (.append i j) = some t ↔
    ∃ call, s.calls[i]? = some call ∧ ∃ a, call.pending[j]? = some a ∧ s.append i j call a = t := by
  simp [step?, Option.bind_eq_some_iff]

theorem step?_swap {next : AppenderMap} : s.step? c (.swap next) = some t ↔ s.swap c next = t := by
  simp [step?]

theorem step?_stop {k j : Nat} : s.step? c (.stop k j) = some t ↔
    ∃ entries, s.stopping[k]? = some entries ∧
      ∃ entry, entries[j]? = some entry ∧ s.stop k j entries entry = t := by
  simp [step?, Option.bind_eq_some_iff]

theorem run?_cons {action : Action} {rest : List Action} :
    s.run? c (action :: rest) = some t ↔
      ∃ u, s.step? c action = some u ∧ u.run? c rest = some t := by
  rw [run?, List.foldlM_cons]
  exact Option.bind_eq_some_iff

theorem run?_append {before after : List Action} :
    s.run? c (before ++ after) = some t ↔
      ∃ u, s.run? c before = some u ∧ u.run? c after = some t := by
  rw [run?, List.foldlM_append]
  exact Option.bind_eq_some_iff

/-! ## What steps keep -/

/-- Maps are only ever added to the published ones. -/
theorem published_step {action : Action} (h : s.step? c action = some t) :
    s.published <+: t.published := by
  cases action with
  | begin l e =>
    obtain ⟨-, rfl⟩ := step?_begin.1 h
    exact List.prefix_refl _
  | snapshot i =>
    obtain ⟨call, -, rfl⟩ := step?_snapshot.1 h
    exact List.prefix_refl _
  | append i j =>
    obtain ⟨call, -, a, -, rfl⟩ := step?_append.1 h
    exact List.prefix_refl _
  | swap next =>
    obtain rfl := step?_swap.1 h
    exact List.prefix_append _ _
  | stop k j =>
    obtain ⟨entries, -, entry, -, rfl⟩ := step?_stop.1 h
    exact List.prefix_refl _

theorem published_run {actions : List Action} (h : s.run? c actions = some t) :
    s.published <+: t.published := by
  induction actions generalizing s with
  | nil =>
    obtain rfl := Option.some.inj h
    exact List.prefix_refl _
  | cons action rest ih =>
    obtain ⟨u, hstep, hrun⟩ := run?_cons.1 h
    exact (published_step hstep).trans (ih hrun)

theorem call_of_concat {calls : List LogCall} {new call : LogCall} {i : Nat}
    (h : (calls ++ [new])[i]? = some call) :
    calls[i]? = some call ∨ i = calls.length ∧ call = new := by
  rcases Nat.lt_or_ge i calls.length with hlt | hle
  · rw [List.getElem?_append_left hlt] at h
    exact .inl h
  · rw [List.getElem?_append_right hle, List.getElem?_singleton] at h
    split at h
    · exact .inr ⟨by omega, (Option.some.inj h).symm⟩
    · contradiction

theorem call_of_set {calls : List LogCall} {new call : LogCall} {i n : Nat}
    (h : (calls.set n new)[i]? = some call) :
    i = n ∧ call = new ∨ i ≠ n ∧ calls[i]? = some call := by
  rw [List.getElem?_set] at h
  split at h
  · rename_i hsame
    split at h
    · exact .inl ⟨hsame.symm, (Option.some.inj h).symm⟩
    · contradiction
  · rename_i hother
    exact .inr ⟨Ne.symm hother, h⟩

/-- Only a snapshot takes a map, and takes the last one for a call that has none. -/
theorem taken_step {action : Action} {i k : Nat} {call : LogCall}
    (h : s.step? c action = some t) (hcall : t.calls[i]? = some call)
    (htaken : call.taken = some k) :
    (∃ before, s.calls[i]? = some before ∧ before.taken = some k) ∨
      action = .snapshot i ∧ k = s.published.length - 1 ∧
        ∃ before, s.calls[i]? = some before ∧ before.taken = none := by
  cases action with
  | begin l e =>
    obtain ⟨-, rfl⟩ := step?_begin.1 h
    rcases call_of_concat hcall with hold | ⟨-, rfl⟩
    · exact .inl ⟨call, hold, htaken⟩
    · contradiction
  | snapshot n =>
    obtain ⟨before, ⟨hbefore, hnone⟩, rfl⟩ := step?_snapshot.1 h
    rcases call_of_set hcall with ⟨rfl, rfl⟩ | ⟨-, hother⟩
    · exact .inr ⟨rfl, (Option.some.inj htaken).symm, before, hbefore, hnone⟩
    · exact .inl ⟨call, hother, htaken⟩
  | append n j =>
    obtain ⟨before, hbefore, a, -, rfl⟩ := step?_append.1 h
    rcases call_of_set hcall with ⟨rfl, rfl⟩ | ⟨-, hother⟩
    · exact .inl ⟨before, hbefore, htaken⟩
    · exact .inl ⟨call, hother, htaken⟩
  | swap next =>
    obtain rfl := step?_swap.1 h
    exact .inl ⟨call, hcall, htaken⟩
  | stop n j =>
    obtain ⟨entries, -, entry, -, rfl⟩ := step?_stop.1 h
    exact .inl ⟨call, hcall, htaken⟩

/-- A call that has a map took the last one at some moment of the run. -/
theorem exists_snapshot {actions : List Action} {i k : Nat} {call : LogCall}
    (h : s.run? c actions = some t) (hcall : t.calls[i]? = some call)
    (htaken : call.taken = some k) :
    (∃ before, s.calls[i]? = some before ∧ before.taken = some k) ∨
      ∃ earlier later u, actions = earlier ++ .snapshot i :: later ∧
        s.run? c earlier = some u ∧ u.published <+: t.published ∧ k = u.published.length - 1 ∧
        ∃ before, u.calls[i]? = some before ∧ before.taken = none := by
  induction actions generalizing s with
  | nil =>
    obtain rfl := Option.some.inj h
    exact .inl ⟨call, hcall, htaken⟩
  | cons action rest ih =>
    obtain ⟨u, hstep, hrun⟩ := run?_cons.1 h
    rcases ih hrun with ⟨after, hafter, hsame⟩ | ⟨earlier, later, v, rfl, hearlier, hmoment⟩
    · rcases taken_step hstep hafter hsame with hbefore | ⟨rfl, hmoment⟩
      · exact .inl hbefore
      · exact .inr ⟨[], rest, s, rfl, rfl, published_run h, hmoment⟩
    · exact .inr ⟨action :: earlier, later, v, rfl, run?_cons.2 ⟨u, hstep, hearlier⟩, hmoment⟩

/-! ## Calls and replacements that run alone -/

/-- What is left of a call, one append after the other. -/
theorem run?_appends (l : Logger) {i : Nat} {call : LogCall} (hcall : s.calls[i]? = some call) :
    ∃ t, s.run? c (List.replicate call.pending.length (.append i 0)) = some t ∧
      t.world = ((call.pending.forM (l.offer call.event)).run s.world).state ∧
      t.calls[i]? = some { call with pending := [] } ∧ t.published = s.published := by
  obtain ⟨logger, e, taken, pending⟩ := call
  induction pending generalizing s with
  | nil => exact ⟨s, rfl, rfl, hcall, rfl⟩
  | cons a rest ih =>
    have hrest : (s.append i 0 ⟨logger, e, taken, a :: rest⟩ a).calls[i]? =
        some ⟨logger, e, taken, rest⟩ := by
      obtain ⟨hlt, -⟩ := List.getElem?_eq_some_iff.1 hcall
      exact List.getElem?_set_self hlt
    obtain ⟨t, hrun, hworld, hdone, hpublished⟩ := ih hrest
    refine ⟨t, ?_, ?_, hdone, hpublished⟩
    · exact run?_cons.2 ⟨_, step?_append.2 ⟨_, hcall, a, rfl, rfl⟩, hrun⟩
    · rw [hworld]
      change _ = ((rest.forM (l.offer e)).run ((l.offer e a).run s.world).state).state
      rw [Appender.state_offer]
      rfl

/-- A log call that runs alone: it takes a map and offers the event to its appenders. -/
theorem run?_logEvent {l : Logger} {e : Event} (hcontext : l.context = c)
    (hkind : c.kind = .standard) (henabled : l.isEnabled e.level = true) :
    let i := s.calls.length
    let appenders := (s.world.contextState c).table.appenders
    ∃ t, s.run? c (.begin l e :: .snapshot i :: List.replicate appenders.length (.append i 0)) =
        some t ∧
      t.world = ((l.logEvent e).run s.world).state ∧
      t.calls[i]? = some ⟨l, e, some (s.published.length - 1), []⟩ := by
  intro i appenders
  have hbegin : s.step? c (.begin l e) = some (s.begin l e) :=
    step?_begin.2 ⟨⟨hcontext, henabled⟩, rfl⟩
  have hnew : (s.begin l e).calls[i]? = some ⟨l, e, none, []⟩ := List.getElem?_concat_length
  have htaken : ((s.begin l e).snapshot c i ⟨l, e, none, []⟩).calls[i]? =
      some ⟨l, e, some (s.published.length - 1), appenders⟩ := by
    obtain ⟨hlt, -⟩ := List.getElem?_eq_some_iff.1 hnew
    exact List.getElem?_set_self hlt
  have hsnapshot : (s.begin l e).step? c (.snapshot i) =
      some ((s.begin l e).snapshot c i ⟨l, e, none, []⟩) :=
    step?_snapshot.2 ⟨_, ⟨hnew, rfl⟩, rfl⟩
  obtain ⟨t, hrun, hworld, hdone, -⟩ := run?_appends l htaken
  refine ⟨t, run?_cons.2 ⟨_, hbegin, run?_cons.2 ⟨_, hsnapshot, hrun⟩⟩, ?_, hdone⟩
  have hlevel : e.level.isEnabledAt l.level = true := henabled
  rw [hworld, Logger.run_logEvent (hcontext ▸ hkind), if_pos hlevel, hcontext]
  rfl

/-- What is left of a replacement, one stop after the other. -/
theorem run?_stops {k : Nat} {entries : List (String × Appender)}
    (hentries : s.stopping[k]? = some entries) :
    ∃ t, s.run? c (List.replicate entries.length (.stop k 0)) = some t ∧
      t.world = ((entries.forM AppenderMap.stopDropped).run s.world).state ∧
      t.stopping[k]? = some [] := by
  induction entries generalizing s with
  | nil => exact ⟨s, rfl, rfl, hentries⟩
  | cons entry rest ih =>
    have hrest : (s.stop k 0 (entry :: rest) entry).stopping[k]? = some rest := by
      obtain ⟨hlt, -⟩ := List.getElem?_eq_some_iff.1 hentries
      exact List.getElem?_set_self hlt
    obtain ⟨t, hrun, hworld, hdone⟩ := ih hrest
    exact ⟨t, run?_cons.2 ⟨_, step?_stop.2 ⟨_, hentries, entry, rfl, rfl⟩, hrun⟩, hworld, hdone⟩

/-- A replacement that runs alone: it puts a map in force and stops what that drops. -/
theorem run?_configure (hkind : c.kind = .standard) (next : AppenderMap) :
    let k := s.stopping.length
    let leaving := (s.world.contextState c).table.dropped next
    ∃ t, s.run? c (.swap next :: List.replicate leaving.length (.stop k 0)) = some t ∧
      t.world = ((c.configure next).run s.world).state ∧ t.stopping[k]? = some [] := by
  intro k leaving
  have hnew : (s.swap c next).stopping[k]? = some leaving := List.getElem?_concat_length
  obtain ⟨t, hrun, hworld, hdone⟩ := run?_stops hnew
  refine ⟨t, run?_cons.2 ⟨_, step?_swap.2 rfl, hrun⟩, ?_, hdone⟩
  rw [hworld, Context.run_configure hkind, AppenderMap.run_replace]
  rfl

end State
end Interleaving
end LoggingFacade
