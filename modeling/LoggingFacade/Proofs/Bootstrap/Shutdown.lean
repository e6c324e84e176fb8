import LoggingFacade.Proofs.Backend.Installation
import LoggingFacade.Proofs.Bootstrap.Linked

/-!
# Shutting down

A shutdown installs an empty map. Whatever the two contexts had then, they have nothing
afterwards, and every appender of theirs was stopped, of whatever device it is. Like any
installation, this leaves the backend of the process to itself and in order.
-/

namespace LoggingFacade

open Traced (Keeps)

/-! ## Appenders that were stopped -/

namespace Appender

variable {w v : World} {a b : Appender}

/-- An appender was stopped: its output has ended, or its recorder was told. An appender that
writes nowhere has nothing to end. -/
def Ended (w : World) (a : Appender) : Prop :=
  match w.devices.get? a.id with
  | some (.memory f) => f.stopped = true
  | some (.console _ _ stopped) => stopped = true
  | some (.recorder r) => Recorded.stop ∈ r.record
  | _ => True

theorem ended_congr (h : v.devices.get? a.id = w.devices.get? a.id) : a.Ended v ↔ a.Ended w := by
  rw [Ended, Ended, h]

/-- Stopping ends an appender, and none that has ended begins again. -/
theorem ended_stop (b : Appender) (w : World) (h : a.id = b.id ∨ a.Ended w) :
    a.Ended (b.stop.run w).state := by
  by_cases hid : a.id = b.id
  · unfold Ended
    rw [device_stop, if_pos hid]
    cases w.devices.get? a.id with
    | none => trivial
    | some device =>
      cases device with
      | memory f => exact stopped_stoppedFrame b f
      | console target started stopped => rfl
      | recorder r => exact List.mem_append_right _ List.mem_cons_self
      | discard => trivial
  · have hsame : (b.stop.run w).state.devices.get? a.id = w.devices.get? a.id := by
      rw [device_stop, if_neg hid]
    exact (ended_congr hsame).2 (h.resolve_left hid)

theorem ended_stopAll {entries : List (String × Appender)}
    (h : (∃ e ∈ entries, a = e.2) ∨ a.Ended w) :
    a.Ended ((entries.forM AppenderMap.stopDropped).run w).state := by
  induction entries generalizing w with
  | nil =>
    rcases h with ⟨e, he, -⟩ | h
    · contradiction
    · exact h
  | cons e rest ih =>
    rw [state_stopAll_cons]
    apply ih
    rcases h with ⟨x, hx, rfl⟩ | h
    · rcases List.mem_cons.1 hx with rfl | hx
      · exact .inr (ended_stop _ w (.inl rfl))
      · exact .inl ⟨x, hx, rfl⟩
    · exact .inr (ended_stop _ w (.inr h))

end Appender

/-! ## Installing -/

theorem AppenderMap.dropped_empty (m : AppenderMap) : m.dropped .empty = m.entries :=
  List.filter_eq_self.2 fun _ _ => rfl

theorem Context.keeps_selected_configure (c : Context) (next : AppenderMap) :
    Keeps World.selected (c.configure next) := by
  cases hkind : c.kind with
  | simple =>
    intro w
    rw [configure, hkind]
    rfl
  | standard =>
    intro w
    rw [run_configure hkind]
    exact Appender.untouched_selected.keeps_replace _ next _

namespace Backend

variable {w : World} {b : Backend}

theorem keeps_selected_context (b : Backend) (caller : String) (isolation : Option Realm)
    (global : Bool) : Keeps World.selected (b.context caller isolation global) := by
  intro w
  have hrealm : w.realm = w.realm.toList.head? := Option.head?_toList.symm
  rcases run_context (b := b) hrealm caller isolation global with
    ⟨-, hstate⟩ | ⟨-, realm, -, -, -, hstate⟩
  · rw [hstate]
  · rw [hstate]
    rfl

theorem keeps_selected_configureAll (next : AppenderMap) (cs : List Context) :
    Keeps World.selected (configureAll next cs) := by
  induction cs with
  | nil => exact Traced.keeps_pure 0
  | cons c rest ih =>
    refine (c.keeps_selected_configure next).bind fun accepted => ?_
    refine ih.bind fun others => ?_
    exact Traced.keeps_pure _

theorem keeps_selected_install (b : Backend) (next : AppenderMap) :
    Keeps World.selected (b.install next) := by
  refine (b.keeps_selected_context _ _ _).bind fun global => ?_
  refine (b.keeps_selected_context _ _ _).bind fun standard => ?_
  refine (keeps_selected_configureAll next _).bind fun accepted => ?_
  intro w
  split <;> rfl

/-- The simple backend has nowhere to put appenders. -/
theorem Indexed.install_simple (h : b.Indexed w) (hkind : b.kind = .simple)
    (next : AppenderMap) : ((b.install next).run w).state = w := by
  have hroot : b.root.kind = .simple := (h.kind (k := none) rfl).trans hkind
  have hcontext : ∀ isolation global,
      (b.context facadeCaller isolation global).run w = ⟨b.root, w, []⟩ := by
    intro isolation global
    rw [Backend.context, hkind]
    rfl
  have hconfigure : (b.root.configure next).run w = ⟨false, w, []⟩ := by
    rw [Context.configure, hroot]
    rfl
  have hall : (configureAll next [b.root, b.root]).run w = ⟨0, w, []⟩ := by
    simp only [configureAll, Traced.run_bind, Traced.run_pure, hconfigure]
    rfl
  rw [Backend.install, Traced.run_bind_of_quiet (hcontext _ _), Traced.run_bind_of_quiet (hcontext _ _),
    Traced.run_bind_of_quiet hall]
  split <;> rfl

theorem Indexed.after_install (h : b.Indexed w) (next : AppenderMap) :
    b.Indexed ((b.install next).run w).state := by
  cases hkind : b.kind with
  | simple =>
    rw [h.install_simple hkind]
    exact h
  | standard => exact (h.install hkind next).2.1

/-- An empty map takes everything from both contexts, and all of it is stopped. -/
theorem Indexed.install_empty (h : b.Indexed w) (hkind : b.kind = .standard) :
    let o := (b.install .empty).run w
    (b.known? o.state (some Realm.default)).isSome = true ∧
      ∀ k, k = none ∨ k = some Realm.default → b.tableAt o.state k = .empty ∧
        ∀ a ∈ (b.tableAt w k).appenders, a.Ended o.state := by
  intro o
  obtain ⟨-, -, htables, -, hmade, first, second, hfirst, hsecond, hstate⟩ :=
    h.install hkind .empty
  simp only [AppenderMap.dropped_empty] at hsecond hstate
  change o.state = _ at hstate
  refine ⟨hmade, ?_⟩
  intro k hk
  refine ⟨(htables k).trans (if_pos hk), ?_⟩
  intro a ha
  obtain ⟨name, hentry⟩ := AppenderMap.mem_appenders.1 ha
  rw [hstate]
  apply Appender.ended_stopAll
  rcases hk with rfl | rfl
  · -- it was stopped first, and is left so
    have hended := Appender.ended_stopAll (w := first) (.inl ⟨_, hentry, rfl⟩)
    exact .inr ((Appender.ended_congr (by rw [hsecond.devices])).2 hended)
  · exact .inl ⟨_, hentry, rfl⟩

end Backend

end LoggingFacade
