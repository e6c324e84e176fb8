import LoggingFacade.Proofs.Appender.Replacement
import LoggingFacade.Proofs.Appender.Separate
import LoggingFacade.Proofs.Calls.Recording

/-!
# Open and stopped appenders

A memory or console appender is open until it is stopped, whatever else becomes of its
output and of the stream it writes to. Appending opens and stops no appender; stopping
one leaves all others as they are. An appender that is not stopped takes every event,
unless it is a recorder that refuses them, and a stopped one takes none; so a logger
reports exactly the stopped ones among the appenders it offers an event.
-/

namespace LoggingFacade

open Traced (Keeps)

namespace Appender

/-- Whether an appender with a frame is stopped. -/
def stopped? (w : World) (a : Appender) : Option Bool := (a.frame? w).map Frame.stopped

variable {w v : World} {a b : Appender} {f : Frame Buffer}

theorem stopped?_eq (w : World) (a : Appender) : a.stopped? w =
    match w.devices.get? a.id with
    | some (.memory f) => some f.stopped
    | some (.console _ _ stopped) => some stopped
    | _ => none := by
  unfold stopped? frame?
  cases w.devices.get? a.id with
  | none => rfl
  | some device => cases device <;> rfl

theorem stopped?_congr (h : v.devices = w.devices) (a : Appender) :
    a.stopped? v = a.stopped? w := by
  rw [stopped?_eq, stopped?_eq, h]

theorem stopped?_of_id (h : a.id = b.id) (w : World) : a.stopped? w = b.stopped? w := by
  rw [stopped?_eq, stopped?_eq, h]

theorem stopped?_setFrame (h : b.frame? w = some f) (g : Frame Buffer) (a : Appender) :
    a.stopped? (b.setFrame w g) = if a.id = b.id then some g.stopped else a.stopped? w := by
  by_cases hid : a.id = b.id
  · rw [if_pos hid, stopped?_of_id hid, stopped?, frame?_setFrame h]
    rfl
  · rw [if_neg hid, stopped?_eq, stopped?_eq]
    obtain hdevice | ⟨target, hdevice, -⟩ := device_of_frame? h
    · simp only [setFrame, hdevice, Store.get?_set_of_ne _ _ hid]
    · simp only [setFrame, hdevice, Store.get?_set_of_ne _ _ hid]

/-- An appender without a frame stays one when its recorder is told something. -/
theorem stopped?_setRecorder {old new : Recorder} (h : w.devices.get? b.id = some (.recorder old))
    (a : Appender) :
    a.stopped? { w with devices := w.devices.set b.id (.recorder new) } = a.stopped? w := by
  rw [stopped?_eq, stopped?_eq]
  by_cases hid : a.id = b.id
  · simp only [hid, Store.get?_set_self h, h]
  · simp only [Store.get?_set_of_ne _ _ hid]

theorem state_onFrame_of_none (h : b.frame? w = none)
    (act : Frame Buffer → Frame Buffer × Attempt Unit) : ((b.onFrame act).run w).state = w := by
  rw [onFrame, Traced.run_bind_of_quiet (Traced.run_get w), h]
  rfl

theorem stopped_appendedFrame (a : Appender) (e : Event) (f : Frame Buffer) :
    (a.appendedFrame e f).stopped = f.stopped := by
  unfold appendedFrame
  cases h : f.stopped <;> simp [h]

theorem stopped_stoppedFrame (a : Appender) (f : Frame Buffer) :
    (a.stoppedFrame f).stopped = true := by
  unfold stoppedFrame
  cases h : f.stopped <;> simp [h]

/-- Appending stops no appender. -/
theorem keeps_stopped?_append (b : Appender) (e : Event) (a : Appender) :
    Keeps a.stopped? (b.append e) := by
  intro w
  change a.stopped? _ = a.stopped? w
  cases hframe : b.frame? w with
  | some f =>
    rw [run_append hframe, stopped?_setFrame hframe, stopped_appendedFrame]
    split
    · rename_i hid
      rw [stopped?_of_id hid, stopped?, hframe]
      rfl
    · rfl
  | none =>
    rw [append, Traced.run_bind_of_quiet (Traced.run_get w)]
    cases hdevice : w.devices.get? b.id with
    | none => exact congrArg a.stopped? (state_onFrame_of_none hframe _)
    | some device =>
      cases device with
      | recorder recorder => exact stopped?_setRecorder hdevice a
      | memory frame => exact congrArg a.stopped? (state_onFrame_of_none hframe _)
      | console target started stopped => exact congrArg a.stopped? (state_onFrame_of_none hframe _)
      | discard => exact congrArg a.stopped? (state_onFrame_of_none hframe _)

/-- Stopping an appender stops this one. -/
theorem stopped?_stop (b : Appender) (w : World) (a : Appender) :
    a.stopped? (b.stop.run w).state =
      (a.stopped? w).map fun stopped => stopped || decide (a.id = b.id) := by
  cases hframe : b.frame? w with
  | some f =>
    rw [stopped?_congr (run_stop hframe).2.2.1, stopped?_setFrame hframe, stopped_stoppedFrame]
    split
    · rename_i hid
      rw [stopped?_of_id hid, stopped?, hframe]
      simp [hid]
    · rename_i hid
      simp [hid]
  | none =>
    have hsame : a.stopped? (b.stop.run w).state = a.stopped? w := by
      rw [Appender.stop, Traced.run_bind_of_quiet (Traced.run_get w)]
      cases hdevice : w.devices.get? b.id with
      | none => exact congrArg a.stopped? (state_onFrame_of_none hframe _)
      | some device =>
        cases device with
        | recorder recorder => exact stopped?_setRecorder hdevice a
        | memory frame => simp [frame?, hdevice] at hframe
        | console target started stopped => simp [frame?, hdevice] at hframe
        | discard => exact congrArg a.stopped? (state_onFrame_of_none hframe _)
    rw [hsame]
    by_cases hid : a.id = b.id
    · rw [stopped?_of_id hid, stopped?, hframe]
      rfl
    · simp [hid]

theorem state_stopDropped (entry : String × Appender) (w : World) :
    ((AppenderMap.stopDropped entry).run w).state = (entry.2.stop.run w).state := by
  rw [AppenderMap.stopDropped, Traced.state_bind]
  cases (entry.2.stop.run w).value <;> rfl

theorem stopped?_stopAll (entries : List (String × Appender)) (w : World) (a : Appender) :
    a.stopped? ((entries.forM AppenderMap.stopDropped).run w).state =
      (a.stopped? w).map fun stopped => stopped || entries.any fun e => e.2.id = a.id := by
  induction entries generalizing w with
  | nil =>
    have hsame : (([] : List (String × Appender)).forM AppenderMap.stopDropped).run w =
      ⟨(), w, []⟩ := rfl
    rw [hsame]
    simp
  | cons entry rest ih =>
    have hstate : (((entry :: rest).forM AppenderMap.stopDropped).run w).state =
        ((rest.forM AppenderMap.stopDropped).run
          ((AppenderMap.stopDropped entry).run w).state).state := rfl
    rw [hstate, ih, state_stopDropped, stopped?_stop, Option.map_map]
    congr 1
    funext stopped
    simp [Bool.or_assoc, eq_comm]

/-! ## Refusal -/

/-- Whether an appender takes no events although nothing stopped it, which only a
recorder can do. -/
def refuses (w : World) (a : Appender) : Bool :=
  match w.devices.get? a.id with
  | some (.recorder r) => r.refusesEvents
  | _ => false

/-- Whether an appender takes events. -/
def isOpen (w : World) (a : Appender) : Bool := !a.isStopped w && !a.refuses w

variable {w v : World} {a b : Appender} {f : Frame Buffer}

theorem isStopped_eq (w : World) (a : Appender) : a.isStopped w = (a.stopped? w).getD false := rfl

theorem refuses_congr (h : v.devices = w.devices) (a : Appender) : a.refuses v = a.refuses w := by
  rw [refuses, refuses, h]

theorem refuses_setFrame (h : b.frame? w = some f) (g : Frame Buffer) (a : Appender) :
    a.refuses (b.setFrame w g) = a.refuses w := by
  unfold refuses
  by_cases hid : a.id = b.id
  · obtain hdevice | ⟨target, hdevice, -⟩ := device_of_frame? h
    · simp only [setFrame, hdevice, hid, Store.get?_set_self hdevice]
    · simp only [setFrame, hdevice, hid, Store.get?_set_self hdevice]
  · obtain hdevice | ⟨target, hdevice, -⟩ := device_of_frame? h
    · simp only [setFrame, hdevice, Store.get?_set_of_ne _ _ hid]
    · simp only [setFrame, hdevice, Store.get?_set_of_ne _ _ hid]

theorem refuses_setRecorder {old : Recorder} (new : Recorder)
    (h : w.devices.get? b.id = some (.recorder old))
    (hsame : new.refusesEvents = old.refusesEvents) (a : Appender) :
    a.refuses { w with devices := w.devices.set b.id (.recorder new) } = a.refuses w := by
  unfold refuses
  by_cases hid : a.id = b.id
  · simp only [hid, Store.get?_set_self h, h, hsame]
  · simp only [Store.get?_set_of_ne _ _ hid]

theorem keeps_refuses_onFrame (b : Appender) (act : Frame Buffer → Frame Buffer × Attempt Unit)
    (a : Appender) : Keeps a.refuses (b.onFrame act) := by
  apply Traced.keeps_get_bind
  intro w
  cases hframe : b.frame? w with
  | none => rfl
  | some f => exact refuses_setFrame hframe (act f).1 a

theorem keeps_refuses_append (b : Appender) (e : Event) (a : Appender) :
    Keeps a.refuses (b.append e) := by
  apply Traced.keeps_get_bind
  intro w
  split
  · rename_i recorder hdevice
    exact refuses_setRecorder (recorder.append b.name e).1 hdevice rfl a
  · exact keeps_refuses_onFrame b _ a w

theorem keeps_refuses_unpublish (b a : Appender) : Keeps a.refuses b.unpublish :=
  fun w => refuses_congr (devices_unpublish w b) a

theorem keeps_refuses_stop (b a : Appender) : Keeps a.refuses b.stop := by
  apply Traced.keeps_get_bind
  intro w
  split
  · rename_i recorder hdevice
    exact refuses_setRecorder (recorder.stop b.name).1 hdevice rfl a
  · have hframe := keeps_refuses_onFrame b (Frame.stop b.name b.layout) a
    have hend (result : Except Error Unit) :
        Keeps a.refuses (b.unpublish >>= fun _ => pure result) :=
      (keeps_refuses_unpublish b a).bind fun _ => Traced.keeps_pure result
    exact hframe.bind hend w
  · exact keeps_refuses_onFrame b _ a w

theorem keeps_refuses_stopAll (entries : List (String × Appender)) (a : Appender) :
    Keeps a.refuses (entries.forM AppenderMap.stopDropped) := by
  refine Traced.Keeps.forM fun entry _ w => ?_
  rw [state_stopDropped]
  exact keeps_refuses_stop entry.2 a w

/-- The result of appending to an appender that does not refuse: a stopped one takes
no events. -/
theorem value_append (h : a.refuses w = false) (e : Event) :
    ((a.append e).run w).value =
      if a.isStopped w then .error (.appender a.name Frame.isStopped) else .ok () := by
  cases hframe : a.frame? w with
  | some f =>
    rw [run_append hframe, isStopped, hframe]
    rfl
  | none =>
    have hopen : a.isStopped w = false := by
      rw [isStopped, hframe]
      rfl
    rw [hopen, append, Traced.run_bind_of_quiet (Traced.run_get w)]
    have hnone : ∀ act, ((a.onFrame act).run w).value = .ok () := by
      intro act
      rw [onFrame, Traced.run_bind_of_quiet (Traced.run_get w), hframe]
      rfl
    split
    · rename_i recorder hdevice
      have hrefuses : recorder.refusesEvents = false := by
        rw [refuses, hdevice] at h
        exact h
      rw [Recorder.append, hrefuses]
      rfl
    · exact hnone _

end Appender

/-! ## Offers -/

namespace Logger

variable {a : Appender} {w : World}

theorem keeps_stopped?_offer (l : Logger) (e : Event) (b a : Appender) :
    Keeps a.stopped? (l.offer e b) := by
  intro w
  change a.stopped? _ = a.stopped? w
  rw [Appender.state_offer]
  exact Appender.keeps_stopped?_append b e a w

theorem keeps_refuses_offer (l : Logger) (e : Event) (b a : Appender) :
    Keeps a.refuses (l.offer e b) := by
  intro w
  change a.refuses _ = a.refuses w
  rw [Appender.state_offer]
  exact Appender.keeps_refuses_append b e a w

theorem diagnostics_append (a : Appender) (e : Event) (w : World) :
    ((a.append e).run w).diagnostics = [] := by
  have hframe : ∀ act, ((a.onFrame act).run w).diagnostics = [] := by
    intro act
    rw [Appender.onFrame, Traced.run_bind_of_quiet (Traced.run_get w)]
    split <;> rfl
  rw [Appender.append, Traced.run_bind_of_quiet (Traced.run_get w)]
  split
  · rfl
  · exact hframe _

theorem diagnostics_offer (h : a.refuses w = false) (l : Logger) (e : Event) :
    ((l.offer e a).run w).diagnostics =
      if a.isStopped w then [.appendFailed l.name a.name (.appender a.name Frame.isStopped)]
      else [] := by
  rw [offer, Traced.diagnostics_bind, Appender.value_append h, diagnostics_append]
  cases a.isStopped w <;> rfl

/-- Exactly the stopped appenders are reported, in their order. -/
theorem diagnostics_offers (l : Logger) (e : Event) {appenders : List Appender} {w : World}
    (h : ∀ a ∈ appenders, a.refuses w = false) :
    ((appenders.forM (l.offer e)).run w).diagnostics =
      (appenders.filter (Appender.isStopped w)).map fun a =>
        .appendFailed l.name a.name (.appender a.name Frame.isStopped) := by
  induction appenders generalizing w with
  | nil => rfl
  | cons a rest ih =>
    have hstopped : Appender.isStopped ((l.offer e a).run w).state = Appender.isStopped w := by
      funext b
      exact congrArg (Option.getD · false) (keeps_stopped?_offer l e a b w)
    have hrefuses : ∀ b ∈ rest, Appender.refuses ((l.offer e a).run w).state b = false :=
      fun b hb => (keeps_refuses_offer l e a b w).trans (h b (List.mem_cons_of_mem a hb))
    have hsplit : (((a :: rest).forM (l.offer e)).run w).diagnostics =
        ((l.offer e a).run w).diagnostics ++
          ((rest.forM (l.offer e)).run ((l.offer e a).run w).state).diagnostics := rfl
    rw [hsplit, ih hrefuses, hstopped, diagnostics_offer (h a List.mem_cons_self)]
    cases ha : a.isStopped w <;> simp [ha]

end Logger
end LoggingFacade
