import LoggingFacade.Proofs.Appender.Stopping

/-!
# Outputs that are closed

Stopping an appender closes its output: a memory appender's own bytes get the footer, and
so does the standard stream of a console appender, each behind the header, if that was not
written yet. This happens once; to stop a stopped appender again changes no output. Several
appenders are closed one by one, also where console appenders share a stream.
-/

namespace LoggingFacade

open Text (Bytes)

namespace Appender

/-- What stopping an appender makes of its device. A recorder keeps that it was told, also
where it would rather not stop. -/
def closedDevice (a : Appender) : Device → Device
  | .memory f => .memory (a.stoppedFrame f)
  | .console target started stopped => .console target (started || !stopped) true
  | .recorder r => .recorder (r.stop a.name).1
  | .discard => .discard

/-- What stopping an appender adds to a standard stream. -/
def closing (w : World) (a : Appender) (target : ConsoleTarget) : Bytes :=
  match w.devices.get? a.id with
  | some (.console own started false) =>
    if own = target then (if started then [] else Frame.header a.layout) ++ Frame.footer a.layout
    else []
  | _ => []

variable {w v : World} {a b : Appender} {f : Frame Buffer}

/-- A stopped device is closed already. -/
theorem closedDevice_of_stopped (h : a.stopped? w = some true) :
    (w.devices.get? a.id).map a.closedDevice = w.devices.get? a.id := by
  rw [stopped?_eq] at h
  cases hdevice : w.devices.get? a.id with
  | none => rfl
  | some device =>
    rw [hdevice] at h
    cases device with
    | memory f =>
      have hstopped : f.stopped = true := Option.some.inj h
      simp [closedDevice, stoppedFrame, hstopped]
    | console target started stopped =>
      have hstopped : stopped = true := Option.some.inj h
      simp [closedDevice, hstopped]
    | recorder r => contradiction
    | discard => rfl

theorem closing_congr (h : v.devices.get? a.id = w.devices.get? a.id) (target : ConsoleTarget) :
    a.closing v target = a.closing w target := by
  rw [closing, closing, h]

/-- Only what is open has anything left to write. -/
theorem closing_of_stopped (h : a.stopped? w = some true) (target : ConsoleTarget) :
    a.closing w target = [] := by
  rw [stopped?_eq] at h
  unfold closing
  split
  · rename_i own started hdevice
    rw [hdevice] at h
    simp at h
  · rfl

theorem exists_frame (h : (a.stopped? w).isSome = true) : ∃ f, a.frame? w = some f := by
  rw [stopped?, Option.isSome_map] at h
  exact Option.isSome_iff_exists.1 h

/-- Stopping an appender closes its device and leaves all others as they are. -/
theorem device_stop (b : Appender) (w : World) (id : Nat) :
    (b.stop.run w).state.devices.get? id =
      if id = b.id then (w.devices.get? id).map b.closedDevice else w.devices.get? id := by
  cases hframe : b.frame? w with
  | some f =>
    rw [(run_stop hframe).2.2.1]
    obtain hdevice | ⟨target, hdevice, -⟩ := device_of_frame? hframe
    · simp only [setFrame, hdevice]
      split
      · rename_i hid
        rw [hid, Store.get?_set_self hdevice, hdevice]
        rfl
      · rename_i hid
        exact Store.get?_set_of_ne _ _ hid
    · simp only [setFrame, hdevice]
      split
      · rename_i hid
        rw [hid, Store.get?_set_self hdevice, hdevice, Option.map_some, closedDevice,
          stoppedFrame]
        cases hstopped : f.stopped <;> simp [hstopped]
      · rename_i hid
        exact Store.get?_set_of_ne _ _ hid
  | none =>
    -- without a frame only a recorder has something to be told
    have hstill : ∀ act, ((b.onFrame act).run w).state = w := state_onFrame_of_none hframe
    rw [stop, Traced.run_bind_of_quiet (Traced.run_get w)]
    cases hdevice : w.devices.get? b.id with
    | none =>
      simp only [hstill]
      split
      · rename_i hid
        rw [hid, hdevice]
        rfl
      · rfl
    | some device =>
      cases device with
      | memory f =>
        rw [frame?, hdevice] at hframe
        contradiction
      | console target started stopped =>
        rw [frame?, hdevice] at hframe
        contradiction
      | recorder r =>
        simp only [Traced.state_bind, Traced.run_set, Traced.state_pure]
        split
        · rename_i hid
          rw [hid, Store.get?_set_self hdevice, hdevice]
          rfl
        · rename_i hid
          exact Store.get?_set_of_ne _ _ hid
      | discard =>
        simp only [hstill]
        split
        · rename_i hid
          rw [hid, hdevice]
          rfl
        · rfl

/-- Stopping an appender adds to the stream that it writes to, and to no other. -/
theorem stream_stop (h : (b.stopped? w).isSome = true) (target : ConsoleTarget) :
    (b.stop.run w).state.stream target = ⟨(w.stream target).bytes ++ b.closing w target⟩ := by
  obtain ⟨f, hf⟩ := exists_frame h
  rw [(run_stop hf).2.2.2]
  obtain hdevice | ⟨own, hdevice, hsink⟩ := device_of_frame? hf
  · simp only [setFrame, hdevice, closing, List.append_nil]
    rfl
  · have hsame : (b.setFrame w (b.stoppedFrame f)).stream target =
        (w.setStream own (b.stoppedFrame f).sink).stream target := by
      simp only [setFrame, hdevice]
      rfl
    rw [hsame]
    by_cases htarget : own = target
    · subst htarget
      rw [stream_setStream, closing, hdevice, hsink, stoppedFrame]
      cases hstopped : f.stopped with
      | true => simp
      | false =>
        simp only [Bool.false_eq_true, if_false, if_true, Frame.opened, List.append_assoc]
        cases f.started <;> rfl
    · rw [stream_setStream_of_ne w _ (Ne.symm htarget), closing, hdevice]
      cases f.stopped <;> simp [htarget]

/-- Stopping an appender that is stopped already changes neither devices nor streams. -/
theorem stop_of_stopped (h : b.stopped? w = some true) :
    (∀ id, (b.stop.run w).state.devices.get? id = w.devices.get? id) ∧
      ∀ target, (b.stop.run w).state.stream target = w.stream target := by
  have hsome : (b.stopped? w).isSome = true := by
    rw [h]
    rfl
  constructor
  · intro id
    rw [device_stop]
    split
    · rename_i hid
      rw [hid, closedDevice_of_stopped h]
    · rfl
  · intro target
    rw [stream_stop hsome, closing_of_stopped h, List.append_nil]

/-- An appender that can be stopped still can be after another one was. -/
theorem isSome_stopped?_stop (b : Appender) (w : World) (a : Appender) :
    (a.stopped? (b.stop.run w).state).isSome = (a.stopped? w).isSome := by
  rw [stopped?_stop, Option.isSome_map]

theorem stopped?_stop_self (h : (b.stopped? w).isSome = true) :
    b.stopped? (b.stop.run w).state = some true := by
  obtain ⟨stopped, hwas⟩ := Option.isSome_iff_exists.1 h
  rw [stopped?_stop, hwas]
  simp

/-! ## Several appenders -/

theorem state_stopAll_cons (e : String × Appender) (rest : List (String × Appender))
    (w : World) : (((e :: rest).forM AppenderMap.stopDropped).run w).state =
      ((rest.forM AppenderMap.stopDropped).run (e.2.stop.run w).state).state := by
  rw [← state_stopDropped e w]
  rfl

/-- Stopping appenders one by one, even more than once, closes the device of each. -/
theorem device_stopAll {entries : List (String × Appender)}
    (h : ∀ e ∈ entries, (e.2.stopped? w).isSome = true)
    (hsame : ∀ e ∈ entries, e.2.id = a.id → e.2 = a) :
    ((entries.forM AppenderMap.stopDropped).run w).state.devices.get? a.id =
      if (entries.any fun e => e.2.id = a.id) = true then
        (w.devices.get? a.id).map a.closedDevice
      else w.devices.get? a.id := by
  induction entries generalizing w with
  | nil => rfl
  | cons e rest ih =>
    have hrest : ∀ x ∈ rest, (x.2.stopped? (e.2.stop.run w).state).isSome = true := by
      intro x hx
      rw [isSome_stopped?_stop]
      exact h x (List.mem_cons_of_mem e hx)
    have hfirst := device_stop e.2 w a.id
    rw [state_stopAll_cons, ih hrest fun x hx => hsame x (List.mem_cons_of_mem e hx), List.any_cons]
    by_cases hid : e.2.id = a.id
    · obtain rfl : e.2 = a := hsame e List.mem_cons_self hid
      -- it is stopped from now on, so to close it again changes nothing
      rw [closedDevice_of_stopped (stopped?_stop_self (h e List.mem_cons_self)), ite_self, hfirst]
      simp
    · rw [hfirst, if_neg (Ne.symm hid), decide_eq_false hid, Bool.false_or]

/-- Each of them adds what it has left to write to the streams. -/
theorem stream_stopAll {entries : List (String × Appender)}
    (hdistinct : (entries.map fun e => e.2.id).Nodup)
    (h : ∀ e ∈ entries, (e.2.stopped? w).isSome = true) (target : ConsoleTarget) :
    (((entries.forM AppenderMap.stopDropped).run w).state.stream target).bytes =
      (w.stream target).bytes ++ entries.flatMap fun e => e.2.closing w target := by
  induction entries generalizing w with
  | nil => exact (List.append_nil _).symm
  | cons e rest ih =>
    obtain ⟨hfirst, hothers⟩ := List.nodup_cons.1 hdistinct
    have hrest : ∀ x ∈ rest, (x.2.stopped? (e.2.stop.run w).state).isSome = true := by
      intro x hx
      rw [isSome_stopped?_stop]
      exact h x (List.mem_cons_of_mem e hx)
    have hclosing : ∀ x ∈ rest,
        x.2.closing (e.2.stop.run w).state target = x.2.closing w target := by
      intro x hx
      apply closing_congr
      have hne : x.2.id ≠ e.2.id := by
        intro hid
        exact hfirst (List.mem_map.2 ⟨x, hx, hid⟩)
      rw [device_stop, if_neg hne]
    rw [state_stopAll_cons, ih hothers hrest, stream_stop (h e List.mem_cons_self), List.flatMap_cons,
      List.append_assoc, List.flatMap_congr hclosing]

/-- Stopping them again changes neither devices nor streams. -/
theorem stopAll_of_stopped {entries : List (String × Appender)}
    (h : ∀ e ∈ entries, e.2.stopped? w = some true) :
    let v := ((entries.forM AppenderMap.stopDropped).run w).state
    (∀ id, v.devices.get? id = w.devices.get? id) ∧ ∀ target, v.stream target = w.stream target := by
  induction entries generalizing w with
  | nil => exact ⟨fun _ => rfl, fun _ => rfl⟩
  | cons e rest ih =>
    obtain ⟨hdevices, hstreams⟩ := stop_of_stopped (h e List.mem_cons_self)
    have hrest : ∀ x ∈ rest, x.2.stopped? (e.2.stop.run w).state = some true := by
      intro x hx
      rw [stopped?_stop, h x (List.mem_cons_of_mem e hx)]
      rfl
    obtain ⟨hdevices', hstreams'⟩ := ih hrest
    dsimp only
    rw [state_stopAll_cons]
    exact ⟨fun id => (hdevices' id).trans (hdevices id),
      fun target => (hstreams' target).trans (hstreams target)⟩

/-! ## Closed appenders -/

/-- The output of an appender is closed: it takes no more events. What a memory appender
holds ends with the footer. -/
def Closed (w : World) (a : Appender) : Prop :=
  match w.devices.get? a.id with
  | some (.memory f) => f.started = true ∧ f.stopped = true ∧ Frame.footer a.layout <:+ f.sink.bytes
  | some (.console _ started stopped) => started = true ∧ stopped = true
  | _ => False

theorem Closed.congr (h : a.Closed w) (hdevice : v.devices.get? a.id = w.devices.get? a.id) :
    a.Closed v := by
  unfold Closed at h ⊢
  rw [hdevice]
  exact h

theorem Closed.stopped? (h : a.Closed w) : a.stopped? w = some true := by
  rw [stopped?_eq]
  unfold Closed at h
  cases hdevice : w.devices.get? a.id with
  | none => simp [hdevice] at h
  | some device =>
    rw [hdevice] at h
    cases device with
    | memory f => exact congrArg some h.2.1
    | console target started stopped => exact congrArg some h.2
    | recorder recorder => exact h.elim
    | discard => exact h.elim

/-- An open appender is closed by stopping it. -/
theorem closed_of_closedDevice (h : a.stopped? w = some false)
    (hdevice : v.devices.get? a.id = (w.devices.get? a.id).map a.closedDevice) : a.Closed v := by
  rw [stopped?_eq] at h
  unfold Closed
  rw [hdevice]
  cases hold : w.devices.get? a.id with
  | none => simp [hold] at h
  | some device =>
    rw [hold] at h
    cases device with
    | memory f =>
      have hopen : f.stopped = false := Option.some.inj h
      simp only [Option.map_some, closedDevice, stoppedFrame, hopen]
      exact ⟨rfl, rfl, List.suffix_append _ _⟩
    | console target started stopped =>
      have hopen : stopped = false := Option.some.inj h
      simp [closedDevice, hopen]
    | recorder recorder => simp at h
    | discard => simp at h

end Appender
end LoggingFacade
