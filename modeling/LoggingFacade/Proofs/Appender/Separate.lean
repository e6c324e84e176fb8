import LoggingFacade.Backend.Routing
import LoggingFacade.Proofs.Appender.Framing
import LoggingFacade.Proofs.Appender.Memory
import Mathlib.Logic.Function.Basic

/-!
# Appenders side by side

Memory and console appenders write to frames that refuse nothing. Where no two of
them write to one standard stream, each has a frame of its own: appending to one of
them or stopping it changes its frame and no other, and so does doing this to several
of them in turn.
-/

namespace LoggingFacade

open Text (Bytes)

namespace Appender

/-- The standard stream that an appender writes to, if it does. -/
def target? (w : World) (a : Appender) : Option ConsoleTarget :=
  match w.devices.get? a.id with
  | some (.console target _ _) => some target
  | _ => none

/-- The frame of an appender with an event appended. -/
def appendedFrame (a : Appender) (e : Event) (f : Frame Buffer) : Frame Buffer :=
  if f.stopped then f
  else ⟨⟨f.opened a.layout ++ Layout.render a.layout e⟩, true, false⟩

/-- The bytes of an appender that took some events and was stopped or not. -/
def output (a : Appender) (events : List Event) (stopped : Bool) : Bytes :=
  (if events = [] ∧ stopped = false then [] else Frame.header a.layout) ++
    events.flatMap (Layout.render a.layout) ++ if stopped then Frame.footer a.layout else []

/-- The frame of such an appender, if its sink had the given bytes before. -/
def writtenFrame (a : Appender) (base : Buffer) (events : List Event) (stopped : Bool) :
    Frame Buffer :=
  ⟨⟨base.bytes ++ a.output events stopped⟩, !events.isEmpty || stopped, stopped⟩

variable {w : World} {a b : Appender} {f g : Frame Buffer}

theorem writtenFrame_nil (a : Appender) (base : Buffer) :
    a.writtenFrame base [] false = .fresh base := by
  simp [writtenFrame, output, Frame.fresh]

theorem appendedFrame_written (a : Appender) (base : Buffer) (events : List Event) (e : Event) :
    a.appendedFrame e (a.writtenFrame base events false) =
      a.writtenFrame base (events ++ [e]) false := by
  cases events <;> simp [appendedFrame, writtenFrame, output, Frame.opened, Frame.header]

theorem stoppedFrame_written (a : Appender) (base : Buffer) (events : List Event) :
    a.stoppedFrame (a.writtenFrame base events false) = a.writtenFrame base events true := by
  cases events <;>
    simp [stoppedFrame, writtenFrame, output, Frame.opened, Frame.header, Frame.footer]

theorem device_of_frame? (h : a.frame? w = some f) :
    w.devices.get? a.id = some (.memory f) ∨
      ∃ target, w.devices.get? a.id = some (.console target f.started f.stopped) ∧
        w.stream target = f.sink := by
  unfold frame? at h
  split at h
  · rename_i frame hdevice
    cases h
    exact .inl hdevice
  · rename_i target started stopped hdevice
    cases h
    exact .inr ⟨target, hdevice, rfl⟩
  · contradiction

theorem stream_setStream (w : World) (target : ConsoleTarget) (b : Buffer) :
    (w.setStream target b).stream target = b := by
  cases target <;> rfl

theorem stream_setStream_of_ne (w : World) {target other : ConsoleTarget} (b : Buffer)
    (h : other ≠ target) : (w.setStream target b).stream other = w.stream other := by
  cases target <;> cases other <;> first | rfl | contradiction

theorem contexts_setFrame (w : World) (a : Appender) (g : Frame Buffer) :
    (a.setFrame w g).contexts = w.contexts := by
  unfold setFrame
  split
  · rename_i target _ _ _
    cases target <;> rfl
  · rfl

theorem frame?_setFrame (h : a.frame? w = some f) (g : Frame Buffer) :
    a.frame? (a.setFrame w g) = some g := by
  obtain hdevice | ⟨target, hdevice, -⟩ := device_of_frame? h
  · simp only [setFrame, hdevice, frame?, Store.get?_set_self hdevice]
  · simp only [setFrame, hdevice, frame?, Store.get?_set_self hdevice]
    exact congrArg (fun s => some (⟨s, g.started, g.stopped⟩ : Frame Buffer))
      (stream_setStream w target g.sink)

theorem target?_setFrame (h : a.frame? w = some f) (g : Frame Buffer) (b : Appender) :
    b.target? (a.setFrame w g) = b.target? w := by
  unfold target?
  by_cases hid : b.id = a.id
  · obtain hdevice | ⟨target, hdevice, -⟩ := device_of_frame? h
    · simp only [setFrame, hdevice, hid, Store.get?_set_self hdevice]
    · simp only [setFrame, hdevice, hid, Store.get?_set_self hdevice]
  · obtain hdevice | ⟨target, hdevice, -⟩ := device_of_frame? h
    · simp only [setFrame, hdevice, Store.get?_set_of_ne _ _ hid]
    · simp only [setFrame, hdevice, Store.get?_set_of_ne _ _ hid]

/-- Another appender keeps its frame, unless both write to one standard stream. -/
theorem frame?_setFrame_of_ne (h : a.frame? w = some f) (g : Frame Buffer) (hid : b.id ≠ a.id)
    (hstream : ∀ t, a.target? w = some t → b.target? w ≠ some t) :
    b.frame? (a.setFrame w g) = b.frame? w := by
  obtain hdevice | ⟨target, hdevice, -⟩ := device_of_frame? h
  · simp only [setFrame, hdevice, frame?, Store.get?_set_of_ne _ _ hid]
    rfl
  · simp only [setFrame, hdevice, frame?, Store.get?_set_of_ne _ _ hid]
    cases hother : w.devices.get? b.id with
    | none => rfl
    | some device =>
      cases device with
      | memory frame => rfl
      | recorder recorder => rfl
      | discard => rfl
      | console other started stopped =>
        have hne : other ≠ target := by
          rintro rfl
          exact hstream other (by rw [target?, hdevice]) (by rw [target?, hother])
        exact congrArg (fun s => some (⟨s, started, stopped⟩ : Frame Buffer))
          (stream_setStream_of_ne w g.sink hne)

/-! ## One operation -/

/-- The result of a refused event, and that of an accepted one. -/
def appendResult (a : Appender) (f : Frame Buffer) : Except Error Unit :=
  if f.stopped then .error (.appender a.name Frame.isStopped) else .ok ()

theorem writeEvent_eq (a : Appender) (e : Event) (f : Frame Buffer) :
    (f.writeEvent a.name a.layout e).1 = a.appendedFrame e f ∧
      (f.writeEvent a.name a.layout e).2.contain a.abrupt = a.appendResult f := by
  cases hstopped : f.stopped with
  | true => simp [Frame.writeEvent, appendedFrame, appendResult, hstopped]
  | false => simp [Frame.writeEvent_buffer hstopped, appendedFrame, appendResult, hstopped]

theorem run_append (h : a.frame? w = some f) (e : Event) :
    (a.append e).run w = ⟨a.appendResult f, a.setFrame w (a.appendedFrame e f), []⟩ := by
  rw [append, Traced.run_bind_of_quiet (Traced.run_get w)]
  have hframe := run_onFrame h (Frame.writeEvent a.name a.layout e)
  rw [(writeEvent_eq a e f).1, (writeEvent_eq a e f).2] at hframe
  obtain hdevice | ⟨target, hdevice, -⟩ := device_of_frame? h
  · rw [hdevice]
    exact hframe
  · rw [hdevice]
    exact hframe

theorem contexts_unpublish (w : World) (a : Appender) :
    (a.unpublish.run w).state.contexts = w.contexts := by
  rw [unpublish, Traced.run_bind_of_quiet (Traced.run_get w)]
  split
  · split <;> rfl
  · rfl

theorem stream_unpublish (w : World) (a : Appender) (target : ConsoleTarget) :
    (a.unpublish.run w).state.stream target = w.stream target := by
  rw [unpublish, Traced.run_bind_of_quiet (Traced.run_get w)]
  split
  · split <;> cases target <;> rfl
  · rfl

/-- Worlds with the same devices and streams have the same frames. -/
theorem frame?_congr {v : World} (hdevices : v.devices = w.devices)
    (hstreams : ∀ target, v.stream target = w.stream target) (a : Appender) :
    a.frame? v = a.frame? w := by
  simp only [frame?, hdevices, hstreams]

theorem target?_congr {v : World} (hdevices : v.devices = w.devices) (a : Appender) :
    a.target? v = a.target? w := by
  simp only [target?, hdevices]

/-- Stopping succeeds, and does nothing besides but to end a publication. -/
theorem run_stop (h : a.frame? w = some f) :
    (a.stop.run w).value = .ok () ∧
      (a.stop.run w).state.contexts = w.contexts ∧
      (a.stop.run w).state.devices = (a.setFrame w (a.stoppedFrame f)).devices ∧
      ∀ target, (a.stop.run w).state.stream target =
        (a.setFrame w (a.stoppedFrame f)).stream target := by
  have hframe := run_onFrame h (Frame.stop a.name a.layout)
  rw [stop_eq] at hframe
  have hcontexts := contexts_setFrame w a (a.stoppedFrame f)
  rw [Appender.stop, Traced.run_bind_of_quiet (Traced.run_get w)]
  obtain hdevice | ⟨target, hdevice, -⟩ := device_of_frame? h
  · rw [hdevice]
    simp only
    rw [Traced.run_bind_of_quiet hframe, Traced.value_bind, Traced.state_bind, Traced.state_pure,
      contexts_unpublish, devices_unpublish]
    exact ⟨rfl, hcontexts, rfl, stream_unpublish _ a⟩
  · rw [hdevice]
    simp only
    rw [hframe]
    exact ⟨rfl, hcontexts, rfl, fun _ => rfl⟩

/-! ## Frames of their own -/

/-- The appenders have these frames, by identity, and no two of them write to one
standard stream. -/
structure Apart (w : World) (used : List Appender) (frames : Nat → Frame Buffer) : Prop where
  frame : ∀ a ∈ used, a.frame? w = some (frames a.id)
  streams : ∀ a ∈ used, ∀ b ∈ used, ∀ t, a.target? w = some t → b.target? w = some t → a.id = b.id

variable {used : List Appender} {frames : Nat → Frame Buffer}

theorem Apart.congr {v : World} (h : Apart w used frames) (hdevices : v.devices = w.devices)
    (hstreams : ∀ target, v.stream target = w.stream target) : Apart v used frames where
  frame a ha := (frame?_congr hdevices hstreams a).trans (h.frame a ha)
  streams a ha b hb t := by
    rw [target?_congr hdevices, target?_congr hdevices]
    exact h.streams a ha b hb t

theorem Apart.setFrame (h : Apart w used frames) (ha : a ∈ used) (g : Frame Buffer) :
    Apart (a.setFrame w g) used (Function.update frames a.id g) where
  frame b hb := by
    by_cases hid : b.id = a.id
    · have hsame : b.frame? (a.setFrame w g) = a.frame? (a.setFrame w g) := by
        rw [Appender.frame?, Appender.frame?, hid]
      rw [hid, Function.update_self, hsame, frame?_setFrame (h.frame a ha)]
    · rw [Function.update_of_ne hid, frame?_setFrame_of_ne (h.frame a ha) g hid, h.frame b hb]
      exact fun t hta htb => hid (h.streams b hb a ha t htb hta)
  streams b hb c hc t := by
    rw [target?_setFrame (h.frame a ha), target?_setFrame (h.frame a ha)]
    exact h.streams b hb c hc t

/-- An operation gives an appender another frame, and leaves the frames of the others
and all contexts as they are. -/
def Reframes (used : List Appender) (m : Traced World Unit) (a : Appender)
    (act : Frame Buffer → Frame Buffer) : Prop :=
  ∀ w frames, Apart w used frames →
    Apart (m.run w).state used (Function.update frames a.id (act (frames a.id))) ∧
      (m.run w).state.contexts = w.contexts

/-- Offering an event to an appender is appending it, as far as the world is concerned. -/
theorem state_offer (l : Logger) (e : Event) (a : Appender) (w : World) :
    ((l.offer e a).run w).state = ((a.append e).run w).state := by
  rw [Logger.offer, Traced.state_bind]
  cases ((a.append e).run w).value <;> rfl

theorem reframes_offer (l : Logger) (e : Event) (ha : a ∈ used) :
    Reframes used (l.offer e a) a (a.appendedFrame e) := by
  intro w frames h
  rw [state_offer, run_append (h.frame a ha)]
  exact ⟨h.setFrame ha _, contexts_setFrame w a _⟩

theorem reframes_stopDropped {entry : String × Appender} (hentry : entry.2 ∈ used) :
    Reframes used (AppenderMap.stopDropped entry) entry.2 entry.2.stoppedFrame := by
  intro w frames h
  obtain ⟨hvalue, hcontexts, hdevices, hstreams⟩ := run_stop (h.frame entry.2 hentry)
  have hstate : ((AppenderMap.stopDropped entry).run w).state = (entry.2.stop.run w).state := by
    rw [AppenderMap.stopDropped, Traced.state_bind, hvalue]
    rfl
  rw [hstate]
  exact ⟨(h.setFrame hentry _).congr hdevices hstreams, hcontexts⟩

/-- The frames after each of some appenders got another one. -/
def reframed (act : Appender → Frame Buffer → Frame Buffer) (appenders : List Appender)
    (frames : Nat → Frame Buffer) : Nat → Frame Buffer :=
  appenders.foldl (fun frames a => Function.update frames a.id (act a (frames a.id))) frames

variable {act : Appender → Frame Buffer → Frame Buffer} {appenders : List Appender}

theorem reframed_of_not_mem {id : Nat} (h : id ∉ appenders.map Appender.id) :
    reframed act appenders frames id = frames id := by
  induction appenders generalizing frames with
  | nil => rfl
  | cons a rest ih =>
    rw [List.map_cons, List.mem_cons, not_or] at h
    rw [reframed, List.foldl_cons]
    exact (ih h.2).trans (Function.update_of_ne h.1 _ _)

theorem reframed_of_mem (hdistinct : (appenders.map Appender.id).Nodup) (h : a ∈ appenders) :
    reframed act appenders frames a.id = act a (frames a.id) := by
  induction appenders generalizing frames with
  | nil => contradiction
  | cons b rest ih =>
    rw [List.map_cons, List.nodup_cons] at hdistinct
    rw [reframed, List.foldl_cons]
    rcases List.mem_cons.1 h with rfl | hrest
    · exact (reframed_of_not_mem hdistinct.1).trans (Function.update_self _ _ _)
    · have hne : a.id ≠ b.id := fun hid => hdistinct.1 (hid ▸ List.mem_map_of_mem hrest)
      refine (ih hdistinct.2 hrest).trans ?_
      rw [Function.update_of_ne hne]

/-- One operation after the other, on different appenders. -/
theorem Apart.forM {β : Type} {items : List β} {step : β → Traced World Unit}
    (h : Apart w used frames) (of : β → Appender) (act : Appender → Frame Buffer → Frame Buffer)
    (hstep : ∀ b ∈ items, Reframes used (step b) (of b) (act (of b))) :
    Apart ((items.forM step).run w).state used (reframed act (items.map of) frames) ∧
      ((items.forM step).run w).state.contexts = w.contexts := by
  induction items generalizing w frames with
  | nil => exact ⟨h, rfl⟩
  | cons b rest ih =>
    obtain ⟨hfirst, hcontexts⟩ := hstep b List.mem_cons_self w frames h
    obtain ⟨hrest, hsame⟩ := ih hfirst fun c hc => hstep c (List.mem_cons_of_mem b hc)
    exact ⟨hrest, hsame.trans hcontexts⟩

end Appender
end LoggingFacade
