import LoggingFacade.Appender.Writing

/-!
# Memory appenders

A memory appender refuses nothing, so what it holds is determined: the header
of its layout, the events it was given in their order, and the footer once it
was stopped. Stopping it again changes nothing.
-/

namespace LoggingFacade

open Text (Bytes)

namespace Frame

/-- The bytes of a frame on a buffer with its header in place. -/
def opened (layout : Option Layout) (f : Frame Buffer) : Bytes :=
  f.sink.bytes ++ if f.started then [] else (Layout.headerBytes layout).getD []

variable {f : Frame Buffer} {name : String} {layout : Option Layout}

theorem start_buffer : f.start name layout =
    (⟨⟨f.opened layout⟩, true, f.stopped⟩, .done ()) := by
  obtain ⟨⟨bytes⟩, started, stopped⟩ := f
  cases started <;> simp [start, opened, blame]

theorem writeEvent_buffer (h : f.stopped = false) (e : Event) : f.writeEvent name layout e =
    (⟨⟨f.opened layout ++ Layout.render layout e⟩, true, false⟩, .done ()) := by
  simp [writeEvent, h, start_buffer, blame]

theorem stop_buffer (h : f.stopped = false) : f.stop name layout =
    (⟨⟨f.opened layout ++ (Layout.footerBytes layout).getD []⟩, true, true⟩, .done ()) := by
  simp [stop, h, start_buffer, blame]

theorem stop_of_stopped (h : f.stopped = true) : f.stop name layout = (f, .done ()) := by
  simp [stop, h]

end Frame

namespace Appender

/-- The appender is a memory appender with the given frame. -/
def Holds (w : World) (a : Appender) (f : Frame Buffer) : Prop :=
  w.devices.get? a.id = some (.memory f)

variable {w : World} {a : Appender} {f : Frame Buffer}

theorem Holds.contents (h : Holds w a f) : a.contents w = f.sink.bytes := by
  rw [Appender.contents, h]
  rfl

theorem Holds.frame? (h : Holds w a f) : a.frame? w = some f := by
  rw [Appender.frame?, h]

theorem Holds.setFrame (h : Holds w a f) (g : Frame Buffer) : Holds (a.setFrame w g) a g := by
  rw [Appender.setFrame, h]
  exact Store.get?_set_self h _

/-- An operation on the frame of an appender does to it what it does to a frame alone. -/
theorem run_onFrame (h : a.frame? w = some f) (act : Frame Buffer → Frame Buffer × Attempt Unit) :
    (a.onFrame act).run w = ⟨(act f).2.contain a.abrupt, a.setFrame w (act f).1, []⟩ := by
  rw [onFrame, Traced.run_bind_of_quiet (Traced.run_get w), h]
  simp only
  rw [Traced.run_bind_of_quiet (Traced.run_set w _)]
  rfl

/-- An operation that succeeds on the frame of an appender. -/
theorem Holds.run_onFrame (h : Holds w a f) {act : Frame Buffer → Frame Buffer × Attempt Unit}
    {g : Frame Buffer} (hact : act f = (g, .done ())) :
    (a.onFrame act).run w = ⟨.ok (), a.setFrame w g, []⟩ := by
  rw [Appender.run_onFrame h.frame?, hact]
  rfl

theorem Holds.run_append (h : Holds w a f) (hopen : f.stopped = false) (e : Event) :
    (a.append e).run w = ⟨.ok (), a.setFrame w
      ⟨⟨f.opened a.layout ++ Layout.render a.layout e⟩, true, false⟩, []⟩ := by
  rw [append, Traced.run_bind_of_quiet (Traced.run_get w), h]
  exact h.run_onFrame (Frame.writeEvent_buffer hopen e)

/-- What stopping does to the frame. -/
def stoppedFrame (a : Appender) (f : Frame Buffer) : Frame Buffer :=
  if f.stopped then f
  else ⟨⟨f.opened a.layout ++ (Layout.footerBytes a.layout).getD []⟩, true, true⟩

theorem stop_eq (a : Appender) (f : Frame Buffer) :
    f.stop a.name a.layout = (a.stoppedFrame f, .done ()) := by
  cases hstopped : f.stopped with
  | true => simp [stoppedFrame, Frame.stop_of_stopped, hstopped]
  | false => simp [stoppedFrame, Frame.stop_buffer, hstopped]

theorem devices_unpublish (w : World) (a : Appender) :
    (a.unpublish.run w).state.devices = w.devices := by
  rw [unpublish, Traced.run_bind_of_quiet (Traced.run_get w)]
  split
  · split <;> rfl
  · rfl

theorem Holds.stop (h : Holds w a f) :
    (a.stop.run w).value = .ok () ∧ Holds (a.stop.run w).state a (a.stoppedFrame f) := by
  rw [Appender.stop, Traced.run_bind_of_quiet (Traced.run_get w), h]
  simp only
  rw [Traced.run_bind_of_quiet (h.run_onFrame (a.stop_eq f))]
  refine ⟨rfl, ?_⟩
  rw [Holds, Traced.state_bind, Traced.state_pure, devices_unpublish]
  exact h.setFrame _

/-! ## Runs -/

/-- Events are added in order behind the header. -/
theorem Holds.forEach_append (h : Holds w a f) (hopen : f.stopped = false) (events : List Event) :
    ∃ g, Holds ((Traced.forEach a.append events).run w).state a g ∧ g.stopped = false ∧
      g.opened a.layout = f.opened a.layout ++ events.flatMap (Layout.render a.layout) := by
  induction events generalizing w f with
  | nil => exact ⟨f, h, hopen, by simp⟩
  | cons e events ih =>
    have hnext := h.setFrame ⟨⟨f.opened a.layout ++ Layout.render a.layout e⟩, true, false⟩
    obtain ⟨g, hg, hgopen, hbytes⟩ := ih hnext rfl
    refine ⟨g, ?_, hgopen, ?_⟩
    · rw [Traced.forEach, Traced.run_bind_of_quiet (h.run_append hopen e)]
      exact hg
    · rw [hbytes, List.flatMap_cons, ← List.append_assoc]
      simp [Frame.opened]

theorem stoppedFrame_idem (a : Appender) (f : Frame Buffer) :
    a.stoppedFrame (a.stoppedFrame f) = a.stoppedFrame f := by
  cases h : f.stopped <;> simp [stoppedFrame, h]

/-- However often it is stopped, the footer is written once. -/
theorem Holds.forEach_stop (h : Holds w a f) (stops : List Unit) (hne : stops ≠ []) :
    Holds ((Traced.forEach (fun _ => a.stop) stops).run w).state a (a.stoppedFrame f) := by
  induction stops generalizing w f with
  | nil => exact absurd rfl hne
  | cons s stops ih =>
    have hfirst := h.stop.2
    rw [Traced.forEach, Traced.state_bind, Traced.state_bind, Traced.state_pure]
    cases stops with
    | nil => exact hfirst
    | cons t stops =>
      have hrest := ih hfirst (List.cons_ne_nil t stops)
      rwa [stoppedFrame_idem] at hrest

/-- A new appender takes events in order and is then stopped a number of times. -/
def recording (make : Traced World Appender) (events : List Event) (stops : Nat) :
    Traced World Appender := do
  let a ← make
  let _ ← Traced.forEach a.append events
  let _ ← Traced.forEach (fun _ => a.stop) (List.replicate stops ())
  return a

/-- A new memory appender of the given name and layout, published or not. -/
def newMemory (published : Bool) (name : String) (layout : Option Layout) :
    Traced World Appender :=
  if published then publishedMemory name layout else memory name layout

/-- A published memory appender is one more device, and one more or another publication. -/
theorem run_publishedMemory (name : String) (layout : Option Layout) (w : World) :
    let o := (publishedMemory name layout).run w
    o.value = ⟨w.devices.next, name, layout⟩ ∧ o.state = { w with
      devices := w.devices.add (.memory (.fresh .empty))
      published := w.published.insert name o.value } := by
  have hadd : (memory name layout).run w = ⟨⟨w.devices.next, name, layout⟩,
      { w with devices := w.devices.add (.memory (.fresh .empty)) }, []⟩ := rfl
  rw [publishedMemory, Traced.run_bind_of_quiet hadd,
    Traced.run_bind_of_quiet (Traced.run_get _), Traced.run_bind_of_quiet (Traced.run_set _ _)]
  split <;> exact ⟨rfl, rfl⟩

/-- A memory appender takes the place of the one that was published under its name. -/
theorem published_publishedMemory (name : String) (layout : Option Layout) (w : World) :
    let o := (publishedMemory name layout).run w
    o.state.published = w.published.insert o.value.name o.value := by
  obtain ⟨hvalue, hstate⟩ := run_publishedMemory name layout w
  dsimp only
  rw [hstate, hvalue]

/-- A new memory appender is one more device, whether it is published or not. -/
theorem run_newMemory (published : Bool) (name : String) (layout : Option Layout) (w : World) :
    let o := (newMemory published name layout).run w
    o.value = ⟨w.devices.next, name, layout⟩ ∧ o.state = { w with
      devices := w.devices.add (.memory (.fresh .empty))
      published := if published then w.published.insert name o.value else w.published } := by
  cases published with
  | false => exact ⟨rfl, rfl⟩
  | true => exact run_publishedMemory name layout w

theorem holds_newMemory (published : Bool) (name : String) (layout : Option Layout) (w : World) :
    let o := (newMemory published name layout).run w
    Holds o.state o.value (.fresh .empty) ∧ o.value.layout = layout := by
  obtain ⟨hvalue, hstate⟩ := run_newMemory published name layout w
  simp only [Holds, hvalue, hstate, Store.get?_add_next, and_self]

/-- All that a memory appender holds after a recording that was stopped. -/
theorem contents_recording (published : Bool) (name : String) (layout : Option Layout)
    (events : List Event) {stops : Nat} (h : 0 < stops) (w : World) :
    let o := (recording (newMemory published name layout) events stops).run w
    o.value.contents o.state = (Layout.headerBytes layout).getD [] ++
      events.flatMap (Layout.render layout) ++ (Layout.footerBytes layout).getD [] := by
  obtain ⟨hnew, hlayout⟩ := holds_newMemory published name layout w
  obtain ⟨g, hg, hopen, hbytes⟩ := hnew.forEach_append rfl events
  have hstops : List.replicate stops () ≠ [] := by
    rw [Ne, List.replicate_eq_nil_iff]
    omega
  have hstop := hg.forEach_stop _ hstops
  simp only [recording, Traced.state_bind, Traced.value_bind, Traced.state_pure,
    Traced.value_pure]
  rw [hstop.contents, stoppedFrame, hopen, hlayout]
  rw [hlayout] at hbytes
  rw [if_neg Bool.false_ne_true, hbytes]
  simp [Frame.opened, Frame.fresh, Buffer.empty]

end Appender
end LoggingFacade
