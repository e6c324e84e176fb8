import LoggingFacade.Proofs.Appender.Framing

/-!
# Headers that fail

The first call of a frame tries the header, and no later call does. A header that
the sink took leads the output for good. One that failed is lost: the frame goes on
behind the part of it that was taken. The call that tried it does nothing else, so
a frame stopped by its very first call stays open if the header fails; any other
stop is final, whatever the sink does.
-/

namespace LoggingFacade

open Text (Bytes)

namespace Frame

variable {S : Type} [Sink S] {name : String} {layout : Option Layout}

/-- The same frame, with its sink watched from now on. -/
def watched (f : Frame S) : Frame (Watched S) := ⟨.fresh f.sink, f.started, f.stopped⟩

/-! ## The call that tries the header -/

theorem started_perform {f : Frame S} (h : f.stopped = true → f.started = true) (c : Call) :
    (f.perform name layout c).1.started = true := by
  cases hstopped : f.stopped with
  | true =>
    rw [perform_of_stopped hstopped]
    exact h hstopped
  | false =>
    by_cases hstart : (f.start name layout).2 = .done ()
    · rw [perform_of_start_done hstopped c hstart]
    · rw [perform_of_start_ne_done hstopped c hstart]
      exact started_start name layout f

theorem started_run {f : Frame S} (h : f.started = true) (calls : List Call) :
    (f.run name layout calls).1.started = true := by
  induction calls generalizing f with
  | nil => exact h
  | cons c rest ih => exact ih (started_perform (fun _ => h) c)

/-- With the header in place, a call has only its own piece left to write. -/
theorem perform_start {f : Frame S} (hstopped : f.stopped = false)
    (hstart : (f.start name layout).2 = .done ()) (c : Call) :
    (f.start name layout).1.perform name layout c = f.perform name layout c := by
  have hopened : (f.start name layout).1.start name layout = ((f.start name layout).1, .done ()) :=
    start_of_started (started_start name layout f)
  rw [perform_of_start_done hstopped c hstart,
    perform_of_start_done (by rw [stopped_start, hstopped]) c (by rw [hopened]), hopened]

/-! ## What a stop ends -/

/-- Stopping ends the output unless it is this call that tries the header in vain. -/
theorem stopped_perform_stop (f : Frame S) :
    (f.perform name layout .stop).1.stopped = true ↔
      f.stopped = true ∨ (f.start name layout).2 = .done () := by
  cases hstopped : f.stopped with
  | true =>
    rw [perform_of_stopped hstopped]
    exact ⟨fun _ => .inl rfl, fun _ => hstopped⟩
  | false =>
    by_cases hstart : (f.start name layout).2 = .done ()
    · rw [perform_of_start_done hstopped .stop hstart]
      exact ⟨fun _ => .inr hstart, fun _ => rfl⟩
    · rw [perform_of_start_ne_done hstopped .stop hstart, stopped_start, hstopped]
      exact ⟨nofun, fun h => h.elim nofun fun hdone => absurd hdone hstart⟩

/-- A stop ends the output for good, except where it is the first call of all and the
header fails. -/
theorem stop_ends_unless_header_fails (name : String) (layout : Option Layout) (s : S)
    (calls : List Call) :
    let f := ((fresh s).run name layout calls).1
    let g := (f.perform name layout .stop).1
    (g.stopped = true ↔ calls ≠ [] ∨ ((fresh s).start name layout).2 = .done ()) ∧
    (g.stopped = true → ∀ more, g.run name layout more = (g, more.map (refusal name))) := by
  intro f g
  refine ⟨(stopped_perform_stop f).trans ?_, fun hstopped more => run_of_stopped hstopped more⟩
  cases calls with
  | nil => exact ⟨fun h => h.elim nofun .inr, fun h => h.elim (fun hne => absurd rfl hne) .inr⟩
  | cons c rest =>
    have hstarted : f.started = true := started_run (started_perform (f := fresh s) nofun c) rest
    rw [start_of_started hstarted]
    exact ⟨fun _ => .inl (List.cons_ne_nil c rest), fun _ => .inr rfl⟩

/-- A sink that refuses its first write: the stop fails, the appender is not stopped,
and the event that follows is written. -/
theorem stop_fails_on_refusal :
    let s : ScriptedSink := ⟨[], [.refuse], []⟩
    let layout : Option Layout := some
      ⟨fun e => e.message.getD "", some [0x3C], some [0x3E], .usAscii, "text/plain"⟩
    let e := Event.create "main" 0 "" .info "on"
    let stop := (fresh s).perform "log" layout .stop
    stop.2 = .failed (.appender "log" ScriptedSink.writeRefusal) ∧ stop.1.stopped = false ∧
      (stop.1.perform "log" layout (.write e)).2 = .done () ∧
      (stop.1.perform "log" layout (.write e)).1.bytes = stop.1.bytes ++ Layout.render layout e ∧
      Layout.render layout e ≠ [] := by
  intro s layout e stop
  have hanswer : (Sink.writeAll s (header layout)).2 = .failed ScriptedSink.writeRefusal := by
    decide +kernel
  have hstart : ((fresh s).start "log" layout).2 =
      .failed (.appender "log" ScriptedSink.writeRefusal) := by
    rw [start_of_not_started rfl]
    exact congrArg (blame "log") hanswer
  have hstop : stop = (fresh s).start "log" layout :=
    perform_of_start_ne_done rfl .stop (by rw [hstart]; nofun)
  have hopen : stop.1.stopped = false := by decide +kernel
  refine ⟨by rw [hstop, hstart], hopen, ?_, by decide +kernel, by decide +kernel⟩
  have hstarted : stop.1.start "log" layout = (stop.1, .done ()) :=
    start_of_started (started_perform (f := fresh s) nofun .stop)
  rw [perform_of_start_done hopen (.write e) (by rw [hstarted])]
  exact blame_eq_done.2 (by decide +kernel)

/-! ## What the calls add -/

variable [LawfulSink S]

/-- With the header behind it, a call adds an initial part of its own piece. -/
theorem exists_part {f : Frame S} (h : f.started = true) (name : String) (c : Call) :
    ∃ part, part <+: c.piece layout ∧ (f.perform name layout c).1.bytes = f.bytes ++ part := by
  cases hstopped : f.stopped with
  | true =>
    rw [perform_of_stopped hstopped]
    exact ⟨[], List.nil_prefix, (List.append_nil _).symm⟩
  | false =>
    obtain ⟨head, row, hmade⟩ := exists_performed (f := f.watched) name layout hstopped c
    have halone : f.perform name layout c = _ := hmade.alone
    have hbytes := hmade.bytes
    rw [hmade.unasked h, Row.none, List.append_nil] at hbytes
    rw [halone]
    refine ⟨row.taken, ?_, hbytes⟩
    obtain ⟨-, hrow, -⟩ | ⟨-, hrow, -⟩ := hmade.ended
    · exact hrow.isPrefix_taken
    · rw [hrow]
      exact List.nil_prefix

theorem exists_parts {f : Frame S} (h : f.started = true) (name : String) (calls : List Call) :
    ∃ parts : List Bytes, List.Forall₂ (fun part c => part <+: c.piece layout) parts calls ∧
      (f.run name layout calls).1.bytes = f.bytes ++ parts.flatten := by
  induction calls generalizing f with
  | nil => exact ⟨[], .nil, (List.append_nil _).symm⟩
  | cons c rest ih =>
    obtain ⟨part, hpart, hbytes⟩ := exists_part h name c
    obtain ⟨parts, hparts, hrest⟩ := ih (started_perform (fun _ => h) c)
    refine ⟨part :: parts, .cons hpart hparts, ?_⟩
    rw [List.flatten_cons, ← List.append_assoc, ← hbytes]
    exact hrest

/-- The sink takes an initial part of the header, and all of it if nothing fails. -/
theorem exists_opening (name : String) (layout : Option Layout) (s : S) :
    ∃ part, part <+: header layout ∧
      ((fresh s).start name layout).1.bytes = Sink.bytes s ++ part ∧
      (((fresh s).start name layout).2 = .done () → part = header layout) := by
  obtain ⟨row, sink, -, hrow, -, halone, hbytes⟩ :=
    exists_start name layout (fresh (Watched.fresh s))
  have hstart : (fresh s).start name layout = _ := halone
  rw [hstart]
  refine ⟨row.taken, (hrow rfl).isPrefix_taken, hbytes, fun hdone => ?_⟩
  exact (hrow rfl).taken_eq (blame_eq_done.1 hdone)

/-- If the first call gets the header written, the whole header leads the output, and
behind it stands an initial part of the piece of each call. If the header fails, a part
of it leads the output for good: the first call adds nothing else, and each later call an
initial part of its own piece. -/
theorem header_leads_or_is_lost (name : String) (layout : Option Layout) (s : S) (c : Call)
    (rest : List Call) :
    let opening := (fresh s).start name layout
    let f := ((fresh s).run name layout (c :: rest)).1
    (opening.2 = .done () → ∃ parts : List Bytes,
      List.Forall₂ (fun part c => part <+: c.piece layout) parts (c :: rest) ∧
      f.bytes = Sink.bytes s ++ header layout ++ parts.flatten) ∧
    (opening.2 ≠ .done () → ∃ (lost : Bytes) (parts : List Bytes), lost <+: header layout ∧
      List.Forall₂ (fun part c => part <+: c.piece layout) parts rest ∧
      f.bytes = Sink.bytes s ++ lost ++ parts.flatten) := by
  intro opening f
  obtain ⟨lost, hlost, hopening, hwhole⟩ := exists_opening name layout s
  have hstarted : opening.1.started = true := started_start name layout (fresh s)
  refine ⟨fun hdone => ?_, fun hfailed => ?_⟩
  · have hf : f = (opening.1.run name layout (c :: rest)).1 := by
      have hfirst : opening.1.perform name layout c = (fresh s).perform name layout c :=
        perform_start rfl hdone c
      simp only [f, Frame.run, hfirst]
    obtain ⟨parts, hparts, hbytes⟩ := exists_parts hstarted name (c :: rest)
    exact ⟨parts, hparts, by rw [hf, hbytes, hopening, hwhole hdone]⟩
  · have hf : f = (opening.1.run name layout rest).1 := by
      have hfirst : (fresh s).perform name layout c = opening :=
        perform_of_start_ne_done rfl c hfailed
      simp only [f, Frame.run, hfirst]
    obtain ⟨parts, hparts, hbytes⟩ := exists_parts hstarted name rest
    exact ⟨lost, parts, hlost, hparts, by rw [hf, hbytes, hopening]⟩

/-- A sink that refuses the second byte of the header keeps the first one, and the
footer goes behind it. -/
theorem header_leads_or_is_lost_cut :
    let s : ScriptedSink := ⟨[], [.atMost 1, .refuse], []⟩
    let layout : Option Layout := some
      ⟨fun e => e.message.getD "", some [0x3C, 0x21], some [0x3E], .usAscii, "text/plain"⟩
    let e := Event.create "main" 0 "" .info "on"
    ((fresh s).start "log" layout).2 ≠ .done () ∧
      ((fresh s).run "log" layout [.write e, .stop]).1.bytes = [0x3C, 0x3E] ∧
      ∃ (lost : Bytes) (parts : List Bytes), lost <+: header layout ∧
        List.Forall₂ (fun part c => part <+: c.piece layout) parts [Call.stop] ∧
        ((fresh s).run "log" layout [.write e, .stop]).1.bytes = lost ++ parts.flatten := by
  intro s layout e
  have hfailed : ((fresh s).start "log" layout).2 ≠ .done () := by
    rw [start_of_not_started rfl, Ne, blame_eq_done]
    decide +kernel
  exact ⟨hfailed, by decide +kernel,
    (header_leads_or_is_lost "log" layout s (.write e) [.stop]).2 hfailed⟩

/-- A sink that refuses its first write and nothing else gets an event and a footer
without the header they belong behind. -/
theorem header_lost_on_refusal :
    let s : ScriptedSink := ⟨[], [.refuse], []⟩
    let layout : Option Layout := some
      ⟨fun e => e.message.getD "", some [0x3C], some [0x3E], .usAscii, "text/plain"⟩
    let e := Event.create "main" 0 "" .info "on"
    let f := ((fresh s).run "log" layout [.write e, .write e, .stop]).1
    f.bytes = Layout.render layout e ++ footer layout ∧ header layout = [0x3C] ∧
      ¬ header layout <+: f.bytes := by
  intro s layout e f
  have hbytes : f.bytes = [0x6F, 0x6E, 0x3E] := by decide +kernel
  have hpieces : Layout.render layout e ++ footer layout = [0x6F, 0x6E, 0x3E] := by decide +kernel
  refine ⟨hbytes.trans hpieces.symm, rfl, ?_⟩
  rw [hbytes]
  decide +kernel

end Frame
end LoggingFacade
