import LoggingFacade.Appender.Frame
import LoggingFacade.Proofs.Sink.Watched
import Mathlib.Data.List.Forall2

/-!
# The order of framed output

Whatever its sink does, a frame writes in one order: the header, the events, the
footer. Each of these is tried once, and what the sink has of it is an initial part;
a fault leaves a gap, and the frame goes on behind it. With the footer tried, nothing
is asked of the sink again. If nothing goes wrong, there are no gaps.
-/

namespace LoggingFacade

open Text (Bytes)

namespace Frame

variable {S : Type}

/-- The bytes of the header; without one, none. -/
def header (layout : Option Layout) : Bytes := (Layout.headerBytes layout).getD []

/-- The bytes of the footer; without one, none. -/
def footer (layout : Option Layout) : Bytes := (Layout.footerBytes layout).getD []

/-- What is asked of a frame. -/
inductive Call where
  | write (e : Event)
  | stop

namespace Call

/-- What the call itself is to write. -/
def piece (layout : Option Layout) : Call → Bytes
  | write e => Layout.render layout e
  | stop => footer layout

def isStop : Call → Bool
  | write _ => false
  | stop => true

/-- The events written before the first stop. -/
def written : List Call → List Event
  | write e :: rest => e :: written rest
  | _ => []

end Call

/-- The same frame, on the sink that is watched. -/
def alone (f : Frame (Watched S)) : Frame S := ⟨f.sink.sink, f.started, f.stopped⟩

section Running

variable [Sink S] (name : String) (layout : Option Layout)

def perform (f : Frame S) : Call → Frame S × Attempt Unit
  | .write e => f.writeEvent name layout e
  | .stop => f.stop name layout

/-- Performs calls in order, whatever comes of each. -/
def run (f : Frame S) : List Call → Frame S × List (Attempt Unit)
  | [] => (f, [])
  | c :: rest =>
    let (g, attempt) := f.perform name layout c
    let (last, attempts) := g.run rest
    (last, attempt :: attempts)

/-- The event of a call, if the call gets to writing it. -/
def reachedBy (f : Frame S) : Call → List Event
  | .stop => []
  | .write e =>
    if f.stopped then []
    else
      match (f.start name layout).2 with
      | .done () => [e]
      | _ => []

/-- The events that calls get to writing, in order. -/
def reached (f : Frame S) : List Call → List Event
  | [] => []
  | c :: rest => f.reachedBy name layout c ++ (f.perform name layout c).1.reached rest

end Running

/-- What a call that succeeds adds to the output. -/
def due (f : Frame S) (layout : Option Layout) (c : Call) : Bytes :=
  if f.stopped then [] else (if f.started then [] else header layout) ++ c.piece layout

/-- What a stopped frame answers. -/
def refusal (name : String) : Call → Attempt Unit
  | .write _ => .failed (.appender name isStopped)
  | .stop => .done ()

/-! ## One call -/

section Step

variable [Sink S] {name : String} {layout : Option Layout}

theorem blame_eq_done {answer : Answer Unit} :
    blame name answer = .done () ↔ answer = .done () := by
  cases answer with
  | done value => exact ⟨fun _ => rfl, fun _ => rfl⟩
  | failed reason => exact ⟨nofun, nofun⟩
  | crashed => exact ⟨nofun, nofun⟩

theorem perform_of_stopped {f : Frame S} (h : f.stopped = true) (c : Call) :
    f.perform name layout c = (f, refusal name c) := by
  cases c with
  | write e => rw [perform, writeEvent, if_pos h, refusal]
  | stop => rw [perform, stop, if_pos h, refusal]

theorem reachedBy_of_stopped {f : Frame S} (h : f.stopped = true) (c : Call) :
    f.reachedBy name layout c = [] := by
  cases c with
  | write e => exact if_pos h
  | stop => rfl

theorem reachedBy_write {f : Frame S} (h : f.stopped = false) (e : Event) {answer : Answer Unit}
    (hstart : (f.start name layout).2 = blame name answer) :
    f.reachedBy name layout (.write e) = if answer = .done () then [e] else [] := by
  rw [reachedBy, h, hstart]
  cases answer <;> rfl

theorem start_of_started {f : Frame S} (h : f.started = true) :
    f.start name layout = (f, .done ()) := if_pos h

theorem start_of_not_started {f : Frame S} (h : f.started = false) :
    f.start name layout =
      (⟨(Sink.writeAll f.sink (header layout)).1, true, f.stopped⟩,
        blame name (Sink.writeAll f.sink (header layout)).2) := by
  unfold start
  rw [if_neg (by rw [h]; exact Bool.false_ne_true)]
  rfl

theorem started_start (name : String) (layout : Option Layout) (f : Frame S) :
    (f.start name layout).1.started = true := by
  cases h : f.started with
  | true =>
    rw [start_of_started h]
    exact h
  | false => rw [start_of_not_started h]

theorem stopped_start (name : String) (layout : Option Layout) (f : Frame S) :
    (f.start name layout).1.stopped = f.stopped := by
  cases h : f.started with
  | true => rw [start_of_started h]
  | false => rw [start_of_not_started h]

/-- Where the header is in place or failed before, the call's own piece is tried. -/
theorem perform_of_start_done {f : Frame S} (h : f.stopped = false) (c : Call)
    (hstart : (f.start name layout).2 = .done ()) :
    let g := (f.start name layout).1
    let result := Sink.writeFlushed g.sink (c.piece layout)
    f.perform name layout c = (⟨result.1, true, c.isStop⟩, blame name result.2) := by
  have hstarted := started_start name layout f
  have hstopped := stopped_start name layout f
  cases hf : f.start name layout with
  | mk g attempt =>
    rw [hf] at hstart hstarted hstopped
    obtain ⟨sink, started, stopped⟩ := g
    dsimp only at hstart hstarted hstopped ⊢
    subst hstarted hstopped
    cases c with
    | write e => simp [perform, writeEvent, h, hf, hstart, Call.piece, Call.isStop]
    | stop => simp [perform, stop, h, hf, hstart, Call.piece, Call.isStop, footer]

theorem perform_of_start_ne_done {f : Frame S} (h : f.stopped = false) (c : Call)
    (hstart : (f.start name layout).2 ≠ .done ()) :
    f.perform name layout c = f.start name layout := by
  cases hf : f.start name layout with
  | mk g attempt =>
    rw [hf] at hstart
    cases attempt with
    | done value => contradiction
    | failed e => cases c <;> simp [perform, writeEvent, stop, h, hf]
    | crashed => cases c <;> simp [perform, writeEvent, stop, h, hf]

end Step

/-! ## What the sink is asked for -/

section Watched

variable [Sink S] [LawfulSink S] {name : String} {layout : Option Layout}

/-- The header is tried where the frame was not started, and nothing else is done. -/
theorem exists_start (name : String) (layout : Option Layout) (f : Frame (Watched S)) :
    ∃ (row : Row) (sink : S),
      (f.started = true → row = .none) ∧ (f.started = false → row.Offers (header layout)) ∧
      f.start name layout = (⟨⟨sink, f.sink.calls ++ row.calls⟩, true, f.stopped⟩,
        blame name row.answer) ∧
      f.alone.start name layout = (⟨sink, true, f.stopped⟩, blame name row.answer) ∧
      Sink.bytes sink = f.bytes ++ row.taken := by
  cases h : f.started with
  | true =>
    refine ⟨.none, f.sink.sink, fun _ => rfl, fun hfresh => by contradiction, ?_, ?_,
      (List.append_nil _).symm⟩
    · rw [start_of_started h, Row.none, List.append_nil, ← h]
      rfl
    · rw [start_of_started (f := f.alone) h, ← h]
      rfl
  | false =>
    obtain ⟨row, hrow, hwatched, halone, hbytes⟩ := f.sink.exists_offers (header layout)
    refine ⟨row, (Sink.writeAll f.sink.sink (header layout)).1, fun hstarted => by contradiction,
      fun _ => hrow, ?_, ?_, hbytes⟩
    · rw [start_of_not_started h, hwatched]
    · rw [start_of_not_started (f := f.alone) h, ← halone]
      rfl

/-- What a call that is not refused comes to, in two rows: the header, if it is not
in place, and behind it the call's own piece, unless the header failed. -/
structure Performed (name : String) (layout : Option Layout) (f : Frame (Watched S)) (c : Call)
    (head row : Row) : Prop where
  unasked : f.started = true → head = .none
  asked : f.started = false → head.Offers (header layout)
  header : (f.start name layout).2 = blame name head.answer
  calls : (f.perform name layout c).1.sink.calls = f.sink.calls ++ head.calls ++ row.calls
  bytes : (f.perform name layout c).1.bytes = f.bytes ++ head.taken ++ row.taken
  started : (f.perform name layout c).1.started = true
  alone : f.alone.perform name layout c =
    ((f.perform name layout c).1.alone, (f.perform name layout c).2)
  ended :
    head.answer = .done () ∧ row.Tries (c.piece layout) ∧
        (f.perform name layout c).1.stopped = c.isStop ∧
        (f.perform name layout c).2 = blame name row.answer ∨
      head.answer ≠ .done () ∧ row = .none ∧ (f.perform name layout c).1.stopped = false ∧
        (f.perform name layout c).2 = blame name head.answer

theorem exists_performed (name : String) (layout : Option Layout) {f : Frame (Watched S)}
    (h : f.stopped = false) (c : Call) : ∃ head row, f.Performed name layout c head row := by
  obtain ⟨head, sink, hunasked, hasked, hstart, halone, hbytes⟩ := exists_start name layout f
  by_cases hdone : head.answer = .done ()
  · have hanswer : blame name head.answer = .done () := blame_eq_done.2 hdone
    obtain ⟨row, hrow, hwatched, hsame, hmore⟩ :=
      Watched.exists_tries ⟨sink, f.sink.calls ++ head.calls⟩ (c.piece layout)
    have hperform := perform_of_start_done h c (by rw [hstart, hanswer])
    have hperformalone := perform_of_start_done (f := f.alone) h c (by rw [halone, hanswer])
    rw [hstart] at hperform
    rw [halone] at hperformalone
    dsimp only at hperform hperformalone hsame
    rw [hwatched] at hperform
    rw [hsame] at hperformalone
    refine ⟨head, row, hunasked, hasked, by rw [hstart], ?_, ?_, ?_, ?_, ?_⟩ <;> rw [hperform]
    · exact hmore.trans (by rw [hbytes])
    · exact hperformalone
    · exact .inl ⟨hdone, hrow, rfl, rfl⟩
  · have hanswer : blame name head.answer ≠ .done () := fun h => hdone (blame_eq_done.1 h)
    have hperform := perform_of_start_ne_done h c (by rw [hstart]; exact hanswer)
    have hperformalone := perform_of_start_ne_done (f := f.alone) h c (by rw [halone]; exact hanswer)
    rw [hstart] at hperform
    rw [halone] at hperformalone
    refine ⟨head, .none, hunasked, hasked, by rw [hstart], ?_, ?_, ?_, ?_, ?_⟩ <;> rw [hperform]
    · exact (List.append_nil _).symm
    · exact hbytes.trans (List.append_nil _).symm
    · exact hperformalone
    · exact .inr ⟨hdone, rfl, h, rfl⟩

/-- A call does the same to a frame whether its sink is watched or not. -/
theorem perform_alone (f : Frame (Watched S)) (c : Call) :
    f.alone.perform name layout c =
      ((f.perform name layout c).1.alone, (f.perform name layout c).2) := by
  cases hstopped : f.stopped with
  | true => rw [perform_of_stopped hstopped, perform_of_stopped (f := f.alone) hstopped]
  | false =>
    obtain ⟨head, row, hmade⟩ := exists_performed name layout hstopped c
    exact hmade.alone

end Watched

/-! ## The order -/

section Order

variable [Sink S] {name : String} {layout : Option Layout}

/-- What a frame asked its sink for and what the sink took, by parts. -/
structure Output where
  opening : Row
  body : List Row
  closing : Row

def Output.calls (o : Output) : List SinkCall :=
  o.opening.calls ++ o.body.flatMap Row.calls ++ o.closing.calls

def Output.taken (o : Output) : Bytes :=
  o.opening.taken ++ o.body.flatMap Row.taken ++ o.closing.taken

/-- The frame has asked its sink for the header, for events in the given order and,
once it is stopped, for the footer; for each of them once, and for nothing else. -/
structure Framed (layout : Option Layout) (base : Bytes) (f : Frame (Watched S))
    (events : List Event) (o : Output) : Prop where
  calls : f.sink.calls = o.calls
  bytes : f.bytes = base ++ o.taken
  unopened : f.started = false → o.opening = .none ∧ events = [] ∧ f.stopped = false
  opened : f.started = true → o.opening.Offers (header layout)
  body : List.Forall₂ (fun e row => row.Tries (Layout.render layout e)) events o.body
  unclosed : f.stopped = false → o.closing = .none
  closed : f.stopped = true → o.closing.Tries (footer layout)

theorem framed_fresh (layout : Option Layout) (s : S) :
    Framed layout (Sink.bytes s) (fresh (Watched.fresh s)) [] ⟨.none, [], .none⟩ where
  calls := rfl
  bytes := (List.append_nil _).symm
  unopened _ := ⟨rfl, rfl, rfl⟩
  opened := nofun
  body := .nil
  unclosed _ := rfl
  closed := nofun

variable {base : Bytes} {f : Frame (Watched S)} {events : List Event} {o : Output}

theorem Framed.isPrefix_opening (h : Framed layout base f events o) :
    o.opening.taken <+: header layout := by
  cases hstarted : f.started with
  | true => exact (h.opened hstarted).isPrefix_taken
  | false =>
    rw [(h.unopened hstarted).1]
    exact List.nil_prefix

theorem Framed.isPrefix_body (h : Framed layout base f events o) :
    List.Forall₂ (fun e row => row.taken <+: Layout.render layout e) events o.body :=
  h.body.imp fun _ _ hrow => hrow.isPrefix_taken

theorem Framed.isPrefix_closing (h : Framed layout base f events o) :
    o.closing.taken <+: footer layout := by
  cases hstopped : f.stopped with
  | true => exact (h.closed hstopped).isPrefix_taken
  | false =>
    rw [h.unclosed hstopped]
    exact List.nil_prefix

/-- With the header of a call, if it tries one, the opening is in place. -/
theorem Framed.exists_opening (h : Framed layout base f events o) (hstopped : f.stopped = false)
    {c : Call} {head row : Row} (hmade : f.Performed name layout c head row) :
    ∃ opening : Row, opening.Offers (header layout) ∧
      f.sink.calls ++ head.calls = opening.calls ++ o.body.flatMap Row.calls ∧
      f.bytes ++ head.taken = base ++ (opening.taken ++ o.body.flatMap Row.taken) := by
  have hcalls := h.calls
  have hbytes := h.bytes
  rw [Output.calls, h.unclosed hstopped] at hcalls
  rw [Output.taken, h.unclosed hstopped] at hbytes
  cases hstarted : f.started with
  | true =>
    refine ⟨o.opening, h.opened hstarted, ?_, ?_⟩
    · rw [hmade.unasked hstarted, hcalls]
      simp [Row.none]
    · rw [hmade.unasked hstarted, hbytes]
      simp [Row.none]
  | false =>
    obtain ⟨hunasked, hevents, -⟩ := h.unopened hstarted
    have hbody := h.body
    rw [hevents, List.forall₂_nil_left_iff] at hbody
    rw [hunasked, hbody] at hcalls hbytes
    refine ⟨head, hmade.asked hstarted, ?_, ?_⟩
    · rw [hcalls, hbody]
      simp [Row.none]
    · rw [hbytes, hbody]
      simp [Row.none]

/-- What came of the call's own piece goes to the body or to the closing. -/
theorem Framed.exists_framed (h : Framed layout base f events o) (hstopped : f.stopped = false)
    {c : Call} {head row : Row} (hmade : f.Performed name layout c head row) :
    ∃ opening : Row, ∀ (later : List Event) (body : List Row) (closing : Row),
      body.flatMap Row.calls ++ closing.calls = o.body.flatMap Row.calls ++ row.calls →
      body.flatMap Row.taken ++ closing.taken = o.body.flatMap Row.taken ++ row.taken →
      List.Forall₂ (fun e row => row.Tries (Layout.render layout e)) later body →
      ((f.perform name layout c).1.stopped = false → closing = .none) →
      ((f.perform name layout c).1.stopped = true → closing.Tries (footer layout)) →
      Framed layout base (f.perform name layout c).1 later ⟨opening, body, closing⟩ := by
  obtain ⟨opening, hopening, hcalls, hbytes⟩ := h.exists_opening hstopped hmade
  refine ⟨opening, fun later body closing hrowcalls hrowtaken hbody hunclosed hclosed => ?_⟩
  refine ⟨?_, ?_, ?_, fun _ => hopening, hbody, hunclosed, hclosed⟩
  · rw [hmade.calls, hcalls, Output.calls, List.append_assoc, ← hrowcalls, List.append_assoc]
  · rw [hmade.bytes, hbytes, Output.taken, List.append_assoc, List.append_assoc, ← hrowtaken,
      List.append_assoc]
  · intro hfresh
    rw [hmade.started] at hfresh
    contradiction

/-- One call keeps the order, and adds the event that it gets to writing. -/
theorem Framed.perform [LawfulSink S] (h : Framed layout base f events o) (name : String)
    (c : Call) :
    ∃ p, Framed layout base (f.perform name layout c).1
      (events ++ f.reachedBy name layout c) p := by
  cases hstopped : f.stopped with
  | true =>
    rw [perform_of_stopped hstopped, reachedBy_of_stopped hstopped, List.append_nil]
    exact ⟨o, h⟩
  | false =>
    obtain ⟨head, row, hmade⟩ := exists_performed name layout hstopped c
    obtain ⟨opening, hframed⟩ := h.exists_framed hstopped hmade
    obtain ⟨hdone, hrow, hends, -⟩ | ⟨hfailed, hrow, hopen, -⟩ := hmade.ended
    · cases c with
      | write e =>
        rw [reachedBy_write hstopped e hmade.header, if_pos hdone]
        refine ⟨_, hframed _ (o.body ++ [row]) .none ?_ ?_ ?_ (fun _ => rfl) ?_⟩
        · simp [Row.none]
        · simp [Row.none]
        · exact List.rel_append h.body (.cons hrow .nil)
        · intro hclosed
          rw [hends] at hclosed
          contradiction
      | stop =>
        rw [reachedBy, List.append_nil]
        refine ⟨_, hframed _ o.body row rfl rfl h.body ?_ fun _ => hrow⟩
        intro hopen
        rw [hends] at hopen
        contradiction
    · -- the header failed just now, so the call's own piece is not tried
      have hnone : f.reachedBy name layout c = [] := by
        cases c with
        | write e => rw [reachedBy_write hstopped e hmade.header, if_neg hfailed]
        | stop => rfl
      rw [hnone, List.append_nil]
      refine ⟨_, hframed _ o.body .none (by rw [hrow]) (by rw [hrow]) h.body (fun _ => rfl) ?_⟩
      intro hclosed
      rw [hopen] at hclosed
      contradiction

/-- A run of calls keeps the order. -/
theorem Framed.run [LawfulSink S] (h : Framed layout base f events o) (name : String)
    (calls : List Call) :
    ∃ p, Framed layout base (f.run name layout calls).1
      (events ++ f.reached name layout calls) p := by
  induction calls generalizing f events o with
  | nil =>
    rw [reached, List.append_nil]
    exact ⟨o, h⟩
  | cons c rest ih =>
    obtain ⟨p, hp⟩ := h.perform name c
    rw [reached, ← List.append_assoc]
    exact ih hp

theorem run_alone [LawfulSink S] (f : Frame (Watched S)) (calls : List Call) :
    f.alone.run name layout calls =
      ((f.run name layout calls).1.alone, (f.run name layout calls).2) := by
  induction calls generalizing f with
  | nil => rfl
  | cons c rest ih => simp only [Frame.run, perform_alone, ih]

theorem reached_alone [LawfulSink S] (f : Frame (Watched S)) (calls : List Call) :
    f.alone.reached name layout calls = f.reached name layout calls := by
  induction calls generalizing f with
  | nil => rfl
  | cons c rest ih =>
    obtain ⟨row, sink, -, -, hstart, halone, -⟩ := exists_start name layout f
    have hfirst : f.alone.reachedBy name layout c = f.reachedBy name layout c := by
      cases c with
      | write e =>
        rw [reachedBy, reachedBy, hstart, halone]
        rfl
      | stop => rfl
    rw [reached, reached, hfirst, perform_alone, ih]

theorem run_of_stopped {f : Frame S} (h : f.stopped = true) (calls : List Call) :
    f.run name layout calls = (f, calls.map (refusal name)) := by
  induction calls with
  | nil => rfl
  | cons c rest ih => simp only [Frame.run, perform_of_stopped h, ih, List.map_cons]

end Order

/-! ## Without faults -/

section Faultless

variable [Sink S] [LawfulSink S] {name : String} {layout : Option Layout} {f : Frame (Watched S)}

/-- A call that succeeds leaves no gap. -/
theorem bytes_perform_of_done {c : Call} (hdone : (f.perform name layout c).2 = .done ()) :
    (f.perform name layout c).1.bytes = f.bytes ++ f.due layout c := by
  cases hstopped : f.stopped with
  | true => rw [perform_of_stopped hstopped, due, if_pos hstopped, List.append_nil]
  | false =>
    obtain ⟨head, row, hmade⟩ := exists_performed name layout hstopped c
    obtain ⟨hhead, hrow, -, hanswer⟩ | ⟨hfailed, -, -, hanswer⟩ := hmade.ended
    · have hpiece : row.taken = c.piece layout :=
        hrow.taken_eq (blame_eq_done.1 (hanswer ▸ hdone))
      have hheader : head.taken = if f.started then [] else header layout := by
        cases hstarted : f.started with
        | true =>
          rw [hmade.unasked hstarted]
          rfl
        | false => exact (hmade.asked hstarted).taken_eq hhead
      rw [hmade.bytes, hpiece, hheader, List.append_assoc, due, hstopped]
      rfl
    · exact absurd (blame_eq_done.1 (hanswer ▸ hdone)) hfailed

theorem isPrefix_calls_perform (f : Frame (Watched S)) (c : Call) :
    f.sink.calls <+: (f.perform name layout c).1.sink.calls := by
  cases hstopped : f.stopped with
  | true =>
    refine ⟨[], ?_⟩
    rw [perform_of_stopped hstopped, List.append_nil]
  | false =>
    obtain ⟨head, row, hmade⟩ := exists_performed name layout hstopped c
    rw [hmade.calls, List.append_assoc]
    exact List.prefix_append _ _

theorem isPrefix_calls_run (f : Frame (Watched S)) (calls : List Call) :
    f.sink.calls <+: (f.run name layout calls).1.sink.calls := by
  induction calls generalizing f with
  | nil => exact List.prefix_refl _
  | cons c rest ih => exact (isPrefix_calls_perform f c).trans (ih _)

/-- If the sink never fails, the call succeeds. -/
theorem perform_of_succeeded (hopen : f.stopped = false) {c : Call}
    (hcalls : ∀ call ∈ (f.perform name layout c).1.sink.calls, call.Succeeded) :
    (f.perform name layout c).2 = .done () ∧ (f.perform name layout c).1.started = true ∧
      (f.perform name layout c).1.stopped = c.isStop := by
  obtain ⟨head, row, hmade⟩ := exists_performed name layout hopen c
  rw [hmade.calls] at hcalls
  have hhead : head.answer = .done () := by
    cases hstarted : f.started with
    | true =>
      rw [hmade.unasked hstarted]
      rfl
    | false =>
      refine (hmade.asked hstarted).answer_eq fun call hcall => hcalls call ?_
      exact List.mem_append_left _ (List.mem_append_right _ hcall)
  obtain ⟨-, hrow, hends, hanswer⟩ | ⟨hfailed, -⟩ := hmade.ended
  · have hdone := hrow.answer_eq fun call hcall => hcalls call (List.mem_append_right _ hcall)
    exact ⟨hanswer.trans (blame_eq_done.2 hdone), hmade.started, hends⟩
  · exact absurd hhead hfailed

/-- The events before the first stop, and the footer if there is one. -/
def Call.output (layout : Option Layout) (calls : List Call) : Bytes :=
  (written calls).flatMap (Layout.render layout) ++
    if calls.any isStop then footer layout else []

theorem Call.output_cons (layout : Option Layout) (c : Call) (rest : List Call) :
    output layout (c :: rest) =
      c.piece layout ++ if c.isStop then [] else output layout rest := by
  cases c with
  | write e =>
    rw [output, written, List.flatMap_cons, List.append_assoc]
    rfl
  | stop => exact (List.append_nil _).symm

/-- If the sink never fails, calls leave no gap at all. -/
theorem run_of_succeeded (hopen : f.stopped = false) {calls : List Call}
    (hcalls : ∀ call ∈ (f.run name layout calls).1.sink.calls, call.Succeeded) :
    (f.run name layout calls).1.stopped = calls.any Call.isStop ∧
      (f.run name layout calls).1.bytes = f.bytes ++
        if calls = [] then [] else (if f.started then [] else header layout) ++
          Call.output layout calls := by
  induction calls generalizing f with
  | nil => exact ⟨hopen, (List.append_nil _).symm⟩
  | cons c rest ih =>
    have hfirst : ∀ call ∈ (f.perform name layout c).1.sink.calls, call.Succeeded := by
      intro call hcall
      exact hcalls call ((isPrefix_calls_run _ rest).subset hcall)
    obtain ⟨hdone, hstarted, hstopped⟩ := perform_of_succeeded hopen hfirst
    have hbytes := bytes_perform_of_done hdone
    rw [due, hopen] at hbytes
    rw [if_neg (List.cons_ne_nil c rest), List.any_cons, Call.output_cons]
    change (run name layout (f.perform name layout c).1 rest).1.stopped = _ ∧
      (run name layout (f.perform name layout c).1 rest).1.bytes = _
    cases hstop : c.isStop with
    | true =>
      rw [run_of_stopped (hstopped.trans hstop)]
      refine ⟨hstopped.trans hstop, ?_⟩
      rw [hbytes]
      simp
    | false =>
      obtain ⟨hends, hrest⟩ := ih (hstopped.trans hstop) hcalls
      refine ⟨hends, ?_⟩
      rw [hrest, hbytes, hstarted]
      cases rest with
      | nil => simp [Call.output, Call.written]
      | cons next later => simp

end Faultless

/-- Whatever the sink does and whatever is asked of the frame, the sink has an
initial part of the header, behind it an initial part of each event that was got
to, in their order, and at last one of the footer; each of them was tried once, and
nothing was asked of the sink after the footer. A call that succeeds leaves its own
output complete. A frame that is stopped stays as it is and refuses events. If the
sink never fails, its bytes are the header, the events before the first stop, and
the footer if the frame is stopped. -/
theorem run_keeps_order [Sink S] [LawfulSink S] (name : String) (layout : Option Layout) (s : S)
    (calls : List Call) :
    let f := ((fresh s).run name layout calls).1
    let watched := ((fresh (Watched.fresh s)).run name layout calls).1
    let events := (fresh s).reached name layout calls
    f = watched.alone ∧
    (∃ o : Output, Framed layout (Sink.bytes s) watched events o ∧
      o.opening.taken <+: header layout ∧ (calls = [] → o.opening.taken = []) ∧
      List.Forall₂ (fun e row => row.taken <+: Layout.render layout e) events o.body ∧
      o.closing.taken <+: footer layout) ∧
    (∀ c, (f.perform name layout c).2 = .done () →
      (f.perform name layout c).1.bytes = f.bytes ++ f.due layout c) ∧
    (f.stopped = true → ∀ more, f.run name layout more = (f, more.map (refusal name))) ∧
    ((∀ call ∈ watched.sink.calls, call.Succeeded) → f.stopped = calls.any Call.isStop ∧
      f.bytes = Sink.bytes s ++ if calls = [] then [] else
        header layout ++ (Call.written calls).flatMap (Layout.render layout) ++
          if f.stopped then footer layout else []) := by
  intro f watched events
  have halone : f = watched.alone :=
    congrArg Prod.fst (run_alone (fresh (Watched.fresh s)) calls)
  have hevents : events = (fresh (Watched.fresh s)).reached name layout calls :=
    reached_alone (fresh (Watched.fresh s)) calls
  refine ⟨halone, ?_, ?_, fun hstopped more => run_of_stopped hstopped more, ?_⟩
  · obtain ⟨o, ho⟩ := (framed_fresh layout s).run name calls
    rw [List.nil_append, ← hevents] at ho
    refine ⟨o, ho, ho.isPrefix_opening, ?_, ho.isPrefix_body, ho.isPrefix_closing⟩
    rintro rfl
    rw [(ho.unopened rfl).1]
    rfl
  · intro c hdone
    rw [halone, perform_alone] at hdone ⊢
    exact bytes_perform_of_done hdone
  · intro hcalls
    obtain ⟨hstopped, hbytes⟩ := run_of_succeeded (f := fresh (Watched.fresh s)) rfl hcalls
    rw [halone]
    refine ⟨hstopped, ?_⟩
    rw [show watched.alone.stopped = _ from hstopped, List.append_assoc]
    exact hbytes

/-- A sink that takes the header byte by byte, refuses the second half of an event
and fails to flush behind the footer. -/
theorem run_keeps_order_faulty :
    let s : ScriptedSink := ⟨[], [.atMost 1, .atMost 1, .atMost 1, .refuse], [.refuse]⟩
    let layout : Option Layout := some
      ⟨fun e => e.message.getD "", some [0x3C, 0x3C], some [0x3E], .usAscii, "text/plain"⟩
    let e := Event.create "main" 0 "" .info "on"
    let f := ((fresh s).run "log" layout [.write e, .stop]).1
    f.bytes = [0x3C, 0x3C, 0x6F, 0x3E] ∧
      f.run "log" layout [.write e, .stop] =
        (f, [.failed (.appender "log" isStopped), .done ()]) := by
  intro s layout e f
  have hbytes : f.bytes = [0x3C, 0x3C, 0x6F, 0x3E] := by decide +kernel
  have hstopped : f.stopped = true := by decide +kernel
  obtain ⟨-, -, -, hstays, -⟩ := run_keeps_order "log" layout s [.write e, .stop]
  exact ⟨hbytes, hstays hstopped [.write e, .stop]⟩

end Frame
end LoggingFacade
