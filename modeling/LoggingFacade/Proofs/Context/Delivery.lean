import LoggingFacade.Proofs.Appender.Framing
import LoggingFacade.Proofs.Appender.Replacement
import LoggingFacade.Proofs.Appender.Separate
import LoggingFacade.Proofs.Context.Routing

/-!
# Delivery through a context

A context is given maps of appenders, asked for loggers and logged to through them,
one request after the other. The history of such a session are the maps that were
published and the events that passed the threshold, in order. From it alone follows
what each appender holds: the events logged while it was in the map in force, each
once, behind the header and, once a new map dropped it, before the footer.
-/

namespace LoggingFacade

open Appender (Apart)

namespace Session

/-- When and on which thread something is done. -/
structure Moment where
  now : Int
  thread : String

def Moment.enter (m : Moment) (w : World) : World := { w with now := m.now, thread := m.thread }

/-- What is asked of a context. A logger is known by its place among those that the
context has given out in the session. -/
inductive Request where
  | configure (next : AppenderMap)
  | logger (name : String) (format : Option MessageFormat)
  | log (place : Nat) (level : Level) (message : String)
  | logArguments (place : Nat) (level : Level) (pattern : String) (arguments : List String)
  | logEvent (place : Nat) (e : Event)

/-- What a session has done that concerns its appenders. -/
inductive Entry where
  | published (m : AppenderMap)
  | logged (e : Event)

end Session

structure Session where
  world : World
  loggers : List Logger
  history : List Session.Entry

namespace Session
namespace Request

/-- Uses one of the loggers given out. -/
def through (loggers : List Logger) (place : Nat) (act : Logger → Traced World Unit) :
    Traced World (List Logger) := do
  match loggers[place]? with
  | some l => act l
  | none => pure ()
  return loggers

/-- Does what is asked; the result are the loggers given out up to now. -/
def perform (c : Context) (loggers : List Logger) : Request → Traced World (List Logger)
  | configure next => do
    let _ ← c.configure next
    return loggers
  | logger name format => do
    let l ← c.logger name format
    return loggers ++ [l]
  | log place level message => through loggers place fun l => l.log level message
  | logArguments place level pattern arguments =>
    through loggers place fun l => l.logArguments level pattern arguments
  | logEvent place e => through loggers place fun l => l.logEvent e

/-- The event of a request to log. -/
def event? (loggers : List Logger) (m : Moment) : Request → Option Event
  | log place level message =>
    loggers[place]?.map fun l => .create m.thread m.now l.name level message
  | logArguments place level pattern arguments =>
    loggers[place]?.map fun l =>
      .create m.thread m.now l.name level (l.format.format pattern arguments)
  | logEvent place e => loggers[place]?.map fun _ => e
  | _ => none

/-- What a request adds to the history: a map, or an event that the threshold of the
context lets through. -/
def entries (c : Context) (loggers : List Logger) (m : Moment) : Request → List Entry
  | configure next => [.published next]
  | r => ((r.event? loggers m).filter fun e => e.level.isEnabledAt c.level).toList.map .logged

/-- The maps among some requests. -/
def configured (requests : List (Moment × Request)) : List AppenderMap :=
  requests.filterMap fun r =>
    match r.2 with
    | configure next => some next
    | _ => none

end Request

/-- Nothing was asked yet. -/
def begin (w : World) : Session := ⟨w, [], []⟩

def step (c : Context) (s : Session) (r : Moment × Request) : Session :=
  let o := (r.2.perform c s.loggers).run (r.1.enter s.world)
  ⟨o.state, o.value, s.history ++ r.2.entries c s.loggers r.1⟩

def run (c : Context) (s : Session) (requests : List (Moment × Request)) : Session :=
  requests.foldl (step c) s

/-! ## Histories -/

namespace Entry

/-- The map in force after a history that began with another one. -/
def inForce (m : AppenderMap) : List Entry → AppenderMap
  | [] => m
  | published next :: rest => inForce next rest
  | logged _ :: rest => inForce m rest

/-- The events that were logged while an appender was in the map in force. -/
def received (a : Appender) (m : AppenderMap) : List Entry → List Event
  | [] => []
  | published next :: rest => received a next rest
  | logged e :: rest => if m.holds a then e :: received a m rest else received a m rest

/-- A map without the appender came in place of one that had it. -/
def dropped (a : Appender) (m : AppenderMap) : List Entry → Bool
  | [] => false
  | published next :: rest => (m.holds a && !next.holds a) || dropped a next rest
  | logged _ :: rest => dropped a m rest

/-- The maps of a history. -/
def maps (history : List Entry) : List AppenderMap :=
  history.filterMap fun entry =>
    match entry with
    | published m => some m
    | logged _ => none

variable {a : Appender} {m : AppenderMap}

theorem inForce_append (m : AppenderMap) (h k : List Entry) :
    inForce m (h ++ k) = inForce (inForce m h) k := by
  induction h generalizing m with
  | nil => rfl
  | cons entry rest ih => cases entry <;> exact ih _

theorem received_append (a : Appender) (m : AppenderMap) (h k : List Entry) :
    received a m (h ++ k) = received a m h ++ received a (inForce m h) k := by
  induction h generalizing m with
  | nil => rfl
  | cons entry rest ih =>
    cases entry with
    | published next => exact ih next
    | logged e =>
      simp only [List.cons_append, received, inForce, ih]
      split <;> rfl

theorem dropped_append (a : Appender) (m : AppenderMap) (h k : List Entry) :
    dropped a m (h ++ k) = (dropped a m h || dropped a (inForce m h) k) := by
  induction h generalizing m with
  | nil => rfl
  | cons entry rest ih =>
    cases entry with
    | published next => simp only [List.cons_append, dropped, inForce, ih, Bool.or_assoc]
    | logged e => exact ih m

theorem maps_append (h k : List Entry) : maps (h ++ k) = maps h ++ maps k :=
  List.filterMap_append

theorem inForce_mem (m : AppenderMap) (h : List Entry) : inForce m h ∈ m :: maps h := by
  induction h generalizing m with
  | nil => exact List.mem_cons_self
  | cons entry rest ih =>
    cases entry with
    | published next => exact List.mem_cons_of_mem m (ih next)
    | logged e => exact ih m

end Entry
end Session

/-- An appender that one map has and a later one lacks is in no map after that. -/
def AppenderMap.DropForGood (maps : List AppenderMap) : Prop :=
  ∀ a m n k, [m, n, k].Sublist maps → m.holds a = true → n.holds a = false → k.holds a = false

namespace Session.Entry

variable {a : Appender} {m : AppenderMap} {history : List Entry}

theorem dropped_eq_false (hgood : AppenderMap.DropForGood (m :: maps history))
    (hholds : (inForce m history).holds a = true) : dropped a m history = false := by
  induction history generalizing m with
  | nil => rfl
  | cons entry rest ih =>
    cases entry with
    | logged e => exact ih hgood hholds
    | published next =>
      have hrest : dropped a next rest = false :=
        ih (fun a m n k hsub => hgood a m n k (hsub.cons _)) hholds
      rw [dropped, hrest, Bool.or_false]
      cases hm : m.holds a with
      | false => rfl
      | true =>
        cases hnext : next.holds a with
        | true => rfl
        | false =>
          -- the map in force is a later one, as it has the appender
          rcases List.mem_cons.1 (inForce_mem next rest) with hsame | hlater
          · rw [inForce, hsame, hnext] at hholds
            contradiction
          · have hsub := ((List.singleton_sublist.2 hlater).cons_cons next).cons_cons m
            have hlacks := hgood a m next _ hsub hm hnext
            rw [inForce, hlacks] at hholds
            contradiction

end Session.Entry

/-! ## What an appender holds -/

namespace Appender

open Session (Entry)
open Session.Entry

/-- The frame of an appender after a history, if its sink had the given bytes before. -/
def deliveredFrame (a : Appender) (base : Buffer) (history : List Entry) : Frame Buffer :=
  a.writtenFrame base (received a .empty history) (dropped a .empty history)

variable {a : Appender} {base : Buffer} {history : List Entry}

theorem appendedFrame_delivered (hgone : dropped a .empty history = false)
    (hholds : (inForce .empty history).holds a = true) (e : Event) :
    a.appendedFrame e (a.deliveredFrame base history) =
      a.deliveredFrame base (history ++ [.logged e]) := by
  have hevents : received a .empty (history ++ [.logged e]) = received a .empty history ++ [e] := by
    rw [received_append, received, if_pos hholds, received]
  have hstill : dropped a .empty (history ++ [.logged e]) = false := by
    rw [dropped_append, hgone]
    rfl
  rw [deliveredFrame, deliveredFrame, hevents, hstill, hgone, appendedFrame_written]

theorem deliveredFrame_logged (hlacks : (inForce .empty history).holds a = false) (e : Event) :
    a.deliveredFrame base (history ++ [.logged e]) = a.deliveredFrame base history := by
  have hevents : received a .empty (history ++ [.logged e]) = received a .empty history := by
    simp [received_append, received, hlacks]
  have hgone : dropped a .empty (history ++ [.logged e]) = dropped a .empty history := by
    simp [dropped_append, dropped]
  rw [deliveredFrame, deliveredFrame, hevents, hgone]

theorem received_published (a : Appender) (history : List Entry) (next : AppenderMap) :
    received a .empty (history ++ [.published next]) = received a .empty history := by
  simp [received_append, received]

theorem dropped_published (a : Appender) (history : List Entry) (next : AppenderMap) :
    dropped a .empty (history ++ [.published next]) =
      (dropped a .empty history || ((inForce .empty history).holds a && !next.holds a)) := by
  simp [dropped_append, dropped]

theorem stoppedFrame_delivered {next : AppenderMap} (hgone : dropped a .empty history = false)
    (hholds : (inForce .empty history).holds a = true) (hlacks : next.holds a = false) :
    a.stoppedFrame (a.deliveredFrame base history) =
      a.deliveredFrame base (history ++ [.published next]) := by
  have hdropped : dropped a .empty (history ++ [.published next]) = true := by
    simp [dropped_published, hholds, hlacks]
  rw [deliveredFrame, deliveredFrame, received_published, hdropped, hgone, stoppedFrame_written]

theorem deliveredFrame_published {next : AppenderMap}
    (hstays : ((inForce .empty history).holds a && !next.holds a) = false) :
    a.deliveredFrame base (history ++ [.published next]) = a.deliveredFrame base history := by
  rw [deliveredFrame, deliveredFrame, received_published, dropped_published, hstays,
    Bool.or_false]

end Appender

namespace AppenderMap.DropForGood

variable {maps : List AppenderMap}

theorem sublist {some : List AppenderMap} (h : DropForGood maps) (hsome : some.Sublist maps) :
    DropForGood some :=
  fun a m n k hsub => h a m n k (hsub.trans hsome)

/-- It takes three maps to bring an appender back. -/
theorem of_length (h : maps.length ≤ 2) : DropForGood maps := by
  intro a m n k hsub
  have hthree := hsub.length_le
  simp only [List.length_cons, List.length_nil] at hthree
  omega

theorem cons_empty (h : DropForGood maps) : DropForGood (.empty :: maps) := by
  intro a m n k hsub hm
  cases hsub with
  | cons _ hrest => exact h a m n k hrest hm
  | cons_cons _ hrest => contradiction

end AppenderMap.DropForGood

/-! ## Sessions -/

namespace Session

open AppenderMap (used Keyed DropForGood)
open Entry (inForce received dropped)

/-- The context has the map in force by the history and gave out loggers of its own,
and the appenders have the frames that follow from the history. -/
structure Sound (c : Context) (maps : List AppenderMap) (base : Nat → Buffer) (s : Session) :
    Prop where
  has : c.Has s.world (inForce .empty s.history)
  loggers : ∀ l ∈ s.loggers, l.context = c ∧ l.level = c.level
  frames : ∃ frames, Apart s.world (used maps) frames ∧
    ∀ a ∈ used maps, frames a.id = a.deliveredFrame (base a.id) s.history

variable {c : Context} {maps : List AppenderMap} {base : Nat → Buffer} {s : Session}

theorem Sound.enter (h : Sound c maps base s) (m : Moment) :
    Sound c maps base { s with world := m.enter s.world } := by
  obtain ⟨frames, hapart, hframes⟩ := h.frames
  refine ⟨h.has, h.loggers, frames, hapart.congr rfl fun target => ?_, hframes⟩
  cases target <;> rfl

/-- No appender of the map in force was dropped before. -/
theorem open_of_holds {a : Appender} (hgood : DropForGood maps)
    (hpublished : Entry.maps s.history <+: maps)
    (hholds : (inForce .empty s.history).holds a = true) : dropped a .empty s.history = false :=
  Entry.dropped_eq_false (hgood.sublist hpublished.sublist).cons_empty hholds

theorem inForce_mem_of_isPrefix (hpublished : Entry.maps s.history <+: maps) :
    inForce .empty s.history ∈ AppenderMap.empty :: maps := by
  rcases List.mem_cons.1 (Entry.inForce_mem .empty s.history) with hempty | hmem
  · rw [hempty]
    exact List.mem_cons_self
  · exact List.mem_cons_of_mem _ (hpublished.subset hmem)

theorem mem_used_of_inForce (hpublished : Entry.maps s.history <+: maps) :
    ∀ a ∈ (inForce .empty s.history).appenders, a ∈ used maps := by
  intro a ha
  have hall : a ∈ used (.empty :: maps) :=
    AppenderMap.mem_used.2 ⟨_, inForce_mem_of_isPrefix hpublished, ha⟩
  exact hall

/-- What becomes of the frames of an operation on some of the appenders, each once. -/
theorem reframed_eq (hkeyed : Keyed maps) {appenders : List Appender}
    (hdistinct : (appenders.map Appender.id).Nodup) (hused : ∀ b ∈ appenders, b ∈ used maps)
    {a : Appender} (ha : a ∈ used maps) {concerned : Bool} (hmem : a ∈ appenders ↔ concerned = true)
    (act : Appender → Frame Buffer → Frame Buffer) (frames : Nat → Frame Buffer) :
    Appender.reframed act appenders frames a.id =
      if concerned then act a (frames a.id) else frames a.id := by
  split
  · rename_i hconcerned
    exact Appender.reframed_of_mem hdistinct (hmem.2 hconcerned)
  · rename_i hspared
    exact Appender.reframed_of_not_mem fun hid => hspared (hmem.1 ((hkeyed.mem_ids hused ha).1 hid))

/-- An event that the threshold lets through goes to each appender of the map in force. -/
theorem Sound.logEvent (h : Sound c maps base s) (hkind : c.kind = .standard)
    (hkeyed : Keyed maps) (hgood : DropForGood maps) (hpublished : Entry.maps s.history <+: maps)
    {l : Logger} (hl : l ∈ s.loggers) (e : Event) :
    Sound c maps base ⟨((l.logEvent e).run s.world).state, s.loggers,
      s.history ++ if e.level.isEnabledAt c.level then [.logged e] else []⟩ := by
  obtain ⟨hcontext, hlevel⟩ := h.loggers l hl
  obtain ⟨frames, hapart, hframes⟩ := h.frames
  rw [Logger.run_logEvent (hcontext ▸ hkind), hlevel, hcontext, h.has.table]
  split
  · have hm := inForce_mem_of_isPrefix hpublished
    have hused := mem_used_of_inForce hpublished
    obtain ⟨hafter, hcontexts⟩ := hapart.forM id (fun a => a.appendedFrame e)
      fun a ha => Appender.reframes_offer l e (hused a ha)
    rw [List.map_id] at hafter
    refine ⟨?_, h.loggers, _, hafter, fun a ha => ?_⟩
    · rw [Entry.inForce_append]
      exact h.has.congr hcontexts
    · have hmem : a ∈ (inForce .empty s.history).appenders ↔
          (inForce .empty s.history).holds a = true :=
        ⟨AppenderMap.holds_of_mem, hkeyed.cons_empty.mem_of_holds hm ha⟩
      rw [reframed_eq hkeyed (hkeyed.cons_empty.nodup_ids hm) hused ha hmem, hframes a ha]
      cases hholds : (inForce .empty s.history).holds a with
      | true =>
        exact Appender.appendedFrame_delivered (open_of_holds hgood hpublished hholds) hholds e
      | false => exact (Appender.deliveredFrame_logged hholds e).symm
  · rw [List.append_nil]
    exact h

/-- A new map takes the place of the one in force, and the appenders that leave with that
one are stopped. -/
theorem Sound.apart_configure (h : Sound c maps base s) (hkind : c.kind = .standard)
    (hkeyed : Keyed maps) (hpublished : Entry.maps s.history <+: maps) {next : AppenderMap}
    (hnext : next ∈ maps) {frames : Nat → Frame Buffer}
    (hapart : Apart s.world (used maps) frames) :
    let o := (c.configure next).run s.world
    let leaving := (inForce .empty s.history).leaving next
    c.Has o.state next ∧
      Apart o.state (used maps) (Appender.reframed Appender.stoppedFrame leaving frames) := by
  intro o leaving
  have hdropped := hkeyed.cons_empty.appenders_dropped (inForce_mem_of_isPrefix hpublished)
    (List.mem_cons_of_mem _ hnext)
  have hused := mem_used_of_inForce hpublished
  have hpublish : Apart (s.world.updateContext c fun s => { s with table := next })
      (used maps) frames := hapart.congr rfl fun target => by cases target <;> rfl
  have hstops : ∀ e ∈ (inForce .empty s.history).dropped next,
      Appender.Reframes (used maps) (AppenderMap.stopDropped e) e.2 e.2.stoppedFrame := fun e he =>
    Appender.reframes_stopDropped
      (hused e.2 (AppenderMap.mem_appenders.2 ⟨e.1, (List.mem_filter.1 he).1⟩))
  obtain ⟨hafter, hcontexts⟩ := hpublish.forM Prod.snd Appender.stoppedFrame hstops
  have ho : o = ⟨true, _, _⟩ := Context.run_configure hkind next s.world
  rw [ho, h.has.table, AppenderMap.run_replace]
  rw [hdropped] at hafter
  exact ⟨(h.has.publish next).congr hcontexts, hafter⟩

theorem reframed_leaving (hkeyed : Keyed maps) (hpublished : Entry.maps s.history <+: maps)
    (next : AppenderMap) (frames : Nat → Frame Buffer) {a : Appender} (ha : a ∈ used maps) :
    Appender.reframed Appender.stoppedFrame ((inForce .empty s.history).leaving next) frames a.id =
      if (inForce .empty s.history).holds a && !next.holds a then a.stoppedFrame (frames a.id)
      else frames a.id := by
  have hm := inForce_mem_of_isPrefix hpublished
  have hused : ∀ b ∈ (inForce .empty s.history).leaving next, b ∈ used maps := fun b hb =>
    mem_used_of_inForce hpublished b (List.mem_filter.1 hb).1
  exact reframed_eq hkeyed (hkeyed.cons_empty.nodup_leaving hm next) hused ha
    (hkeyed.cons_empty.mem_leaving hm next ha) _ frames

/-- A new map is published, and the appenders are stopped that only the one before has. -/
theorem Sound.configure (h : Sound c maps base s) (hkind : c.kind = .standard)
    (hkeyed : Keyed maps) (hgood : DropForGood maps) (hpublished : Entry.maps s.history <+: maps)
    {next : AppenderMap} (hnext : next ∈ maps) :
    Sound c maps base ⟨((c.configure next).run s.world).state, s.loggers,
      s.history ++ [.published next]⟩ := by
  obtain ⟨frames, hapart, hframes⟩ := h.frames
  obtain ⟨hhas, hafter⟩ := h.apart_configure hkind hkeyed hpublished hnext hapart
  refine ⟨?_, h.loggers, _, hafter, fun a ha => ?_⟩
  · rw [Entry.inForce_append]
    exact hhas
  · rw [reframed_leaving hkeyed hpublished next frames ha, hframes a ha]
    split
    · rename_i hleaves
      obtain ⟨hholds, hlacks⟩ := Bool.and_eq_true_iff.1 hleaves
      exact Appender.stoppedFrame_delivered (open_of_holds hgood hpublished hholds) hholds
        (by simpa using hlacks)
    · rename_i hstays
      rw [Appender.deliveredFrame_published (Bool.eq_false_iff.2 hstays)]

/-- The appenders that leave with the map in force are open until then, are stopped once
each and are counted; no other appender is concerned. -/
theorem Sound.replacement (h : Sound c maps base s) (hkind : c.kind = .standard)
    (hkeyed : Keyed maps) (hgood : DropForGood maps) (hpublished : Entry.maps s.history <+: maps)
    {next : AppenderMap} (hnext : next ∈ maps) :
    let previous := inForce .empty s.history
    let leaving := previous.leaving next
    let o := (c.configure next).run s.world
    (s.world.contextState c).table = previous ∧
    (previous.dropped next).map (·.2) = leaving ∧ (leaving.map Appender.id).Nodup ∧
    (∀ v, ((previous.replace next).run v).value = leaving.length) ∧
    o.value = true ∧
    o.diagnostics.getLast? = some (.appendersPublished c.name next.size leaving.length) ∧
    ∀ a ∈ used maps, ∃ f, a.frame? s.world = some f ∧
      (a ∈ leaving → f.stopped = false ∧ a.frame? o.state = some (f.stop a.name a.layout).1) ∧
      (a ∉ leaving → a.frame? o.state = some f) := by
  intro previous leaving o
  have hprevious := inForce_mem_of_isPrefix hpublished
  have hleaving : (previous.dropped next).map (·.2) = leaving :=
    hkeyed.cons_empty.appenders_dropped hprevious (List.mem_cons_of_mem _ hnext)
  have hcount : ∀ v, ((previous.replace next).run v).value = leaving.length := fun v => by
    rw [AppenderMap.run_replace, ← hleaving, List.length_map]
  have ho : o = ⟨true, _, _⟩ := Context.run_configure hkind next s.world
  refine ⟨h.has.table, hleaving, hkeyed.cons_empty.nodup_leaving hprevious next, hcount,
    congrArg Outcome.value ho, ?_, fun a ha => ?_⟩
  · rw [ho, h.has.table]
    simp only [List.getLast?_append, List.getLast?_singleton, Option.some_or]
    rw [hcount]
  · obtain ⟨frames, hapart, hframes⟩ := h.frames
    have hafter := (h.apart_configure hkind hkeyed hpublished hnext hapart).2.frame a ha
    rw [reframed_leaving hkeyed hpublished next frames ha] at hafter
    have hmem := hkeyed.cons_empty.mem_leaving hprevious next ha
    refine ⟨frames a.id, hapart.frame a ha, fun hleaves => ?_, fun hstays => ?_⟩
    · have hholds := (Bool.and_eq_true_iff.1 (hmem.1 hleaves)).1
      rw [if_pos (hmem.1 hleaves)] at hafter
      rw [Appender.stop_eq]
      refine ⟨?_, hafter⟩
      rw [hframes a ha]
      exact open_of_holds hgood hpublished hholds
    · rw [if_neg fun hleaves => hstays (hmem.2 hleaves)] at hafter
      exact hafter

theorem Sound.logger (h : Sound c maps base s) (name : String) (format : Option MessageFormat) :
    let o := (c.logger name format).run s.world
    Sound c maps base ⟨o.state, s.loggers ++ [o.value], s.history⟩ := by
  intro o
  obtain ⟨hhas, hown, hlevel, hdevices, hstreams⟩ := h.has.logger name format
  obtain ⟨frames, hapart, hframes⟩ := h.frames
  refine ⟨hhas, fun l hl => ?_, frames, hapart.congr hdevices hstreams, hframes⟩
  rcases List.mem_append.1 hl with hold | hnew
  · exact h.loggers l hold
  · rw [List.mem_singleton.1 hnew]
    exact ⟨hown, hlevel⟩

/-- A request that uses a logger adds the event it logs, if the threshold lets it through. -/
theorem Sound.through (h : Sound c maps base s) (hkind : c.kind = .standard)
    (hkeyed : Keyed maps) (hgood : DropForGood maps) (hpublished : Entry.maps s.history <+: maps)
    (place : Nat) {act : Logger → Traced World Unit} (event : Logger → Event)
    (hact : ∀ l ∈ s.loggers,
      ((act l).run s.world).state = ((l.logEvent (event l)).run s.world).state) :
    let o := (Request.through s.loggers place act).run s.world
    Sound c maps base ⟨o.state, o.value, s.history ++ ((s.loggers[place]?.map event).filter fun e =>
      e.level.isEnabledAt c.level).toList.map .logged⟩ := by
  intro o
  have ho : o = (Request.through s.loggers place act).run s.world := rfl
  rw [Request.through] at ho
  cases hfound : s.loggers[place]? with
  | none =>
    rw [hfound] at ho
    have hvalue : o.value = s.loggers := by rw [ho]; rfl
    have hstate : o.state = s.world := by rw [ho]; rfl
    rw [hvalue, hstate]
    simpa using h
  | some l =>
    have hl : l ∈ s.loggers := List.mem_of_getElem? hfound
    rw [hfound] at ho
    have hvalue : o.value = s.loggers := by rw [ho]; rfl
    have hstate : o.state = ((l.logEvent (event l)).run s.world).state := by
      rw [← hact l hl, ho]
      rfl
    have hlogged := h.logEvent hkind hkeyed hgood hpublished hl (event l)
    rw [hvalue, hstate]
    cases henabled : (event l).level.isEnabledAt c.level with
    | true => simpa [Option.filter, henabled] using hlogged
    | false => simpa [Option.filter, henabled] using hlogged

theorem Sound.step (h : Sound c maps base s) (hkind : c.kind = .standard)
    (hkeyed : Keyed maps) (hgood : DropForGood maps) (r : Moment × Request)
    (hpublished : Entry.maps s.history ++ Request.configured [r] <+: maps) :
    Sound c maps base (s.step c r) := by
  have hbefore : Entry.maps s.history <+: maps := (List.prefix_append _ _).trans hpublished
  obtain ⟨m, r⟩ := r
  have hnow := h.enter m
  have hcontext : ∀ l ∈ s.loggers, l.context.kind = .standard := fun l hl =>
    (h.loggers l hl).1 ▸ hkind
  cases r with
  | configure next =>
    have hnext : next ∈ maps := hpublished.subset (List.mem_append_right _ List.mem_cons_self)
    exact hnow.configure hkind hkeyed hgood hbefore hnext
  | logger name format =>
    have hlogger := hnow.logger name format
    rw [← List.append_nil s.history] at hlogger
    exact hlogger
  | log place level message =>
    exact hnow.through hkind hkeyed hgood hbefore place _ fun l hl =>
      congrArg Outcome.state (Logger.run_log (hcontext l hl) level message _)
  | logArguments place level pattern arguments =>
    exact hnow.through hkind hkeyed hgood hbefore place _ fun l hl =>
      congrArg Outcome.state
        (Logger.run_log (hcontext l hl) level (l.format.format pattern arguments) _)
  | logEvent place e =>
    exact hnow.through hkind hkeyed hgood hbefore place (fun _ => e) fun _ _ => rfl

theorem maps_step (c : Context) (s : Session) (r : Moment × Request) :
    Entry.maps (s.step c r).history = Entry.maps s.history ++ Request.configured [r] := by
  obtain ⟨m, r⟩ := r
  have hlogged : ∀ events : List Event, Entry.maps (events.map .logged) = [] := by
    intro events
    induction events with
    | nil => rfl
    | cons e rest ih => exact ih
  rw [Session.step, Entry.maps_append]
  cases r with
  | configure next => rfl
  | logger name format => rfl
  | log place level message => exact congrArg _ (hlogged _)
  | logArguments place level pattern arguments => exact congrArg _ (hlogged _)
  | logEvent place e => exact congrArg _ (hlogged _)

theorem configured_cons (r : Moment × Request) (rest : List (Moment × Request)) :
    Request.configured (r :: rest) = Request.configured [r] ++ Request.configured rest :=
  List.filterMap_append (l := [r])

theorem Sound.run (h : Sound c maps base s) (hkind : c.kind = .standard) (hkeyed : Keyed maps)
    (hgood : DropForGood maps) (requests : List (Moment × Request))
    (hpublished : Entry.maps s.history ++ Request.configured requests <+: maps) :
    Sound c maps base (s.run c requests) := by
  induction requests generalizing s with
  | nil => exact h
  | cons r rest ih =>
    rw [configured_cons, ← List.append_assoc, ← maps_step c s r] at hpublished
    have hfirst : Entry.maps (s.step c r).history <+: maps :=
      (List.prefix_append _ _).trans hpublished
    exact ih (h.step hkind hkeyed hgood r (maps_step c s r ▸ hfirst)) hpublished

theorem maps_run (c : Context) (s : Session) (requests : List (Moment × Request)) :
    Entry.maps (s.run c requests).history =
      Entry.maps s.history ++ Request.configured requests := by
  induction requests generalizing s with
  | nil => exact (List.append_nil _).symm
  | cons r rest ih =>
    rw [configured_cons, ← List.append_assoc, ← maps_step c s r]
    exact ih (s.step c r)

/-- A new context has no loggers and no appenders. -/
theorem sound_begin (name : String) (level : Level) {w : World}
    (hnew : Apart w (used maps) fun id => .fresh (base id)) :
    let opened := (Context.standard name level).run w
    Sound opened.value maps base (.begin opened.state) := by
  intro opened
  refine ⟨⟨.empty, Store.get?_add_next _ _, rfl, nofun⟩, nofun, _,
    hnew.congr rfl fun target => ?_, fun a _ => (a.writtenFrame_nil (base a.id)).symm⟩
  cases target <;> rfl

/-- A context is given maps that have appenders under their names, and no appender that
was dropped. Then at any time an appender holds, behind what its sink had before, the
header if it received an event or was dropped, the events that were logged while it was
in the map in force, each once and in order, and the footer if it was dropped. A new map
stops the appenders that it lacks and the one before has, each once, and no others; the
result of the replacement is their number. -/
theorem appenders_get_their_events (name : String) (level : Level) (w : World)
    (requests : List (Moment × Request)) (base : Nat → Buffer)
    (hkeyed : Keyed (Request.configured requests))
    (hgood : DropForGood (Request.configured requests))
    (hnew : Apart w (used (Request.configured requests)) fun id => .fresh (base id)) :
    let opened := (Context.standard name level).run w
    let c := opened.value
    let start := begin opened.state
    (∀ a ∈ used (Request.configured requests),
      let s := start.run c requests
      let events := received a .empty s.history
      let gone := dropped a .empty s.history
      ∃ f, a.frame? s.world = some f ∧ f.stopped = gone ∧
        f.bytes = (base a.id).bytes ++ a.output events gone) ∧
    (∀ before m next after, requests = before ++ (m, .configure next) :: after →
      let s := start.run c before
      let previous := inForce .empty s.history
      let leaving := previous.leaving next
      let o := (c.configure next).run (m.enter s.world)
      (s.world.contextState c).table = previous ∧
      (previous.dropped next).map (·.2) = leaving ∧ (leaving.map Appender.id).Nodup ∧
      (∀ v, ((previous.replace next).run v).value = leaving.length) ∧
      o.value = true ∧
      o.diagnostics.getLast? = some (.appendersPublished c.name next.size leaving.length) ∧
      ∀ a ∈ used (Request.configured requests), ∃ f, a.frame? s.world = some f ∧
        (a ∈ leaving → f.stopped = false ∧
          a.frame? o.state = some (f.stop a.name a.layout).1) ∧
        (a ∉ leaving → a.frame? o.state = some f)) := by
  intro opened c start
  have hbegin : Sound c (Request.configured requests) base start := sound_begin name level hnew
  refine ⟨fun a ha => ?_, ?_⟩
  · have hsound := hbegin.run rfl hkeyed hgood requests (List.prefix_refl _)
    obtain ⟨frames, hapart, hframes⟩ := hsound.frames
    exact ⟨_, (hapart.frame a ha).trans (congrArg some (hframes a ha)), rfl, rfl⟩
  · rintro before m next after rfl
    have hconfigured : Request.configured (before ++ (m, .configure next) :: after) =
        Request.configured before ++ next :: Request.configured after := List.filterMap_append
    generalize Request.configured (before ++ (m, .configure next) :: after) = maps at *
    have hnext : next ∈ maps := hconfigured ▸ List.mem_append_right _ List.mem_cons_self
    have hearlier : Request.configured before <+: maps := hconfigured ▸ List.prefix_append _ _
    have hpublished : Entry.maps (start.run c before).history <+: maps := by
      rw [maps_run]
      exact hearlier
    have hnow := (hbegin.run rfl hkeyed hgood before hearlier).enter m
    exact hnow.replacement rfl hkeyed hgood hpublished hnext

/-- One appender is in all maps; another one is replaced by a third of the same name,
which is dropped in turn. -/
theorem appenders_get_their_events_replaced :
    let plain : Layout := ⟨fun e => e.message.getD "", none, none, .usAscii, "text/plain"⟩
    let kept : Appender := ⟨0, "kept", some plain⟩
    let framed : Layout := { plain with header := some [0x3C], footer := some [0x3E] }
    let old : Appender := ⟨1, "file", some framed⟩
    let new : Appender := ⟨2, "file", none⟩
    let both : AppenderMap := ⟨[("kept", kept), ("file", old)], by simp⟩
    let other : AppenderMap := ⟨[("kept", kept), ("file", new)], by simp⟩
    let one : AppenderMap := ⟨[("kept", kept)], by simp⟩
    let memory : Device := .memory (.fresh .empty)
    let w := { World.initial 0 "main" with devices := ⟨[memory, memory, memory]⟩ }
    let opened := (Context.standard "app" .info).run w
    let requests : List (Moment × Request) := [.configure both, .logger "a" none, .log 0 .info "on",
      .configure other, .log 0 .info "of", .log 0 .debug "no", .configure one].map (⟨0, "main"⟩, ·)
    let s := (begin opened.state).run opened.value requests
    (∃ f, old.frame? s.world = some f ∧ f.stopped = true ∧ f.bytes = [0x3C, 0x6F, 0x6E, 0x3E]) ∧
      ∃ f, kept.frame? s.world = some f ∧ f.stopped = false ∧
        f.bytes = [0x6F, 0x6E, 0x6F, 0x66] := by
  intro plain kept framed old new both other one memory w opened requests s
  have hused : ∀ a ∈ used (Request.configured requests), a = kept ∨ a = old ∨ a = new := by
    intro a ha
    have hall : a ∈ [kept, old, kept, new, kept] := ha
    simp only [List.mem_cons, List.not_mem_nil, or_false] at hall
    tauto
  have hkeyed : Keyed (Request.configured requests) := by
    refine ⟨?_, fun a ha b hb hid => ?_⟩
    · change ∀ m ∈ [both, other, one], ∀ e ∈ m.entries, e.1 = e.2.name
      decide
    · rcases hused a ha with rfl | rfl | rfl <;> rcases hused b hb with rfl | rfl | rfl <;>
        first | rfl | simp [kept, old, new] at hid
  have hgood : DropForGood (Request.configured requests) := by
    intro a m n k hsub hm hn
    have hmaps : [m, n, k] = [both, other, one] := hsub.eq_of_length rfl
    simp only [List.cons.injEq, and_true] at hmaps
    obtain ⟨rfl, rfl, rfl⟩ := hmaps
    simp_all [AppenderMap.holds, AppenderMap.appenders, other, one]
  have hnew : Apart w (used (Request.configured requests)) fun _ => .fresh .empty := by
    refine ⟨fun a ha => ?_, fun a ha b hb t ht => ?_⟩
    · rcases hused a ha with rfl | rfl | rfl <;> rfl
    · rcases hused a ha with rfl | rfl | rfl <;> contradiction
  have hframes := (appenders_get_their_events "app" .info w requests (fun _ => .empty)
    hkeyed hgood hnew).1
  have hmem : used (Request.configured requests) = [kept, old, kept, new, kept] := rfl
  obtain ⟨f, hf, hstopped, hbytes⟩ := hframes old (by simp [hmem])
  obtain ⟨g, hg, hopen, hkept⟩ := hframes kept (by simp [hmem])
  exact ⟨⟨f, hf, hstopped.trans (by decide +kernel), hbytes.trans (by decide +kernel)⟩,
    g, hg, hopen.trans (by decide +kernel), hkept.trans (by decide +kernel)⟩

end Session
end LoggingFacade
