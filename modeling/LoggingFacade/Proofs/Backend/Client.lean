import LoggingFacade.Proofs.Appender.Stopping
import LoggingFacade.Proofs.Context.Routing

/-!
# Clients of a backend

A client asks one backend for contexts, and the contexts that it was given for loggers;
it enters realms and leaves them, gives contexts their appenders and logs. Its history
says what it was given and which maps of appenders it put in force. What a request does
to the index of contexts and loggers is said once here: a context or a logger is made by
the first request for it, and all else leaves the index as it is.
-/

namespace LoggingFacade

open Traced (Keeps Reports)

namespace Client

/-- How an event is logged: as a message, as a pattern with arguments, or as it is. -/
inductive Call where
  | message (level : Level) (text : String)
  | filled (level : Level) (pattern : String) (arguments : List String)
  | event (e : Event)

/-- What a client asks for. Contexts and loggers are known by their places among those
that it was given. -/
inductive Request where
  | context (caller : String) (isolation : Option Realm) (global : Bool)
  | logger (context : Nat) (name : String) (format : Option MessageFormat)
  | hasLogger (context : Nat) (name : String)
  | configure (context : Nat) (next : AppenderMap)
  | log (logger : Nat) (call : Call)
  | enter (realm : Realm)
  /-- Drops the guard of the realm entered last. -/
  | leave
  | wait (now : Int)

/-- What came of a request. The target of a context is its realm, or none for the
context that a backend has of its own. -/
inductive Entry where
  | context (target : Option Realm) (given : Context)
  | logger (context : Context) (name : String) (format : Option MessageFormat) (given : Logger)
  | hasLogger (context : Context) (name : String) (answer : Bool)
  | configured (context : Context) (next : AppenderMap)

end Client

structure Client where
  world : World
  contexts : List Context
  loggers : List Logger
  /-- The realms whose guards are alive, the innermost first. -/
  realms : List Realm
  guards : List Realm.Guard
  history : List Client.Entry
  /-- All diagnostics up to now. -/
  reported : List Diagnostic

/-- What a request for a context is about: the given realm, else that of the innermost
guard, else the default one. There is one context for all global requests, and one for
all requests of the simple backend. -/
def Backend.target (b : Backend) (realms : List Realm) (isolation : Option Realm)
    (global : Bool) : Option Realm :=
  match b.kind with
  | .simple => none
  | .standard => if global then none else some ((isolation.or realms.head?).getD Realm.default)

namespace Client

/-- Logs through a logger. -/
def Call.perform (l : Logger) : Call → Traced World Unit
  | .message level text => l.log level text
  | .filled level pattern arguments => l.logArguments level pattern arguments
  | .event e => l.logEvent e

/-- Nothing was asked yet; the thread may be in a realm already. -/
def begin (w : World) : Client := ⟨w, [], [], w.realm.toList, [], [], []⟩

/-- What comes of a computation: the world after it, and its diagnostics. -/
def after {α : Type} (s : Client) (o : Outcome World α) : Client :=
  { s with world := o.state, reported := s.reported ++ o.diagnostics }

def giveContext (b : Backend) (s : Client) (caller : String) (isolation : Option Realm)
    (global : Bool) : Client :=
  let o := (b.context caller isolation global).run s.world
  { s.after o with
    contexts := s.contexts ++ [o.value]
    history := s.history ++ [.context (b.target s.realms isolation global) o.value] }

def giveLogger (s : Client) (c : Context) (name : String) (format : Option MessageFormat) :
    Client :=
  let o := (c.logger name format).run s.world
  { s.after o with
    loggers := s.loggers ++ [o.value]
    history := s.history ++ [.logger c name format o.value] }

def answer (s : Client) (c : Context) (name : String) : Client :=
  { s with history := s.history ++ [.hasLogger c name (c.hasLogger s.world name)] }

def configure (s : Client) (c : Context) (next : AppenderMap) : Client :=
  { s.after ((c.configure next).run s.world) with
    history := s.history ++ [.configured c next] }

def log (s : Client) (l : Logger) (call : Call) : Client :=
  s.after ((call.perform l).run s.world)

def enter (s : Client) (realm : Realm) : Client :=
  let o := (World.enterRealm realm).run s.world
  { s.after o with realms := realm :: s.realms, guards := o.value :: s.guards }

def leave (s : Client) : Client :=
  match s.guards with
  | [] => s
  | guard :: rest =>
    { s.after ((World.leaveRealm guard).run s.world) with
      realms := s.realms.tail
      guards := rest }

/-- One request; one that is about a context or a logger not given out does nothing. -/
def step (b : Backend) (s : Client) : Request → Client
  | .context caller isolation global => s.giveContext b caller isolation global
  | .logger place name format =>
    (s.contexts[place]?.map fun c => s.giveLogger c name format).getD s
  | .hasLogger place name => (s.contexts[place]?.map fun c => s.answer c name).getD s
  | .configure place next => (s.contexts[place]?.map fun c => s.configure c next).getD s
  | .log place call => (s.loggers[place]?.map fun l => s.log l call).getD s
  | .enter realm => s.enter realm
  | .leave => s.leave
  | .wait now => { s with world := { s.world with now := now } }

def run (b : Backend) (s : Client) (requests : List Request) : Client :=
  requests.foldl (step b) s

section Fields

variable (b : Backend) (s : Client) (c : Context)

@[simp] theorem world_giveContext (caller : String) (isolation : Option Realm) (global : Bool) :
    (s.giveContext b caller isolation global).world =
      ((b.context caller isolation global).run s.world).state := rfl

@[simp] theorem history_giveContext (caller : String) (isolation : Option Realm) (global : Bool) :
    (s.giveContext b caller isolation global).history =
      s.history ++ [.context (b.target s.realms isolation global)
        ((b.context caller isolation global).run s.world).value] := rfl

@[simp] theorem world_giveLogger (name : String) (format : Option MessageFormat) :
    (s.giveLogger c name format).world = ((c.logger name format).run s.world).state := rfl

@[simp] theorem history_giveLogger (name : String) (format : Option MessageFormat) :
    (s.giveLogger c name format).history =
      s.history ++ [.logger c name format ((c.logger name format).run s.world).value] := rfl

@[simp] theorem world_configure (next : AppenderMap) :
    (s.configure c next).world = ((c.configure next).run s.world).state := rfl

@[simp] theorem history_configure (next : AppenderMap) :
    (s.configure c next).history = s.history ++ [.configured c next] := rfl

end Fields

section Invariants

variable {b : Backend} {s : Client} {P : Client → Prop}

/-- A request about a place is one about what was given out there, or it does nothing. -/
theorem keeps_placed {α : Type} {items : List α} {place : Nat} {f : α → Client} (h : P s)
    (hf : ∀ a ∈ items, P (f a)) : P ((items[place]?.map f).getD s) := by
  cases hfound : items[place]? with
  | none => exact h
  | some a => exact hf a (List.mem_of_getElem? hfound)

theorem keeps_run (hstep : ∀ s r, P s → P (s.step b r)) (h : P s) (requests : List Request) :
    P (s.run b requests) := by
  induction requests generalizing s with
  | nil => exact h
  | cons r rest ih => exact ih (hstep s r h)

end Invariants

end Client

/-! ## The index of contexts and loggers -/

/-- The contexts and loggers of all backends, and the realm of the thread. -/
def World.index (w : World) : Store ContextState × Store BackendState × Nat × Option Realm :=
  (w.contexts, w.backends, w.loggers, w.realm)

theorem World.of_index_eq {v w : World} (h : v.index = w.index) :
    v.contexts = w.contexts ∧ v.backends = w.backends ∧ v.loggers = w.loggers ∧
      v.realm = w.realm := by
  simpa only [index, Prod.mk.injEq] using h

namespace Appender

/-- A part of the world that appenders have nothing to do with. -/
structure Untouched {γ : Type} (part : World → γ) : Prop where
  frame : ∀ (a : Appender) w f, part (a.setFrame w f) = part w
  devices : ∀ w devices, part { w with devices := devices } = part w
  published : ∀ w published, part { w with published := published } = part w

section Untouched

variable {γ : Type} {part : World → γ}

theorem Untouched.keeps_onFrame (h : Untouched part) (a : Appender)
    (act : Frame Buffer → Frame Buffer × Attempt Unit) : Keeps part (a.onFrame act) := by
  apply Traced.keeps_get_bind
  intro w
  cases a.frame? w with
  | none => rfl
  | some f => exact h.frame a w (act f).1

theorem Untouched.keeps_append (h : Untouched part) (a : Appender) (e : Event) :
    Keeps part (a.append e) := by
  apply Traced.keeps_get_bind
  intro w
  split
  · exact h.devices w _
  · exact h.keeps_onFrame a _ w

theorem Untouched.keeps_unpublish (h : Untouched part) (a : Appender) :
    Keeps part a.unpublish := by
  apply Traced.keeps_get_bind
  intro w
  split
  · split
    · exact h.published w _
    · rfl
  · rfl

theorem Untouched.keeps_stop (h : Untouched part) (a : Appender) : Keeps part a.stop := by
  apply Traced.keeps_get_bind
  intro w
  split
  · exact h.devices w _
  · have hframe := h.keeps_onFrame a (Frame.stop a.name a.layout)
    have hend (result : Except Error Unit) :
        Keeps part (a.unpublish >>= fun _ => pure result) :=
      (h.keeps_unpublish a).bind fun _ => Traced.keeps_pure result
    exact hframe.bind hend w
  · exact h.keeps_onFrame a _ w

theorem Untouched.keeps_replace (h : Untouched part) (previous next : AppenderMap) :
    Keeps part (previous.replace next) := by
  refine Traced.Keeps.bind (Traced.Keeps.forM fun entry _ => ?_) fun _ => Traced.keeps_pure _
  intro w
  rw [Appender.state_stopDropped]
  exact h.keeps_stop entry.2 w

end Untouched

theorem untouched_index : Untouched World.index where
  frame a w f := by
    unfold setFrame
    split
    · rename_i target _ _ _
      cases target <;> rfl
    · rfl
  devices _ _ := rfl
  published _ _ := rfl

theorem untouched_selected : Untouched World.selected where
  frame a w f := by
    unfold setFrame
    split
    · rename_i target _ _ _
      cases target <;> rfl
    · rfl
  devices _ _ := rfl
  published _ _ := rfl

end Appender

namespace Logger

theorem keeps_index_offer (l : Logger) (e : Event) (a : Appender) :
    Keeps World.index (l.offer e a) := by
  intro w
  rw [Appender.state_offer]
  exact Appender.untouched_index.keeps_append a e w

section Perform

variable {γ : Type} {part : World → γ} {l : Logger}

theorem keeps_logEvent (hoffer : ∀ e a, Keeps part (l.offer e a))
    (hplain : ∀ w output, part { w with errorOutput := output } = part w) (e : Event) :
    Keeps part (l.logEvent e) := by
  unfold logEvent
  split
  · cases l.context.kind with
    | standard =>
      apply Traced.keeps_get_bind
      intro w
      exact Traced.Keeps.forM (fun a _ => hoffer e a) w
    | simple => exact fun w => hplain w _
  · exact Traced.keeps_pure _

theorem keeps_log (hoffer : ∀ e a, Keeps part (l.offer e a))
    (hplain : ∀ w output, part { w with errorOutput := output } = part w) (level : Level)
    (message : String) : Keeps part (l.log level message) := by
  unfold log
  split
  · apply Traced.keeps_get_bind
    intro w
    exact keeps_logEvent hoffer hplain _ w
  · exact Traced.keeps_pure _

/-- However an event is logged, it changes nothing that its offers and a plain line to
standard error leave alone. -/
theorem keeps_perform (hoffer : ∀ e a, Keeps part (l.offer e a))
    (hplain : ∀ w output, part { w with errorOutput := output } = part w) (call : Client.Call) :
    Keeps part (call.perform l) := by
  cases call with
  | message level text => exact keeps_log hoffer hplain level text
  | filled level pattern arguments => exact keeps_log hoffer hplain level _
  | event e => exact keeps_logEvent hoffer hplain e

end Perform

theorem keeps_index_perform (l : Logger) (call : Client.Call) :
    Keeps World.index (call.perform l) :=
  keeps_perform (keeps_index_offer l) (fun _ _ => rfl) call

theorem keeps_stopped?_perform (l : Logger) (a : Appender) (call : Client.Call) :
    Keeps a.stopped? (call.perform l) := by
  refine keeps_perform (fun e b => keeps_stopped?_offer l e b a) (fun w output => ?_) call
  rw [Appender.stopped?_eq, Appender.stopped?_eq]

theorem keeps_refuses_perform (l : Logger) (a : Appender) (call : Client.Call) :
    Keeps a.refuses (call.perform l) :=
  keeps_perform (fun e b => keeps_refuses_offer l e b a) (fun _ _ => rfl) call

end Logger

theorem AppenderMap.keeps_index_replace (previous next : AppenderMap) :
    Keeps World.index (previous.replace next) :=
  Appender.untouched_index.keeps_replace previous next

end LoggingFacade
