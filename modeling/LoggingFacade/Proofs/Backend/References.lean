import Mathlib.Data.List.Dedup
import LoggingFacade.Proofs.Backend.Index

/-!
# References that stay

A client of a backend is given the same context for the same realm and the same logger
for the same name in a context, whatever it asks for in between. The history says which
requests came first; `Sound` ties it to the index of the backend, and every step keeps
it. A logger has the format that the first request for it asked for, and each later
request for another one is reported, which is the only way for such a report to come up.
-/

namespace LoggingFacade

open Traced (Reports)

/-! ## Histories -/

namespace Client
namespace Entry

/-- The format that an entry asks for, if it is a request for this logger. -/
def formatOf? (c : Context) (name : String) : Entry → Option (Option MessageFormat)
  | .logger d other format _ => if d = c ∧ other = name then some format else none
  | _ => none

@[simp] theorem formatOf?_context (k : Option Realm) (given c : Context) (name : String) :
    (context k given).formatOf? c name = none := rfl

@[simp] theorem formatOf?_hasLogger (d c : Context) (other name : String) (answer : Bool) :
    (hasLogger d other answer).formatOf? c name = none := rfl

@[simp] theorem formatOf?_configured (d c : Context) (next : AppenderMap) (name : String) :
    (configured d next).formatOf? c name = none := rfl

/-- The format that the first request for a logger asks for. -/
def firstFormat? (history : List Entry) (c : Context) (name : String) :
    Option (Option MessageFormat) := history.findSome? (formatOf? c name)

theorem firstFormat?_concat (history : List Entry) (entry : Entry) (c : Context) (name : String) :
    firstFormat? (history ++ [entry]) c name =
      (firstFormat? history c name).or (entry.formatOf? c name) := by
  rw [firstFormat?, List.findSome?_append]
  cases h : entry.formatOf? c name <;> simp [h, firstFormat?]

theorem isSome_firstFormat? {history : List Entry} {c : Context} {name : String} :
    (firstFormat? history c name).isSome = true ↔
      ∃ format l, .logger c name format l ∈ history := by
  rw [firstFormat?, List.findSome?_isSome_iff]
  constructor
  · rintro ⟨entry, hentry, hsome⟩
    cases entry with
    | logger d other format l =>
      rw [formatOf?] at hsome
      split at hsome
      · rename_i hsame
        obtain ⟨rfl, rfl⟩ := hsame
        exact ⟨format, l, hentry⟩
      · contradiction
    | context target given => contradiction
    | hasLogger d other answer => contradiction
    | configured d next => contradiction
  · rintro ⟨format, l, hentry⟩
    exact ⟨_, hentry, by simp [formatOf?]⟩

end Entry

/-- Each guard restores the realm around the one that it was taken for. -/
def Nested : List Realm.Guard → List Realm → Prop
  | [], _ => True
  | guard :: rest, realms => guard.previous = realms.tail.head? ∧ Nested rest realms.tail

/-- What was given out is in the index, under what it was given out for, and nothing else
of this backend is. -/
structure Sound (b : Backend) (s : Client) : Prop where
  realm : s.world.realm = s.realms.head?
  nested : Nested s.guards s.realms
  indexed : b.Indexed s.world
  contexts : ∀ c ∈ s.contexts, ∃ k, b.known? s.world k = some c
  loggers : ∀ l ∈ s.loggers, l.context ∈ s.contexts
  given : ∀ k c, .context k c ∈ s.history → b.known? s.world k = some c
  seen : ∀ realm c, b.known? s.world (some realm) = some c → .context (some realm) c ∈ s.history
  requested : ∀ c name format l, .logger c name format l ∈ s.history →
    c ∈ s.contexts ∧ c.existing? s.world name = some l
  first : ∀ k c name, b.known? s.world k = some c →
    (c.existing? s.world name).map Logger.format =
      (Entry.firstFormat? s.history c name).map fun format => format.getD .parameterized
  answered : ∀ before c name answer after, s.history = before ++ .hasLogger c name answer :: after →
    answer = (Entry.firstFormat? before c name).isSome

variable {b : Backend} {s : Client}

/-- A history that one entry was added to holds an entry before that one, or it is it. -/
theorem split_concat {history before after : List Entry} {last entry : Entry}
    (h : history ++ [last] = before ++ entry :: after) :
    (∃ rest, after = rest ++ [last] ∧ history = before ++ entry :: rest) ∨
      after = [] ∧ history = before ∧ last = entry := by
  rcases List.eq_nil_or_concat after with rfl | ⟨rest, x, rfl⟩
  · obtain ⟨hbefore, hlast⟩ := List.append_inj' h rfl
    exact .inr ⟨rfl, hbefore, List.head_eq_of_cons_eq hlast⟩
  · rw [List.concat_eq_append, ← List.cons_append, ← List.append_assoc] at h
    obtain ⟨hbefore, hlast⟩ := List.append_inj' h rfl
    rw [List.concat_eq_append, List.head_eq_of_cons_eq hlast]
    exact .inl ⟨rest, rfl, hbefore⟩

/-- Answers stay right when something else is added. -/
theorem Sound.answered_concat (h : Sound b s) {last : Entry} {before : List Entry} {c : Context}
    {name : String} {answer : Bool} {after : List Entry}
    (hsplit : s.history ++ [last] = before ++ .hasLogger c name answer :: after)
    (hlast : ∀ c name answer, last = .hasLogger c name answer →
      answer = (Entry.firstFormat? s.history c name).isSome) :
    answer = (Entry.firstFormat? before c name).isSome := by
  rcases split_concat hsplit with ⟨rest, -, hold⟩ | ⟨-, rfl, heq⟩
  · exact h.answered before c name answer rest hold
  · exact hlast c name answer heq

/-- Of a context that was not given out no logger was requested. -/
theorem Sound.firstFormat?_eq_none (h : Sound b s) {c : Context}
    (hnew : ∀ k, b.known? s.world k ≠ some c) (name : String) :
    Entry.firstFormat? s.history c name = none := by
  rw [← Option.not_isSome_iff_eq_none, Entry.isSome_firstFormat?]
  rintro ⟨format, l, hl⟩
  obtain ⟨k, hk⟩ := h.contexts c (h.requested c name format l hl).1
  exact hnew k hk

theorem Sound.giveContext (h : Sound b s) (caller : String) (isolation : Option Realm)
    (global : Bool) : Sound b (s.giveContext b caller isolation global) := by
  obtain ⟨hindexed, hrealm, hgiven, hstay, hcases, hexisting⟩ :=
    h.indexed.context h.realm caller isolation global
  refine ⟨hrealm.trans h.realm, h.nested, hindexed, fun c hc => ?_, fun l hl => ?_,
    fun k c hc => ?_, fun realm c hc => ?_, fun c name format l hl => ?_, fun k c name hc => ?_,
    fun before c name answer after hsplit => h.answered_concat hsplit nofun⟩
  · rcases List.mem_append.1 hc with hold | hnew
    · obtain ⟨k, hk⟩ := h.contexts c hold
      exact ⟨k, hstay k c hk⟩
    · rw [List.mem_singleton.1 hnew]
      exact ⟨_, hgiven⟩
  · exact List.mem_append_left _ (h.loggers l hl)
  · rcases List.mem_append.1 hc with hold | hnew
    · exact hstay k c (h.given k c hold)
    · obtain ⟨rfl, rfl⟩ := Entry.context.inj (List.mem_singleton.1 hnew)
      exact hgiven
  · rcases hcases _ c hc with hold | ⟨hk, rfl, -, -⟩
    · exact List.mem_append_left _ (h.seen realm c hold)
    · rw [hk]
      exact List.mem_append_right _ List.mem_cons_self
  · rcases List.mem_append.1 hl with hold | hnew
    · obtain ⟨hc, hl⟩ := h.requested c name format l hold
      exact ⟨List.mem_append_left _ hc, (hexisting c name).trans hl⟩
    · contradiction
  · rw [world_giveContext, history_giveContext, hexisting, Entry.firstFormat?_concat,
      Entry.formatOf?_context, Option.or_none]
    rcases hcases k c hc with hold | ⟨-, -, hnew, hempty⟩
    · exact h.first k c name hold
    · rw [hempty, h.firstFormat?_eq_none hnew]
      rfl

theorem Sound.giveLogger (h : Sound b s) {c : Context} (hc : c ∈ s.contexts) (name : String)
    (format : Option MessageFormat) : Sound b (s.giveLogger c name format) := by
  obtain ⟨k, hk⟩ := h.contexts c hc
  obtain ⟨hindexed, hrealm, hbackends, hcontext, hname, hmade, hexisting⟩ :=
    h.indexed.logger hk name format
  have hknown := Backend.known?_congr (b := b) hbackends
  refine ⟨hrealm.trans h.realm, h.nested, hindexed, fun d hd => ?_, fun l hl => ?_,
    fun k' d hd => ?_, fun realm d hd => ?_, fun d other f l hl => ?_, fun k' d other hd => ?_,
    fun before d other answer after hsplit => h.answered_concat hsplit nofun⟩
  · obtain ⟨k', hk'⟩ := h.contexts d hd
    exact ⟨k', (hknown k').trans hk'⟩
  · rcases List.mem_append.1 hl with hold | hnew
    · exact h.loggers l hold
    · rw [List.mem_singleton.1 hnew, hcontext]
      exact hc
  · rcases List.mem_append.1 hd with hold | hnew
    · exact (hknown k').trans (h.given k' d hold)
    · contradiction
  · exact List.mem_append_left _ (h.seen realm d ((hknown _).symm.trans hd))
  · rcases List.mem_append.1 hl with hold | hnew
    · obtain ⟨hd, hthere⟩ := h.requested d other f l hold
      obtain ⟨k', hk'⟩ := h.contexts d hd
      refine ⟨hd, ?_⟩
      rw [world_giveLogger, hexisting k' d other hk']
      split
      · rename_i hsame
        obtain ⟨rfl, rfl⟩ := hsame
        rcases hmade with hfound | ⟨hnone, -⟩
        · rw [← hfound, hthere]
        · rw [hnone] at hthere
          contradiction
      · exact hthere
    · obtain ⟨rfl, rfl, rfl, rfl⟩ := Entry.logger.inj (List.mem_singleton.1 hnew)
      refine ⟨hc, ?_⟩
      rw [world_giveLogger, hexisting k d other hk, if_pos ⟨rfl, rfl⟩]
  -- a logger that was there keeps its format, and a new one has what this first request asks for
  · rw [world_giveLogger, hknown] at hd
    rw [world_giveLogger, history_giveLogger, hexisting k' d other hd, Entry.firstFormat?_concat]
    have hold := h.first k' d other hd
    rw [Entry.formatOf?]
    by_cases hsame : d = c ∧ other = name
    · obtain ⟨rfl, rfl⟩ := hsame
      rw [if_pos ⟨rfl, rfl⟩, if_pos ⟨rfl, rfl⟩]
      rcases hmade with hfound | ⟨hnone, hformat⟩
      · rw [hfound] at hold
        cases hfirst : Entry.firstFormat? s.history d other with
        | none => simp [hfirst] at hold
        | some first =>
          rw [hfirst] at hold
          exact hold
      · rw [hnone] at hold
        cases hfirst : Entry.firstFormat? s.history d other with
        | none => exact congrArg some hformat
        | some first => simp [hfirst] at hold
    · rw [if_neg hsame, if_neg fun heq => hsame ⟨heq.1.symm, heq.2.symm⟩, Option.or_none]
      exact hold

/-- What becomes of the world is of no concern as long as its contexts have the same
loggers. -/
theorem Sound.move (h : Sound b s) (v : World) (realms : List Realm) (guards : List Realm.Guard)
    (reported : List Diagnostic) (hrealm : v.realm = realms.head?) (hnested : Nested guards realms)
    (hbackends : v.backends = s.world.backends) (hloggers : v.loggers = s.world.loggers)
    (hexisting : ∀ c name, Context.existing? v c name = c.existing? s.world name)
    (hhas : ∀ c m, Context.Has s.world c m → ∃ m', c.Has v m') :
    Sound b { s with world := v, realms := realms, guards := guards, reported := reported } := by
  have hknown := Backend.known?_congr (b := b) hbackends
  refine ⟨hrealm, hnested, h.indexed.congr hbackends hloggers hexisting hhas, fun c hc => ?_,
    h.loggers, fun k c hc => (hknown k).trans (h.given k c hc), fun realm c hc => ?_,
    fun c name format l hl => ?_, fun k c name hc => ?_, h.answered⟩
  · obtain ⟨k, hk⟩ := h.contexts c hc
    exact ⟨k, (hknown k).trans hk⟩
  · exact h.seen realm c ((hknown _).symm.trans hc)
  · obtain ⟨hc, hl⟩ := h.requested c name format l hl
    exact ⟨hc, (hexisting c name).trans hl⟩
  · rw [hexisting]
    exact h.first k c name ((hknown k).symm.trans hc)

/-- What leaves the index and the realm alone. -/
theorem Sound.keep (h : Sound b s) (v : World) (reported : List Diagnostic)
    (hindex : v.index = s.world.index) : Sound b { s with world := v, reported := reported } := by
  obtain ⟨hcontexts, hbackends, hloggers, hrealm⟩ := World.of_index_eq hindex
  refine h.move v s.realms s.guards reported (hrealm.trans h.realm) h.nested hbackends hloggers
    (fun c name => ?_) fun c m hm => ⟨m, hm.congr hcontexts⟩
  rw [Context.existing?, Context.existing?, World.contextState, World.contextState, hcontexts]

/-- What is added to the history without a request for a context or a logger. -/
theorem Sound.note (h : Sound b s) {entry : Entry}
    (hentry : (∃ c next, entry = .configured c next) ∨
      ∃ c ∈ s.contexts, ∃ name, entry = .hasLogger c name (c.hasLogger s.world name)) :
    Sound b { s with history := s.history ++ [entry] } := by
  have hformat (c : Context) (name : String) : entry.formatOf? c name = none := by
    rcases hentry with ⟨d, next, rfl⟩ | ⟨d, -, other, rfl⟩ <;> simp
  refine ⟨h.realm, h.nested, h.indexed, h.contexts, h.loggers, fun k c hc => ?_,
    fun realm c hc => List.mem_append_left _ (h.seen realm c hc), fun c name format l hl => ?_,
    fun k c name hc => ?_, fun before c name answer after hsplit => h.answered_concat hsplit ?_⟩
  · rcases List.mem_append.1 hc with hold | hnew
    · exact h.given k c hold
    · rcases hentry with ⟨d, next, rfl⟩ | ⟨d, -, other, rfl⟩ <;> contradiction
  · rcases List.mem_append.1 hl with hold | hnew
    · exact h.requested c name format l hold
    · rcases hentry with ⟨d, next, rfl⟩ | ⟨d, -, other, rfl⟩ <;> contradiction
  · rw [Entry.firstFormat?_concat, hformat, Option.or_none]
    exact h.first k c name hc
  · intro d other given heq
    rcases hentry with ⟨c, next, rfl⟩ | ⟨c, hc, name, rfl⟩
    · contradiction
    · obtain ⟨rfl, rfl, rfl⟩ := Entry.hasLogger.inj heq
      obtain ⟨k, hk⟩ := h.contexts c hc
      have hfirst := congrArg Option.isSome (h.first k c name hk)
      rwa [Option.isSome_map, Option.isSome_map] at hfirst

theorem Sound.configure (h : Sound b s) {c : Context} (hc : c ∈ s.contexts) (next : AppenderMap) :
    Sound b (s.configure c next) := by
  refine Sound.note (s := s.after ((c.configure next).run s.world)) ?_ (.inl ⟨c, next, rfl⟩)
  obtain ⟨k, hk⟩ := h.contexts c hc
  cases hkind : c.kind with
  | simple =>
    have hsame : ((c.configure next).run s.world).state = s.world := by
      rw [Context.configure, hkind]
      rfl
    exact h.keep _ _ (congrArg World.index hsame)
  | standard =>
    let v := s.world.updateContext c fun state => { state with table := next }
    have hpublished : Sound b { s with world := v } :=
      h.move v s.realms s.guards s.reported h.realm h.nested rfl rfl
        (fun d name => Context.existing?_publish d c next s.world name)
        fun d m hm => ⟨_, hm.publishIn c next⟩
    refine hpublished.keep _ _ ?_
    rw [Context.run_configure hkind]
    exact AppenderMap.keeps_index_replace _ next v

theorem Sound.enter (h : Sound b s) (realm : Realm) : Sound b (s.enter realm) :=
  h.move { s.world with realm := some realm } (realm :: s.realms) (⟨s.world.realm⟩ :: s.guards)
    (s.reported ++ []) rfl ⟨h.realm, h.nested⟩ rfl rfl (fun _ _ => rfl) fun _ m hm => ⟨m, hm⟩

theorem Sound.leave (h : Sound b s) : Sound b s.leave := by
  have hnested := h.nested
  unfold Client.leave
  cases hguards : s.guards with
  | nil => exact h
  | cons guard rest =>
    rw [hguards] at hnested
    exact h.move { s.world with realm := guard.previous } s.realms.tail rest (s.reported ++ [])
      hnested.1 hnested.2 rfl rfl (fun _ _ => rfl) fun _ m hm => ⟨m, hm⟩

theorem Sound.step (h : Sound b s) (r : Request) : Sound b (s.step b r) := by
  cases r with
  | context caller isolation global => exact h.giveContext caller isolation global
  | enter realm => exact h.enter realm
  | leave => exact h.leave
  | wait now => exact h.keep { s.world with now := now } s.reported rfl
  | logger place name format => exact keeps_placed h fun c hc => h.giveLogger hc name format
  | hasLogger place name => exact keeps_placed h fun c hc => h.note (.inr ⟨c, hc, name, rfl⟩)
  | configure place next => exact keeps_placed h fun c hc => h.configure hc next
  | log place call =>
    exact keeps_placed h fun l _ => h.keep _ _ (l.keeps_index_perform call s.world)

theorem Sound.run (h : Sound b s) (requests : List Request) : Sound b (s.run b requests) :=
  keeps_run (fun _ r hs => hs.step r) h requests

end Client

/-! ## Requests for another format -/

/-- The report that a logger has another format than it was asked for with. -/
def Diagnostic.isFormatIgnored : Diagnostic → Bool
  | .formatIgnored .. => true
  | _ => false

namespace Appender

variable {P : Diagnostic → Prop}

theorem reports_onFrame (a : Appender) (act : Frame Buffer → Frame Buffer × Attempt Unit) :
    Reports P (a.onFrame act) := by
  apply Traced.reports_get_bind
  intro w
  split
  · exact Traced.reports_of_silent fun _ => rfl
  · exact Traced.reports_pure _

theorem reports_append (a : Appender) (e : Event) : Reports P (a.append e) := by
  apply Traced.reports_get_bind
  intro w
  split
  · exact Traced.reports_of_silent fun _ => rfl
  · exact reports_onFrame a _

theorem reports_unpublish (h : ∀ name, P (.publicationEnded name)) (a : Appender) :
    Reports P a.unpublish := by
  apply Traced.reports_get_bind
  intro w
  split
  · split
    · exact Traced.reports_silent_bind (fun _ => rfl) fun _ => Traced.reports_report (h _)
    · exact Traced.reports_pure _
  · exact Traced.reports_pure _

theorem reports_stop (h : ∀ name, P (.publicationEnded name)) (a : Appender) :
    Reports P a.stop := by
  apply Traced.reports_get_bind
  intro w
  split
  · exact Traced.reports_of_silent fun _ => rfl
  · exact (reports_onFrame a _).bind fun _ =>
      (reports_unpublish h a).bind fun _ => Traced.reports_pure _
  · exact reports_onFrame a _

end Appender

/-- The report is about something else than the format of a logger. -/
def Diagnostic.Unrelated (x : Diagnostic) : Prop := x.isFormatIgnored = false

open Diagnostic (Unrelated)

namespace Logger

theorem reports_offer (l : Logger) (e : Event) (a : Appender) :
    Reports Unrelated (l.offer e a) := by
  refine (Appender.reports_append a e).bind fun result => ?_
  cases result with
  | ok _ => exact Traced.reports_pure _
  | error failure => exact Traced.reports_report rfl

theorem reports_logEvent (l : Logger) (e : Event) : Reports Unrelated (l.logEvent e) := by
  unfold logEvent
  split
  · cases l.context.kind with
    | standard =>
      apply Traced.reports_get_bind
      intro w
      exact Traced.Reports.forM fun a _ => reports_offer l e a
    | simple => exact Traced.reports_of_silent fun _ => rfl
  · exact Traced.reports_pure _

theorem reports_log (l : Logger) (level : Level) (message : String) :
    Reports Unrelated (l.log level message) := by
  unfold log
  split
  · apply Traced.reports_get_bind
    intro w
    exact reports_logEvent l _
  · exact Traced.reports_pure _

theorem reports_perform (l : Logger) (call : Client.Call) :
    Reports Unrelated (call.perform l) := by
  cases call with
  | message level text => exact reports_log l level text
  | filled level pattern arguments => exact reports_log l level _
  | event e => exact reports_logEvent l e

end Logger

theorem AppenderMap.reports_stopDropped (entry : String × Appender) :
    Reports Unrelated (stopDropped entry) := by
  refine (Appender.reports_stop (fun _ => rfl) entry.2).bind fun result => ?_
  cases result with
  | ok _ => exact Traced.reports_pure _
  | error failure => exact Traced.reports_report rfl

theorem Context.reports_configure (c : Context) (next : AppenderMap) :
    Reports Unrelated (c.configure next) := by
  unfold configure
  cases c.kind with
  | simple => exact Traced.reports_pure _
  | standard =>
    apply Traced.reports_get_bind
    intro w
    have hreplace : Reports Unrelated ((w.contextState c).table.replace next) :=
      Traced.Reports.bind
        (Traced.Reports.forM fun entry _ => AppenderMap.reports_stopDropped entry)
        fun _ => Traced.reports_pure _
    refine Traced.reports_silent_bind (fun _ => rfl) fun _ => hreplace.bind fun stopped => ?_
    have hpublished : Unrelated (.appendersPublished c.name next.size stopped) := rfl
    exact Traced.reports_report_bind hpublished (Traced.reports_pure _)

theorem Backend.reports_realmContext (b : Backend) (realm : Realm) :
    Reports Unrelated (b.realmContext realm) := by
  apply Traced.reports_get_bind
  intro w
  split
  · exact Traced.reports_pure _
  · have hcreated : Unrelated (.contextCreated realm) := rfl
    refine Traced.reports_report_bind hcreated ?_
    refine Traced.reports_silent_bind (fun _ => rfl) fun _ => ?_
    exact Traced.reports_silent_bind (fun _ => rfl) fun _ => Traced.reports_pure _

theorem Backend.reports_context (b : Backend) (caller : String) (isolation : Option Realm)
    (global : Bool) : Reports Unrelated (b.context caller isolation global) := by
  unfold context
  cases b.kind with
  | simple => exact Traced.reports_pure _
  | standard =>
    dsimp only
    split
    · exact Traced.reports_pure _
    · apply Traced.reports_get_bind
      intro w
      have hresolved : Unrelated (.contextResolved caller (requestedRealm w isolation)) := rfl
      exact Traced.reports_report_bind hresolved (reports_realmContext b _)

/-- A request for a logger reports nothing but that it asks in vain for a format. -/
theorem Context.diagnostics_logger (c : Context) (name : String) (format : Option MessageFormat)
    (w : World) :
    let o := (c.logger name format).run w
    o.diagnostics = match format with
      | some f =>
        if c.kind = .standard ∧ f.name ≠ o.value.format.name then
          [.formatIgnored o.value.name o.value.format.name f.name]
        else []
      | none => [] := by
  intro o
  have ho : o = (c.logger name format).run w := rfl
  rw [logger, Traced.run_bind_of_quiet (Traced.run_get w)] at ho
  have hreport : ∀ (l : Logger) (f : MessageFormat) (v : World),
      ((c.reportFormat l f >>= fun _ => (pure l : Traced World Logger)).run v).diagnostics =
        if c.kind = .standard ∧ f.name ≠ l.format.name then
          [.formatIgnored l.name l.format.name f.name]
        else [] := by
    intro l f v
    rw [Traced.diagnostics_bind, reportFormat, Traced.diagnostics_pure, List.append_nil]
    split <;> rfl
  cases hfound : c.existing? w name with
  | some l =>
    rw [hfound] at ho
    cases format with
    | none => rw [ho]; rfl
    | some f => rw [ho]; exact hreport l f w
  | none =>
    rw [hfound] at ho
    cases format with
    | none => rw [ho]; rfl
    | some f => rw [ho]; exact hreport _ f _

namespace Client
namespace Entry

/-- The warning that a request for a logger comes with. -/
def warning? : Entry → Option Diagnostic
  | .logger c _ (some format) l =>
    if c.kind = .standard ∧ format.name ≠ l.format.name then
      some (.formatIgnored l.name l.format.name format.name)
    else none
  | _ => none

/-- The realm of a request for a context that is not the global one. -/
def realm? : Entry → Option Realm
  | .context target _ => target
  | _ => none

end Entry

/-- The warnings among all diagnostics are those of the requests, in their order. -/
def Warned (s : Client) : Prop :=
  s.reported.filter Diagnostic.isFormatIgnored = s.history.filterMap Entry.warning?

variable {b : Backend} {s : Client}

/-- Nothing is warned of without a request for a logger. -/
theorem Warned.after {α : Type} (h : Warned s) {m : Traced World α} (hm : Reports Unrelated m) :
    Warned (s.after (m.run s.world)) := by
  have hnone : (m.run s.world).diagnostics.filter Diagnostic.isFormatIgnored = [] :=
    List.filter_eq_nil_iff.2 fun x hx => Bool.eq_false_iff.1 (hm s.world x hx)
  rw [Warned, Client.after, List.filter_append, hnone, List.append_nil]
  exact h

/-- Other requests come without a warning. -/
theorem Warned.note (h : Warned s) (entry : Entry) (hentry : entry.warning? = none) :
    Warned { s with history := s.history ++ [entry] } := by
  rw [Warned, List.filterMap_append, List.filterMap_cons_none hentry, List.filterMap_nil,
    List.append_nil]
  exact h

theorem Warned.giveLogger (h : Warned s) (c : Context) (name : String)
    (format : Option MessageFormat) : Warned (s.giveLogger c name format) := by
  have hnew : ((c.logger name format).run s.world).diagnostics.filter Diagnostic.isFormatIgnored =
      (Entry.logger c name format ((c.logger name format).run s.world).value).warning?.toList := by
    rw [Context.diagnostics_logger]
    cases format with
    | none => rfl
    | some f =>
      dsimp only [Entry.warning?]
      split <;> rfl
  rw [Warned, history_giveLogger, List.filterMap_append]
  have hreported : (s.giveLogger c name format).reported =
    s.reported ++ ((c.logger name format).run s.world).diagnostics := rfl
  rw [hreported, List.filter_append, hnew, h]
  rfl

theorem Warned.step (h : Warned s) (r : Request) : Warned (s.step b r) := by
  cases r with
  | context caller isolation global =>
    have hgiven := h.after (Backend.reports_context b caller isolation global)
    exact hgiven.note (.context _ _) rfl
  | enter realm =>
    have hquiet : Reports Unrelated (World.enterRealm realm) :=
      Traced.reports_of_silent fun _ => rfl
    exact h.after hquiet
  | leave =>
    rw [Client.step, Client.leave]
    cases s.guards with
    | nil => exact h
    | cons guard rest =>
      have hquiet : Reports Unrelated (World.leaveRealm guard) :=
        Traced.reports_of_silent fun _ => rfl
      exact h.after hquiet
  | wait now => exact h
  | logger place name format => exact keeps_placed h fun c _ => h.giveLogger c name format
  | hasLogger place name => exact keeps_placed h fun c _ => h.note (.hasLogger c _ _) rfl
  | configure place next =>
    exact keeps_placed h fun c _ =>
      (h.after (Context.reports_configure c next)).note (.configured c next) rfl
  | log place call => exact keeps_placed h fun l _ => h.after (Logger.reports_perform l call)

theorem Warned.run (h : Warned s) (requests : List Request) : Warned (s.run b requests) :=
  keeps_run (fun _ r hs => hs.step r) h requests

/-- A backend without realms has the global context alone. -/
theorem known?_of_no_realms {w : World} (hstored : w.backends.get? b.id = some ⟨[]⟩)
    {k : Option Realm} {c : Context} (hc : b.known? w k = some c) : k = none ∧ c = b.root := by
  cases k with
  | none => exact ⟨rfl, (Option.some.inj hc).symm⟩
  | some realm =>
    rw [Backend.known?, World.realms, hstored] at hc
    contradiction

/-- A client that has asked for nothing knows the global context alone. -/
theorem Sound.begin {w : World} (hroot : w.contexts.get? b.root.id = some .empty)
    (hstored : w.backends.get? b.id = some ⟨[]⟩) (hkind : b.root.kind = b.kind) :
    Sound b (begin w) := by
  have hknown {k : Option Realm} {c : Context} (hc : b.known? w k = some c) :
      k = none ∧ c = b.root := known?_of_no_realms hstored hc
  have hempty : ∀ name, b.root.existing? w name = none := by
    intro name
    rw [Context.existing?, World.contextState, hroot]
    rfl
  have hindexed : b.Indexed w := by
    refine ⟨by rw [hstored]; rfl, ?_, fun hc => ?_, fun hc => ?_, fun hc hc' _ => ?_,
      fun hc hl => ?_, fun hc _ hl _ _ => ?_⟩
    · rw [World.realms, hstored]
      exact List.nodup_nil
    · rw [(hknown hc).2, hkind]
    · rw [(hknown hc).2]
      exact ⟨.empty, Context.has_of_empty hroot⟩
    · rw [(hknown hc).1, (hknown hc').1]
    · rw [(hknown hc).2, hempty] at hl
      contradiction
    · rw [(hknown hc).2, hempty] at hl
      contradiction
  have hnothing (entry : Entry) : entry ∉ (Client.begin w).history := List.not_mem_nil
  refine ⟨?_, trivial, hindexed, fun c hc => ?_, fun l hl => ?_,
    fun k c hmem => absurd hmem (hnothing _), fun realm c hc => ?_,
    fun c name format l hmem => absurd hmem (hnothing _), fun k c name hc => ?_,
    fun before c name answer after hsplit => ?_⟩
  · exact (Option.head?_toList).symm
  · exact absurd hc List.not_mem_nil
  · exact absurd hl List.not_mem_nil
  · exact absurd (hknown hc).1 (Option.some_ne_none realm)
  · obtain ⟨-, rfl⟩ := hknown hc
    exact congrArg (Option.map Logger.format) (hempty name)
  · exact absurd hsplit.symm (List.append_ne_nil_of_right_ne_nil _ (List.cons_ne_nil _ _))

end Client

/-- A new backend of a kind. -/
def Backend.opened (implementation : String) (level : Level) : BackendKind → Traced World Backend
  | .standard => standardNamed implementation level
  | .simple => simple level

theorem Client.sound_opened (kind : BackendKind) (implementation : String) (level : Level)
    (w : World) :
    let o := (Backend.opened implementation level kind).run w
    Sound o.value (begin o.state) := by
  cases kind <;>
    exact Sound.begin (Store.get?_add_next _ _) (Store.get?_add_next _ _) rfl

/-- The realms that have a context are those that one was asked for. -/
theorem Client.Sound.length_realms {b : Backend} {s : Client} (h : Sound b s) :
    (s.world.realms b).length = (s.history.filterMap Entry.realm?).dedup.length := by
  have hmem : ∀ realm, realm ∈ (s.world.realms b).map Prod.fst ↔
      realm ∈ (s.history.filterMap Entry.realm?).dedup := by
    intro realm
    have hasked : realm ∈ s.history.filterMap Entry.realm? ↔
        ∃ c, .context (some realm) c ∈ s.history := by
      rw [List.mem_filterMap]
      constructor
      · rintro ⟨entry, hentry, hrealm⟩
        cases entry with
        | context target c =>
          obtain rfl : target = some realm := hrealm
          exact ⟨c, hentry⟩
        | logger c name format l => contradiction
        | hasLogger c name answer => contradiction
        | configured c next => contradiction
      · rintro ⟨c, hc⟩
        exact ⟨_, hc, rfl⟩
    rw [List.mem_dedup, hasked]
    constructor
    · intro hrealm
      have hsome : ((s.world.realms b).lookup realm).isSome = true := by
        obtain ⟨entry, hentry, rfl⟩ := List.mem_map.1 hrealm
        rw [Option.isSome_iff_ne_none, ne_eq, List.lookup_eq_none_iff]
        exact fun hnone => by simpa using hnone entry hentry
      obtain ⟨c, hc⟩ := Option.isSome_iff_exists.1 hsome
      exact ⟨c, h.seen realm c hc⟩
    · rintro ⟨c, hc⟩
      obtain ⟨before, after, hsplit, -⟩ := List.lookup_eq_some_iff.1 (h.given _ c hc)
      rw [hsplit]
      simp
  rw [← List.length_map Prod.fst]
  exact ((List.perm_ext_iff_of_nodup h.indexed.realms (List.nodup_dedup _)).2 hmem).length_eq

/-- Contexts are told apart by what they were asked for, and loggers by their context and
name, in whatever order a client makes its requests and whatever it does in between. A
logger keeps the format of the first request for it, and requests for another one are
warned of. -/
theorem Client.references_stay (kind : BackendKind) (implementation : String) (level : Level)
    (w : World) (requests : List Request) :
    let opened := (Backend.opened implementation level kind).run w
    let b := opened.value
    let s := (begin opened.state).run b requests
    (∀ k k' c c', .context k c ∈ s.history → .context k' c' ∈ s.history →
      (c.id = c'.id ↔ k = k') ∧ (k = k' → c = c')) ∧
    (s.world.realms b).length = (s.history.filterMap Entry.realm?).dedup.length ∧
    (∀ c c' n n' f f' l l', .logger c n f l ∈ s.history → .logger c' n' f' l' ∈ s.history →
      (l.id = l'.id ↔ c = c' ∧ n = n') ∧ (c = c' ∧ n = n' → l = l')) ∧
    (∀ c n f l, .logger c n f l ∈ s.history → l.name = n ∧ l.context = c ∧
      some l.format = (Entry.firstFormat? s.history c n).map fun first =>
        first.getD .parameterized) ∧
    (∀ before c n answer after, s.history = before ++ .hasLogger c n answer :: after →
      (answer = true ↔ ∃ f l, .logger c n f l ∈ before)) ∧
    s.reported.filter Diagnostic.isFormatIgnored = s.history.filterMap Entry.warning? := by
  intro opened b s
  have h : Sound b s := (sound_opened kind implementation level w).run requests
  have hwarned : Warned s := Warned.run (s := begin opened.state) rfl requests
  refine ⟨fun k k' c c' hc hc' => ?_, h.length_realms, fun c c' n n' f f' l l' hl hl' => ?_,
    fun c n f l hl => ?_, fun before c n answer after hsplit => ?_, hwarned⟩
  · have hk := h.given k c hc
    have hk' := h.given k' c' hc'
    have hsame : k = k' → c = c' := by
      rintro rfl
      exact Option.some.inj (hk.symm.trans hk')
    exact ⟨⟨h.indexed.distinct hk hk', fun heq => congrArg Context.id (hsame heq)⟩, hsame⟩
  · obtain ⟨hgiven, hthere⟩ := h.requested c n f l hl
    obtain ⟨hgiven', hthere'⟩ := h.requested c' n' f' l' hl'
    obtain ⟨k, hk⟩ := h.contexts c hgiven
    obtain ⟨k', hk'⟩ := h.contexts c' hgiven'
    have hsame : c = c' ∧ n = n' → l = l' := by
      rintro ⟨rfl, rfl⟩
      exact Option.some.inj (hthere.symm.trans hthere')
    exact ⟨⟨h.indexed.unique hk hk' hthere hthere', fun heq => congrArg Logger.id (hsame heq)⟩,
      hsame⟩
  · obtain ⟨hgiven, hthere⟩ := h.requested c n f l hl
    obtain ⟨k, hk⟩ := h.contexts c hgiven
    obtain ⟨m, hm⟩ := h.indexed.has hk
    have hfirst := h.first k c n hk
    rw [hthere] at hfirst
    exact ⟨(h.indexed.named hk hthere).2, (hm.existing? hthere).1, hfirst⟩
  · rw [h.answered before c n answer after hsplit]
    exact Entry.isSome_firstFormat?

/-- A realm of the global context's name has a context of its own, and an entered realm
is the one that callers without a realm are in. -/
example :
    let o := (Backend.standard .info).run (.initial 0 "main")
    let requests : List Client.Request :=
      [.context "" none true, .context "" (some "global") false, .enter "a",
        .context "" none false, .leave, .context "" (some "a") false, .context "" none false]
    ((Client.begin o.state).run o.value requests).contexts.map Context.id = [0, 1, 2, 2, 3] :=
  rfl

end LoggingFacade
