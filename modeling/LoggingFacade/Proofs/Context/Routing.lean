import LoggingFacade.Backend.Routing

/-!
# Requests to a standard context

What a standard context does for one request: a logger of it offers an event that the
threshold lets through to each appender of the map in force; a new map takes the place
of the one in force, and the appenders it drops are stopped; a logger that is asked
for is one of the context, with its threshold.
-/

namespace LoggingFacade

namespace Logger

theorem run_logEvent {l : Logger} (hkind : l.context.kind = .standard) (e : Event) (w : World) :
    (l.logEvent e).run w =
      if e.level.isEnabledAt l.level then
        ((w.contextState l.context).table.appenders.forM (l.offer e)).run w
      else ⟨(), w, []⟩ := by
  rw [logEvent, isEnabled]
  split
  · rw [hkind]
    exact Traced.run_bind_of_quiet (Traced.run_get w) _
  · rfl

/-- To log a message is to log an event of this moment. -/
theorem run_log {l : Logger} (hkind : l.context.kind = .standard) (level : Level)
    (message : String) (w : World) :
    (l.log level message).run w =
      (l.logEvent (.create w.thread w.now l.name level message)).run w := by
  rw [log]
  split
  · exact Traced.run_bind_of_quiet (Traced.run_get w) _
  · rename_i hdisabled
    rw [run_logEvent hkind]
    exact (if_neg hdisabled).symm

end Logger

namespace Context

theorem run_configure {c : Context} (hkind : c.kind = .standard) (next : AppenderMap)
    (w : World) :
    let v := w.updateContext c fun s => { s with table := next }
    let o := ((w.contextState c).table.replace next).run v
    (c.configure next).run w =
      ⟨true, o.state, o.diagnostics ++ [.appendersPublished c.name next.size o.value]⟩ := by
  intro v o
  rw [configure, hkind]
  simp only
  rw [Traced.run_bind_of_quiet (Traced.run_get w), Traced.run_bind_of_quiet (Traced.run_set w v)]
  rw [Traced.run_bind, Traced.run_bind]
  rfl

theorem state_reportFormat (c : Context) (l : Logger) (requested : MessageFormat) (w : World) :
    ((c.reportFormat l requested).run w).state = w := by
  rw [reportFormat]
  split <;> rfl

/-- The context has this map in force, and all its loggers are its own. -/
def Has (w : World) (c : Context) (m : AppenderMap) : Prop :=
  ∃ state, w.contexts.get? c.id = some state ∧ state.table = m ∧
    ∀ entry ∈ state.loggers, entry.2.context = c ∧ entry.2.level = c.level

variable {w : World} {c : Context} {m : AppenderMap}

theorem Has.table (h : c.Has w m) : (w.contextState c).table = m := by
  obtain ⟨state, hstate, htable, -⟩ := h
  rw [World.contextState, hstate]
  exact htable

theorem Has.publish (h : c.Has w m) (next : AppenderMap) :
    c.Has (w.updateContext c fun s => { s with table := next }) next := by
  obtain ⟨state, hstate, -, hloggers⟩ := h
  refine ⟨{ state with table := next }, ?_, rfl, hloggers⟩
  rw [World.updateContext, Store.get?_update_self, hstate]
  rfl

theorem Has.congr {v : World} (h : c.Has w m) (hcontexts : v.contexts = w.contexts) :
    c.Has v m := by
  rw [Has, hcontexts]
  exact h

theorem Has.existing? (h : c.Has w m) {name : String} {l : Logger}
    (hfound : c.existing? w name = some l) : l.context = c ∧ l.level = c.level := by
  obtain ⟨state, hstate, -, hloggers⟩ := h
  rw [Context.existing?, World.contextState, hstate] at hfound
  obtain ⟨before, after, hmem, -⟩ := List.lookup_eq_some_iff.1 hfound
  exact hloggers (name, l) (by rw [Option.getD_some] at hmem; simp [hmem])

theorem Has.addLogger (h : c.Has w m) (name : String) (format : MessageFormat) :
    c.Has ((c.addLogger name format).run w).state m := by
  obtain ⟨state, hstate, htable, hloggers⟩ := h
  let added : Logger := ⟨w.loggers, name, c.level, format, c⟩
  refine ⟨{ state with loggers := state.loggers ++ [(name, added)] },
    (Store.get?_update_self _ _ _).trans (by rw [hstate]; rfl), htable, fun entry he => ?_⟩
  rcases List.mem_append.1 he with hold | hnew
  · exact hloggers entry hold
  · rw [List.mem_singleton.1 hnew]
    exact ⟨rfl, rfl⟩

/-- The logger of a name is the existing one or a new one; nothing else is done. -/
theorem run_logger (c : Context) (name : String) (requested : Option MessageFormat) (w : World) :
    let o := (c.logger name requested).run w
    let added := (c.addLogger name (requested.getD .parameterized)).run w
    o.value = (c.existing? w name).getD added.value ∧
      o.state = if (c.existing? w name).isSome then w else added.state := by
  intro o added
  have ho : o = (c.logger name requested).run w := rfl
  rw [logger, Traced.run_bind_of_quiet (Traced.run_get w)] at ho
  cases hfound : c.existing? w name with
  | some l =>
    rw [hfound] at ho
    cases requested with
    | none => rw [ho]; exact ⟨rfl, rfl⟩
    | some format => rw [ho]; exact ⟨rfl, state_reportFormat c l format w⟩
  | none =>
    rw [hfound] at ho
    cases requested with
    | none => rw [ho]; exact ⟨rfl, rfl⟩
    | some format => rw [ho]; exact ⟨rfl, state_reportFormat c _ format _⟩

/-- The logger of a name is one of the context, whether it was there before or is new. -/
theorem Has.logger (h : c.Has w m) (name : String) (requested : Option MessageFormat) :
    let o := (c.logger name requested).run w
    c.Has o.state m ∧ o.value.context = c ∧ o.value.level = c.level ∧
      o.state.devices = w.devices ∧ ∀ target, o.state.stream target = w.stream target := by
  intro o
  obtain ⟨hvalue, hstate⟩ := run_logger c name requested w
  change o.value = _ at hvalue
  change o.state = _ at hstate
  cases hfound : c.existing? w name with
  | some l =>
    rw [hfound] at hvalue hstate
    rw [hvalue, hstate]
    exact ⟨h, (h.existing? hfound).1, (h.existing? hfound).2, rfl, fun _ => rfl⟩
  | none =>
    rw [hfound] at hvalue hstate
    rw [hvalue, hstate]
    refine ⟨h.addLogger name _, rfl, rfl, rfl, fun target => ?_⟩
    cases target <;> rfl

end Context

theorem AppenderMap.run_replace (previous next : AppenderMap) (w : World) :
    (previous.replace next).run w =
      ⟨(previous.dropped next).length, (((previous.dropped next).forM stopDropped).run w).state,
        (((previous.dropped next).forM stopDropped).run w).diagnostics⟩ := by
  rw [replace, Traced.run_bind, Traced.run_pure, List.append_nil]

end LoggingFacade
