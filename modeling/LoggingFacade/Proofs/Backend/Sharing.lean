import LoggingFacade.Proofs.Backend.References

/-!
# Appenders that contexts share

A map of appenders may be given to several contexts. Each table decides alone what to
stop: a new map stops what the table had and the new map has not, whether another table
has it or not. So an appender of a table in force can be stopped, but only by a call that
takes it out of a table; and as long as no call takes out what some table has afterwards,
all appenders of all tables are open.
-/

namespace LoggingFacade

namespace Client

/-- The map of a context after an entry of the history, from the one before it. -/
def Entry.tableAfter (c : Context) (before : AppenderMap) : Entry → AppenderMap
  | .configured d next => if d = c then next else before
  | _ => before

/-- The map that a context was given last. -/
def tableOf (history : List Entry) (c : Context) : AppenderMap :=
  history.foldl (Entry.tableAfter c) .empty

/-- Whether a call takes an appender out of the table of its context. -/
def Entry.drops (history : List Entry) (a : Appender) : Entry → Bool
  | .configured c next => ((tableOf history c).dropped next).any fun e => e.2.id = a.id
  | _ => false

/-- Whether one of the calls after a history takes an appender out of a table. -/
def dropped (a : Appender) (history : List Entry) : List Entry → Bool
  | [] => false
  | entry :: rest => entry.drops history a || dropped a (history ++ [entry]) rest

/-- A map that is to be put in force has only appenders that are open. -/
def Request.opens (w : World) : Request → Bool
  | .configure _ next => next.appenders.all (Appender.isOpen w)
  | _ => true

/-- Each map that is put in force has only appenders that are open at that moment. -/
def opensOnly (b : Backend) (s : Client) : List Request → Bool
  | [] => true
  | r :: rest => r.opens s.world && opensOnly b (s.step b r) rest

variable {b : Backend} {s t : Client} {a : Appender} {c : Context} {history more : List Entry}

theorem tableOf_concat (history : List Entry) (entry : Entry) (c : Context) :
    tableOf (history ++ [entry]) c = entry.tableAfter c (tableOf history c) := by
  simp [tableOf]

theorem dropped_append (a : Appender) (history first second : List Entry) :
    dropped a history (first ++ second) =
      (dropped a history first || dropped a (history ++ first) second) := by
  induction first generalizing history with
  | nil => simp [dropped]
  | cons entry rest ih => simp [dropped, ih, Bool.or_assoc]

/-- What was taken out was taken out by a certain call. -/
theorem exists_drops {calls : List Entry} (h : dropped a history calls = true) :
    ∃ before c next after, calls = before ++ .configured c next :: after ∧
      Entry.drops (history ++ before) a (.configured c next) = true := by
  induction calls generalizing history with
  | nil => contradiction
  | cons entry rest ih =>
    rw [dropped, Bool.or_eq_true] at h
    rcases h with hhere | hlater
    · cases entry with
      | configured c next => exact ⟨[], c, next, rest, rfl, by rwa [List.append_nil]⟩
      | context target given => contradiction
      | logger c name format given => contradiction
      | hasLogger c name answer => contradiction
    · obtain ⟨before, c, next, after, hrest, hdrops⟩ := ih hlater
      refine ⟨entry :: before, c, next, after, by rw [hrest, List.cons_append], ?_⟩
      rw [List.append_assoc] at hdrops
      exact hdrops

/-! ## Entries that configure nothing -/

theorem tableOf_append (history : List Entry) (hnone : ∀ next, .configured c next ∉ more) :
    tableOf (history ++ more) c = tableOf history c := by
  rw [tableOf, List.foldl_append, ← tableOf]
  generalize tableOf history c = m
  induction more with
  | nil => rfl
  | cons entry rest ih =>
    have hsame : entry.tableAfter c m = m := by
      cases entry with
      | configured d next =>
        refine if_neg ?_
        rintro rfl
        exact hnone next List.mem_cons_self
      | context target given => rfl
      | logger d name format given => rfl
      | hasLogger d name answer => rfl
    rw [List.foldl_cons, hsame]
    exact ih fun next hmem => hnone next (List.mem_cons_of_mem entry hmem)

theorem dropped_eq_false (hnone : ∀ c next, .configured c next ∉ more) :
    dropped a history more = false := by
  refine Bool.eq_false_iff.2 fun hdropped => ?_
  obtain ⟨before, c, next, after, hsplit, -⟩ := exists_drops hdropped
  exact hnone c next (hsplit ▸ List.mem_append_right _ List.mem_cons_self)

/-! ## Runs -/

/-- The tables are those that were given last, and an appender of a table is stopped if it
was taken out of a table since, by the call that gave the table or a later one. -/
structure Served (b : Backend) (s : Client) : Prop where
  tables : ∀ k c, b.known? s.world k = some c → c.Has s.world (tableOf s.history c)
  owned : ∀ c next, .configured c next ∈ s.history → c ∈ s.contexts
  ready : ∀ c, ∀ a ∈ (tableOf s.history c).appenders, a.refuses s.world = false
  since : ∀ c, ∀ a ∈ (tableOf s.history c).appenders, ∃ before after,
    s.history = before ++ .configured c (tableOf s.history c) :: after ∧
    (∀ next, .configured c next ∉ after) ∧ ∀ stopped, a.stopped? s.world = some stopped →
      stopped = dropped a before (.configured c (tableOf s.history c) :: after)

/-- Nothing is configured and nothing is stopped. -/
structure Calm (s t : Client) : Prop where
  history : ∃ more, t.history = s.history ++ more ∧ ∀ c next, .configured c next ∉ more
  contexts : s.contexts ⊆ t.contexts
  stopped : ∀ a : Appender, a.stopped? t.world = a.stopped? s.world
  refuses : ∀ a : Appender, a.refuses t.world = a.refuses s.world

theorem Calm.tableOf (h : Calm s t) (c : Context) : tableOf t.history c = tableOf s.history c := by
  obtain ⟨more, hhistory, hnone⟩ := h.history
  rw [hhistory, tableOf_append _ (hnone c)]

theorem Calm.of_devices (hhistory : ∃ more, t.history = s.history ++ more ∧
    ∀ c next, .configured c next ∉ more) (hcontexts : s.contexts ⊆ t.contexts)
    (hdevices : t.world.devices = s.world.devices) : Calm s t :=
  ⟨hhistory, hcontexts, Appender.stopped?_congr hdevices, Appender.refuses_congr hdevices⟩

theorem Served.calm (h : Served b s) (hcalm : Calm s t)
    (htables : ∀ k c, b.known? t.world k = some c → c.Has t.world (tableOf s.history c)) :
    Served b t := by
  obtain ⟨more, hhistory, hnone⟩ := hcalm.history
  refine ⟨fun k c hc => ?_, fun c next hnext => ?_, fun c a ha => ?_, fun c a ha => ?_⟩
  · rw [hcalm.tableOf]
    exact htables k c hc
  · rw [hhistory] at hnext
    rcases List.mem_append.1 hnext with hold | hnew
    · exact hcalm.contexts (h.owned c next hold)
    · exact absurd hnew (hnone c next)
  · rw [hcalm.tableOf] at ha
    rw [hcalm.refuses]
    exact h.ready c a ha
  · rw [hcalm.tableOf] at ha ⊢
    obtain ⟨before, after, hsplit, hlast, hstopped⟩ := h.since c a ha
    refine ⟨before, after ++ more, ?_, fun next hnext => ?_, fun stopped ha => ?_⟩
    · exact hhistory.trans ((congrArg (· ++ more) hsplit).trans (List.append_assoc ..))
    · rcases List.mem_append.1 hnext with hold | hnew
      · exact hlast next hold
      · exact hnone c next hnew
    · rw [hcalm.stopped] at ha
      rw [← List.cons_append, dropped_append, dropped_eq_false hnone, Bool.or_false]
      exact hstopped stopped ha

/-- A context that was not given out has no table yet. -/
theorem Served.tableOf_eq_empty (h : Served b s) (hsound : Sound b s)
    (hnew : ∀ k, b.known? s.world k ≠ some c) : tableOf s.history c = .empty := by
  refine tableOf_append [] fun next hnext => ?_
  obtain ⟨k, hk⟩ := hsound.contexts c (h.owned c next hnext)
  exact hnew k hk

theorem Served.giveContext (h : Served b s) (hsound : Sound b s) (caller : String)
    (isolation : Option Realm) (global : Bool) :
    Served b (s.giveContext b caller isolation global) := by
  obtain ⟨-, -, -, -, hcases, -⟩ :=
    hsound.indexed.context hsound.realm caller isolation global
  have hcalm (hdevices : ((b.context caller isolation global).run s.world).state.devices =
      s.world.devices) : Calm s (s.giveContext b caller isolation global) :=
    .of_devices ⟨_, history_giveContext .., by simp⟩ (List.subset_append_left _ _) hdevices
  rcases Backend.run_context (b := b) hsound.realm caller isolation global with
    ⟨-, hstate⟩ | ⟨-, realm, -, -, hvalue, hstate⟩
  · refine h.calm (hcalm (by rw [hstate])) fun k c hc => ?_
    rw [world_giveContext, hstate] at hc ⊢
    exact h.tables k c hc
  · refine h.calm (hcalm (by rw [hstate]; rfl)) fun k c hc => ?_
    rw [world_giveContext] at hc ⊢
    rcases hcases k c hc with hold | ⟨-, hmade, hnew, -⟩
    · rw [hstate]
      exact (h.tables k c hold).withContext b realm
    · rw [h.tableOf_eq_empty hsound hnew, hstate, hmade, hvalue]
      exact Context.has_newContext b realm s.world

theorem Served.giveLogger (h : Served b s) (hsound : Sound b s) {c : Context}
    (hc : c ∈ s.contexts) (name : String) (format : Option MessageFormat) :
    Served b (s.giveLogger c name format) := by
  obtain ⟨k, hk⟩ := hsound.contexts c hc
  have hcalm (hdevices : ((c.logger name format).run s.world).state.devices =
      s.world.devices) : Calm s (s.giveLogger c name format) :=
    .of_devices ⟨_, history_giveLogger .., by simp⟩ (List.Subset.refl _) hdevices
  obtain ⟨-, hstate⟩ := Context.run_logger c name format s.world
  split at hstate
  · refine h.calm (hcalm (by rw [hstate])) fun k' d hd => ?_
    rw [world_giveLogger, hstate] at hd ⊢
    exact h.tables k' d hd
  · refine h.calm (hcalm (by rw [hstate]; rfl)) fun k' d hd => ?_
    rw [world_giveLogger, hstate] at hd ⊢
    exact (h.tables k' d hd).addLoggerIn (hsound.indexed.eq_of_id hd hk) name _

/-- What leaves the contexts alone, and configures and stops nothing. -/
theorem Served.keep (h : Served b s) (hcalm : Calm s t)
    (hcontexts : t.world.contexts = s.world.contexts)
    (hbackends : t.world.backends = s.world.backends) : Served b t :=
  h.calm hcalm fun k c hc =>
    (h.tables k c ((Backend.known?_congr hbackends k).symm.trans hc)).congr hcontexts

/-- A call stops exactly what it takes out of the table of its context. -/
theorem Served.stopped?_configure (h : Served b s) {k : Option Realm}
    (hk : b.known? s.world k = some c) (hkind : c.kind = .standard) (next : AppenderMap)
    (a : Appender) :
    a.stopped? (s.configure c next).world = (a.stopped? s.world).map fun stopped =>
      stopped || Entry.drops s.history a (.configured c next) := by
  rw [world_configure, Context.run_configure hkind, AppenderMap.run_replace,
    Appender.stopped?_stopAll, (h.tables k c hk).table]
  rfl

theorem Served.refuses_configure {c : Context} (hkind : c.kind = .standard) (next : AppenderMap)
    (a : Appender) : a.refuses (s.configure c next).world = a.refuses s.world := by
  rw [world_configure, Context.run_configure hkind, AppenderMap.run_replace]
  exact Appender.keeps_refuses_stopAll _ a _

theorem Served.tables_configure (h : Served b s) (hsound : Sound b s) {k : Option Realm}
    (hk : b.known? s.world k = some c) (hkind : c.kind = .standard) (next : AppenderMap)
    (k' : Option Realm) (d : Context) (hd : b.known? (s.configure c next).world k' = some d) :
    d.Has (s.configure c next).world (tableOf (s.configure c next).history d) := by
  let v := s.world.updateContext c fun state => { state with table := next }
  have hindex : (s.configure c next).world.index = v.index := by
    rw [world_configure, Context.run_configure hkind]
    exact AppenderMap.keeps_index_replace _ next v
  obtain ⟨hcontexts, hbackends, -, -⟩ := World.of_index_eq hindex
  have hold : b.known? s.world k' = some d := (Backend.known?_congr hbackends k').symm.trans hd
  have hhas := ((h.tables k' d hold).publishIn c next).congr hcontexts
  have hsame : d.id = c.id ↔ c = d :=
    ⟨fun hid => (hsound.indexed.eq_of_id hold hk hid).symm, fun heq => heq ▸ rfl⟩
  rw [history_configure, tableOf_concat, Entry.tableAfter]
  simp only [hsame] at hhas
  exact hhas

theorem Served.configure (h : Served b s) (hsound : Sound b s) (hkind : b.kind = .standard)
    {c : Context} (hc : c ∈ s.contexts) {next : AppenderMap}
    (hopen : ∀ a ∈ next.appenders, a.isOpen s.world = true) : Served b (s.configure c next) := by
  obtain ⟨k, hk⟩ := hsound.contexts c hc
  have hstandard : c.kind = .standard := (hsound.indexed.kind hk).trans hkind
  have hstopped := h.stopped?_configure hk hstandard next
  have htable : ∀ d, tableOf (s.configure c next).history d =
      if c = d then next else tableOf s.history d := fun d => by
    rw [history_configure, tableOf_concat]
    rfl
  refine ⟨h.tables_configure hsound hk hstandard next, fun d m hm => ?_, fun d a ha => ?_,
    fun d a ha => ?_⟩
  · rcases List.mem_append.1 hm with hold | hnew
    · exact h.owned d m hold
    · obtain ⟨rfl, -⟩ := Entry.configured.inj (List.mem_singleton.1 hnew)
      exact hc
  · rw [htable] at ha
    rw [Served.refuses_configure hstandard]
    split at ha
    · have hready := hopen a ha
      simp only [Appender.isOpen, Bool.and_eq_true, Bool.not_eq_true'] at hready
      exact hready.2
    · exact h.ready d a ha
  · rw [htable] at ha ⊢
    split at ha
    -- the appenders of the new map were open, so only this very call can have stopped them
    · rename_i hsame
      refine ⟨s.history, [], ?_, fun _ => List.not_mem_nil, fun stopped hresult => ?_⟩
      · rw [if_pos hsame, ← hsame, history_configure]
      · have hready := hopen a ha
        simp only [Appender.isOpen, Bool.and_eq_true, Bool.not_eq_true',
          Appender.isStopped_eq] at hready
        rw [hstopped] at hresult
        obtain ⟨earlier, hearlier, rfl⟩ := Option.map_eq_some_iff.1 hresult
        rw [hearlier] at hready
        rw [if_pos hsame, ← hsame, dropped, dropped, Bool.or_false]
        exact congrArg (· || _) hready.1
    -- the other tables stay, and this call is one more that may take out what they have
    · rename_i hother
      obtain ⟨before, after, hsplit, hlast, hstatus⟩ := h.since d a ha
      refine ⟨before, after ++ [.configured c next], ?_, fun m hm => ?_, fun stopped hresult => ?_⟩
      · rw [if_neg hother]
        exact (congrArg (· ++ _) hsplit).trans (List.append_assoc ..)
      · rcases List.mem_append.1 hm with hold | hnew
        · exact hlast m hold
        · exact hother (Entry.configured.inj (List.mem_singleton.1 hnew)).1.symm
      · rw [hstopped] at hresult
        obtain ⟨earlier, hearlier, rfl⟩ := Option.map_eq_some_iff.1 hresult
        rw [if_neg hother, ← List.cons_append, dropped_append, ← hstatus earlier hearlier, ← hsplit,
          dropped, dropped, Bool.or_false]

theorem Served.step (h : Served b s) (hsound : Sound b s) (hkind : b.kind = .standard)
    {r : Request} (hopen : r.opens s.world = true) : Served b (s.step b r) := by
  have hnothing : ∃ more, s.history = s.history ++ more ∧
      ∀ c next, Entry.configured c next ∉ more :=
    ⟨[], (List.append_nil _).symm, fun _ _ => List.not_mem_nil⟩
  have hgiven := List.Subset.refl s.contexts
  cases r with
  | context caller isolation global => exact h.giveContext hsound caller isolation global
  | enter realm => exact h.keep (.of_devices hnothing hgiven rfl) rfl rfl
  | leave =>
    rw [Client.step, Client.leave]
    cases s.guards with
    | nil => exact h
    | cons guard rest => exact h.keep (.of_devices hnothing hgiven rfl) rfl rfl
  | wait now => exact h.keep (.of_devices hnothing hgiven rfl) rfl rfl
  | logger place name format => exact keeps_placed h fun c hc => h.giveLogger hsound hc name format
  | hasLogger place name =>
    refine keeps_placed h fun c _ => ?_
    have hanswer : ∃ more, (s.answer c name).history = s.history ++ more ∧
        ∀ c next, Entry.configured c next ∉ more := ⟨_, rfl, by simp⟩
    exact h.keep (.of_devices hanswer hgiven rfl) rfl rfl
  | configure place next =>
    exact keeps_placed h fun c hc => h.configure hsound hkind hc (List.all_eq_true.1 hopen)
  | log place call =>
    refine keeps_placed h fun l _ => ?_
    obtain ⟨hcontexts, hbackends, -, -⟩ := World.of_index_eq (l.keeps_index_perform call s.world)
    have hcalm : Calm s (s.log l call) :=
      ⟨hnothing, hgiven, fun a => l.keeps_stopped?_perform a call s.world,
        fun a => l.keeps_refuses_perform a call s.world⟩
    exact h.keep hcalm hcontexts hbackends

theorem Served.run (h : Served b s) (hsound : Sound b s) (hkind : b.kind = .standard)
    {requests : List Request} (hopen : opensOnly b s requests = true) :
    Served b (s.run b requests) := by
  induction requests generalizing s with
  | nil => exact h
  | cons r rest ih =>
    rw [opensOnly, Bool.and_eq_true] at hopen
    exact ih (h.step hsound hkind hopen.1) (hsound.step r) hopen.2

theorem served_opened (implementation : String) (level : Level) (w : World) :
    let o := (Backend.standardNamed implementation level).run w
    Served o.value (begin o.state) := by
  intro o
  refine ⟨fun k c hc => ?_, fun _ _ hnext => absurd hnext List.not_mem_nil,
    fun _ _ ha => absurd ha List.not_mem_nil, fun _ _ ha => absurd ha List.not_mem_nil⟩
  obtain ⟨-, rfl⟩ := known?_of_no_realms (Store.get?_add_next _ _) hc
  exact Context.has_of_empty (Store.get?_add_next _ _)

theorem tableOf_split {table : AppenderMap} {before after : List Entry}
    (hlast : ∀ next, .configured c next ∉ after) :
    tableOf (before ++ .configured c table :: after) c = table := by
  have hsplit : before ++ .configured c table :: after =
    before ++ [.configured c table] ++ after := by simp
  rw [hsplit, tableOf_append _ hlast, tableOf_concat]
  exact if_pos rfl

/-- If no call takes out what a table has afterwards, then nothing of a table in force was
taken out since it was given. -/
theorem dropped_eq_false_of_kept {table : AppenderMap} {before after : List Entry}
    (hlast : ∀ next, .configured c next ∉ after) (ha : a ∈ table.appenders)
    (hkept : ∀ first d next rest,
      before ++ .configured c table :: after = first ++ .configured d next :: rest →
      ∀ c, ∀ a ∈ (tableOf (first ++ [.configured d next]) c).appenders,
        Entry.drops first a (.configured d next) = false) :
    dropped a before (.configured c table :: after) = false := by
  refine Bool.eq_false_iff.2 fun hdropped => ?_
  obtain ⟨first, d, next, rest, hsplit, hdrops⟩ := exists_drops hdropped
  have hhistory : before ++ .configured c table :: after =
      before ++ first ++ .configured d next :: rest := by rw [hsplit, List.append_assoc]
  have htable : tableOf (before ++ first ++ [.configured d next]) c = table := by
    cases first with
    | nil =>
      rw [List.append_nil, ← List.head_eq_of_cons_eq hsplit]
      exact tableOf_split fun _ => List.not_mem_nil
    | cons entry others =>
      obtain ⟨rfl, rfl⟩ := List.cons.inj hsplit
      rw [List.append_assoc]
      refine tableOf_split fun m hm => hlast m ?_
      rcases List.mem_append.1 hm with hm | hm
      · exact List.mem_append_left _ hm
      · rw [List.mem_singleton.1 hm]
        exact List.mem_append_right _ List.mem_cons_self
  have hfalse := hkept _ d next rest hhistory c a (htable ▸ ha)
  rw [hdrops] at hfalse
  contradiction

/-- An appender of a table in force is stopped if it can be and was taken out of a table
since that map was given, by the call that gave it or by one for another context, and a
logger reports exactly the stopped ones. If no call takes out what a table has afterwards,
all appenders of all tables are open. -/
theorem stopped_iff_dropped (implementation : String) (level : Level) (w : World)
    (requests : List Request) :
    let opened := (Backend.standardNamed implementation level).run w
    let b := opened.value
    let s := (begin opened.state).run b requests
    opensOnly b (begin opened.state) requests = true →
    (∀ c ∈ s.contexts,
      let table := (s.world.contextState c).table
      ∀ a ∈ table.appenders, ∃ before after, s.history = before ++ .configured c table :: after ∧
        (∀ next, .configured c next ∉ after) ∧ a.isStopped s.world =
          ((a.frame? s.world).isSome && dropped a before (.configured c table :: after))) ∧
    (∀ l ∈ s.loggers, ∀ e, l.isEnabled e.level = true →
      ((l.logEvent e).run s.world).diagnostics =
        ((s.world.contextState l.context).table.appenders.filter
          (Appender.isStopped s.world)).map fun a =>
            .appendFailed l.name a.name (.appender a.name Frame.isStopped)) ∧
    ((∀ before c next after, s.history = before ++ .configured c next :: after →
        ∀ d, ∀ a ∈ (tableOf (before ++ [.configured c next]) d).appenders,
          Entry.drops before a (.configured c next) = false) →
      ∀ c ∈ s.contexts, ∀ a ∈ (s.world.contextState c).table.appenders,
        a.isOpen s.world = true) := by
  intro opened b s hopen
  have hsound : Sound b s := (sound_opened .standard implementation level w).run requests
  have hserved : Served b s := (served_opened implementation level w).run
    (sound_opened .standard implementation level w) rfl hopen
  have htable : ∀ c ∈ s.contexts, (s.world.contextState c).table = tableOf s.history c := by
    intro c hc
    obtain ⟨k, hk⟩ := hsound.contexts c hc
    exact (hserved.tables k c hk).table
  have hstopped : ∀ c, ∀ a ∈ (tableOf s.history c).appenders, ∃ before after,
      s.history = before ++ .configured c (tableOf s.history c) :: after ∧
      (∀ next, .configured c next ∉ after) ∧ a.isStopped s.world =
        ((a.frame? s.world).isSome &&
          dropped a before (.configured c (tableOf s.history c) :: after)) := by
    intro c a ha
    obtain ⟨before, after, hsplit, hlast, hstatus⟩ := hserved.since c a ha
    refine ⟨before, after, hsplit, hlast, ?_⟩
    cases hframe : a.frame? s.world with
    | none =>
      rw [Appender.isStopped, hframe]
      rfl
    | some f =>
      rw [Appender.isStopped, hframe]
      exact hstatus f.stopped (by rw [Appender.stopped?, hframe]; rfl)
  refine ⟨fun c hc => ?_, fun l hl e he => ?_, fun hkept c hc a ha => ?_⟩
  · rw [htable c hc]
    exact hstopped c
  · have hc := hsound.loggers l hl
    obtain ⟨k, hk⟩ := hsound.contexts _ hc
    rw [Logger.run_logEvent (hsound.indexed.kind hk), ← Logger.isEnabled, if_pos he]
    refine Logger.diagnostics_offers l e fun a ha => hserved.ready l.context a ?_
    rwa [← htable _ hc]
  · rw [htable c hc] at ha
    obtain ⟨before, after, hsplit, hlast, hstatus⟩ := hstopped c a ha
    have hdropped : dropped a before (.configured c (tableOf s.history c) :: after) = false := by
      refine dropped_eq_false_of_kept hlast ha ?_
      rw [← hsplit]
      exact hkept
    rw [Appender.isOpen, hstatus, hdropped, hserved.ready c a ha, Bool.and_false]
    rfl

/-- Two contexts are given one map, and then the first is given an empty one: no call puts
a stopped appender in force, and still the second context is left with one, and its logger
reports a lost event. -/
theorem shared_appender_stopped :
    let m := (Appender.memory "m" none).run (.initial 0 "main")
    let opened := (Backend.standard .info).run m.state
    let one := AppenderMap.empty.insert "m" m.value
    let requests : List Request := [.context "" (some "a") false, .context "" (some "b") false,
      .configure 0 one, .configure 1 one, .configure 0 .empty, .logger 1 "app" none,
      .log 0 (.message .error "lost")]
    let s := (begin opened.state).run opened.value requests
    opensOnly opened.value (begin opened.state) requests = true ∧
      ¬(∀ c ∈ s.contexts, ∀ a ∈ (s.world.contextState c).table.appenders,
        a.isStopped s.world = false) ∧
      s.reported.getLast? = some (.appendFailed "app" "m" (.appender "m" Frame.isStopped)) := by
  refine ⟨rfl, ?_, ?_⟩
  · decide +kernel
  · decide +kernel

/-- In the same run, the appender of the second context was taken out of the table of the
first. -/
theorem stopped_iff_dropped_shared :
    let m := (Appender.memory "m" none).run (.initial 0 "main")
    let opened := (Backend.standard .info).run m.state
    let one := AppenderMap.empty.insert "m" m.value
    let requests : List Request := [.context "" (some "a") false, .context "" (some "b") false,
      .configure 0 one, .configure 1 one, .configure 0 .empty]
    let s := (begin opened.state).run opened.value requests
    opensOnly opened.value (begin opened.state) requests = true ∧
      ∀ c ∈ s.contexts, ∀ a ∈ (s.world.contextState c).table.appenders, ∃ before after,
        s.history = before ++ .configured c (s.world.contextState c).table :: after ∧
        (∀ next, .configured c next ∉ after) ∧ a.isStopped s.world =
          ((a.frame? s.world).isSome &&
            dropped a before (.configured c (s.world.contextState c).table :: after)) := by
  intro m opened one requests s
  exact ⟨rfl, (stopped_iff_dropped Backend.standardClass .info m.state requests rfl).1⟩

end Client
end LoggingFacade
