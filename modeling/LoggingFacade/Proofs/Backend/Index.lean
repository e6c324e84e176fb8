import LoggingFacade.Proofs.Backend.Client

/-!
# The index of a backend

A backend has a context of its own and one for each realm that a context was asked for,
and a context has the loggers that it was asked for by name. `Indexed` says that these
are told apart by their identities. A request for a context adds one at most, with no
loggers; a request for a logger adds one at most, in its own context; nothing is ever
taken out.
-/

namespace LoggingFacade

namespace Backend

/-- The context of a target, if it was made already. -/
def known? (w : World) (b : Backend) : Option Realm → Option Context
  | none => some b.root
  | some realm => (w.realms b).lookup realm

/-- The context that is made for a realm. -/
def newContext (w : World) (b : Backend) (realm : Realm) : Context :=
  ⟨w.contexts.next, .standard, realm, b.level⟩

/-- The world with that context. -/
def withContext (w : World) (b : Backend) (realm : Realm) : World :=
  { w with
    contexts := w.contexts.add .empty
    backends := w.backends.update b.id fun s => ⟨s.realms ++ [(realm, b.newContext w realm)]⟩ }

variable {w v : World} {b : Backend}

theorem run_realmContext (b : Backend) (realm : Realm) (w : World) :
    let o := (b.realmContext realm).run w
    (b.known? w (some realm) = some o.value ∧ o.state = w) ∨
      b.known? w (some realm) = none ∧ o.value = b.newContext w realm ∧
        o.state = b.withContext w realm := by
  intro o
  have ho : o = (b.realmContext realm).run w := rfl
  rw [realmContext, Traced.run_bind_of_quiet (Traced.run_get w)] at ho
  cases hfound : (w.realms b).lookup realm with
  | some c =>
    rw [hfound] at ho
    exact .inl (by rw [ho]; exact ⟨hfound, rfl⟩)
  | none =>
    rw [hfound] at ho
    exact .inr (by rw [ho]; exact ⟨hfound, rfl, rfl⟩)

/-- A request gives the context of its target, which it makes if there is none. -/
theorem run_context {realms : List Realm} (hrealm : w.realm = realms.head?)
    (caller : String) (isolation : Option Realm) (global : Bool) :
    let o := (b.context caller isolation global).run w
    let target := b.target realms isolation global
    (b.known? w target = some o.value ∧ o.state = w) ∨
      b.kind = .standard ∧ ∃ realm, target = some realm ∧ b.known? w target = none ∧
        o.value = b.newContext w realm ∧ o.state = b.withContext w realm := by
  unfold context target
  cases b.kind with
  | simple => exact .inl ⟨rfl, rfl⟩
  | standard =>
    cases global with
    | true => exact .inl ⟨rfl, rfl⟩
    | false =>
      have hrequested : (isolation.or realms.head?).getD Realm.default =
          requestedRealm w isolation := by rw [requestedRealm, hrealm]
      simp only [Bool.false_eq_true, if_false, hrequested]
      rcases run_realmContext b (requestedRealm w isolation) w with hfound | hnew
      · exact .inl hfound
      · exact .inr ⟨trivial, _, rfl, hnew⟩

/-- The contexts of a backend are told apart by their identities, and so are their
loggers, each of which belongs to the context that has it under its name. -/
structure Indexed (w : World) (b : Backend) : Prop where
  stored : (w.backends.get? b.id).isSome = true
  realms : ((w.realms b).map Prod.fst).Nodup
  kind : ∀ {k c}, b.known? w k = some c → c.kind = b.kind
  has : ∀ {k c}, b.known? w k = some c → ∃ m, c.Has w m
  distinct : ∀ {k k' c c'}, b.known? w k = some c → b.known? w k' = some c' → c.id = c'.id →
    k = k'
  named : ∀ {k c n l}, b.known? w k = some c → c.existing? w n = some l →
    l.id < w.loggers ∧ l.name = n
  unique : ∀ {k k' c c' n n' l l'}, b.known? w k = some c → b.known? w k' = some c' →
    c.existing? w n = some l → c'.existing? w n' = some l' → l.id = l'.id → c = c' ∧ n = n'

end Backend

namespace Context

variable {w : World} {c : Context}

/-- A context that is made holds as little as one that was never used. -/
theorem contextState_withContext (b : Backend) (realm : Realm) (w : World) (c : Context) :
    (b.withContext w realm).contextState c = w.contextState c := by
  unfold World.contextState Backend.withContext
  by_cases hid : c.id = w.contexts.next
  · rw [hid, Store.get?_add_next, Store.get?_next]
    rfl
  · rw [Store.get?_add_of_ne _ _ hid]

theorem existing?_withContext (b : Backend) (realm : Realm) (w : World) (c : Context)
    (name : String) : c.existing? (b.withContext w realm) name = c.existing? w name := by
  rw [existing?, existing?, contextState_withContext]

/-- The context that is made next has no loggers yet. -/
theorem existing?_newContext (b : Backend) (realm : Realm) (w : World) (name : String) :
    (b.newContext w realm).existing? w name = none := by
  have hnone : w.contexts.get? (b.newContext w realm).id = none := Store.get?_next _
  rw [existing?, World.contextState, hnone]
  rfl

theorem existing?_publish (c d : Context) (next : AppenderMap) (w : World) (name : String) :
    c.existing? (w.updateContext d fun s => { s with table := next }) name =
      c.existing? w name := by
  unfold existing? World.contextState World.updateContext
  by_cases hid : c.id = d.id
  · rw [hid, Store.get?_update_self]
    cases w.contexts.get? d.id <;> rfl
  · rw [Store.get?_update_of_ne _ _ hid]

/-- A new logger is the one of its name in its context from then on. -/
theorem existing?_addLogger {m : AppenderMap} (h : c.Has w m) {name : String}
    (hnew : c.existing? w name = none) (format : MessageFormat) (d : Context) (other : String) :
    let o := (c.addLogger name format).run w
    d.existing? o.state other =
      if d.id = c.id ∧ other = name then some o.value else d.existing? w other := by
  intro o
  obtain ⟨state, hstate, -, -⟩ := h
  have hcontexts : o.state.contexts = w.contexts.update c.id fun s =>
    { s with loggers := s.loggers ++ [(name, o.value)] } := rfl
  rw [existing?, World.contextState, hstate] at hnew
  unfold existing? World.contextState
  rw [hcontexts]
  by_cases hid : d.id = c.id
  · rw [hid, Store.get?_update_self, hstate]
    simp only [Option.map_some, Option.getD_some, true_and] at hnew ⊢
    rw [List.lookup_append]
    by_cases hname : other = name
    · rw [if_pos hname, hname, hnew]
      simp
    · rw [if_neg hname, TextMap.lookup_cons_eq, if_neg hname]
      simp
  · rw [Store.get?_update_of_ne _ _ hid, if_neg fun h => hid h.1]

theorem Has.get?_ne_next {m : AppenderMap} (h : c.Has w m) : c.id ≠ w.contexts.next := by
  obtain ⟨state, hstate, -, -⟩ := h
  obtain ⟨hlt, -⟩ := List.getElem?_eq_some_iff.1 hstate
  exact Nat.ne_of_lt hlt

theorem Has.withContext {m : AppenderMap} (h : c.Has w m) (b : Backend) (realm : Realm) :
    c.Has (b.withContext w realm) m := by
  have hne := h.get?_ne_next
  obtain ⟨state, hstate, hrest⟩ := h
  exact ⟨state, (Store.get?_add_of_ne _ _ hne).trans hstate, hrest⟩

/-- A context with an empty state has no appenders and no loggers. -/
theorem has_of_empty (h : w.contexts.get? c.id = some .empty) : c.Has w .empty :=
  ⟨.empty, h, rfl, fun _ hentry => absurd hentry List.not_mem_nil⟩

theorem has_newContext (b : Backend) (realm : Realm) (w : World) :
    (b.newContext w realm).Has (b.withContext w realm) .empty :=
  has_of_empty (Store.get?_add_next _ _)

/-- Only the context that is given a map has another one afterwards. -/
theorem Has.publishIn {m : AppenderMap} (h : c.Has w m) (d : Context) (next : AppenderMap) :
    c.Has (w.updateContext d fun s => { s with table := next })
      (if c.id = d.id then next else m) := by
  obtain ⟨state, hstate, htable, hloggers⟩ := h
  by_cases hid : c.id = d.id
  · refine ⟨{ state with table := next }, ?_, (if_pos hid).symm, hloggers⟩
    rw [World.updateContext, ← hid, Store.get?_update_self, hstate]
    rfl
  · refine ⟨state, ?_, htable.trans (if_neg hid).symm, hloggers⟩
    rw [World.updateContext, Store.get?_update_of_ne _ _ hid, hstate]

theorem Has.addLoggerIn {m : AppenderMap} (h : c.Has w m) {d : Context}
    (hsame : c.id = d.id → c = d) (name : String) (format : MessageFormat) :
    c.Has ((d.addLogger name format).run w).state m := by
  by_cases hid : c.id = d.id
  · rw [← hsame hid]
    exact h.addLogger name format
  · obtain ⟨state, hstate, hrest⟩ := h
    exact ⟨state, (Store.get?_update_of_ne _ _ hid).trans hstate, hrest⟩

end Context

/-! ## What keeps the index in order -/

namespace Backend

variable {w v : World} {b : Backend}

theorem realms_congr (h : v.backends = w.backends) : v.realms b = w.realms b := by
  rw [World.realms, World.realms, h]

theorem known?_of_realms (h : v.realms b = w.realms b) (k : Option Realm) :
    b.known? v k = b.known? w k := by
  cases k with
  | none => rfl
  | some realm => rw [known?, known?, h]

theorem known?_congr (h : v.backends = w.backends) (k : Option Realm) :
    b.known? v k = b.known? w k :=
  known?_of_realms (realms_congr h) k

/-- The index stays in order as long as the backend has the same contexts and those have
the same loggers. -/
theorem Indexed.of_realms (h : b.Indexed w) (hstored : (v.backends.get? b.id).isSome = true)
    (hrealms : v.realms b = w.realms b) (hloggers : v.loggers = w.loggers)
    (hexisting : ∀ c name, Context.existing? v c name = c.existing? w name)
    (hhas : ∀ c m, Context.Has w c m → ∃ m', c.Has v m') : b.Indexed v where
  stored := hstored
  realms := hrealms ▸ h.realms
  kind hc := h.kind (known?_of_realms hrealms _ ▸ hc)
  has hc := by
    obtain ⟨m, hm⟩ := h.has (known?_of_realms hrealms _ ▸ hc)
    exact hhas _ m hm
  distinct hc hc' := h.distinct (known?_of_realms hrealms _ ▸ hc)
    (known?_of_realms hrealms _ ▸ hc')
  named hc hl := by
    rw [hloggers]
    exact h.named (known?_of_realms hrealms _ ▸ hc) (hexisting _ _ ▸ hl)
  unique hc hc' hl hl' := h.unique (known?_of_realms hrealms _ ▸ hc)
    (known?_of_realms hrealms _ ▸ hc') (hexisting _ _ ▸ hl) (hexisting _ _ ▸ hl')

theorem Indexed.congr (h : b.Indexed w) (hbackends : v.backends = w.backends)
    (hloggers : v.loggers = w.loggers)
    (hexisting : ∀ c name, Context.existing? v c name = c.existing? w name)
    (hhas : ∀ c m, Context.Has w c m → ∃ m', c.Has v m') : b.Indexed v :=
  h.of_realms (hbackends ▸ h.stored) (realms_congr hbackends) hloggers hexisting hhas

theorem Indexed.of_contexts (h : b.Indexed w) (hcontexts : v.contexts = w.contexts)
    (hbackends : v.backends = w.backends) (hloggers : v.loggers = w.loggers) : b.Indexed v := by
  refine h.congr hbackends hloggers ?_ ?_
  · intro c name
    unfold Context.existing? World.contextState
    rw [hcontexts]
  · intro c m hm
    exact ⟨m, hm.congr hcontexts⟩

/-- A backend that is made leaves the others in order. -/
theorem Indexed.addBackend (h : b.Indexed w) (other : BackendState) :
    b.Indexed { w with
      contexts := w.contexts.add .empty
      backends := w.backends.add other } := by
  have hne : b.id ≠ w.backends.next := by
    intro hid
    have hstored := h.stored
    rw [hid, Store.get?_next] at hstored
    contradiction
  have hsame : (w.backends.add other).get? b.id = w.backends.get? b.id :=
    Store.get?_add_of_ne _ _ hne
  refine h.of_realms ?_ ?_ rfl ?_ ?_
  · rw [hsame]
    exact h.stored
  · rw [World.realms, hsame]
    rfl
  · exact Context.existing?_withContext b Realm.default w
  · intro c m hm
    exact ⟨m, hm.withContext b Realm.default⟩

/-- An identity stands for one context of the backend. -/
theorem Indexed.eq_of_id (h : b.Indexed w) {k k' : Option Realm} {c c' : Context}
    (hc : b.known? w k = some c) (hc' : b.known? w k' = some c') (hid : c.id = c'.id) : c = c' := by
  rw [h.distinct hc hc' hid, hc'] at hc
  exact (Option.some.inj hc).symm

theorem Indexed.realms_withContext (h : b.Indexed w) (realm : Realm) :
    (b.withContext w realm).realms b = w.realms b ++ [(realm, b.newContext w realm)] := by
  obtain ⟨state, hstate⟩ := Option.isSome_iff_exists.1 h.stored
  rw [World.realms, World.realms, withContext, Store.get?_update_self, hstate]
  rfl

theorem Indexed.known?_withContext (h : b.Indexed w) {realm : Realm}
    (hnew : b.known? w (some realm) = none) (k : Option Realm) :
    b.known? (b.withContext w realm) k =
      if k = some realm then some (b.newContext w realm) else b.known? w k := by
  cases k with
  | none => rfl
  | some other =>
    rw [known?] at hnew
    rw [known?, known?, h.realms_withContext, List.lookup_append, TextMap.lookup_cons_eq]
    by_cases hother : other = realm
    · simp [hother, hnew]
    · simp [hother]

/-- With a context of the realm that had none. -/
theorem Indexed.withContext (h : b.Indexed w) (hkind : b.kind = .standard) {realm : Realm}
    (hnew : b.known? w (some realm) = none) : b.Indexed (b.withContext w realm) := by
  have hknown := h.known?_withContext hnew
  have hcases : ∀ {k c}, b.known? (b.withContext w realm) k = some c →
      k = some realm ∧ c = b.newContext w realm ∨ b.known? w k = some c := by
    intro k c hc
    rw [hknown] at hc
    split at hc
    · rename_i hk
      exact .inl ⟨hk, (Option.some.inj hc).symm⟩
    · exact .inr hc
  have hid : ∀ {k c}, b.known? w k = some c → c.id ≠ (b.newContext w realm).id := fun hc =>
    (h.has hc).choose_spec.get?_ne_next
  have hexisting := Context.existing?_withContext b realm w
  have hempty := Context.existing?_newContext b realm w
  refine ⟨?_, ?_, fun hc => ?_, fun hc => ?_, fun hc hc' heq => ?_, fun hc hl => ?_,
    fun hc hc' hl hl' heq => ?_⟩
  · rw [Backend.withContext, Store.get?_update_self, Option.isSome_map]
    exact h.stored
  · rw [h.realms_withContext, List.map_append]
    refine List.nodup_append.2 ⟨h.realms, by simp, ?_⟩
    rintro r hr r' hr' rfl
    obtain ⟨entry, hentry, rfl⟩ := List.mem_map.1 hr
    have hrealm : entry.1 = realm := by simpa using hr'
    exact absurd hrealm.symm (bne_iff_ne.1 (List.lookup_eq_none_iff.1 hnew entry hentry))
  · rcases hcases hc with ⟨-, rfl⟩ | hold
    · exact hkind.symm
    · exact h.kind hold
  · rcases hcases hc with ⟨-, rfl⟩ | hold
    · exact ⟨_, Context.has_newContext b realm w⟩
    · obtain ⟨m, hm⟩ := h.has hold
      exact ⟨m, hm.withContext b realm⟩
  · rcases hcases hc with ⟨hk, rfl⟩ | hold <;> rcases hcases hc' with ⟨hk', rfl⟩ | hold'
    · rw [hk, hk']
    · exact absurd heq.symm (hid hold')
    · exact absurd heq (hid hold)
    · exact h.distinct hold hold' heq
  · rw [hexisting] at hl
    rcases hcases hc with ⟨-, rfl⟩ | hold
    · rw [hempty] at hl
      contradiction
    · exact h.named hold hl
  · rw [hexisting] at hl hl'
    rcases hcases hc with ⟨-, rfl⟩ | hold
    · rw [hempty] at hl
      contradiction
    · rcases hcases hc' with ⟨-, rfl⟩ | hold'
      · rw [hempty] at hl'
        contradiction
      · exact h.unique hold hold' hl hl' heq

/-- With a logger of a name that the context had none of. -/
theorem Indexed.addLogger (h : b.Indexed w) {k : Option Realm} {c : Context}
    (hc : b.known? w k = some c) {name : String} (hnew : c.existing? w name = none)
    (format : MessageFormat) : b.Indexed ((c.addLogger name format).run w).state := by
  let o := (c.addLogger name format).run w
  obtain ⟨m, hm⟩ := h.has hc
  have hexisting : ∀ d other, Context.existing? o.state d other =
      if d.id = c.id ∧ other = name then some o.value else d.existing? w other := fun d other =>
    Context.existing?_addLogger hm hnew format d other
  have hcases : ∀ {k' d other l}, b.known? w k' = some d → d.existing? o.state other = some l →
      (d = c ∧ other = name ∧ l = o.value) ∨ d.existing? w other = some l := by
    intro k' d other l hd hl
    rw [hexisting] at hl
    split at hl
    · rename_i hsame
      exact .inl ⟨h.eq_of_id hd hc hsame.1, hsame.2, (Option.some.inj hl).symm⟩
    · exact .inr hl
  have hid : o.value.id = w.loggers := rfl
  have hname : o.value.name = name := rfl
  have hcount : o.state.loggers = w.loggers + 1 := rfl
  refine ⟨h.stored, h.realms, h.kind, fun hd => ?_, h.distinct, fun hd hl => ?_,
    fun hd hd' hl hl' heq => ?_⟩
  · obtain ⟨m', hm'⟩ := h.has hd
    exact ⟨m', hm'.addLoggerIn (h.eq_of_id hd hc) name format⟩
  · rw [hcount]
    rcases hcases hd hl with ⟨-, rfl, rfl⟩ | hold
    · exact ⟨Nat.lt_succ_self _, rfl⟩
    · exact ⟨Nat.lt_succ_of_lt (h.named hd hold).1, (h.named hd hold).2⟩
  · rcases hcases hd hl with ⟨rfl, rfl, rfl⟩ | hold <;>
      rcases hcases hd' hl' with ⟨rfl, rfl, rfl⟩ | hold'
    · exact ⟨rfl, rfl⟩
    · have hlt := (h.named hd' hold').1
      omega
    · have hlt := (h.named hd hold).1
      omega
    · exact h.unique hd hd' hold hold' heq

/-! ## What requests do to the index -/

/-- A request for a context leaves all others as they were. -/
theorem Indexed.context (h : b.Indexed w) {realms : List Realm} (hrealm : w.realm = realms.head?)
    (caller : String) (isolation : Option Realm) (global : Bool) :
    let o := (b.context caller isolation global).run w
    let target := b.target realms isolation global
    b.Indexed o.state ∧ o.state.realm = w.realm ∧ b.known? o.state target = some o.value ∧
      (∀ k c, b.known? w k = some c → b.known? o.state k = some c) ∧
      (∀ k c, b.known? o.state k = some c → b.known? w k = some c ∨
        k = target ∧ c = o.value ∧ (∀ k', b.known? w k' ≠ some c) ∧
          ∀ name, c.existing? w name = none) ∧
      ∀ c name, Context.existing? o.state c name = c.existing? w name := by
  intro o target
  rcases run_context (b := b) hrealm caller isolation global with
    ⟨hknown, hstate⟩ | ⟨hkind, realm, htarget, hnew, hvalue, hstate⟩
  · change o.state = w at hstate
    rw [hstate]
    exact ⟨h, rfl, hknown, fun _ _ hc => hc, fun _ _ => .inl, fun _ _ => rfl⟩
  · change o.state = b.withContext w realm at hstate
    change o.value = b.newContext w realm at hvalue
    change target = some realm at htarget
    have hnone : b.known? w (some realm) = none := htarget ▸ hnew
    have hknown := h.known?_withContext hnone
    rw [hstate, hvalue, htarget]
    refine ⟨h.withContext hkind hnone, rfl, ?_, fun k c hc => ?_, fun k c hc => ?_,
      Context.existing?_withContext b realm w⟩
    · rw [hknown, if_pos rfl]
    · rw [hknown, if_neg, hc]
      rintro rfl
      rw [hnone] at hc
      contradiction
    · rw [hknown] at hc
      split at hc
      · rename_i hk
        obtain rfl := Option.some.inj hc
        refine .inr ⟨hk, rfl, fun k' hk' => ?_, Context.existing?_newContext b realm w⟩
        obtain ⟨m, hm⟩ := h.has hk'
        exact hm.get?_ne_next rfl
      · exact .inl hc

/-- A request for a logger gives the one of its name, whose format is the one asked for
if it was made by this request, and leaves all others as they were. -/
theorem Indexed.logger (h : b.Indexed w) {k : Option Realm} {c : Context}
    (hc : b.known? w k = some c) (name : String) (format : Option MessageFormat) :
    let o := (c.logger name format).run w
    b.Indexed o.state ∧ o.state.realm = w.realm ∧ o.state.backends = w.backends ∧
      o.value.context = c ∧ o.value.name = name ∧
      (c.existing? w name = some o.value ∨
        c.existing? w name = none ∧ o.value.format = format.getD .parameterized) ∧
      ∀ k' d other, b.known? w k' = some d → Context.existing? o.state d other =
        if d = c ∧ other = name then some o.value else d.existing? w other := by
  intro o
  obtain ⟨m, hm⟩ := h.has hc
  obtain ⟨hvalue, hstate⟩ := Context.run_logger c name format w
  change o.value = _ at hvalue
  change o.state = _ at hstate
  cases hfound : c.existing? w name with
  | some l =>
    rw [hfound] at hvalue hstate
    simp only [Option.isSome_some, if_true, Option.getD_some] at hvalue hstate
    rw [hvalue, hstate]
    refine ⟨h, rfl, rfl, (hm.existing? hfound).1, (h.named hc hfound).2, .inl rfl,
      fun k' d other hd => ?_⟩
    split
    · rename_i hsame
      rw [hsame.1, hsame.2, hfound]
    · rfl
  | none =>
    rw [hfound] at hvalue hstate
    simp only [Option.isSome_none, Bool.false_eq_true, if_false, Option.getD_none] at hvalue hstate
    rw [hvalue, hstate]
    refine ⟨h.addLogger hc hfound _, rfl, rfl, rfl, rfl, .inr ⟨rfl, rfl⟩, fun k' d other hd => ?_⟩
    rw [Context.existing?_addLogger hm hfound]
    have hsame : d.id = c.id ↔ d = c := ⟨h.eq_of_id hd hc, congrArg Context.id⟩
    simp only [hsame]

end Backend

end LoggingFacade
