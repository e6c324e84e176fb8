import LoggingFacade.Bootstrap
import LoggingFacade.Proofs.Backend.References
import LoggingFacade.Proofs.Plugin.Linked
import LoggingFacade.Proofs.Provider.Directories

/-!
# What linked code leaves alone

The plugins and the backends of a program are foreign to the bootstrap. It relies on them
for little. A factory may use the backend of the process, but it does not put another one in
its place, and what the backend has given out stays as it is. A backend that is made is in
order, and making it damages no other one. Then building components is as harmless as
factories are, and selection ends with a backend that is in order.
-/

namespace LoggingFacade

/-- Between two worlds the backend of the process stays, and stays in order. -/
structure World.Steady (w v : World) : Prop where
  selected : v.selected = w.selected
  indexed : ∀ s, w.selected = some s → s.backend.Indexed w → s.backend.Indexed v

namespace World.Steady

variable {u v w : World}

theorem refl (w : World) : w.Steady w := ⟨rfl, fun _ _ h => h⟩

theorem of_eq (h : v = w) : w.Steady v := h ▸ refl w

theorem trans (h : u.Steady v) (h' : v.Steady w) : u.Steady w := by
  refine ⟨h'.selected.trans h.selected, ?_⟩
  intro s hs hindexed
  exact h'.indexed s (h.selected.trans hs) (h.indexed s hs hindexed)

/-- Only contexts, loggers and backends matter, not what appenders hold. -/
theorem of_contexts (hselected : v.selected = w.selected) (hcontexts : v.contexts = w.contexts)
    (hbackends : v.backends = w.backends) (hloggers : v.loggers = w.loggers) : w.Steady v :=
  ⟨hselected, fun _ _ h => h.of_contexts hcontexts hbackends hloggers⟩

end World.Steady

/-- Between two worlds the backend of the process stays, and no backend is damaged. -/
structure World.Intact (w v : World) : Prop where
  selected : v.selected = w.selected
  indexed : ∀ b : Backend, b.Indexed w → b.Indexed v

namespace World.Intact

variable {u v w : World}

theorem refl (w : World) : w.Intact w := ⟨rfl, fun _ h => h⟩

theorem trans (h : u.Intact v) (h' : v.Intact w) : u.Intact w :=
  ⟨h'.selected.trans h.selected, fun b hb => h'.indexed b (h.indexed b hb)⟩

end World.Intact

/-- The backends that something came to are in order, and nothing else is damaged. -/
def Outcome.Provides {α : Type} (w : World) (o : Outcome World α) (backends : α → List Backend) :
    Prop :=
  w.Intact o.state ∧ ∀ b ∈ backends o.value, b.Indexed o.state

/-- What a bootstrap relies on. -/
structure Registrations.Careful (r : Registrations) : Prop where
  factory : ∀ p ∈ r.plugins, ∀ a, ∀ w : World, w.Steady ((p.factory a).run w).state
  create : ∀ e ∈ r.backends, ∀ w,
    (e.create.run w).Provides w fun attempt => attempt.done?.toList

/-! ## Building components -/

/-- Building declared components does no more than their plugins do. -/
theorem Registrations.Careful.report {r : Registrations} (h : r.Careful) (w : World)
    (ds : List Declaration) : w.Steady ((do ComponentReport.build (← r.binding) ds).run w).state := by
  have hbinding : (r.binding.run w).state = w := Binding.state_ofList r.plugins w
  rw [Traced.state_bind, hbinding, (ComponentReport.run_build _ ds w).2.2]
  apply Build.related_after .refl fun _ _ _ => .trans
  intro name p hp
  exact h.factory p (Binding.mem_of_lookup_ofList hp)

/-! ## Discovering backends -/

/-- The locator changes nothing, and the catalog runs careful code. -/
structure Registry.Careful (g : Registry World Backend) : Prop where
  sources : ∀ w, (g.locator.sources.run w).state = w
  instantiate : ∀ className source w,
    ((g.catalog.instantiate className source).run w).Provides w fun attempt =>
      attempt.done?.toList

namespace Registry

variable {g : Registry World Backend}

theorem Careful.make (h : g.Careful) (className source : String) (w : World) :
    ((g.instantiate className source).run w).Provides w fun result =>
      result.toOption.toList := by
  obtain ⟨hintact, hmade⟩ := h.instantiate className source w
  refine ⟨hintact, ?_⟩
  intro b hb
  cases hvalue : ((g.instantiate className source).run w).value with
  | error e =>
    rw [hvalue] at hb
    contradiction
  | ok made =>
    rw [hvalue] at hb
    obtain rfl := List.mem_singleton.1 hb
    have hdone := (g.value_instantiate className source w b).1 hvalue
    exact hmade b (Option.mem_toList.2 hdone)

theorem Careful.fulfil (h : g.Careful) (c : Claim) (w : World) :
    ((g.fulfil c).run w).Provides w fun result =>
      result.toOption.toList.map Descriptor.backend := by
  have hmake := h.make c.className c.source w
  rw [Registry.fulfil]
  unfold Outcome.Provides at hmake ⊢
  simp only [Traced.value_bind, Traced.state_bind]
  cases hmade : ((g.instantiate c.className c.source).run w).value with
  | error e => exact ⟨hmake.1, List.forall_mem_nil _⟩
  | ok b =>
    rw [hmade] at hmake
    exact hmake

theorem Careful.load (h : g.Careful) (s : Source) (w : World) :
    ((g.load s).run w).Provides w fun d => d.toList.map Descriptor.backend := by
  rw [Registry.load]
  cases s.examine with
  | broken e => exact ⟨.refl w, List.forall_mem_nil _⟩
  | passedOver reason => exact ⟨.refl w, List.forall_mem_nil _⟩
  | trusted c =>
    have hmade := h.fulfil c w
    unfold Outcome.Provides at hmade ⊢
    simp only [Traced.value_bind, Traced.state_bind]
    cases hd : ((g.fulfil c).run w).value with
    | error e => exact ⟨hmade.1, List.forall_mem_nil _⟩
    | ok d =>
      rw [hd] at hmade
      exact hmade

theorem mem_of_keep {β : Type} {d x : Descriptor β} {l : List (Descriptor β)}
    (h : x ∈ d.keep l) : x = d ∨ x ∈ l := by
  induction l with
  | nil => exact .inl (List.mem_singleton.1 h)
  | cons other rest ih =>
    rw [Descriptor.keep] at h
    grind

/-- The backends of all descriptors that are kept are in order in the end. -/
theorem Careful.gather (h : g.Careful) (sources : List Source) (kept : List (Descriptor Backend))
    (w : World) (hkept : ∀ d ∈ kept, d.backend.Indexed w) :
    ((g.gather kept sources).run w).Provides w fun ds => ds.map Descriptor.backend := by
  induction sources generalizing kept w with
  | nil =>
    refine ⟨.refl w, ?_⟩
    intro b hb
    obtain ⟨d, hd, rfl⟩ := List.mem_map.1 hb
    exact hkept d hd
  | cons s rest ih =>
    obtain ⟨hintact, hloaded⟩ := h.load s w
    rw [Registry.gather]
    unfold Outcome.Provides
    simp only [Traced.value_bind, Traced.state_bind]
    have hstill : ∀ d ∈ kept, d.backend.Indexed ((g.load s).run w).state := by
      intro d hd
      exact hintact.indexed _ (hkept d hd)
    cases hd : ((g.load s).run w).value with
    | none =>
      obtain ⟨hrest, hindexed⟩ := ih kept _ hstill
      exact ⟨hintact.trans hrest, hindexed⟩
    | some d =>
      rw [hd] at hloaded
      simp only [Traced.value_bind, Traced.state_bind, value_keep, state_keep]
      have hboth : ∀ x ∈ d.keep kept, x.backend.Indexed ((g.load s).run w).state := by
        intro x hx
        rcases mem_of_keep hx with rfl | hx
        · exact hloaded _ List.mem_cons_self
        · exact hstill x hx
      obtain ⟨hrest, hindexed⟩ := ih (d.keep kept) _ hboth
      exact ⟨hintact.trans hrest, hindexed⟩

theorem Careful.discover (h : g.Careful) (w : World) :
    (g.discover.run w).Provides w fun ds => ds.map Descriptor.backend := by
  have hsources : (g.sources.run w).state = w := by
    rw [Registry.sources, Traced.state_bind]
    cases hfound : (g.locator.sources.run w).value with
    | ok found => exact h.sources w
    | error e => exact h.sources w
  rw [Registry.discover]
  unfold Outcome.Provides
  simp only [Traced.value_bind, Traced.state_bind, hsources]
  exact h.gather _ [] w (List.forall_mem_nil _)

end Registry

/-! ## Selecting a backend -/

namespace Selector

variable {s : Selector World Backend}

theorem provides_selectOverride (h : s.registry.Careful) (w : World) :
    (s.selectOverride.run w).Provides w fun selected => selected.toList.map Selected.backend := by
  rw [selectOverride]
  cases s.overrideClass with
  | none => exact ⟨.refl w, List.forall_mem_nil _⟩
  | some className =>
    have hmake := h.make className overrideSource w
    unfold Outcome.Provides at hmake ⊢
    simp only [Traced.value_bind, Traced.state_bind]
    cases hmade : ((s.registry.instantiate className overrideSource).run w).value with
    | error e => exact ⟨hmake.1, List.forall_mem_nil _⟩
    | ok b =>
      rw [hmade] at hmake
      exact hmake

theorem provides_selectCandidate
    (hfallback : ∀ level w, ((s.fallback level).run w).Provides w fun b => [b])
    (candidates : List (Descriptor Backend)) (w : World)
    (hcandidates : ∀ b ∈ candidates.map Descriptor.backend, b.Indexed w) :
    ((s.selectCandidate candidates).run w).Provides w fun selected => [selected.backend] := by
  rw [selectCandidate, selectDiscovered]
  cases hlast : candidates.getLast? with
  | none => exact hfallback s.fallbackLevel w
  | some d =>
    have hmem : d.backend ∈ candidates.map Descriptor.backend :=
      List.mem_map_of_mem (List.mem_of_getLast? hlast)
    have hindexed : ∀ b ∈ [d.backend], b.Indexed w := by
      intro b hb
      rw [List.mem_singleton.1 hb]
      exact hcandidates _ hmem
    unfold Outcome.Provides
    simp only
    split
    · exact ⟨.refl w, hindexed⟩
    · exact ⟨.refl w, hindexed⟩

/-- Selection ends with a backend that is in order. -/
theorem provides_select (h : s.registry.Careful)
    (hfallback : ∀ level w, ((s.fallback level).run w).Provides w fun b => [b]) (w : World) :
    (s.select.run w).Provides w fun selected => [selected.backend] := by
  obtain ⟨hintact, hoverride⟩ := provides_selectOverride h w
  rw [select]
  unfold Outcome.Provides
  simp only [Traced.value_bind, Traced.state_bind]
  cases hselected : (s.selectOverride.run w).value with
  | some selected =>
    rw [hselected] at hoverride
    exact ⟨hintact, hoverride⟩
  | none =>
    obtain ⟨hlisted, hcandidates⟩ := h.discover (s.selectOverride.run w).state
    obtain ⟨hrest, hindexed⟩ := provides_selectCandidate hfallback _ _ hcandidates
    exact ⟨hintact.trans (hlisted.trans hrest), hindexed⟩

end Selector

/-! ## The facade's own part -/

theorem Backend.intact_opened (kind : BackendKind) (implementation : String) (level : Level)
    (w : World) : w.Intact ((Backend.opened implementation level kind).run w).state := by
  cases kind with
  | standard => exact ⟨rfl, fun _ h => h.addBackend ⟨[]⟩⟩
  | simple => exact ⟨rfl, fun _ h => h.addBackend ⟨[]⟩⟩

theorem Backend.provides_opened (kind : BackendKind) (implementation : String) (level : Level)
    (w : World) : ((Backend.opened implementation level kind).run w).Provides w fun b => [b] := by
  refine ⟨intact_opened kind implementation level w, ?_⟩
  intro b hb
  rw [List.mem_singleton.1 hb]
  exact (Client.sound_opened kind implementation level w).indexed

namespace Locator

theorem state_linked (records : List Source) (w : World) :
    ((Locator.linked records).sources.run w).state = w := rfl

theorem state_directories (roots : List SearchRoot) (w : World) :
    ((Locator.directories roots).sources.run w).state = w :=
  congrArg Outcome.state (run_directories roots w)

theorem state_chained {locators : List (Locator World)} {w : World}
    (h : ∀ l ∈ locators, (l.sources.run w).state = w) :
    ((Locator.chained locators).sources.run w).state = w := by
  have hall : ((chainedSources locators).run w).state = w := by
    induction locators with
    | nil => rfl
    | cons l rest ih =>
      have hrest := ih fun m hm => h m (List.mem_cons_of_mem l hm)
      rw [chainedSources, Traced.state_bind, h l List.mem_cons_self]
      split
      · exact hrest
      · exact hrest
  exact hall

end Locator

namespace Registrations.Careful

variable {r : Registrations}

theorem registry (hr : r.Careful) (h : Host) (c : ManagerConfig) :
    (Bootstrap.selector r h c).registry.Careful where
  sources w := by
    apply Locator.state_chained
    intro l hl
    rcases List.mem_append.1 hl with hlinked | hsearched
    · split at hlinked
      · rw [List.mem_singleton.1 hlinked]
        exact Locator.state_linked r.records w
      · contradiction
    · split at hsearched
      · contradiction
      · rw [List.mem_singleton.1 hsearched]
        exact Locator.state_directories _ w
  instantiate className source w := by
    have hcatalog : (Bootstrap.selector r h c).registry.catalog = .linked r.backends := rfl
    rw [hcatalog, Catalog.linked]
    dsimp only
    cases hentry : BackendEntry.lookup r.backends className with
    | none => exact ⟨.refl w, List.forall_mem_nil _⟩
    | some entry =>
      have hcreate := hr.create entry (List.mem_of_find?_eq_some hentry) w
      unfold Outcome.Provides at hcreate ⊢
      simp only [Traced.value_bind, Traced.state_bind]
      cases hmade : (entry.create.run w).value with
      | done b =>
        rw [hmade] at hcreate
        exact hcreate
      | failed e => exact ⟨hcreate.1, List.forall_mem_nil _⟩
      | crashed => exact ⟨hcreate.1, List.forall_mem_nil _⟩

/-- The process selects a backend that is in order. -/
theorem provides_select (hr : r.Careful) (h : Host) (c : ManagerConfig) (w : World) :
    ((Bootstrap.selector r h c).select.run w).Provides w fun selected => [selected.backend] :=
  Selector.provides_select (hr.registry h c)
    (fun level w => Backend.provides_opened .simple "" level w) w

end Registrations.Careful

/-- The plugins and the backend of the facade are careful. -/
theorem Registrations.careful_standard : Registrations.standard.Careful where
  factory p hp a w := by
    change p ∈ Plugin.linked at hp
    simp only [Plugin.linked, List.mem_cons, List.not_mem_nil, or_false] at hp
    rcases hp with rfl | rfl | rfl | rfl
    · exact .of_eq (Plugin.state_xml a w)
    · rw [Plugin.factory_console]
      cases Plugin.consoleSettings a with
      | error e => exact .refl w
      | ok settings => exact .of_contexts rfl rfl rfl rfl
    · rw [Plugin.factory_memory]
      cases a.requiredText "name" with
      | error e => exact .refl w
      | ok name =>
        have hstate := (Appender.run_publishedMemory name (a.layout? "layout") w).2
        simp only [Traced.state_bind, hstate]
        exact .of_contexts rfl rfl rfl rfl
    · exact .of_eq (Plugin.state_appenderSet a w)
  create e he w := by
    rw [List.mem_singleton.1 he]
    exact Backend.provides_opened .standard Backend.standardClass Backend.standardLevel w

end LoggingFacade
