import LoggingFacade.Proofs.Provider.Discovery
import LoggingFacade.Registrations

/-!
# Catalogs that keep to their answers

With a catalog whose answers do not depend on what it was asked before, the
usable sources alone decide what discovery finds. Other sources change nothing,
wherever they stand.
-/

namespace LoggingFacade

section Steady

variable {σ β γ : Type}

/-- Whatever was asked before, the catalog answers with a backend that looks the
same, or with none. -/
def Catalog.Steady (c : Catalog σ β) (view : β → γ) (answer : String → String → Option γ) :
    Prop :=
  ∀ w className source, (c.made? w className source).map view = answer className source

variable {r : Registry σ β} {view : β → γ} {answer : String → String → Option γ}

theorem Catalog.Steady.yields {c : Catalog σ β} (h : c.Steady view answer) (w : σ) (s : Source)
    (e : Descriptor γ) :
    s.Yields answer e ↔ ∃ d, s.Yields (c.made? w) d ∧ d.map view = e := by
  constructor
  · rintro ⟨hclaims, hanswer⟩
    rw [← h w] at hanswer
    obtain ⟨backend, hmade, hview⟩ := Option.map_eq_some_iff.1 hanswer
    refine ⟨⟨backend, e.className, e.apiVersion, e.priority, e.source⟩, ⟨hclaims, hmade⟩, ?_⟩
    rw [Descriptor.map, hview]
  · rintro ⟨d, ⟨hclaims, hmade⟩, rfl⟩
    refine ⟨hclaims, ?_⟩
    have hanswer := h w d.className d.source
    rw [hmade] at hanswer
    exact hanswer.symm

theorem Catalog.Steady.yieldsAt (h : r.catalog.Steady view answer) (w : σ) (sources : List Source)
    (i : Nat) (e : Descriptor γ) : (∃ s, sources[i]? = some s ∧ s.Yields answer e) ↔
      ∃ d, r.YieldsAt w sources i d ∧ d.map view = e := by
  constructor
  · rintro ⟨s, hs, hyields⟩
    obtain ⟨d, hd, hview⟩ := (h.yields (r.after (sources.take i) w) s e).1 hyields
    exact ⟨d, ⟨s, hs, hd⟩, hview⟩
  · rintro ⟨d, ⟨s, hs, hd⟩, hview⟩
    exact ⟨s, hs, (h.yields _ s e).2 ⟨d, hd, hview⟩⟩

theorem Catalog.Steady.view_load (h : r.catalog.Steady view answer) {r' : Registry σ β}
    (hcatalog : r'.catalog = r.catalog) (s : Source) (w w' : σ) :
    ((r.load s).run w).value.map (Descriptor.map view) =
      ((r'.load s).run w').value.map (Descriptor.map view) := by
  ext e
  rw [Option.map_eq_some_iff, Option.map_eq_some_iff]
  simp only [Registry.value_load, hcatalog]
  rw [← h.yields w, ← h.yields w']

theorem Catalog.Steady.load_of_not_usable (h : r.catalog.Steady view answer) {s : Source}
    (hs : ¬s.Usable answer) (w : σ) : ((r.load s).run w).value = none := by
  rw [Option.eq_none_iff_forall_ne_some]
  intro d hd
  exact hs ⟨_, (h.yields w s _).2 ⟨d, (r.value_load s w d).1 hd, rfl⟩⟩

/-- The lists differ in unusable sources only, which stand anywhere in them. -/
inductive Source.SameUsable (answer : String → String → Option γ) :
    List Source → List Source → Prop
  | nil : SameUsable answer [] []
  | both (s : Source) {l m : List Source} :
      SameUsable answer l m → SameUsable answer (s :: l) (s :: m)
  | left {s : Source} {l m : List Source} :
      ¬s.Usable answer → SameUsable answer l m → SameUsable answer (s :: l) m
  | right {s : Source} {l m : List Source} :
      ¬s.Usable answer → SameUsable answer l m → SameUsable answer l (s :: m)

theorem Source.SameUsable.refl (answer : String → String → Option γ) (l : List Source) :
    SameUsable answer l l := by
  induction l with
  | nil => exact .nil
  | cons s l ih => exact .both s ih

/-- Runs over the same usable sources keep descriptors that look the same. -/
theorem Catalog.Steady.view_gather (h : r.catalog.Steady view answer) {r' : Registry σ β}
    (hcatalog : r'.catalog = r.catalog) {l m : List Source}
    (hsame : Source.SameUsable answer l m) {kept kept' : List (Descriptor β)}
    (hkept : kept.map (Descriptor.map view) = kept'.map (Descriptor.map view)) (w w' : σ) :
    ((r.gather kept l).run w).value.map (Descriptor.map view) =
      ((r'.gather kept' m).run w').value.map (Descriptor.map view) := by
  induction hsame generalizing kept kept' w w' with
  | nil => exact hkept
  | both s hsame ih =>
    have hload := h.view_load hcatalog s w w'
    rw [Registry.gather, Registry.gather, Traced.value_bind, Traced.value_bind]
    cases hd : ((r.load s).run w).value with
    | none =>
      rw [hd, Option.map_none, eq_comm, Option.map_eq_none_iff] at hload
      rw [hload]
      exact ih hkept _ _
    | some d =>
      rw [hd, Option.map_some, eq_comm, Option.map_eq_some_iff] at hload
      obtain ⟨d', hd', hview⟩ := hload
      rw [hd']
      simp only [Traced.value_bind, Registry.value_keep]
      apply ih
      rw [Descriptor.map_keep, Descriptor.map_keep, hview, hkept]
  | left hs hsame ih =>
    rw [Registry.gather, Traced.value_bind, h.load_of_not_usable hs]
    exact ih hkept _ _
  | right hs hsame ih =>
    have h' : r'.catalog.Steady view answer := hcatalog ▸ h
    rw [Registry.gather, Traced.value_bind, h'.load_of_not_usable hs]
    exact ih hkept _ _

theorem Catalog.Steady.view_discover (h : r.catalog.Steady view answer) {r' : Registry σ β}
    (hcatalog : r'.catalog = r.catalog) {w w' : σ} {l m : List Source}
    (hl : (r.locator.sources.run w).value = .ok l)
    (hm : (r'.locator.sources.run w').value = .ok m) (hsame : Source.SameUsable answer l m) :
    (r.discover.run w).value.map (Descriptor.map view) =
      (r'.discover.run w').value.map (Descriptor.map view) := by
  rw [r.value_discover_of_ok hl, r'.value_discover_of_ok hm]
  exact h.view_gather hcatalog hsame rfl _ _

/-- The locator finds the same whenever it is asked. -/
def Locator.Steady (l : Locator σ) (found : Except Error (List Source)) : Prop :=
  ∀ w, (l.sources.run w).value = found

/-- Discovery lists the same from any state. -/
theorem Catalog.Steady.view_discover_of_steady (h : r.catalog.Steady view answer)
    {found : Except Error (List Source)} (hlocator : r.locator.Steady found) (w w' : σ) :
    (r.discover.run w).value.map (Descriptor.map view) =
      (r.discover.run w').value.map (Descriptor.map view) := by
  cases found with
  | error e =>
    rw [r.value_discover_of_error (hlocator w), r.value_discover_of_error (hlocator w')]
  | ok sources =>
    exact h.view_discover rfl (hlocator w) (hlocator w') (.refl answer sources)

/-- The descriptor is that of the last usable source of its priority. -/
def Source.YieldLast (answer : String → String → Option γ) (sources : List Source)
    (e : Descriptor γ) : Prop :=
  ∃ (i : Nat) (s : Source), sources[i]? = some s ∧ s.Yields answer e ∧
    ∀ (j : Nat) (t : Source) (later : Descriptor γ), i < j → sources[j]? = some t →
      t.Yields answer later → later.priority ≠ e.priority

theorem Catalog.Steady.mem_gather (h : r.catalog.Steady view answer) (sources : List Source)
    (w : σ) {d : Descriptor β} (hd : d ∈ ((r.gather [] sources).run w).value) :
    Source.YieldLast answer sources (d.map view) := by
  obtain ⟨i, hi, hlater⟩ := (r.mem_gather sources w d).1 hd
  obtain ⟨s, hs, hyields⟩ := (h.yieldsAt w sources i (d.map view)).2 ⟨d, hi, rfl⟩
  refine ⟨i, s, hs, hyields, ?_⟩
  intro j t e hlt ht he
  obtain ⟨d', hd', rfl⟩ := (h.yieldsAt w sources j e).1 ⟨t, ht, he⟩
  exact hlater j d' hlt hd'

theorem Catalog.Steady.priority_gather (h : r.catalog.Steady view answer)
    (sources : List Source) (w : σ) (p : Int) :
    (∃ d ∈ ((r.gather [] sources).run w).value, d.priority = p) ↔
      ∃ s ∈ sources, ∃ e, s.Yields answer e ∧ e.priority = p := by
  constructor
  · rintro ⟨d, hd, rfl⟩
    obtain ⟨i, s, hs, hyields, -⟩ := h.mem_gather sources w hd
    exact ⟨s, List.mem_of_getElem? hs, _, hyields, rfl⟩
  · rintro ⟨s, hs, e, hyields, rfl⟩
    obtain ⟨i, hi⟩ := List.mem_iff_getElem?.1 hs
    obtain ⟨d, hd, rfl⟩ := (h.yieldsAt w sources i e).1 ⟨s, hi, hyields⟩
    exact r.exists_mem_gather sources w hd

/-- Discovery lists descriptors in ascending order, none if the sources cannot
be found. A priority is listed exactly if a usable source has it, with what the
last such source says and the backend that is the answer for its class; sources
that are not usable may be added and left out anywhere. -/
theorem Registry.discover_lists_last_usable (h : r.catalog.Steady view answer) (w : σ) :
    let kept := (r.discover.run w).value
    kept.Pairwise (fun d e => d.priority < e.priority) ∧
    (∀ e, (r.locator.sources.run w).value = .error e → kept = []) ∧
    ∀ sources, (r.locator.sources.run w).value = .ok sources →
      (∀ p, (∃ d ∈ kept, d.priority = p) ↔
        ∃ s ∈ sources, ∃ e, s.Yields answer e ∧ e.priority = p) ∧
      (∀ d ∈ kept, Source.YieldLast answer sources (d.map view)) ∧
      ∀ (locator : Locator σ) (w' : σ) (others : List Source),
        (locator.sources.run w').value = .ok others →
        Source.SameUsable answer sources others →
        ((Registry.mk locator r.catalog).discover.run w').value.map (Descriptor.map view) =
          kept.map (Descriptor.map view) := by
  intro kept
  refine ⟨r.ranked_discover w, ?_, ?_⟩
  · intro e he
    exact r.value_discover_of_error he
  · intro sources hsources
    have hkept : kept = ((r.gather [] sources).run (r.locator.sources.run w).state).value :=
      r.value_discover_of_ok hsources
    refine ⟨?_, ?_, ?_⟩
    · intro p
      rw [hkept]
      exact h.priority_gather sources _ p
    · intro d hd
      rw [hkept] at hd
      exact h.mem_gather sources _ hd
    · intro locator w' others hothers hsame
      have hcatalog : (Registry.mk locator r.catalog).catalog = r.catalog := rfl
      exact (h.view_discover hcatalog hsources hothers hsame).symm

/-- A linked catalog keeps to its answers if each of its entries does. -/
theorem Catalog.steady_linked {entries : List (BackendEntry σ β)}
    {made : BackendEntry σ β → Option γ}
    (h : ∀ entry ∈ entries, ∀ w, (entry.create.run w).value.done?.map view = made entry) :
    (Catalog.linked entries).Steady view fun className _ =>
      (BackendEntry.lookup entries className).bind made := by
  intro w className source
  simp only [Catalog.made?, Catalog.linked]
  cases hentry : BackendEntry.lookup entries className with
  | none => rfl
  | some entry =>
    have hmade := h entry (List.mem_of_find?_eq_some hentry) w
    simp only [Traced.value_bind, Option.bind_some]
    rw [← hmade]
    cases (entry.create.run w).value <;> rfl

end Steady

namespace Registrations

/-- What the standard catalog answers, by the implementation of its backends. -/
def standardAnswer (className _ : String) : Option String :=
  (BackendEntry.lookup standard.backends className).bind fun entry => some entry.className

theorem steady_standard : standard.catalog.Steady Backend.implementation standardAnswer := by
  apply Catalog.steady_linked
  intro entry hentry w
  obtain rfl := List.mem_singleton.1 hentry
  rfl

end Registrations

/-- Of two records with one priority the later decides, and one for another version of the
interface is as if it were not there. -/
theorem Registry.discover_lists_standard :
    let text (version : String) : String :=
      "LoggerContextFactory = \"" ++ Backend.standardClass ++ "\"\n" ++
        "ApiVersion = \"" ++ version ++ "\"\n"
    let outdated : Source := ⟨"outdated", .inline (text "1.0.0")⟩
    let minor : Source := ⟨"minor", .inline (text "2.0.0")⟩
    let again : Source := ⟨"again", Registrations.standardRecord.body⟩
    let registry (found : List Source) : Registry World Backend :=
      ⟨⟨"records", return .ok found⟩, Registrations.standard.catalog⟩
    let r := registry [Registrations.standardRecord, outdated, minor, again]
    r.catalog.Steady Backend.implementation Registrations.standardAnswer ∧ ∀ w,
      let kept := (r.discover.run w).value
      let cleared := registry [Registrations.standardRecord, minor, again]
      (∀ p, (∃ d ∈ kept, d.priority = p) ↔ p = -1 ∨ p = 10) ∧
      (∀ d ∈ kept, d.priority = 10 → d.source = "again") ∧
      (cleared.discover.run w).value.map (Descriptor.map Backend.implementation) =
        kept.map (Descriptor.map Backend.implementation) := by
  intro text outdated minor again registry r
  have hstandard : Registrations.standardRecord.examine =
      .trusted ⟨Backend.standardClass, "2.0.0", 10, Registrations.standardRecord.id⟩ := by
    decide +kernel
  have houtdated : outdated.examine = .passedOver (.versionRefused "outdated" (some "1.0.0")) := by
    decide +kernel
  have hminor : minor.examine = .trusted ⟨Backend.standardClass, "2.0.0", -1, "minor"⟩ := by
    decide +kernel
  have hagain : again.examine = .trusted ⟨Backend.standardClass, "2.0.0", 10, "again"⟩ := by
    decide +kernel
  have hyieldsMinor : minor.Yields Registrations.standardAnswer
      ⟨Backend.standardClass, Backend.standardClass, "2.0.0", -1, "minor"⟩ :=
    (Source.yields_iff_of_trusted hminor _).2 ⟨rfl, rfl⟩
  have hyieldsAgain : again.Yields Registrations.standardAnswer
      ⟨Backend.standardClass, Backend.standardClass, "2.0.0", 10, "again"⟩ :=
    (Source.yields_iff_of_trusted hagain _).2 ⟨rfl, rfl⟩
  refine ⟨Registrations.steady_standard, ?_⟩
  intro w kept cleared
  obtain ⟨-, -, hfound⟩ := r.discover_lists_last_usable Registrations.steady_standard w
  obtain ⟨hpriorities, hlast, hsame⟩ := hfound _ rfl
  refine ⟨?_, ?_, ?_⟩
  · intro p
    rw [hpriorities p]
    constructor
    · rintro ⟨s, hs, e, hyields, rfl⟩
      simp only [List.mem_cons, List.not_mem_nil, or_false] at hs
      obtain rfl | rfl | rfl | rfl := hs
      · exact .inr (congrArg Claim.priority (hyields.claim_eq hstandard))
      · exact absurd ⟨e, hyields⟩ (Source.not_usable_of_passedOver houtdated)
      · exact .inl (congrArg Claim.priority (hyields.claim_eq hminor))
      · exact .inr (congrArg Claim.priority (hyields.claim_eq hagain))
    · rintro (rfl | rfl)
      · exact ⟨minor, by simp, _, hyieldsMinor, rfl⟩
      · exact ⟨again, by simp, _, hyieldsAgain, rfl⟩
  · intro d hd hpriority
    obtain ⟨i, s, hs, hyields, hlater⟩ := hlast d hd
    have hi : 3 ≤ i := by
      by_contra hbefore
      exact hlater 3 again _ (by omega) rfl hyieldsAgain hpriority.symm
    obtain ⟨hlength, -⟩ := List.getElem?_eq_some_iff.1 hs
    obtain rfl : i = 3 := by
      change i < 4 at hlength
      omega
    obtain rfl : again = s := Option.some.inj hs
    exact congrArg Claim.source (hyields.claim_eq hagain)
  · exact hsame _ w _ rfl
      (.both _ (.left (Source.not_usable_of_passedOver houtdated) (.refl _ [minor, again])))

end LoggingFacade
