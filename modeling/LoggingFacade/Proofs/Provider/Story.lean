import LoggingFacade.Proofs.Provider.Selection
import Mathlib.Data.Finset.Card
import Mathlib.Data.List.Dedup

/-!
# What a selection reports

The diagnostics of a selection tell why its backend was chosen: what became of
the configured class, what became of each source in its turn, and how the choice
ended. Locator and catalog are foreign code and may report on their own; what
they report stands where they are asked.
-/

namespace LoggingFacade

/-- An error, a warning or an information, which an operator sees by default. -/
def Diagnostic.isLoud (d : Diagnostic) : Bool := d.severity.rank ≤ Severity.info.rank

/-- What is reported in one turn: first by the foreign code that is asked in it,
then by the facade. -/
structure Passage where
  foreign : List Diagnostic
  own : List Diagnostic
  deriving DecidableEq

/-- What an operator sees of some turns. -/
def Passage.told (story : List Passage) : List Diagnostic :=
  story.flatMap fun p => p.foreign.filter Diagnostic.isLoud ++ p.own

theorem Passage.told_append (a b : List Passage) : told (a ++ b) = told a ++ told b :=
  List.flatMap_append

theorem Passage.told_singleton (p : Passage) :
    told [p] = p.foreign.filter Diagnostic.isLoud ++ p.own := List.flatMap_singleton _ _

/-- The warning that two providers share a priority. -/
def Diagnostic.isSharing : Diagnostic → Bool
  | .priorityShared .. => true
  | _ => false

namespace Source

/-- The record cannot be read or is no document, or a record that would be
trusted gives an invalid priority. -/
inductive Fails (s : Source) : Error → Prop
  | unread {e : Error} : s.read = .error e → Fails s e
  | malformed {text : String} {e : Error} :
      s.read = .ok text → Metadata.read s.id text = .error e → Fails s e
  | unranked {text className : String} {m : Metadata} {e : Error} :
      s.read = .ok text → Metadata.read s.id text = .ok m →
      Provider.isCompatible m.apiVersion = true → m.factory = some className →
      m.priority s.id = .error e → Fails s e

/-- The record is made for another version, or names no class. -/
def PassedOver (s : Source) : Prop :=
  ∃ text m, s.read = .ok text ∧ Metadata.read s.id text = .ok m ∧
    (Provider.isCompatible m.apiVersion = false ∨ m.factory = none)

theorem examine_of_fails {s : Source} {e : Error} (h : s.Fails e) : s.examine = .broken e := by
  rw [examine]
  cases h with
  | unread hread => rw [hread]
  | malformed hread hrecord => simp [hread, hrecord]
  | unranked hread hrecord hcompatible hfactory hpriority =>
    simp [hread, hrecord, judge, hcompatible, hfactory, hpriority]

theorem examine_of_passedOver {s : Source} (h : s.PassedOver) :
    ∃ reason : Diagnostic, reason.isLoud = false ∧ s.examine = .passedOver reason := by
  obtain ⟨text, m, hread, hrecord, hreason⟩ := h
  rw [examine, hread]
  simp only [hrecord]
  rw [judge]
  cases hcompatible : Provider.isCompatible m.apiVersion with
  | false => exact ⟨_, rfl, rfl⟩
  | true =>
    have hfactory : m.factory = none := by simpa [hcompatible] using hreason
    rw [hfactory]
    exact ⟨_, rfl, rfl⟩

/-- Before anything of a provider runs, one of three things becomes of a source. -/
theorem examined (s : Source) :
    (∃ e, s.Fails e) ∨ s.PassedOver ∨ ∃ c, s.Claims c := by
  cases hread : s.read with
  | error e => exact .inl ⟨e, .unread hread⟩
  | ok text =>
    cases hrecord : Metadata.read s.id text with
    | error e => exact .inl ⟨e, .malformed hread hrecord⟩
    | ok m =>
      cases hcompatible : Provider.isCompatible m.apiVersion with
      | false => exact .inr (.inl ⟨text, m, hread, hrecord, .inl hcompatible⟩)
      | true =>
        cases hfactory : m.factory with
        | none => exact .inr (.inl ⟨text, m, hread, hrecord, .inr hfactory⟩)
        | some className =>
          cases hpriority : m.priority s.id with
          | error e => exact .inl ⟨e, .unranked hread hrecord hcompatible hfactory hpriority⟩
          | ok p =>
            have htrusted : s.examine =
                .trusted ⟨className, m.apiVersion.getD "", p, s.id⟩ := by
              simp [examine, hread, hrecord, judge, hcompatible, hfactory, hpriority]
            exact .inr (.inr ⟨_, examine_eq_trusted.1 htrusted⟩)

end Source

namespace Catalog

variable {σ β : Type} (c : Catalog σ β)

/-- What a catalog reports itself when it is asked for a class in a state. -/
def reports (w : σ) (className source : String) : List Diagnostic :=
  ((c.instantiate className source).run w).diagnostics

/-- Asked for a class in a state, the catalog makes no backend. It gives an error,
or its abrupt end counts as one. -/
inductive Refuses (w : σ) (className source : String) : Error → Prop
  | failed {e : Error} :
      ((c.instantiate className source).run w).value = .failed e → Refuses w className source e
  | crashed : ((c.instantiate className source).run w).value = .crashed →
      Refuses w className source (.instantiation className source "backend factory panicked")

theorem refuses_or_made (w : σ) (className source : String) :
    (∃ e, c.Refuses w className source e) ∨ ∃ b, c.made? w className source = some b := by
  cases h : ((c.instantiate className source).run w).value with
  | done b => exact .inr ⟨b, by rw [made?, h]; rfl⟩
  | failed e => exact .inl ⟨e, .failed h⟩
  | crashed => exact .inl ⟨_, .crashed h⟩

end Catalog

namespace Descriptor

variable {β : Type}

/-- A descriptor that no later one of the same priority replaces. -/
def Remains (usable : List (Descriptor β)) (d : Descriptor β) : Prop :=
  ∃ before later, usable = before ++ d :: later ∧ ∀ e ∈ later, e.priority ≠ d.priority

theorem remains_concat (usable : List (Descriptor β)) (d x : Descriptor β) :
    Remains (usable ++ [d]) x ↔ x = d ∨ Remains usable x ∧ x.priority ≠ d.priority := by
  constructor
  · rintro ⟨before, later, hsplit, hlater⟩
    rcases later.eq_nil_or_concat with rfl | ⟨later, last, rfl⟩
    · have hlast := (List.append_inj' hsplit rfl).2
      exact .inl (List.singleton_inj.1 hlast).symm
    · rw [List.concat_eq_append, ← List.cons_append, ← List.append_assoc] at hsplit
      obtain ⟨hfront, hlast⟩ := List.append_inj' hsplit rfl
      obtain rfl := List.singleton_inj.1 hlast
      rw [List.concat_eq_append] at hlater
      refine .inr ⟨⟨before, later, hfront, fun e he => hlater e (List.mem_append_left _ he)⟩, ?_⟩
      exact (hlater d (by simp)).symm
  · rintro (rfl | ⟨⟨before, later, rfl, hlater⟩, hne⟩)
    · exact ⟨usable, [], rfl, by simp⟩
    · refine ⟨before, later ++ [d], by simp, ?_⟩
      intro e he
      rcases List.mem_append.1 he with he | he
      · exact hlater e he
      · rw [List.mem_singleton.1 he]
        exact hne.symm

theorem Remains.mem {usable : List (Descriptor β)} {d : Descriptor β} (h : Remains usable d) :
    d ∈ usable := by
  obtain ⟨before, later, rfl, -⟩ := h
  exact List.mem_append_right _ List.mem_cons_self

/-- No priority gets lost among the descriptors that remain. -/
theorem exists_remains {usable : List (Descriptor β)} {d : Descriptor β} (h : d ∈ usable) :
    ∃ e, Remains usable e ∧ e.priority = d.priority := by
  induction usable using List.reverseRecOn with
  | nil => contradiction
  | append_singleton usable last ih =>
    by_cases hsame : d.priority = last.priority
    · exact ⟨last, (remains_concat usable last last).2 (.inl rfl), hsame.symm⟩
    · have hd : d ∈ usable := by
        rcases List.mem_append.1 h with hd | hd
        · exact hd
        · exact absurd (congrArg priority (List.mem_singleton.1 hd)) hsame
      obtain ⟨e, hremains, hpriority⟩ := ih hd
      have hne : e.priority ≠ last.priority := fun he => hsame (hpriority.symm.trans he)
      exact ⟨e, (remains_concat usable last e).2 (.inr ⟨hremains, hne⟩), hpriority⟩

theorem Ranked.eq_of_mem_iff {a b : List (Descriptor β)} (ha : Ranked a) (hb : Ranked b)
    (h : ∀ d, d ∈ a ↔ d ∈ b) : a = b := by
  have hnodup : ∀ {l : List (Descriptor β)}, Ranked l → l.Nodup := by
    intro l hl
    refine hl.imp ?_
    rintro d e hlt rfl
    exact Int.lt_irrefl _ hlt
  have hperm : a.Perm b := (List.perm_ext_iff_of_nodup (hnodup ha) (hnodup hb)).2 h
  refine hperm.eq_of_pairwise ?_ ha hb
  intro d e _ _ hde hed
  exact absurd hde (Int.lt_asymm hed)

/-- How the choice among the usable sources is told. -/
inductive Closing (usable : List (Descriptor β)) : Diagnostic → Prop
  | fallback : usable = [] → Closing usable (.fallbackUsed Backend.simpleClass)
  | single {d : Descriptor β} : usable.getLast? = some d →
      (∀ e ∈ usable, e.priority = d.priority) →
      Closing usable (.backendDiscovered d.className d.priority)
  | several {lower : List (Descriptor β)} {highest : Descriptor β} : lower ≠ [] →
      Ranked (lower ++ [highest]) → (∀ d, d ∈ lower ++ [highest] ↔ Remains usable d) →
      Closing usable (.backendsCompete ((lower ++ [highest]).map candidate)
        highest.className highest.priority)

/-- What remains of sources of one priority is the last of them. -/
theorem remains_iff_of_same {usable : List (Descriptor β)} {d : Descriptor β}
    (hlast : usable.getLast? = some d) (hsame : ∀ e ∈ usable, e.priority = d.priority)
    (x : Descriptor β) : Remains usable x ↔ x = d := by
  obtain ⟨front, rfl⟩ := List.getLast?_eq_some_iff.1 hlast
  rw [remains_concat]
  constructor
  · rintro (rfl | ⟨hx, hne⟩)
    · rfl
    · exact absurd (hsame x (List.mem_append_left _ hx.mem)) hne
  · exact .inl

end Descriptor

namespace Registry

variable {σ β : Type} (r : Registry σ β)

/-- What is told of sources, one passage for each, and which of them are usable.
A source is loaded in the state that those before it leave. -/
inductive Tale (w : σ) : List Source → List Passage → List (Descriptor β) → Prop
  | nil : Tale w [] [] []
  | broken {sources : List Source} {story : List Passage} {usable : List (Descriptor β)}
      {s : Source} {e : Error} : Tale w sources story usable → s.Fails e →
      Tale w (sources ++ [s]) (story ++ [⟨[], [.providerSkipped s.id e]⟩]) usable
  | passedOver {sources : List Source} {story : List Passage} {usable : List (Descriptor β)}
      {s : Source} : Tale w sources story usable → s.PassedOver →
      Tale w (sources ++ [s]) (story ++ [⟨[], []⟩]) usable
  | refused {sources : List Source} {story : List Passage} {usable : List (Descriptor β)}
      {s : Source} {c : Claim} {e : Error} : Tale w sources story usable → s.Claims c →
      r.catalog.Refuses (r.after sources w) c.className s.id e →
      Tale w (sources ++ [s]) (story ++ [⟨r.catalog.reports (r.after sources w) c.className s.id,
        [.providerSkipped s.id e]⟩]) usable
  | fresh {sources : List Source} {story : List Passage} {usable : List (Descriptor β)}
      {s : Source} {d : Descriptor β} : Tale w sources story usable →
      s.Yields (r.catalog.made? (r.after sources w)) d →
      (∀ e ∈ usable, e.priority ≠ d.priority) →
      Tale w (sources ++ [s]) (story ++ [⟨r.catalog.reports (r.after sources w) d.className s.id,
        []⟩]) (usable ++ [d])
  | shared {sources : List Source} {story : List Passage} {usable : List (Descriptor β)}
      {s : Source} {d kept : Descriptor β} : Tale w sources story usable →
      s.Yields (r.catalog.made? (r.after sources w)) d →
      Descriptor.Remains usable kept → kept.priority = d.priority →
      Tale w (sources ++ [s]) (story ++ [⟨r.catalog.reports (r.after sources w) d.className s.id,
        [.priorityShared d.priority kept.className d.className]⟩]) (usable ++ [d])

/-! ## Loading one source -/

theorem run_load_of_fails {s : Source} {e : Error} (h : s.Fails e) (w : σ) :
    (r.load s).run w = ⟨none, w, [.providerSkipped s.id e]⟩ := by
  rw [load, Source.examine_of_fails h]
  rfl

theorem run_load_of_passedOver {s : Source} (h : s.PassedOver) (w : σ) :
    ∃ reason : Diagnostic, reason.isLoud = false ∧ (r.load s).run w = ⟨none, w, [reason]⟩ := by
  obtain ⟨reason, hquiet, hexamine⟩ := Source.examine_of_passedOver h
  refine ⟨reason, hquiet, ?_⟩
  rw [load, hexamine]
  rfl

theorem diagnostics_instantiate (className source : String) (w : σ) :
    ((r.instantiate className source).run w).diagnostics = r.catalog.reports w className source :=
  List.append_nil _

theorem value_instantiate_of_refuses {className source : String} {e : Error} {w : σ}
    (h : r.catalog.Refuses w className source e) :
    ((r.instantiate className source).run w).value = .error e := by
  rw [instantiate, Traced.value_bind, Traced.value_pure]
  cases h with
  | failed hvalue => rw [hvalue]; rfl
  | crashed hvalue => rw [hvalue]; rfl

theorem diagnostics_fulfil (c : Claim) (w : σ) :
    ((r.fulfil c).run w).diagnostics = r.catalog.reports w c.className c.source := by
  rw [fulfil, Traced.diagnostics_bind, diagnostics_instantiate]
  split <;> exact List.append_nil _

theorem value_fulfil_of_refuses {c : Claim} {e : Error} {w : σ}
    (h : r.catalog.Refuses w c.className c.source e) : ((r.fulfil c).run w).value = .error e := by
  rw [fulfil, Traced.value_bind, r.value_instantiate_of_refuses h]
  rfl

theorem load_of_refuses {s : Source} {c : Claim} {e : Error} {w : σ} (h : s.Claims c)
    (hrefuses : r.catalog.Refuses w c.className s.id e) :
    ((r.load s).run w).value = none ∧ ((r.load s).run w).diagnostics =
      r.catalog.reports w c.className s.id ++ [.providerSkipped s.id e] := by
  have hsource : c.source = s.id := h.1
  rw [← hsource] at hrefuses ⊢
  have hfulfil := r.value_fulfil_of_refuses hrefuses
  rw [load, Source.examine_eq_trusted.2 h]
  simp only
  rw [Traced.value_bind, Traced.diagnostics_bind, hfulfil, diagnostics_fulfil, hsource]
  exact ⟨rfl, rfl⟩

theorem diagnostics_load_of_yields {s : Source} {d : Descriptor β} {w : σ}
    (h : s.Yields (r.catalog.made? w) d) :
    ((r.load s).run w).diagnostics = r.catalog.reports w d.className s.id := by
  have hsource : d.source = s.id := h.1.1
  have hfulfil : ((r.fulfil d.claim).run w).value = .ok d :=
    (r.value_fulfil d.claim w d).2 ⟨rfl, h.2⟩
  rw [load, Source.examine_eq_trusted.2 h.1]
  simp only
  rw [Traced.diagnostics_bind, hfulfil, diagnostics_fulfil]
  change r.catalog.reports w d.className d.source ++ [] = _
  rw [List.append_nil, hsource]

/-! ## The tale of all sources -/

theorem diagnostics_keep_of_fresh {d : Descriptor β} {kept : List (Descriptor β)}
    (h : ∀ e ∈ kept, e.priority ≠ d.priority) (w : σ) : ((keep d kept).run w).diagnostics = [] := by
  have hnone : kept.find? (·.priority = d.priority) = none := by
    simpa [List.find?_eq_none] using h
  rw [keep, hnone]
  rfl

theorem diagnostics_keep_of_mem {d e : Descriptor β} {kept : List (Descriptor β)}
    (hranked : Descriptor.Ranked kept) (he : e ∈ kept) (hsame : e.priority = d.priority) (w : σ) :
    ((keep d kept).run w).diagnostics = [.priorityShared d.priority e.className d.className] := by
  have hfind : kept.find? (·.priority = d.priority) = some e := by
    obtain ⟨lower, higher, rfl⟩ := List.append_of_mem he
    rw [Descriptor.Ranked, List.pairwise_append] at hranked
    rw [List.find?_append, List.find?_eq_none.2, List.find?_cons_of_pos (by simpa using hsame)]
    · rfl
    · intro f hf
      have := hranked.2.2 f hf e List.mem_cons_self
      simp only [decide_eq_true_eq]
      omega
  rw [keep, hfind]
  rfl

theorem diagnostics_gather_concat_of_none {sources : List Source} {s : Source} {w : σ}
    (h : ((r.load s).run (r.after sources w)).value = none) :
    ((r.gather [] (sources ++ [s])).run w).diagnostics =
      ((r.gather [] sources).run w).diagnostics ++
        ((r.load s).run (r.after sources w)).diagnostics := by
  rw [gather_append, Traced.diagnostics_bind, state_gather, gather, Traced.diagnostics_bind, h]
  exact congrArg _ (List.append_nil _)

theorem diagnostics_gather_concat_of_some {sources : List Source} {s : Source} {w : σ}
    {d : Descriptor β} (h : ((r.load s).run (r.after sources w)).value = some d) :
    ((r.gather [] (sources ++ [s])).run w).diagnostics =
      ((r.gather [] sources).run w).diagnostics ++
        (((r.load s).run (r.after sources w)).diagnostics ++
          ((keep d ((r.gather [] sources).run w).value).run
            ((r.load s).run (r.after sources w)).state).diagnostics) := by
  rw [gather_append, Traced.diagnostics_bind, state_gather, gather, Traced.diagnostics_bind, h]
  simp only [gather, bind_pure]

variable {r} {w : σ} {sources : List Source} {story : List Passage} {usable : List (Descriptor β)}

/-- What is kept of the usable sources is what remains of them. -/
theorem Tale.mem_gather (h : r.Tale w sources story usable) (d : Descriptor β) :
    d ∈ ((r.gather [] sources).run w).value ↔ Descriptor.Remains usable d := by
  have hconcat : ∀ {sources usable s d}, s.Yields (r.catalog.made? (r.after sources w)) d →
      (∀ x, x ∈ ((r.gather [] sources).run w).value ↔ Descriptor.Remains usable x) →
      ∀ x, x ∈ ((r.gather [] (sources ++ [s])).run w).value ↔
        Descriptor.Remains (usable ++ [d]) x := by
    intro sources usable s d hyields ih x
    rw [value_gather_concat, (r.value_load s _ d).2 hyields]
    simp only
    rw [Descriptor.mem_keep (r.ranked_gather sources w), ih, Descriptor.remains_concat]
  induction h generalizing d with
  | nil => simp [gather, Descriptor.Remains]
  | broken _ hfails ih => simpa [value_gather_concat, run_load_of_fails r hfails] using ih d
  | @passedOver sources _ _ s _ hpassed ih =>
    obtain ⟨reason, -, hload⟩ := r.run_load_of_passedOver hpassed (r.after sources w)
    simpa [value_gather_concat, hload] using ih d
  | refused _ hclaims hrefuses ih =>
    simpa [value_gather_concat, (load_of_refuses r hclaims hrefuses).1] using ih d
  | fresh _ hyields _ ih => exact hconcat hyields ih d
  | shared _ hyields _ _ ih => exact hconcat hyields ih d

/-- A tale is what the run over its sources reports. -/
theorem Tale.diagnostics_gather (h : r.Tale w sources story usable) :
    ((r.gather [] sources).run w).diagnostics.filter Diagnostic.isLoud = Passage.told story := by
  induction h with
  | nil => rfl
  | @broken sources _ _ s e _ hfails ih =>
    have hload := r.run_load_of_fails hfails (r.after sources w)
    rw [r.diagnostics_gather_concat_of_none (by rw [hload]), hload, List.filter_append, ih,
      Passage.told_append]
    rfl
  | @passedOver sources _ _ s _ hpassed ih =>
    obtain ⟨reason, hquiet, hload⟩ := r.run_load_of_passedOver hpassed (r.after sources w)
    rw [r.diagnostics_gather_concat_of_none (by rw [hload]), hload, List.filter_append, ih,
      Passage.told_append, List.filter_cons_of_neg (by simp [hquiet])]
    rfl
  | refused _ hclaims hrefuses ih =>
    obtain ⟨hvalue, hload⟩ := r.load_of_refuses hclaims hrefuses
    rw [r.diagnostics_gather_concat_of_none hvalue, hload, List.filter_append, ih,
      Passage.told_append, Passage.told_singleton, List.filter_append]
    rfl
  | @fresh sources _ usable s d htale hyields hfresh ih =>
    have hkeep := diagnostics_keep_of_fresh
      (fun e he => hfresh e ((htale.mem_gather e).1 he).mem)
      ((r.load s).run (r.after sources w)).state
    rw [r.diagnostics_gather_concat_of_some ((r.value_load s _ d).2 hyields), hkeep,
      r.diagnostics_load_of_yields hyields, List.filter_append, ih, Passage.told_append,
      Passage.told_singleton, List.append_nil, List.append_nil]
  | @shared sources _ usable s d kept htale hyields hremains hsame ih =>
    have hkeep := diagnostics_keep_of_mem (r.ranked_gather sources w)
      ((htale.mem_gather kept).2 hremains) hsame ((r.load s).run (r.after sources w)).state
    rw [r.diagnostics_gather_concat_of_some ((r.value_load s _ d).2 hyields), hkeep,
      r.diagnostics_load_of_yields hyields, List.filter_append, ih, Passage.told_append,
      Passage.told_singleton, List.filter_append]
    rfl

theorem exists_tale (r : Registry σ β) (sources : List Source) (w : σ) :
    ∃ story usable, r.Tale w sources story usable := by
  induction sources using List.reverseRecOn with
  | nil => exact ⟨[], [], .nil⟩
  | append_singleton sources s ih =>
    obtain ⟨story, usable, htale⟩ := ih
    obtain ⟨e, hfails⟩ | hpassed | ⟨c, hclaims⟩ := s.examined
    · exact ⟨_, _, htale.broken hfails⟩
    · exact ⟨_, _, htale.passedOver hpassed⟩
    · obtain ⟨e, hrefuses⟩ | ⟨b, hmade⟩ :=
        r.catalog.refuses_or_made (r.after sources w) c.className s.id
      · exact ⟨_, _, htale.refused hclaims hrefuses⟩
      · have hyields : s.Yields (r.catalog.made? (r.after sources w))
            ⟨b, c.className, c.apiVersion, c.priority, c.source⟩ :=
          ⟨hclaims, by rw [hclaims.1]; exact hmade⟩
        by_cases hshared : ∃ e, Descriptor.Remains usable e ∧ e.priority = c.priority
        · obtain ⟨kept, hremains, hsame⟩ := hshared
          exact ⟨_, _, htale.shared hyields hremains hsame⟩
        · refine ⟨_, _, htale.fresh hyields ?_⟩
          intro e he hsame
          obtain ⟨kept, hremains, hpriority⟩ := Descriptor.exists_remains he
          exact hshared ⟨kept, hremains, hpriority.trans hsame⟩

/-- One warning for each usable source whose priority occurred before. -/
theorem Tale.sharing_count (h : r.Tale w sources story usable) :
    (story.flatMap Passage.own).countP Diagnostic.isSharing +
      (usable.map Descriptor.priority).toFinset.card = usable.length := by
  have hinsert : ∀ (usable : List (Descriptor β)) d,
      ((usable ++ [d]).map Descriptor.priority).toFinset =
        insert d.priority (usable.map Descriptor.priority).toFinset := by
    intro usable d
    ext p
    simp
  induction h with
  | nil => rfl
  | broken _ _ ih => simpa [Diagnostic.isSharing] using ih
  | passedOver _ _ ih => simpa using ih
  | refused _ _ _ ih => simpa [Diagnostic.isSharing] using ih
  | @fresh _ story usable s d _ _ hfresh ih =>
    have hnew : d.priority ∉ (usable.map Descriptor.priority).toFinset := by simpa using hfresh
    rw [hinsert, Finset.card_insert_of_notMem hnew, List.length_append, List.flatMap_append,
      List.countP_append, ← ih]
    simp [Nat.add_assoc]
  | @shared _ story usable s d kept _ _ hremains hsame ih =>
    have hknown : d.priority ∈ (usable.map Descriptor.priority).toFinset := by
      rw [List.mem_toFinset, ← hsame]
      exact List.mem_map_of_mem hremains.mem
    rw [hinsert, Finset.insert_eq_of_mem hknown, List.length_append, List.flatMap_append,
      List.countP_append, ← ih]
    simp [Diagnostic.isSharing, Nat.add_right_comm]

end Registry

/-! ## The story of a selection -/

namespace Selector

variable {σ β : Type} (s : Selector σ β)

/-- What is told of the configured class while no backend of it is made. -/
inductive Untried (w : σ) : List Passage → Prop
  | unset : s.overrideClass = none → Untried w []
  | refused {className : String} {e : Error} : s.overrideClass = some className →
      s.registry.catalog.Refuses w className overrideSource e →
      Untried w [⟨s.registry.catalog.reports w className overrideSource,
        [.overrideFailed className e]⟩]

/-- What is told of the locator, and which sources it finds from a state. -/
inductive Located (r : Registry σ β) (w : σ) : Passage → List Source → Prop
  | found {sources : List Source} : (r.locator.sources.run w).value = .ok sources →
      Located r w ⟨(r.locator.sources.run w).diagnostics, []⟩ sources
  | failed {e : Error} : (r.locator.sources.run w).value = .error e →
      Located r w ⟨(r.locator.sources.run w).diagnostics,
        [.locatorFailed r.locator.description e]⟩ []

/-- The story of a selection, and the usable sources that it meets. -/
inductive Story (w : σ) : List Passage → List (Descriptor β) → Prop
  | override {className : String} {b : β} : s.overrideClass = some className →
      s.registry.catalog.made? w className overrideSource = some b →
      Story w [⟨s.registry.catalog.reports w className overrideSource,
        [.overrideUsed className]⟩] []
  | discovery {trial tale : List Passage} {located : Passage} {sources : List Source}
      {usable : List (Descriptor β)} {closing : Diagnostic} : s.Untried w trial →
      Located s.registry (s.afterOverride w) located sources →
      s.registry.Tale (s.registry.locator.sources.run (s.afterOverride w)).state sources tale
        usable →
      Descriptor.Closing usable closing →
      Story w (trial ++ [located] ++ tale ++ [⟨[], [closing]⟩]) usable

/-! ## Telling the choice -/

variable {s} {usable listed : List (Descriptor β)}

/-- A choice that is told is the one made among what remains. -/
theorem diagnostics_selectCandidate {closing : Diagnostic} (h : Descriptor.Closing usable closing)
    (hranked : Descriptor.Ranked listed) (hmem : ∀ d, d ∈ listed ↔ Descriptor.Remains usable d)
    (hfallback : ∀ w, ((s.fallback s.fallbackLevel).run w).diagnostics = []) (w : σ) :
    ((s.selectCandidate listed).run w).diagnostics = [closing] := by
  cases h with
  | fallback hnone =>
    have hlisted : listed = [] := by
      rw [List.eq_nil_iff_forall_not_mem]
      intro d hd
      have := ((hmem d).1 hd).mem
      simp [hnone] at this
    rw [hlisted]
    change _ :: ((s.fallback s.fallbackLevel).run w).diagnostics ++ [] = _
    rw [hfallback]
    rfl
  | @single d hlast hsame =>
    have hlisted : listed = [d] := by
      refine hranked.eq_of_mem_iff (List.pairwise_singleton _ d) ?_
      intro x
      rw [hmem, Descriptor.remains_iff_of_same hlast hsame, List.mem_singleton]
    rw [hlisted]
    rfl
  | @several lower highest hlower hascending hremains =>
    have hlisted : listed = lower ++ [highest] :=
      hranked.eq_of_mem_iff hascending fun d => (hmem d).trans (hremains d).symm
    have hlong : (lower ++ [highest]).length > 1 := by
      have := List.length_pos_iff.2 hlower
      rw [List.length_append, List.length_singleton]
      omega
    rw [hlisted, selectCandidate, selectDiscovered, List.getLast?_concat]
    simp only [if_pos hlong]
    rfl

theorem exists_closing (hranked : Descriptor.Ranked listed)
    (hmem : ∀ d, d ∈ listed ↔ Descriptor.Remains usable d) :
    ∃ closing, Descriptor.Closing usable closing := by
  rcases listed.eq_nil_or_concat with rfl | ⟨lower, highest, rfl⟩
  · refine ⟨_, .fallback ?_⟩
    rw [List.eq_nil_iff_forall_not_mem]
    intro d hd
    obtain ⟨e, he, -⟩ := Descriptor.exists_remains hd
    exact List.not_mem_nil ((hmem e).2 he)
  · rw [List.concat_eq_append] at hranked hmem
    rcases lower.eq_nil_or_concat with rfl | ⟨_, _, hlower⟩
    · have hremains : ∀ d, Descriptor.Remains usable d ↔ d = highest := fun d =>
        (hmem d).symm.trans List.mem_singleton
      have hhighest : highest ∈ usable := ((hremains highest).2 rfl).mem
      obtain ⟨front, last, hfront⟩ := usable.eq_nil_or_concat.resolve_left
        (List.ne_nil_of_mem hhighest)
      have hlast : last = highest := by
        rw [← hremains, hfront, List.concat_eq_append, Descriptor.remains_concat]
        exact .inl rfl
      refine ⟨_, .single (d := highest) ?_ ?_⟩
      · rw [hfront, hlast, List.concat_eq_append, List.getLast?_concat]
      · intro e he
        obtain ⟨d, hd, hpriority⟩ := Descriptor.exists_remains he
        rw [← hpriority, (hremains d).1 hd]
    · exact ⟨_, .several (by simp [hlower]) hranked hmem⟩

theorem diagnostics_selectOverride_of_made {className : String} {b : β} {w : σ}
    (hclass : s.overrideClass = some className)
    (hmade : s.registry.catalog.made? w className overrideSource = some b) :
    (s.select.run w).diagnostics =
      s.registry.catalog.reports w className overrideSource ++ [.overrideUsed className] := by
  rw [s.run_select_of_configured hclass hmade]
  rfl

/-- While the configured class gives no backend, selection goes on. -/
theorem Untried.selectOverride {w : σ} {trial : List Passage} (h : s.Untried w trial) :
    (s.selectOverride.run w).value = none ∧
      (s.selectOverride.run w).diagnostics.filter Diagnostic.isLoud = Passage.told trial := by
  rw [Selector.selectOverride]
  cases h with
  | unset hclass =>
    rw [hclass]
    exact ⟨rfl, rfl⟩
  | @refused className e hclass hrefuses =>
    rw [hclass]
    simp only
    rw [Traced.value_bind, Traced.diagnostics_bind,
      s.registry.value_instantiate_of_refuses hrefuses, Registry.diagnostics_instantiate,
      Passage.told_singleton, List.filter_append]
    exact ⟨rfl, rfl⟩

theorem exists_untried {w : σ} (h : s.configured? w = none) : ∃ trial, s.Untried w trial := by
  rw [configured?] at h
  cases hclass : s.overrideClass with
  | none => exact ⟨_, .unset hclass⟩
  | some className =>
    rw [hclass, Option.bind_some] at h
    obtain ⟨e, hrefuses⟩ | ⟨b, hmade⟩ :=
      s.registry.catalog.refuses_or_made w className overrideSource
    · exact ⟨_, .refused hclass hrefuses⟩
    · rw [h] at hmade
      contradiction

theorem Located.sources {r : Registry σ β} {w : σ} {located : Passage} {sources : List Source}
    (h : Located r w located sources) :
    (r.sources.run w).value = sources ∧
      (r.sources.run w).state = (r.locator.sources.run w).state ∧
      (r.sources.run w).diagnostics.filter Diagnostic.isLoud = Passage.told [located] := by
  rw [Registry.sources, Traced.value_bind, Traced.state_bind, Traced.diagnostics_bind,
    Passage.told_singleton, List.filter_append]
  cases h with
  | found hvalue =>
    rw [hvalue]
    exact ⟨rfl, rfl, rfl⟩
  | failed hvalue =>
    rw [hvalue]
    exact ⟨rfl, rfl, rfl⟩

theorem exists_located (r : Registry σ β) (w : σ) :
    ∃ located sources, Located r w located sources := by
  cases hvalue : (r.locator.sources.run w).value with
  | ok sources => exact ⟨_, _, .found hvalue⟩
  | error e => exact ⟨_, _, .failed hvalue⟩

theorem exists_story (w : σ) : ∃ story usable, s.Story w story usable := by
  cases hconfigured : s.configured? w with
  | some b =>
    obtain ⟨className, hclass, hmade⟩ := Option.bind_eq_some_iff.1 hconfigured
    exact ⟨_, _, .override hclass hmade⟩
  | none =>
    obtain ⟨trial, htrial⟩ := exists_untried hconfigured
    obtain ⟨located, sources, hlocated⟩ := exists_located s.registry (s.afterOverride w)
    obtain ⟨tale, usable, htale⟩ := s.registry.exists_tale sources
      (s.registry.locator.sources.run (s.afterOverride w)).state
    obtain ⟨closing, hclosing⟩ :=
      exists_closing (s.registry.ranked_gather sources _) htale.mem_gather
    exact ⟨_, _, .discovery htrial hlocated htale hclosing⟩

theorem Story.diagnostics_select {w : σ} {story : List Passage} (h : s.Story w story usable)
    (hfallback : ∀ w, ((s.fallback s.fallbackLevel).run w).diagnostics = []) :
    (s.select.run w).diagnostics.filter Diagnostic.isLoud = Passage.told story := by
  cases h with
  | override hclass hmade =>
    rw [diagnostics_selectOverride_of_made hclass hmade, Passage.told_singleton,
      List.filter_append]
    rfl
  | @discovery trial tale located sources _ closing htrial hlocated htale hclosing =>
    obtain ⟨hvalue, htried⟩ := htrial.selectOverride
    obtain ⟨hsources, hstate, hfound⟩ := hlocated.sources
    have hgather := htale.diagnostics_gather
    have hchoice := diagnostics_selectCandidate hclosing
      (s.registry.ranked_gather sources _) htale.mem_gather hfallback
    rw [select, Traced.diagnostics_bind, hvalue]
    simp only
    rw [Traced.diagnostics_bind, Registry.discover, Traced.diagnostics_bind, Traced.value_bind,
      Traced.state_bind, ← afterOverride, hsources, hstate, hchoice]
    have hloud : [closing].filter Diagnostic.isLoud = [closing] := by cases hclosing <;> rfl
    rw [List.filter_append, List.filter_append, List.filter_append, htried, hfound, hgather, hloud,
      Passage.told_append, Passage.told_append, Passage.told_append]
    simp only [List.append_assoc]
    rfl

theorem Story.sharing_count {w : σ} {story : List Passage} (h : s.Story w story usable) :
    (story.flatMap Passage.own).countP Diagnostic.isSharing +
      (usable.map Descriptor.priority).toFinset.card = usable.length := by
  cases h with
  | override => rfl
  | @discovery trial tale located sources _ closing htrial hlocated htale hclosing =>
    have htrialCount : (trial.flatMap Passage.own).countP Diagnostic.isSharing = 0 := by
      cases htrial <;> rfl
    have hlocatedCount : ([located].flatMap Passage.own).countP Diagnostic.isSharing = 0 := by
      cases hlocated <;> rfl
    have hclosingCount : [closing].countP Diagnostic.isSharing = 0 := by cases hclosing <;> rfl
    have htaleCount := htale.sharing_count
    simp only [List.flatMap_append, List.countP_append, htrialCount, hlocatedCount]
    simpa [hclosingCount] using htaleCount

end Selector
end LoggingFacade
