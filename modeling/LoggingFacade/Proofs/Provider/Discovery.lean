import LoggingFacade.Proofs.Provider.Usable
import Mathlib.Data.List.Induction

/-!
# What discovery finds

Discovery keeps one descriptor for each priority, in ascending order: that of
the last usable source that has it. Whether a source is usable may depend on
what the catalog was asked before, so a source counts in the state in which it
is loaded.
-/

namespace LoggingFacade

namespace Descriptor

variable {β γ : Type}

/-- In ascending order of priorities, each of which occurs once. -/
def Ranked (l : List (Descriptor β)) : Prop := l.Pairwise fun d e => d.priority < e.priority

theorem mem_keep {l : List (Descriptor β)} (h : Ranked l) (d x : Descriptor β) :
    x ∈ d.keep l ↔ x = d ∨ x ∈ l ∧ x.priority ≠ d.priority := by
  induction l with
  | nil => simp [keep]
  | cons other rest ih =>
    obtain ⟨hother, hrest⟩ := List.pairwise_cons.1 h
    have habove : ∀ y ∈ rest, other.priority < y.priority := hother
    rw [keep]
    split
    · grind
    · split
      · grind
      · rw [List.mem_cons, ih hrest]
        grind

theorem Ranked.keep {l : List (Descriptor β)} (h : Ranked l) (d : Descriptor β) :
    Ranked (d.keep l) := by
  induction l with
  | nil => exact List.pairwise_singleton _ d
  | cons other rest ih =>
    obtain ⟨hother, hrest⟩ := List.pairwise_cons.1 h
    rw [Descriptor.keep]
    split
    · rename_i hlt
      refine List.pairwise_cons.2 ⟨?_, h⟩
      intro y hy
      rcases List.mem_cons.1 hy with rfl | hy
      · exact hlt
      · have := hother y hy
        omega
    · rename_i hge
      split
      · rename_i heq
        exact List.pairwise_cons.2 ⟨fun y hy => heq ▸ hother y hy, hrest⟩
      · rename_i hne
        refine List.pairwise_cons.2 ⟨?_, ih hrest⟩
        intro y hy
        rcases (mem_keep hrest d y).1 hy with rfl | ⟨hy, -⟩
        · omega
        · exact hother y hy

theorem Ranked.eq_of_priority_eq {l : List (Descriptor β)} (h : Ranked l)
    {d e : Descriptor β} (hd : d ∈ l) (he : e ∈ l) (hsame : d.priority = e.priority) : d = e := by
  induction h with
  | nil => contradiction
  | @cons head rest hhead _ ih =>
    obtain rfl | hdrest := List.mem_cons.1 hd
    · obtain rfl | herest := List.mem_cons.1 he
      · rfl
      · exact absurd hsame (Int.ne_of_lt (hhead e herest))
    · obtain rfl | herest := List.mem_cons.1 he
      · exact absurd hsame.symm (Int.ne_of_lt (hhead d hdrest))
      · exact ih hdrest herest

/-- The same descriptor with a part of its backend. -/
def map (view : β → γ) (d : Descriptor β) : Descriptor γ :=
  ⟨view d.backend, d.className, d.apiVersion, d.priority, d.source⟩

theorem map_keep (view : β → γ) (d : Descriptor β) (l : List (Descriptor β)) :
    (d.keep l).map (map view) = (d.map view).keep (l.map (map view)) := by
  induction l with
  | nil => rfl
  | cons other rest ih =>
    rw [keep, List.map_cons, keep]
    change _ = if d.priority < other.priority then _
      else if d.priority = other.priority then _ else _
    split
    · rfl
    · split
      · rfl
      · rw [List.map_cons, ih]

end Descriptor

namespace Registry

variable {σ β : Type} (r : Registry σ β)

/-! ## Runs over sources -/

/-- The state after some sources were loaded. -/
def after (sources : List Source) (w : σ) : σ := ((Traced.forEach r.load sources).run w).state

/-- Loaded in its turn, the source at a place yields the descriptor. -/
def YieldsAt (w : σ) (sources : List Source) (i : Nat) (d : Descriptor β) : Prop :=
  ∃ s, sources[i]? = some s ∧ s.Yields (r.catalog.made? (r.after (sources.take i) w)) d

theorem value_keep (d : Descriptor β) (kept : List (Descriptor β)) (w : σ) :
    ((keep d kept).run w).value = d.keep kept := by
  rw [keep]
  split <;> rfl

theorem state_keep (d : Descriptor β) (kept : List (Descriptor β)) (w : σ) :
    ((keep d kept).run w).state = w := by
  rw [keep]
  split <;> rfl

theorem after_cons (s : Source) (sources : List Source) (w : σ) :
    r.after (s :: sources) w = r.after sources ((r.load s).run w).state := rfl

theorem state_gather (kept : List (Descriptor β)) (sources : List Source) (w : σ) :
    ((r.gather kept sources).run w).state = r.after sources w := by
  induction sources generalizing kept w with
  | nil => rfl
  | cons s rest ih =>
    rw [gather, Traced.state_bind, after_cons]
    split
    · rw [Traced.state_bind, ih, state_keep]
    · exact ih _ _

theorem gather_append (kept : List (Descriptor β)) (a b : List Source) :
    r.gather kept (a ++ b) = r.gather kept a >>= fun kept => r.gather kept b := by
  induction a generalizing kept with
  | nil => simp [gather]
  | cons s a ih =>
    rw [List.cons_append, gather, gather, bind_assoc]
    congr 1
    funext found
    cases found with
    | none => exact ih kept
    | some d => simp only [ih, bind_assoc]

/-- The last source comes to what was kept before it. -/
theorem value_gather_concat (sources : List Source) (s : Source) (w : σ) :
    ((r.gather [] (sources ++ [s])).run w).value =
      match ((r.load s).run (r.after sources w)).value with
      | some d => d.keep ((r.gather [] sources).run w).value
      | none => ((r.gather [] sources).run w).value := by
  rw [gather_append, Traced.value_bind, state_gather, gather, Traced.value_bind]
  cases ((r.load s).run (r.after sources w)).value with
  | none => rfl
  | some d => exact value_keep d _ _

theorem yieldsAt_concat (sources : List Source) (s : Source) (w : σ) (i : Nat)
    (d : Descriptor β) : r.YieldsAt w (sources ++ [s]) i d ↔ r.YieldsAt w sources i d ∨
      i = sources.length ∧ ((r.load s).run (r.after sources w)).value = some d := by
  rw [YieldsAt, YieldsAt, value_load]
  rcases Nat.lt_trichotomy i sources.length with hlt | rfl | hgt
  · rw [List.getElem?_append_left hlt, List.take_append_of_le_length (Nat.le_of_lt hlt)]
    simp [Nat.ne_of_lt hlt]
  · simp
  · rw [List.getElem?_eq_none (by simp; omega), List.getElem?_eq_none (Nat.le_of_lt hgt)]
    simp [Nat.ne_of_gt hgt]

theorem lt_length_of_yieldsAt {w : σ} {sources : List Source} {i : Nat} {d : Descriptor β}
    (h : r.YieldsAt w sources i d) : i < sources.length := by
  obtain ⟨s, hs, -⟩ := h
  exact (List.getElem?_eq_some_iff.1 hs).1

theorem ranked_gather (sources : List Source) (w : σ) :
    Descriptor.Ranked ((r.gather [] sources).run w).value := by
  induction sources using List.reverseRecOn with
  | nil => exact List.Pairwise.nil
  | append_singleton sources s ih =>
    rw [value_gather_concat]
    split
    · exact ih.keep _
    · exact ih

/-- What is kept comes from the last source of its priority. -/
theorem mem_gather (sources : List Source) (w : σ) (d : Descriptor β) :
    d ∈ ((r.gather [] sources).run w).value ↔ ∃ i, r.YieldsAt w sources i d ∧
      ∀ j e, i < j → r.YieldsAt w sources j e → e.priority ≠ d.priority := by
  induction sources using List.reverseRecOn with
  | nil => simp [gather, YieldsAt]
  | append_singleton sources s ih =>
    simp only [yieldsAt_concat]
    rw [value_gather_concat]
    cases hload : ((r.load s).run (r.after sources w)).value with
    | none => simpa using ih
    | some last =>
      simp only [Option.some.injEq]
      rw [Descriptor.mem_keep (r.ranked_gather sources w), ih]
      constructor
      · rintro (rfl | ⟨⟨i, hi, hlater⟩, hne⟩)
        · refine ⟨sources.length, .inr ⟨rfl, rfl⟩, ?_⟩
          rintro j e hlt (hj | ⟨rfl, -⟩)
          · have := r.lt_length_of_yieldsAt hj
            omega
          · omega
        · refine ⟨i, .inl hi, ?_⟩
          rintro j e hlt (hj | ⟨rfl, rfl⟩)
          · exact hlater j e hlt hj
          · exact hne.symm
      · rintro ⟨i, hi | ⟨rfl, rfl⟩, hlater⟩
        · have hlt := r.lt_length_of_yieldsAt hi
          refine .inr ⟨⟨i, hi, fun j e hj he => hlater j e hj (.inl he)⟩, ?_⟩
          exact (hlater _ last hlt (.inr ⟨rfl, rfl⟩)).symm
        · exact .inl rfl

/-- No priority gets lost. -/
theorem exists_mem_gather (sources : List Source) (w : σ) {i : Nat} {d : Descriptor β}
    (h : r.YieldsAt w sources i d) :
    ∃ e ∈ ((r.gather [] sources).run w).value, e.priority = d.priority := by
  induction sources using List.reverseRecOn with
  | nil => simp [YieldsAt] at h
  | append_singleton sources s ih =>
    rw [yieldsAt_concat] at h
    rw [value_gather_concat]
    cases hload : ((r.load s).run (r.after sources w)).value with
    | none =>
      rw [hload] at h
      simp only [reduceCtorEq, and_false, or_false] at h
      exact ih h
    | some last =>
      have hmem := Descriptor.mem_keep (r.ranked_gather sources w) last
      rcases h with h | ⟨-, h⟩
      · obtain ⟨e, he, hpriority⟩ := ih h
        by_cases hsame : e.priority = last.priority
        · exact ⟨last, (hmem last).2 (.inl rfl), hsame.symm.trans hpriority⟩
        · exact ⟨e, (hmem e).2 (.inr ⟨he, hsame⟩), hpriority⟩
      · rw [hload, Option.some.injEq] at h
        exact ⟨last, (hmem last).2 (.inl rfl), by rw [h]⟩

theorem value_discover_of_ok {w : σ} {sources : List Source}
    (h : (r.locator.sources.run w).value = .ok sources) : (r.discover.run w).value =
      ((r.gather [] sources).run (r.locator.sources.run w).state).value := by
  rw [discover, Traced.value_bind, Registry.sources, Traced.value_bind, Traced.state_bind, h]
  rfl

theorem value_discover_of_error {w : σ} {e : Error}
    (h : (r.locator.sources.run w).value = .error e) : (r.discover.run w).value = [] := by
  rw [discover, Traced.value_bind, Registry.sources, Traced.value_bind, h]
  rfl

theorem ranked_discover (w : σ) : Descriptor.Ranked (r.discover.run w).value := by
  cases h : (r.locator.sources.run w).value with
  | error e =>
    rw [r.value_discover_of_error h]
    exact List.Pairwise.nil
  | ok sources =>
    rw [r.value_discover_of_ok h]
    exact r.ranked_gather sources _

/-- Discovery from a state meets a usable source at a place. -/
def Finds (w : σ) (i : Nat) (d : Descriptor β) : Prop :=
  ∃ sources, (r.locator.sources.run w).value = .ok sources ∧
    r.YieldsAt (r.locator.sources.run w).state sources i d

/-- The descriptor is that of the last usable source among those of the highest
priority. -/
def Wins (w : σ) (d : Descriptor β) : Prop :=
  ∃ i, r.Finds w i d ∧ ∀ j e, r.Finds w j e →
    e.priority ≤ d.priority ∧ (i < j → e.priority < d.priority)

theorem mem_discover (w : σ) (d : Descriptor β) :
    d ∈ (r.discover.run w).value ↔ ∃ i, r.Finds w i d ∧
      ∀ j e, i < j → r.Finds w j e → e.priority ≠ d.priority := by
  cases h : (r.locator.sources.run w).value with
  | error e => simp [r.value_discover_of_error h, Finds, h]
  | ok sources => simp [r.value_discover_of_ok h, mem_gather, Finds, h]

theorem exists_mem_discover {w : σ} {i : Nat} {d : Descriptor β} (h : r.Finds w i d) :
    ∃ e ∈ (r.discover.run w).value, e.priority = d.priority := by
  obtain ⟨sources, hsources, hyields⟩ := h
  rw [r.value_discover_of_ok hsources]
  exact r.exists_mem_gather sources _ hyields

theorem discover_eq_nil (w : σ) :
    (r.discover.run w).value = [] ↔ ∀ i d, ¬r.Finds w i d := by
  constructor
  · intro hnil i d hd
    obtain ⟨e, he, -⟩ := r.exists_mem_discover hd
    rw [hnil] at he
    contradiction
  · intro hnone
    rw [List.eq_nil_iff_forall_not_mem]
    intro d hd
    obtain ⟨i, hi, -⟩ := (r.mem_discover w d).1 hd
    exact hnone i d hi

theorem wins_of_getLast? {w : σ} {d : Descriptor β}
    (h : (r.discover.run w).value.getLast? = some d) : r.Wins w d := by
  obtain ⟨front, hfront⟩ := List.getLast?_eq_some_iff.1 h
  have hranked := r.ranked_discover w
  obtain ⟨i, hi, hlater⟩ := (r.mem_discover w d).1 (by simp [hfront])
  refine ⟨i, hi, ?_⟩
  intro j e he
  obtain ⟨f, hf, hpriority⟩ := r.exists_mem_discover he
  have hle : f.priority ≤ d.priority := by
    rw [Descriptor.Ranked, hfront, List.pairwise_append] at hranked
    rw [hfront, List.mem_append, List.mem_singleton] at hf
    rcases hf with hf | rfl
    · have := hranked.2.2 f hf d (List.mem_singleton_self d)
      omega
    · omega
  refine ⟨by omega, ?_⟩
  intro hlt
  have := hlater j e hlt he
  omega

end Registry
end LoggingFacade
