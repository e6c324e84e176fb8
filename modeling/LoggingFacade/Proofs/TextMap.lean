import LoggingFacade.TextMap
import Mathlib.Data.List.Induction
import Mathlib.Data.List.Nodup

/-!
# Maps from text

A map is what its lookups say, so entries with different keys may be put into it
in any order. Listing a map and collecting the list gives the map again.
-/

namespace LoggingFacade
namespace TextMap

variable {α β : Type}

/-- The same keys, with other values. -/
def map (f : α → β) (m : TextMap α) : TextMap β :=
  ⟨m.entries.map fun e => (e.1, f e.2), List.pairwise_map.2 m.ascending⟩

theorem lookup_map (f : α → β) (key : String) (l : List (String × α)) :
    (l.map fun e => (e.1, f e.2)).lookup key = (l.lookup key).map f := by
  induction l with
  | nil => rfl
  | cons e rest ih =>
    obtain ⟨k, value⟩ := e
    rw [List.map_cons, lookup_cons_eq, lookup_cons_eq, ih]
    split <;> rfl

theorem get?_map (f : α → β) (m : TextMap α) (key : String) :
    (m.map f).get? key = (m.get? key).map f := lookup_map f key m.entries

theorem lookup_eq_none {l : List (String × α)} {key : String} :
    l.lookup key = none ↔ key ∉ l.map (·.1) := by
  induction l with
  | nil => simp
  | cons e rest ih =>
    obtain ⟨k, value⟩ := e
    rw [lookup_cons_eq, List.map_cons, List.mem_cons]
    by_cases h : key = k
    · simp [h]
    · simp [h, ih]

/-- A key that is there already takes no room. -/
theorem length_put (key : String) (value : α) {l : List (String × α)}
    (h : l.Pairwise fun a b => a.1 < b.1) :
    (put key value l).length = if (l.lookup key).isSome then l.length else l.length + 1 := by
  induction l with
  | nil => rfl
  | cons e rest ih =>
    obtain ⟨k, other⟩ := e
    obtain ⟨hhead, hrest⟩ := List.pairwise_cons.1 h
    rw [put, lookup_cons_eq]
    split
    · rename_i hlt
      have habsent : rest.lookup key = none := by
        rw [lookup_eq_none]
        intro hmem
        obtain ⟨e, he, hkey⟩ := List.mem_map.1 hmem
        exact String.lt_irrefl key (String.lt_trans hlt (hkey ▸ hhead e he))
      have hne : key ≠ k := fun heq => String.lt_irrefl k (heq ▸ hlt)
      simp [hne, habsent]
    · split
      · rfl
      · rw [List.length_cons, ih hrest, List.length_cons]
        split <;> rfl

/-- The second entry of a key takes the place of the first. -/
theorem put_put (key : String) (first second : α) (l : List (String × α)) :
    put key second (put key first l) = put key second l := by
  induction l with
  | nil => simp [put]
  | cons e rest ih =>
    obtain ⟨k, value⟩ := e
    rw [put, put]
    split
    · simp [put]
    · split
      · simp [put]
      · rename_i hnlt hne
        rw [put, if_neg hnlt, if_neg hne, ih]

/-- An entry whose key is above all others comes last. -/
theorem put_of_above {key : String} {value : α} {l : List (String × α)}
    (h : ∀ e ∈ l, e.1 < key) : put key value l = l ++ [(key, value)] := by
  induction l with
  | nil => rfl
  | cons e rest ih =>
    obtain ⟨k, other⟩ := e
    have hk : k < key := h _ List.mem_cons_self
    have hnlt : ¬key < k := String.lt_asymm hk
    have hne : key ≠ k := fun heq => String.lt_irrefl key (heq ▸ hk)
    rw [put, if_neg hnlt, if_neg hne, ih fun e he => h e (List.mem_cons_of_mem _ he),
      List.cons_append]

theorem ofList_concat (l : List (String × α)) (e : String × α) :
    ofList (l ++ [e]) = (ofList l).insert e.1 e.2 := by
  rw [ofList, List.foldl_append]
  rfl

theorem entries_ofList {l : List (String × α)} (h : l.Pairwise fun a b => a.1 < b.1) :
    (ofList l).entries = l := by
  induction l using List.reverseRecOn with
  | nil => rfl
  | append_singleton l e ih =>
    obtain ⟨hl, -, habove⟩ := List.pairwise_append.1 h
    rw [ofList_concat, entries_insert, ih hl,
      put_of_above fun d hd => habove d hd e (List.mem_singleton_self e)]

theorem ofList_entries (m : TextMap α) : ofList m.entries = m :=
  ext_entries (entries_ofList m.ascending)

theorem entries_ofList_entries (m : TextMap α) : (ofList m.entries).entries = m.entries :=
  congrArg entries m.ofList_entries

theorem mem_iff_lookup {l : List (String × α)} (hl : (l.map (·.1)).Nodup) (e : String × α) :
    e ∈ l ↔ l.lookup e.1 = some e.2 := by
  induction l with
  | nil => simp
  | cons d rest ih =>
    obtain ⟨hd, hrest⟩ := List.nodup_cons.1 hl
    rw [List.mem_cons, lookup_cons_eq, ih hrest]
    by_cases hkey : e.1 = d.1
    · have habsent : rest.lookup e.1 = none := lookup_eq_none.2 (hkey ▸ hd)
      rw [if_pos hkey, habsent, Prod.ext_iff]
      simp [hkey, eq_comm]
    · rw [if_neg hkey, Prod.ext_iff]
      simp [hkey]

theorem nodup_keys (m : TextMap α) : (m.entries.map (·.1)).Nodup := by
  rw [List.Nodup, List.pairwise_map]
  refine m.ascending.imp ?_
  intro d e hlt heq
  exact String.lt_irrefl e.1 (heq ▸ hlt)

theorem ext_get? {m n : TextMap α} (h : ∀ key, m.get? key = n.get? key) : m = n := by
  have hmem : ∀ e, e ∈ m.entries ↔ e ∈ n.entries := by
    intro e
    rw [mem_iff_lookup m.nodup_keys, mem_iff_lookup n.nodup_keys, ← get?, ← get?, h]
  have hperm : m.entries.Perm n.entries := (List.perm_ext_iff_of_nodup m.nodup_keys.of_map
    n.nodup_keys.of_map).2 hmem
  refine ext_entries (hperm.eq_of_pairwise ?_ m.ascending n.ascending)
  intro d e _ _ hde hed
  exact absurd hde (String.lt_asymm hed)

theorem get?_foldl_insert {l : List (String × α)} (hl : (l.map (·.1)).Nodup) (m : TextMap α)
    (key : String) :
    (l.foldl (fun m e => m.insert e.1 e.2) m).get? key = (l.lookup key).or (m.get? key) := by
  induction l generalizing m with
  | nil => rfl
  | cons e rest ih =>
    obtain ⟨k, value⟩ := e
    obtain ⟨hk, hrest⟩ := List.nodup_cons.1 hl
    rw [List.foldl_cons, ih hrest, get?_insert, lookup_cons_eq]
    by_cases h : key = k
    · rw [if_pos h, if_pos h, h, lookup_eq_none.2 hk]
      rfl
    · rw [if_neg h, if_neg h]

/-- With different keys, the order in which entries are collected does not
matter. -/
theorem get?_ofList {l : List (String × α)} (hl : (l.map (·.1)).Nodup) (key : String) :
    (ofList l).get? key = l.lookup key := by
  rw [ofList, get?_foldl_insert hl]
  exact Option.or_none

theorem lookup_perm {a b : List (String × α)} (hab : a.Perm b) (ha : (a.map (·.1)).Nodup)
    (key : String) : a.lookup key = b.lookup key := by
  have hb : (b.map (·.1)).Nodup := (hab.map _).nodup_iff.1 ha
  ext value
  rw [← mem_iff_lookup ha (key, value), hab.mem_iff, mem_iff_lookup hb]

theorem ofList_perm {a b : List (String × α)} (hab : a.Perm b) (ha : (a.map (·.1)).Nodup) :
    ofList a = ofList b := by
  have hb : (b.map (·.1)).Nodup := (hab.map _).nodup_iff.1 ha
  refine ext_get? ?_
  intro key
  rw [get?_ofList ha, get?_ofList hb, lookup_perm hab ha]

/-- Entries come out in the ascending order of their keys, whatever order they
were given in. -/
theorem entries_ofList_of_perm {given listed : List (String × α)} (hperm : given.Perm listed)
    (h : (listed.map (·.1)).Pairwise (· < ·)) : (ofList given).entries = listed := by
  have hdistinct : (listed.map (·.1)).Nodup := by
    refine h.imp ?_
    rintro a b hlt rfl
    exact String.lt_irrefl a hlt
  rw [ofList_perm hperm ((hperm.map _).nodup_iff.2 hdistinct), entries_ofList (List.pairwise_map.1 h)]

theorem map_put (f : α → β) (key : String) (value : α) (l : List (String × α)) :
    (put key value l).map (fun e => (e.1, f e.2)) =
      put key (f value) (l.map fun e => (e.1, f e.2)) := by
  induction l with
  | nil => rfl
  | cons e rest ih =>
    rw [put, List.map_cons, put]
    split
    · rfl
    · split
      · rfl
      · rw [List.map_cons, ih]

theorem entries_ofList_map (f : α → β) (l : List (String × α)) :
    (ofList (l.map fun e => (e.1, f e.2))).entries =
      (ofList l).entries.map fun e => (e.1, f e.2) := by
  induction l using List.reverseRecOn with
  | nil => rfl
  | append_singleton l e ih =>
    rw [List.map_append, List.map_singleton, ofList_concat, ofList_concat, entries_insert,
      entries_insert, map_put, ih]

theorem mem_of_mem_ofList {l : List (String × α)} {e : String × α} (h : e ∈ (ofList l).entries) :
    e ∈ l := by
  induction l using List.reverseRecOn with
  | nil => contradiction
  | append_singleton l d ih =>
    rw [ofList_concat, entries_insert] at h
    rcases mem_put h with rfl | h
    · exact List.mem_append_right _ (List.mem_singleton_self _)
    · exact List.mem_append_left _ (ih h)

end TextMap
end LoggingFacade
