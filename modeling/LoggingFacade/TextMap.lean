/-!
# Maps from text, ordered by key

A finite map whose entries stand in ascending order of their keys, that is, of
the code points of the keys. Equal maps have equal entries.
-/

namespace LoggingFacade

structure TextMap (α : Type) where
  entries : List (String × α)
  ascending : entries.Pairwise fun a b => a.1 < b.1
  deriving DecidableEq

namespace TextMap

variable {α β : Type}

theorem lt_of_not_lt_of_ne {a b : String} (h : ¬a < b) (hne : a ≠ b) : b < a := by
  by_cases hba : b < a
  · exact hba
  · exact absurd (String.le_antisymm (String.not_lt.1 hba) (String.not_lt.1 h)) hne

/-- Puts an entry at its place, over an entry of the same key. -/
def put (key : String) (value : α) : List (String × α) → List (String × α)
  | [] => [(key, value)]
  | (k, v) :: rest =>
    if key < k then (key, value) :: (k, v) :: rest
    else if key = k then (key, value) :: rest
    else (k, v) :: put key value rest

theorem mem_put {key : String} {value : α} {l : List (String × α)} {e : String × α}
    (h : e ∈ put key value l) : e = (key, value) ∨ e ∈ l := by
  induction l with
  | nil => simpa [put] using h
  | cons head rest ih =>
    obtain ⟨k, v⟩ := head
    rw [put] at h
    split at h
    · simpa using h
    · split at h
      · rcases List.mem_cons.1 h with h | h
        · exact .inl h
        · exact .inr (List.mem_cons_of_mem _ h)
      · rcases List.mem_cons.1 h with h | h
        · exact .inr (h ▸ List.mem_cons_self)
        · exact (ih h).imp_right (List.mem_cons_of_mem _)

theorem put_ascending (key : String) (value : α) {l : List (String × α)}
    (h : l.Pairwise fun a b => a.1 < b.1) : (put key value l).Pairwise fun a b => a.1 < b.1 := by
  induction l with
  | nil => simp [put]
  | cons head rest ih =>
    obtain ⟨k, v⟩ := head
    obtain ⟨hhead, hrest⟩ := List.pairwise_cons.1 h
    rw [put]
    split
    · rename_i hlt
      refine List.pairwise_cons.2 ⟨fun e he => ?_, h⟩
      rcases List.mem_cons.1 he with rfl | he
      · exact hlt
      · exact String.lt_trans hlt (hhead e he)
    · rename_i hnlt
      split
      · rename_i heq
        exact List.pairwise_cons.2 ⟨fun e he => heq ▸ hhead e he, hrest⟩
      · rename_i hne
        refine List.pairwise_cons.2 ⟨fun e he => ?_, ih hrest⟩
        rcases mem_put he with rfl | he
        · exact lt_of_not_lt_of_ne hnlt hne
        · exact hhead e he

def empty : TextMap α := ⟨[], .nil⟩

instance : Inhabited (TextMap α) := ⟨empty⟩

def insert (m : TextMap α) (key : String) (value : α) : TextMap α :=
  ⟨put key value m.entries, put_ascending key value m.ascending⟩

/-- The last entry of a key counts. -/
def ofList (entries : List (String × α)) : TextMap α :=
  entries.foldl (fun m e => m.insert e.1 e.2) empty

/-- Removes the entry of a key. -/
def erase (m : TextMap α) (key : String) : TextMap α :=
  ⟨m.entries.filter (·.1 ≠ key), m.ascending.filter _⟩

def get? (m : TextMap α) (key : String) : Option α := m.entries.lookup key

def keys (m : TextMap α) : List String := m.entries.map (·.1)

def isEmpty (m : TextMap α) : Bool := m.entries.isEmpty

@[simp] theorem entries_empty : (empty : TextMap α).entries = [] := rfl

@[simp] theorem entries_insert (m : TextMap α) (key : String) (value : α) :
    (m.insert key value).entries = put key value m.entries := rfl

theorem ext_entries {m n : TextMap α} (h : m.entries = n.entries) : m = n := by
  cases m; cases n; cases h; rfl

theorem lookup_cons_eq (other key : String) (value : α) (l : List (String × α)) :
    ((key, value) :: l).lookup other = if other = key then some value else l.lookup other := by
  by_cases h : other = key
  · simp [h]
  · simp [List.lookup_cons, h, beq_false_of_ne h]

theorem lookup_put (key other : String) (value : α) (l : List (String × α)) :
    (put key value l).lookup other = if other = key then some value else l.lookup other := by
  induction l with
  | nil => simp [put, lookup_cons_eq]
  | cons head rest ih =>
    obtain ⟨k, v⟩ := head
    rw [put]
    split
    · simp [lookup_cons_eq]
    · split
      · rename_i heq
        subst heq
        by_cases ho : other = key <;> simp [lookup_cons_eq, ho]
      · rename_i hne
        by_cases hk : other = k
        · subst hk
          simp [Ne.symm hne]
        · simp [lookup_cons_eq, hk, ih]

theorem get?_insert (m : TextMap α) (key other : String) (value : α) :
    (m.insert key value).get? other = if other = key then some value else m.get? other :=
  lookup_put key other value m.entries

theorem lookup_filter_ne (key other : String) (l : List (String × α)) :
    (l.filter (·.1 ≠ key)).lookup other = if other = key then none else l.lookup other := by
  induction l with
  | nil => simp
  | cons head rest ih =>
    obtain ⟨k, v⟩ := head
    by_cases hk : k = key
    · subst hk
      by_cases ho : other = k
      · simpa [ho] using ih
      · simpa [lookup_cons_eq, ho] using ih
    · by_cases ho : other = k
      · subst ho
        simp [hk]
      · simpa [lookup_cons_eq, hk, ho] using ih

theorem get?_erase (m : TextMap α) (key other : String) :
    (m.erase key).get? other = if other = key then none else m.get? other :=
  lookup_filter_ne key other m.entries

end TextMap
end LoggingFacade
