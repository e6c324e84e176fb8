import LoggingFacade.Layout
import LoggingFacade.Traced

/-!
# Appenders and maps of appenders

An appender is known by its identity; what it has written is state of the world
it belongs to. A map of appenders has one entry for a name; the order of its
entries carries no meaning.
-/

namespace LoggingFacade

structure Appender where
  id : Nat
  name : String
  layout : Option Layout

structure AppenderMap where
  entries : List (String × Appender)
  distinct : (entries.map (·.1)).Nodup

namespace AppenderMap

/-- Puts an appender in place of the one of the same name, or at the end. -/
def put (name : String) (appender : Appender) :
    List (String × Appender) → List (String × Appender)
  | [] => [(name, appender)]
  | (n, a) :: rest =>
    if n = name then (name, appender) :: rest else (n, a) :: put name appender rest

theorem names_put (name : String) (appender : Appender) (l : List (String × Appender)) :
    (put name appender l).map (·.1) =
      if name ∈ l.map (·.1) then l.map (·.1) else l.map (·.1) ++ [name] := by
  induction l with
  | nil => simp [put]
  | cons head rest ih =>
    obtain ⟨n, a⟩ := head
    rw [put]
    split
    · rename_i h
      simp [h]
    · rename_i h
      simp only [List.map_cons, ih, List.mem_cons, Ne.symm h, false_or]
      split <;> simp

theorem put_distinct (name : String) (appender : Appender) {l : List (String × Appender)}
    (h : (l.map (·.1)).Nodup) : ((put name appender l).map (·.1)).Nodup := by
  rw [names_put]
  split
  · exact h
  · rename_i hn
    exact List.nodup_append.2 ⟨h, by simp, by
      intro a ha b hb
      rw [List.mem_singleton] at hb
      rintro rfl
      exact hn (hb ▸ ha)⟩

def empty : AppenderMap := ⟨[], by simp⟩

instance : Inhabited AppenderMap := ⟨empty⟩

def insert (m : AppenderMap) (name : String) (appender : Appender) : AppenderMap :=
  ⟨put name appender m.entries, put_distinct name appender m.distinct⟩

def get? (m : AppenderMap) (name : String) : Option Appender := m.entries.lookup name

def appenders (m : AppenderMap) : List Appender := m.entries.map (·.2)

def names (m : AppenderMap) : List String := m.entries.map (·.1)

def size (m : AppenderMap) : Nat := m.entries.length

def isEmpty (m : AppenderMap) : Bool := m.entries.isEmpty

@[simp] theorem entries_insert (m : AppenderMap) (name : String) (appender : Appender) :
    (m.insert name appender).entries = put name appender m.entries := rfl

theorem lookup_put (name other : String) (appender : Appender) (l : List (String × Appender)) :
    (put name appender l).lookup other =
      if other = name then some appender else l.lookup other := by
  induction l with
  | nil =>
    by_cases h : other = name
    · simp [put, h]
    · simp [put, List.lookup_cons, h, beq_false_of_ne h]
  | cons head rest ih =>
    obtain ⟨n, a⟩ := head
    rw [put]
    split
    · rename_i hn
      subst hn
      by_cases h : other = n
      · simp [h]
      · simp [List.lookup_cons, h, beq_false_of_ne h]
    · rename_i hn
      by_cases h : other = n
      · subst h
        simp [hn]
      · rw [List.lookup_cons, List.lookup_cons, beq_false_of_ne h]
        exact ih

theorem get?_insert (m : AppenderMap) (name other : String) (appender : Appender) :
    (m.insert name appender).get? other =
      if other = name then some appender else m.get? other :=
  lookup_put name other appender m.entries

/-- Collects appenders under their names; the last of a name is kept, and each
one it replaces is reported. -/
def collect {σ : Type} (appenders : List Appender) : Traced σ AppenderMap := go empty appenders
where
  go (m : AppenderMap) : List Appender → Traced σ AppenderMap
    | [] => pure m
    | appender :: rest => do
      if (m.get? appender.name).isSome then
        Traced.report (.appenderReplaced appender.name)
      go (m.insert appender.name appender) rest

end AppenderMap
end LoggingFacade
