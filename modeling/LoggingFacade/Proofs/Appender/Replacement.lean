import LoggingFacade.Appender.Writing

/-!
# Maps that replace each other

Maps of appenders that are keyed by the appenders' names, where an identity stands
for one appender. What such a map drops for another is a matter of identity alone:
the appenders that the one holds and the other does not, each of them once.
-/

namespace LoggingFacade
namespace AppenderMap

/-- The map has this very appender. -/
def holds (m : AppenderMap) (a : Appender) : Bool := m.appenders.any fun b => b.id = a.id

/-- The appenders that a map has and the next one lacks. -/
def leaving (previous next : AppenderMap) : List Appender :=
  previous.appenders.filter fun a => !next.holds a

/-- The appenders of some maps. -/
def used (maps : List AppenderMap) : List Appender := maps.flatMap appenders

/-- Maps that have each appender under its own name, and appenders that are told
apart by their identities. -/
structure Keyed (maps : List AppenderMap) : Prop where
  named : ∀ m ∈ maps, ∀ e ∈ m.entries, e.1 = e.2.name
  identified : ∀ a ∈ used maps, ∀ b ∈ used maps, a.id = b.id → a = b

variable {maps : List AppenderMap} {m previous next : AppenderMap} {a : Appender}

theorem mem_used : a ∈ used maps ↔ ∃ m ∈ maps, a ∈ m.appenders := List.mem_flatMap

theorem mem_appenders : a ∈ m.appenders ↔ ∃ name, (name, a) ∈ m.entries := by
  simp [appenders]

@[simp] theorem holds_empty (a : Appender) : empty.holds a = false := rfl

theorem holds_of_mem (h : a ∈ m.appenders) : m.holds a = true :=
  List.any_eq_true.2 ⟨a, h, decide_eq_true rfl⟩

/-- The first map of all changes nothing about the later ones. -/
theorem Keyed.cons_empty (h : Keyed maps) : Keyed (empty :: maps) where
  named m hm := by
    rcases List.mem_cons.1 hm with rfl | hm
    · nofun
    · exact h.named m hm
  identified := h.identified

theorem Keyed.mem_of_holds (h : Keyed maps) (hm : m ∈ maps) (ha : a ∈ used maps)
    (hholds : m.holds a = true) : a ∈ m.appenders := by
  obtain ⟨b, hb, hid⟩ := List.any_eq_true.1 hholds
  rw [← h.identified b (mem_used.2 ⟨m, hm, hb⟩) a ha (of_decide_eq_true hid)]
  exact hb

theorem get?_eq_some {name : String} : m.get? name = some a ↔ (name, a) ∈ m.entries := by
  rw [get?, List.lookup_eq_some_iff]
  constructor
  · rintro ⟨before, after, heq, -⟩
    rw [heq]
    exact List.mem_append_right _ List.mem_cons_self
  · intro hmem
    obtain ⟨before, after, heq⟩ := List.append_of_mem hmem
    refine ⟨before, after, heq, fun p hp => ?_⟩
    have hdistinct := m.distinct
    rw [heq, List.map_append, List.nodup_append] at hdistinct
    exact bne_iff_ne.2 fun hname =>
      hdistinct.2.2 p.1 (List.mem_map_of_mem hp) name List.mem_cons_self hname.symm

/-- No appender is in a map twice. -/
theorem Keyed.nodup_ids (h : Keyed maps) (hm : m ∈ maps) :
    (m.appenders.map Appender.id).Nodup := by
  have hused : ∀ e ∈ m.entries, e.2 ∈ used maps := fun e he =>
    mem_used.2 ⟨m, hm, mem_appenders.2 ⟨e.1, he⟩⟩
  rw [appenders, List.map_map]
  refine List.pairwise_map.2 ((List.pairwise_map.1 m.distinct).imp_of_mem ?_)
  intro e f he hf hname hid
  have hsame : e.2 = f.2 := h.identified e.2 (hused e he) f.2 (hused f hf) hid
  exact hname (by rw [h.named m hm e he, h.named m hm f hf, hsame])

/-- Among the appenders of the maps, an identity tells whether one is in a list. -/
theorem Keyed.mem_ids (h : Keyed maps) {appenders : List Appender}
    (hused : ∀ b ∈ appenders, b ∈ used maps) (ha : a ∈ used maps) :
    a.id ∈ appenders.map Appender.id ↔ a ∈ appenders := by
  refine ⟨fun hmem => ?_, List.mem_map_of_mem⟩
  obtain ⟨b, hb, hid⟩ := List.mem_map.1 hmem
  rw [← h.identified b (hused b hb) a ha hid]
  exact hb

/-- Another map that holds an appender has it under the same name. -/
theorem Keyed.get?_of_holds (h : Keyed maps) (hprevious : previous ∈ maps) (hnext : next ∈ maps)
    {e : String × Appender} (he : e ∈ previous.entries) (hholds : next.holds e.2 = true) :
    next.get? e.1 = some e.2 := by
  have hused : e.2 ∈ used maps := mem_used.2 ⟨previous, hprevious, mem_appenders.2 ⟨e.1, he⟩⟩
  obtain ⟨name, hname⟩ := mem_appenders.1 (h.mem_of_holds hnext hused hholds)
  have hkey : name = e.1 :=
    (h.named next hnext _ hname).trans (h.named previous hprevious e he).symm
  rw [get?_eq_some, ← hkey]
  exact hname

/-- What is dropped is what the next map does not hold. -/
theorem Keyed.dropped_eq (h : Keyed maps) (hprevious : previous ∈ maps) (hnext : next ∈ maps) :
    previous.dropped next = previous.entries.filter fun e => !next.holds e.2 := by
  refine List.filter_congr fun e he => ?_
  cases hholds : next.holds e.2 with
  | true => simp [h.get?_of_holds hprevious hnext he hholds]
  | false =>
    cases hkept : next.get? e.1 with
    | none => rfl
    | some kept =>
      have hid : kept.id ≠ e.2.id := fun hid => Bool.eq_false_iff.1 hholds
        (List.any_eq_true.2
          ⟨kept, mem_appenders.2 ⟨e.1, get?_eq_some.1 hkept⟩, decide_eq_true hid⟩)
      simp [hid]

theorem Keyed.appenders_dropped (h : Keyed maps) (hprevious : previous ∈ maps)
    (hnext : next ∈ maps) : (previous.dropped next).map (·.2) = previous.leaving next := by
  rw [h.dropped_eq hprevious hnext, leaving, appenders, List.filter_map]
  rfl

theorem Keyed.nodup_leaving (h : Keyed maps) (hprevious : previous ∈ maps)
    (next : AppenderMap) : ((previous.leaving next).map Appender.id).Nodup :=
  (h.nodup_ids hprevious).sublist (List.filter_sublist.map Appender.id)

theorem Keyed.mem_leaving (h : Keyed maps) (hprevious : previous ∈ maps) (next : AppenderMap)
    (ha : a ∈ used maps) :
    a ∈ previous.leaving next ↔ (previous.holds a && !next.holds a) = true := by
  rw [leaving, List.mem_filter, Bool.and_eq_true]
  exact and_congr_left fun _ => ⟨holds_of_mem, h.mem_of_holds hprevious ha⟩

end AppenderMap
end LoggingFacade
