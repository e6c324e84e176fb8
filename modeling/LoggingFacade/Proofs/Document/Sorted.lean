import LoggingFacade.Document.Toml.Moments
import LoggingFacade.Proofs.TextMap

/-!
# Documents in the order of their keys

A reader whose tables are maps gives back a document with the keys of every
table in ascending order. Documents of texts and booleans only are what a
configuration is written as; they have neither moments nor integers.
-/

namespace LoggingFacade
namespace Document

/-- The same document with the keys of every table in ascending order. -/
def sorted : Document → Document
  | list items => list (itemsSorted items)
  | table entries => table (TextMap.ofList (entriesSorted entries)).entries
  | d => d
where
  itemsSorted : List Document → List Document
    | [] => []
    | item :: rest => item.sorted :: itemsSorted rest
  entriesSorted : List (String × Document) → List (String × Document)
    | [] => []
    | (key, value) :: rest => (key, value.sorted) :: entriesSorted rest

theorem itemsSorted_eq (items : List Document) : sorted.itemsSorted items = items.map sorted := by
  induction items with
  | nil => rfl
  | cons item rest ih => rw [sorted.itemsSorted, ih, List.map_cons]

theorem entriesSorted_eq (entries : List (String × Document)) :
    sorted.entriesSorted entries = entries.map fun e => (e.1, e.2.sorted) := by
  induction entries with
  | nil => rfl
  | cons e rest ih => rw [sorted.entriesSorted, ih, List.map_cons]

theorem sorted_list (items : List Document) : (list items).sorted = list (items.map sorted) := by
  rw [sorted, itemsSorted_eq]

theorem sorted_table (entries : List (String × Document)) : (table entries).sorted =
    table (TextMap.ofList (entries.map fun e => (e.1, e.2.sorted))).entries := by
  rw [sorted, entriesSorted_eq]

theorem sorted_table_of_perm {entries listed : List (String × Document)}
    (hperm : (entries.map fun e => (e.1, e.2.sorted)).Perm listed)
    (h : (listed.map (·.1)).Pairwise (· < ·)) : (table entries).sorted = table listed := by
  rw [sorted_table, TextMap.entries_ofList_of_perm hperm h]

/-- A document of texts and booleans, in lists and tables. -/
inductive Textual : Document → Prop
  | bool (b : Bool) : Textual (bool b)
  | text (s : String) : Textual (text s)
  | list {items : List Document} : (∀ d ∈ items, Textual d) → Textual (list items)
  | table {entries : List (String × Document)} : (∀ e ∈ entries, Textual e.2) →
      Textual (table entries)

theorem Textual.texts (texts : List String) : Textual (.list (texts.map .text)) := by
  refine .list ?_
  intro d hd
  obtain ⟨s, -, rfl⟩ := List.mem_map.1 hd
  exact .text s

theorem Textual.sorted {d : Document} (h : Textual d) : Textual d.sorted := by
  induction h with
  | bool b => exact .bool b
  | text s => exact .text s
  | list _ ih =>
    rw [sorted_list]
    refine .list ?_
    intro d hd
    obtain ⟨item, hitem, rfl⟩ := List.mem_map.1 hd
    exact ih item hitem
  | table _ ih =>
    rw [sorted_table]
    refine .table ?_
    intro e he
    have hlisted := TextMap.mem_of_mem_ofList he
    obtain ⟨given, hgiven, rfl⟩ := List.mem_map.1 hlisted
    exact ih given hgiven

theorem itemsSpelledOut_eq (items : List Document) :
    spelledOut.itemsSpelledOut items = items.map spelledOut := by
  induction items with
  | nil => rfl
  | cons item rest ih => rw [spelledOut.itemsSpelledOut, ih, List.map_cons]

theorem entriesSpelledOut_eq (entries : List (String × Document)) :
    spelledOut.entriesSpelledOut entries = entries.map fun e => (e.1, e.2.spelledOut) := by
  induction entries with
  | nil => rfl
  | cons e rest ih => rw [spelledOut.entriesSpelledOut, ih, List.map_cons]

/-- No moment is spelled out. -/
theorem Textual.spelledOut {d : Document} (h : Textual d) : d.spelledOut = d := by
  induction h with
  | bool b => rfl
  | text s => rfl
  | list _ ih =>
    rw [Document.spelledOut, itemsSpelledOut_eq, List.map_congr_left ih, List.map_id']
  | @table entries _ ih =>
    have hentries : ∀ e ∈ entries, (e.1, e.2.spelledOut) = e :=
      fun e he => congrArg (Prod.mk e.1) (ih e he)
    rw [Document.spelledOut, entriesSpelledOut_eq, List.map_congr_left hentries, List.map_id']

theorem itemsWithin_eq (b : Number.Bounds) (items : List Document) :
    integersWithin.itemsWithin b items = items.all (integersWithin b) := by
  induction items with
  | nil => rfl
  | cons item rest ih => rw [integersWithin.itemsWithin, ih, List.all_cons]

theorem entriesWithin_eq (b : Number.Bounds) (entries : List (String × Document)) :
    integersWithin.entriesWithin b entries = entries.all fun e => integersWithin b e.2 := by
  induction entries with
  | nil => rfl
  | cons e rest ih => rw [integersWithin.entriesWithin, ih, List.all_cons]

/-- No integer is beyond any bounds. -/
theorem Textual.integersWithin {d : Document} (h : Textual d) (b : Number.Bounds) :
    d.integersWithin b = true := by
  induction h with
  | bool b => rfl
  | text s => rfl
  | list _ ih => rw [Document.integersWithin, itemsWithin_eq, List.all_eq_true.2 ih]
  | table _ ih => rw [Document.integersWithin, entriesWithin_eq, List.all_eq_true.2 ih]

end Document
end LoggingFacade
