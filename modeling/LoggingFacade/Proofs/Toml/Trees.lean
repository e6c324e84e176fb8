import LoggingFacade.Proofs.Document.Sorted
import LoggingFacade.Proofs.Toml.Lines

/-!
# Documents that are read back

Of the text of a document whose values stand in tables and arrays of tables, the
reader builds up the same document, with the keys of its tables in ascending
order. Each header leads to the table that the lines behind it fill, so what the
lines do is told for a place in the tree, whatever stands around it.
-/

namespace LoggingFacade
namespace Toml

open TextMap (put put_put lookup_put)

/-! ## Places in the tree -/

/-- Where the path leads, the tree around the place holds given entries, and
nothing else of it depends on them. -/
def Focus (path : List String) (around : Entries → Entries) : Prop :=
  ∀ (edit : Origin → Entries → Option Entries) (before after : Entries),
    (∀ origin, origin ≠ .dotted → edit origin before = some after) →
      Entries.change false edit path .header (around before) = some (around after)

theorem change_append (edit : Origin → Entries → Option Entries) (path more : List String)
    (origin : Origin) (entries : Entries) :
    Entries.change false edit (path ++ more) origin entries =
      Entries.change false (Entries.change false edit more) path origin entries := by
  induction path generalizing origin entries with
  | nil => rfl
  | cons key path ih =>
    rw [List.cons_append, Entries.change, Entries.change]
    simp only [ih]

theorem focus_root : Focus [] id := fun _ _ _ h => h .header (by decide)

section Focus

variable {path : List String} {around : Entries → Entries} (h : Focus path around)
include h

theorem Focus.table (key : String) (beside : Entries) :
    Focus (path ++ [key]) fun entries => around (put key (.table .header entries) beside) := by
  intro edit before after hedit
  rw [change_append]
  refine h _ _ _ ?_
  intro origin _
  rw [Entries.change, lookup_put, if_pos rfl]
  simp [Entries.change, hedit .header (by decide), put_put]

/-- Of an array, the path leads to the latest table. -/
theorem Focus.latest (key : String) (earlier : List Entries) (beside : Entries) :
    Focus (path ++ [key]) fun entries =>
      around (put key (.tables (entries :: earlier)) beside) := by
  intro edit before after hedit
  rw [change_append]
  refine h _ _ _ ?_
  intro origin _
  rw [Entries.change, lookup_put, if_pos rfl]
  simp [Entries.change, hedit .header (by decide), put_put]

variable {key : String} {entries : Entries}

theorem Focus.openTable (hnew : entries.lookup key = none) :
    Entries.openTable path key (around entries) =
      some (around (put key (.table .header []) entries)) := by
  refine h _ _ _ ?_
  intro origin _
  rw [Entries.openTable.edit, hnew]

theorem Focus.appendTable_first (hnew : entries.lookup key = none) :
    Entries.appendTable path key (around entries) =
      some (around (put key (.tables [[]]) entries)) := by
  refine h _ _ _ ?_
  intro origin _
  rw [Entries.appendTable.edit, hnew]

theorem Focus.appendTable_next (earlier : List Entries) :
    Entries.appendTable path key (around (put key (.tables earlier) entries)) =
      some (around (put key (.tables ([] :: earlier)) entries)) := by
  refine h _ _ _ ?_
  intro origin _
  rw [Entries.appendTable.edit, lookup_put, if_pos rfl]
  simp only [put_put]

theorem Focus.insertValue (hnew : entries.lookup key = none) (d : Document) :
    (⟨around entries, path⟩ : Position).insertValue [] key d =
      some ⟨around (put key (.value d) entries), path⟩ := by
  have hroot : Entries.change false (fun origin entries =>
      Entries.insertValue [] key d origin entries) path .header (around entries) =
      some (around (put key (.value d) entries)) := by
    refine h _ _ _ ?_
    intro origin horigin
    rw [Entries.insertValue, Entries.change, Entries.insertValue.edit, hnew]
    simp [horigin]
  rw [Position.insertValue, hroot]
  rfl

end Focus

/-! ## What nodes stand for -/

/-- Puts nodes under their keys, one after the other. -/
def putAll (nodes entries : Entries) : Entries := nodes.foldl (fun e n => put n.1 n.2 e) entries

/-- The nodes stand for the values, in the same order. -/
def Shows (nodes : Entries) (values : List (String × Document)) : Prop :=
  nodes.map (fun n => (n.1, n.2.toDocument)) = values.map fun e => (e.1, e.2.sorted)

theorem entriesDocuments_eq (entries : Entries) :
    Node.toDocument.entriesDocuments entries = entries.map fun n => (n.1, n.2.toDocument) := by
  induction entries with
  | nil => rfl
  | cons n rest ih => rw [Node.toDocument.entriesDocuments, ih, List.map_cons]

theorem itemsDocuments_eq (items : List Entries) : Node.toDocument.itemsDocuments items =
    items.map fun entries => (Node.table .header entries).toDocument := by
  induction items with
  | nil => rfl
  | cons item rest ih =>
    rw [Node.toDocument.itemsDocuments, ih, List.map_cons, Node.toDocument]

theorem putAll_eq_ofList (nodes : Entries) : putAll nodes [] = (TextMap.ofList nodes).entries := by
  induction nodes using List.reverseRecOn with
  | nil => rfl
  | append_singleton nodes n ih =>
    rw [TextMap.ofList_concat, TextMap.entries_insert, ← ih, putAll, List.foldl_append]
    rfl

theorem Shows.keys {nodes : Entries} {values : List (String × Document)} (h : Shows nodes values) :
    nodes.map (·.1) = values.map (·.1) := by
  have hkeys := congrArg (List.map Prod.fst) h
  simpa [Function.comp_def] using hkeys

theorem Shows.append {nodes more : Entries} {values others : List (String × Document)}
    (h : Shows nodes values) (hmore : Shows more others) :
    Shows (nodes ++ more) (values ++ others) := by
  rw [Shows, List.map_append, List.map_append, h, hmore]

theorem putAll_append (nodes more entries : Entries) :
    putAll (nodes ++ more) entries = putAll more (putAll nodes entries) := List.foldl_append

/-- Values that are put one after the other come out as a table in the order of
their keys. -/
theorem Shows.toDocument {nodes : Entries} {values entries : List (String × Document)}
    (h : Shows nodes values) (hperm : values.Perm entries) (hkeys : (entries.map (·.1)).Nodup)
    (origin : Origin) :
    (Node.table origin (putAll nodes [])).toDocument = (Document.table entries).sorted := by
  have hsame : TextMap.ofList (values.map fun e => (e.1, e.2.sorted)) =
      TextMap.ofList (entries.map fun e => (e.1, e.2.sorted)) := by
    refine TextMap.ofList_perm (hperm.map _) ?_
    have hvalues : (values.map (·.1)).Nodup := (hperm.map _).nodup_iff.2 hkeys
    simpa [Function.comp_def] using hvalues
  rw [putAll_eq_ofList, Node.toDocument, entriesDocuments_eq, ← TextMap.entries_ofList_map, h,
    hsame, Document.sorted_table]

/-- Nothing stands under the keys. -/
def Fresh (keys : List String) (entries : Entries) : Prop :=
  ∀ key ∈ keys, entries.lookup key = none

theorem Fresh.put {keys : List String} {entries : Entries} (h : Fresh keys entries) {key : String}
    (hkey : key ∉ keys) (node : Node) : Fresh keys (put key node entries) := by
  intro other hother
  have hne : other ≠ key := fun heq => hkey (heq ▸ hother)
  rw [lookup_put, if_neg hne]
  exact h other hother

theorem Fresh.putAll {nodes entries : Entries} {keys : List String} (h : Fresh keys entries)
    (hkeys : (nodes.map (·.1)).Disjoint keys) : Fresh keys (putAll nodes entries) := by
  induction nodes generalizing entries with
  | nil => exact h
  | cons n nodes ih =>
    rw [List.map_cons, List.disjoint_cons_left] at hkeys
    exact ih (h.put hkeys.1 n.2) hkeys.2

/-! ## Sorts of values -/

/-- A table whose values are fields, tables or arrays of tables, nested to at most
the given depth below it. Its keys are different. -/
inductive Tabular : Nat → List (String × Document) → Prop
  | nil {depth : Nat} : Tabular depth []
  | field {depth : Nat} {key : String} {d : Document} {rest : List (String × Document)} :
      FieldValue d → key ∉ rest.map (·.1) → Tabular depth rest → Tabular depth ((key, d) :: rest)
  | table {depth : Nat} {key : String} {entries rest : List (String × Document)} :
      Tabular depth entries → key ∉ rest.map (·.1) → Tabular (depth + 1) rest →
      Tabular (depth + 1) ((key, .table entries) :: rest)
  | tables {depth : Nat} {key : String} {items : List (List (String × Document))}
      {rest : List (String × Document)} : items ≠ [] → (∀ entries ∈ items, Tabular depth entries) →
      key ∉ rest.map (·.1) → Tabular (depth + 1) rest →
      Tabular (depth + 1) ((key, .list (items.map .table)) :: rest)

theorem Tabular.of_fields (depth : Nat) {values : List (String × Document)}
    (h : ∀ v ∈ values, FieldValue v.2) (hkeys : (values.map (·.1)).Nodup) :
    Tabular depth values := by
  induction values with
  | nil => exact .nil
  | cons v values ih =>
    rw [List.forall_mem_cons] at h
    rw [List.map_cons, List.nodup_cons] at hkeys
    exact .field h.1 hkeys.1 (ih h.2 hkeys.2)

theorem isTableArray_tables {items : List (List (String × Document))} (h : items ≠ []) :
    isTableArray (.list (items.map .table)) = true := by
  simp [isTableArray, h, isTable]

theorem isField_tables {items : List (List (String × Document))} (h : items ≠ []) :
    isField (.list (items.map .table)) = false := by
  simp [isField, isTableArray_tables h]

theorem Tabular.nodup_keys {depth : Nat} {entries : List (String × Document)}
    (h : Tabular depth entries) : (entries.map (·.1)).Nodup := by
  induction h with
  | nil => exact List.nodup_nil
  | field _ hkey _ ih => exact List.nodup_cons.2 ⟨hkey, ih⟩
  | table _ hkey _ _ ih => exact List.nodup_cons.2 ⟨hkey, ih⟩
  | tables _ _ hkey _ _ ih => exact List.nodup_cons.2 ⟨hkey, ih⟩

theorem FieldValue.isField {d : Document} (h : FieldValue d) : isField d = true := by
  have htable : ∀ {d : Document}, Scalar d → isTable d = false := fun hd => by cases hd <;> rfl
  cases h with
  | scalar hd => cases hd <;> rfl
  | @list items hitems =>
    cases items with
    | nil => rfl
    | cons d items =>
      have harray : isTableArray (.list (d :: items)) = false := by
        rw [isTableArray, List.all_cons, htable (hitems d List.mem_cons_self)]
        rfl
      simp [Toml.isField, isTable, harray]

theorem FieldValue.texts (texts : List String) : FieldValue (.list (texts.map .text)) := by
  refine .list ?_
  intro d hd
  obtain ⟨s, -, rfl⟩ := List.mem_map.1 hd
  exact .text s

theorem FieldValue.sorted {d : Document} (h : FieldValue d) : d.sorted = d := by
  have hscalar : ∀ {d : Document}, Scalar d → d.sorted = d := fun hd => by cases hd <;> rfl
  cases h with
  | scalar hd => exact hscalar hd
  | list hitems =>
    rw [Document.sorted_list, List.map_congr_left fun d hd => hscalar (hitems d hd), List.map_id']

/-- A field has no header of its own. -/
theorem sectionText_of_isField {d : Document} (h : isField d = true) (path : List String) :
    sectionText path d = "" := by
  cases d with
  | table entries => contradiction
  | list items =>
    have harray : isTableArray (.list items) = false := by
      simpa [isField, isTable] using h
    rw [sectionText, harray]
    rfl
  | _ => rfl

/-- The values of a table that stand on the lines below its header. -/
def fields (entries : List (String × Document)) : List (String × Document) :=
  entries.filter fun e => isField e.2

/-- The values of a table that have headers of their own. -/
def sections (entries : List (String × Document)) : List (String × Document) :=
  entries.filter fun e => !isField e.2

theorem fields_append_sections (entries : List (String × Document)) :
    (fields entries ++ sections entries).Perm entries := List.filter_append_perm _ _

theorem sections_cons_of_isField {d : Document} (h : isField d = true) (key : String)
    (rest : List (String × Document)) : sections ((key, d) :: rest) = sections rest :=
  List.filter_cons_of_neg (by simp [h])

theorem sections_cons_of_not {d : Document} (h : isField d = false) (key : String)
    (rest : List (String × Document)) :
    sections ((key, d) :: rest) = (key, d) :: sections rest :=
  List.filter_cons_of_pos (by simp [h])

theorem Tabular.fieldValue {depth : Nat} {entries : List (String × Document)}
    (h : Tabular depth entries) {v : String × Document} (hv : v ∈ fields entries) :
    FieldValue v.2 := by
  obtain ⟨hmem, hfield⟩ := List.mem_filter.1 hv
  clear hv
  induction h with
  | nil => contradiction
  | field hd _ _ ih =>
    obtain rfl | hrest := List.mem_cons.1 hmem
    · exact hd
    · exact ih hrest
  | table _ _ _ _ ih =>
    obtain rfl | hrest := List.mem_cons.1 hmem
    · contradiction
    · exact ih hrest
  | tables hne _ _ _ _ ih =>
    obtain rfl | hrest := List.mem_cons.1 hmem
    · exact absurd hfield (by simp [isField_tables hne])
    · exact ih hrest

def fieldNodes (values : List (String × Document)) : Entries :=
  values.map fun e => (e.1, .value e.2)

theorem shows_fieldNodes {values : List (String × Document)} (h : ∀ v ∈ values, FieldValue v.2) :
    Shows (fieldNodes values) values := by
  rw [Shows, fieldNodes, List.map_map]
  refine List.map_congr_left ?_
  intro v hv
  exact congrArg (Prod.mk v.1) (h v hv).sorted.symm

/-! ## The lines of a table -/

theorem reads_fields (e : Edition) {path : List String} {around : Entries → Entries}
    (hfocus : Focus path around) {values : List (String × Document)}
    (hvalues : ∀ v ∈ values, FieldValue v.2) (hkeys : (values.map (·.1)).Nodup)
    {entries : Entries} (hfresh : Fresh (values.map (·.1)) entries) :
    Reads e (String.join (values.map fun v => fieldText v.1 v.2)).toList ⟨around entries, path⟩
      ⟨around (putAll (fieldNodes values) entries), path⟩ := by
  induction values generalizing entries with
  | nil => exact reads_nil e _
  | cons v values ih =>
    rw [List.forall_mem_cons] at hvalues
    rw [List.map_cons, List.nodup_cons] at hkeys
    rw [List.map_cons, Fresh, List.forall_mem_cons] at hfresh
    have hrest := ih hvalues.2 hkeys.2 (Fresh.put hfresh.2 hkeys.1 (.value v.2))
    have hline := fun rest => line?_field e hvalues.1 (hfocus.insertValue hfresh.1 v.2) rest
    rw [List.map_cons, String.join_cons, String.toList_append]
    refine Reads.append ?_ hrest
    obtain ⟨c, more, htext, -⟩ := exists_keyStart v.1
    rw [toList_fieldText, htext] at hline ⊢
    exact reads_line hline

/-- Wherever the headed value stands, it is read back. -/
def SectionRead (e : Edition) (depth : Nat) (key : String) (d : Document) : Prop :=
  ∀ ⦃path : List String⦄ ⦃around : Entries → Entries⦄ ⦃entries : Entries⦄ (current : List String),
    Focus path around → path.length + depth ≤ e.greatestDepth → entries.lookup key = none →
      ∃ node after, node.toDocument = d.sorted ∧
        Reads e (sectionText (path ++ [key]) d).toList ⟨around entries, current⟩
          ⟨around (put key node entries), after⟩

/-- Wherever the values stand, the headed ones among them are read back. -/
def SectionsRead (e : Edition) (depth : Nat) (values : List (String × Document)) : Prop :=
  ∀ ⦃path : List String⦄ ⦃around : Entries → Entries⦄ ⦃entries : Entries⦄ (current : List String),
    Focus path around → path.length + depth ≤ e.greatestDepth →
    Fresh ((sections values).map (·.1)) entries →
      ∃ nodes after, Shows nodes (sections values) ∧
        Reads e (sectionsText path values).toList ⟨around entries, current⟩
          ⟨around (putAll nodes entries), after⟩

/-- Wherever its header stands, the table is read back. -/
def TableRead (e : Edition) (depth : Nat) (values : List (String × Document)) : Prop :=
  ∀ ⦃path : List String⦄ ⦃around : Entries → Entries⦄, Focus path around →
    path.length + depth ≤ e.greatestDepth →
      ∃ filled after, (Node.table .header filled).toDocument = (Document.table values).sorted ∧
        Reads e (tableText path (.table values)).toList ⟨around [], path⟩ ⟨around filled, after⟩

section

variable {e : Edition} {depth : Nat} {values : List (String × Document)}

theorem TableRead.of_sections (hvalues : Tabular depth values)
    (hsections : SectionsRead e depth values) : TableRead e depth values := by
  intro path around hfocus hdepth
  have hperm := fields_append_sections values
  have hkeys : ((fields values ++ sections values).map (·.1)).Nodup :=
    (hperm.map _).nodup_iff.2 hvalues.nodup_keys
  rw [List.map_append, List.nodup_append'] at hkeys
  have hshows := shows_fieldNodes fun v hv => hvalues.fieldValue hv
  have hempty : ∀ keys, Fresh keys [] := fun _ _ _ => rfl
  have hfields := reads_fields e hfocus (fun v hv => hvalues.fieldValue hv) hkeys.1 (hempty _)
  have hfresh : Fresh ((sections values).map (·.1)) (putAll (fieldNodes (fields values)) []) := by
    refine (hempty _).putAll ?_
    rw [hshows.keys]
    exact hkeys.2.2
  obtain ⟨nodes, after, hnodes, hread⟩ := hsections path hfocus hdepth hfresh
  refine ⟨putAll (fieldNodes (fields values) ++ nodes) [], after,
    (hshows.append hnodes).toDocument hperm hvalues.nodup_keys .header, ?_⟩
  rw [tableText, String.toList_append, putAll_append]
  exact hfields.append hread

/-- A table under its header. -/
theorem TableRead.sectionRead (h : TableRead e depth values) (key : String) :
    SectionRead e (depth + 1) key (.table values) := by
  intro path around entries current hfocus hdepth hnew
  obtain ⟨filled, after, hfilled, hread⟩ := h (hfocus.table key entries) (by simp; omega)
  refine ⟨.table .header filled, after, hfilled, ?_⟩
  have hroom : path.length < e.greatestDepth := by omega
  have hheader := reads_header (p := ⟨around entries, current⟩) hroom (hfocus.openTable hnew)
  rw [sectionText, String.append_assoc, String.toList_append]
  exact hheader.append hread

section Items

variable {path : List String} {around : Entries → Entries} (hfocus : Focus path around)
include hfocus

/-- One table of an array under its header. -/
theorem TableRead.item (h : TableRead e depth values)
    (hdepth : path.length + (depth + 1) ≤ e.greatestDepth) {key : String}
    {earlier : List Entries} {entries : Entries} {p : Position}
    (hroot : Entries.appendTable path key p.root =
      some (around (put key (.tables ([] :: earlier)) entries))) :
    ∃ filled after, (Node.table .header filled).toDocument = (Document.table values).sorted ∧
      Reads e ("\n[[" ++ pathText (path ++ [key]) ++ "]]\n" ++
          tableText (path ++ [key]) (.table values)).toList p
        ⟨around (put key (.tables (filled :: earlier)) entries), after⟩ := by
  obtain ⟨filled, after, hfilled, hread⟩ := h (hfocus.latest key earlier entries) (by simp; omega)
  refine ⟨filled, after, hfilled, ?_⟩
  rw [String.toList_append]
  exact (reads_itemHeader (by omega) hroot).append hread

/-- The further tables of an array. -/
theorem reads_items {items : List (List (String × Document))}
    (hitems : ∀ values ∈ items, TableRead e depth values)
    (hdepth : path.length + (depth + 1) ≤ e.greatestDepth) {key : String}
    (earlier : List Entries) {entries : Entries} (current : List String) :
    ∃ (filled : List Entries) (after : List String),
      filled.map (fun f => (Node.table .header f).toDocument) =
        items.map (fun values => (Document.table values).sorted) ∧
      Reads e (itemsText (path ++ [key]) (items.map .table)).toList
        ⟨around (put key (.tables earlier) entries), current⟩
        ⟨around (put key (.tables (filled.reverse ++ earlier)) entries), after⟩ := by
  induction items generalizing earlier current with
  | nil => exact ⟨[], current, rfl, reads_nil e _⟩
  | cons values items ih =>
    rw [List.forall_mem_cons] at hitems
    obtain ⟨first, middle, hfirst, hread⟩ :=
      hitems.1.item hfocus hdepth (p := ⟨around (put key (.tables earlier) entries), current⟩)
        (hfocus.appendTable_next earlier)
    obtain ⟨filled, after, hfilled, hrest⟩ := ih hitems.2 (first :: earlier) middle
    refine ⟨first :: filled, after, ?_, ?_⟩
    · rw [List.map_cons, List.map_cons, hfirst, hfilled]
    · rw [List.map_cons, itemsText, String.toList_append, List.reverse_cons, List.append_assoc]
      exact hread.append hrest

end Items

/-- An array of tables, each under its header. -/
theorem sectionRead_tables {items : List (List (String × Document))} (hne : items ≠ [])
    (hitems : ∀ values ∈ items, TableRead e depth values) (key : String) :
    SectionRead e (depth + 1) key (.list (items.map .table)) := by
  intro path around entries current hfocus hdepth hnew
  have htext : sectionText (path ++ [key]) (.list (items.map .table)) =
      itemsText (path ++ [key]) (items.map .table) := by
    rw [sectionText, if_pos (isTableArray_tables hne)]
  rw [htext]
  obtain ⟨values, rest, rfl⟩ := List.exists_cons_of_ne_nil hne
  rw [List.forall_mem_cons] at hitems
  obtain ⟨first, middle, hfirst, hread⟩ := hitems.1.item hfocus hdepth
    (p := ⟨around entries, current⟩) (hfocus.appendTable_first hnew)
  obtain ⟨filled, after, hfilled, hrest⟩ := reads_items hfocus hitems.2 hdepth [first] middle
  refine ⟨.tables (filled.reverse ++ [first]), after, ?_, ?_⟩
  · rw [Node.toDocument, itemsDocuments_eq, List.map_append, List.reverse_append,
      List.map_reverse, List.reverse_reverse, hfilled, Document.sorted_list]
    simp [hfirst, Function.comp_def]
  · rw [List.map_cons, itemsText, String.toList_append]
    exact hread.append hrest

theorem SectionsRead.field {key : String} {d : Document} (hd : isField d = true)
    (h : SectionsRead e depth values) : SectionsRead e depth ((key, d) :: values) := by
  intro path around entries current hfocus hdepth hfresh
  rw [sections_cons_of_isField hd] at hfresh ⊢
  rw [sectionsText, sectionText_of_isField hd, String.empty_append]
  exact h current hfocus hdepth hfresh

theorem SectionRead.cons {key : String} {d : Document} (hd : isField d = false)
    (hkey : key ∉ values.map (·.1)) (hsection : SectionRead e depth key d)
    (h : SectionsRead e depth values) : SectionsRead e depth ((key, d) :: values) := by
  intro path around entries current hfocus hdepth hfresh
  rw [sections_cons_of_not hd] at hfresh ⊢
  rw [List.map_cons, Fresh, List.forall_mem_cons] at hfresh
  have hbeside : key ∉ (sections values).map (·.1) :=
    fun hmem => hkey (List.map_subset _ (List.filter_subset_self values) hmem)
  obtain ⟨node, middle, hnode, hread⟩ := hsection current hfocus hdepth hfresh.1
  obtain ⟨nodes, after, hnodes, hreads⟩ :=
    h middle hfocus hdepth (Fresh.put hfresh.2 hbeside node)
  refine ⟨(key, node) :: nodes, after, ?_, ?_⟩
  · rw [Shows, List.map_cons, List.map_cons, hnode, hnodes]
  · rw [sectionsText, String.toList_append]
    exact hread.append hreads

end

/-- The headed values of a table are read back one after the other. -/
theorem Tabular.sectionsRead (e : Edition) {depth : Nat} {values : List (String × Document)}
    (h : Tabular depth values) : SectionsRead e depth values := by
  induction h with
  | nil => exact fun _ _ _ current _ _ _ => ⟨[], current, rfl, reads_nil e _⟩
  | field hd _ _ ih => exact ih.field hd.isField
  | table hvalues hkey _ ihvalues ihrest =>
    have htable := TableRead.of_sections hvalues ihvalues
    exact (htable.sectionRead _).cons rfl hkey ihrest
  | tables hne hitems hkey _ ihitems ihrest =>
    have htables := fun values hmem => TableRead.of_sections (hitems values hmem)
      (ihitems values hmem)
    exact (sectionRead_tables hne htables _).cons (isField_tables hne) hkey ihrest

theorem Tabular.tableRead (e : Edition) {depth : Nat} {values : List (String × Document)}
    (h : Tabular depth values) : TableRead e depth values :=
  TableRead.of_sections h (h.sectionsRead e)

/-! ## Whole texts -/

/-- No line starts with a byte order mark. -/
theorem line?_mark (e : Edition) (p : Position) (rest : List Char) :
    line? e p ('\uFEFF' :: rest) = none := by
  obtain ⟨depth, hdepth⟩ := exists_greatestDepth e
  have hend := lineEnd?_of_visible (c := '\uFEFF') rfl (by decide) (by decide) (by decide) rest
  have hkey : key? e ('\uFEFF' :: rest) = none := by
    rw [key?, hdepth]
    rfl
  have hblank : isBlank '\uFEFF' = false := rfl
  rw [line?, skipBlank_of_visible hblank]
  simp [hend, hkey]

theorem Reads.skipMark {e : Edition} {p q : Position} {text : List Char} (h : Reads e text p q) :
    Toml.skipMark text = text := by
  rw [Toml.skipMark]
  rintro rest rfl
  have hlines := h.lines? (Nat.lt_succ_self _)
  rw [Toml.lines?, line?_mark] at hlines
  · contradiction
  · exact List.cons_ne_nil _ _

theorem Reads.print {e : Edition} {d : Document} {p q : Position}
    (h : Reads e (tableText [] d).toList p q) : Reads e (print d).toList p q := by
  rw [Toml.print]
  split
  · rename_i rest htext
    rw [htext] at h
    rw [String.toList_ofList]
    exact h.of_blank
  · exact h

/-- What is written of a table is read back, with its keys in ascending order,
if it is nested no deeper than the edition admits. -/
theorem read?_print (e : Edition) {depth : Nat} {values : List (String × Document)}
    (h : Tabular depth values) (hdepth : depth ≤ e.greatestDepth) :
    read? e (print (.table values)) = some (Document.table values).sorted := by
  obtain ⟨filled, after, hfilled, hread⟩ := h.tableRead e focus_root (by simpa using hdepth)
  have hprint : Reads e (print (.table values)).toList ⟨[], []⟩ ⟨filled, after⟩ := hread.print
  have hlines := hprint.lines? (Nat.lt_succ_self _)
  rw [read?, hprint.skipMark]
  simp only [Option.bind_eq_bind, hlines, Option.bind_some, hfilled]
  rfl

end Toml
end LoggingFacade
