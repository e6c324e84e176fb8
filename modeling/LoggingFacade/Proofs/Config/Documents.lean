import LoggingFacade.Config
import LoggingFacade.Proofs.Document.Sorted

/-!
# What the document of a configuration says

The document of a declaration or of a configuration, in the order of its keys,
is read as the same declaration or configuration. Attributes stay the texts they
are, whatever these look like.
-/

namespace LoggingFacade

open Document (Textual sorted)

/-- A list of values is read back if each value is. -/
theorem mapM_map_eq_some {α β : Type} {write : α → β} {read : β → Option α}
    (h : ∀ a, read (write a) = some a) (values : List α) :
    (values.map write).mapM read = some values := by
  induction values with
  | nil => rfl
  | cons a values ih =>
    rw [List.map_cons, List.mapM_cons, h, ih]
    rfl

namespace Declaration

theorem documents_eq (children : List Declaration) :
    toDocument.documents children = children.map toDocument := by
  induction children with
  | nil => rfl
  | cons d rest ih => rw [toDocument.documents, ih, List.map_cons]

mutual

theorem textual_toDocument : (d : Declaration) → Textual d.toDocument
  | ⟨typeName, attributes, children⟩ => by
    have hattributes : Textual (.table (attributes.entries.map fun e => (e.1, .text e.2))) := by
      refine .table ?_
      intro e he
      obtain ⟨given, -, rfl⟩ := List.mem_map.1 he
      exact .text given.2
    have hchildren : Textual (.list (toDocument.documents children)) :=
      .list (textual_documents children)
    rw [toDocument]
    refine .table ?_
    simp only [List.forall_mem_cons]
    exact ⟨.text typeName, hattributes, hchildren, nofun⟩

theorem textual_documents : (children : List Declaration) →
    ∀ d ∈ toDocument.documents children, Textual d
  | [] => nofun
  | child :: rest => by
    rw [toDocument.documents]
    exact List.forall_mem_cons.2 ⟨textual_toDocument child, textual_documents rest⟩

end

theorem sorted_toDocument (typeName : String) (attributes : TextMap String)
    (children : List Declaration) :
    (toDocument ⟨typeName, attributes, children⟩).sorted = .table
      [("attributes", .table (attributes.entries.map fun e => (e.1, .text e.2))),
        ("children", .list (children.map fun d => d.toDocument.sorted)),
        ("type", .text typeName)] := by
  have hattributes : (Document.table (attributes.entries.map fun e => (e.1, .text e.2))).sorted =
      .table (attributes.entries.map fun e => (e.1, .text e.2)) := by
    rw [Document.sorted_table, List.map_map]
    exact congrArg Document.table (attributes.map Document.text).entries_ofList_entries
  have hchildren : (Document.list (toDocument.documents children)).sorted =
      .list (children.map fun d => d.toDocument.sorted) := by
    rw [documents_eq, Document.sorted_list, List.map_map]
    rfl
  rw [toDocument]
  refine Document.sorted_table_of_perm ?_
    (by decide : List.Pairwise (· < ·) ["attributes", "children", "type"])
  rw [List.map_cons, List.map_cons, List.map_singleton, hattributes, hchildren]
  exact (List.perm_append_singleton _ [_, _]).symm

theorem attributes?_texts (m : TextMap String) :
    attributes? (.table (m.entries.map fun e => (e.1, .text e.2))) = some m := by
  have htexts : (m.entries.map fun e => (e.1, Document.text e.2)).mapM
      (fun e => e.2.scalarText?.map fun s => (e.1, s)) = some m.entries := by
    apply mapM_map_eq_some
    exact fun _ => rfl
  rw [attributes?, htexts]
  exact congrArg some m.ofList_entries

mutual

/-- A declaration is read back, whatever it is nested to. -/
theorem read?_sorted : (d : Declaration) → ∀ fuel, d.toDocument.sorted.height ≤ fuel →
    read? false fuel d.toDocument.sorted = some d
  | ⟨typeName, attributes, children⟩ => by
    intro fuel hfuel
    rw [sorted_toDocument] at hfuel ⊢
    simp only [Document.height, Document.height.entriesHeight] at hfuel
    obtain ⟨fuel, rfl⟩ : ∃ n, fuel = n + 1 := ⟨fuel - 1, by omega⟩
    have hchildren := mapM_read?_sorted children fuel (by omega)
    rw [read?]
    simp only [Document.fields?, Document.unique?, List.filter_cons, List.filter_nil,
      String.reduceBEq, Bool.false_eq_true, if_false, if_true, Option.bind_eq_bind,
      Option.bind_some, Document.asText?, Document.asList?, attributes?_texts, hchildren]
    rfl

theorem mapM_read?_sorted : (children : List Declaration) → ∀ fuel,
    Document.height.itemsHeight (children.map fun d => d.toDocument.sorted) ≤ fuel →
    (children.map fun d => d.toDocument.sorted).mapM (read? false fuel) = some children
  | [], _, _ => rfl
  | child :: rest, fuel, hfuel => by
    rw [List.map_cons, Document.height.itemsHeight] at hfuel
    rw [List.map_cons, List.mapM_cons, read?_sorted child fuel (by omega),
      mapM_read?_sorted rest fuel (by omega)]
    rfl

end

end Declaration

namespace Config

theorem textual_toDocument (c : Config) : Textual c.toDocument := by
  have hmanager : Textual (managerDocument c.manager) := by
    rw [managerDocument]
    refine .table ?_
    rw [List.forall_mem_append]
    simp only [List.forall_mem_cons]
    refine ⟨?_, .texts _, .bool _, .text _, nofun⟩
    cases c.manager.overrideClass with
    | none => nofun
    | some className => exact List.forall_mem_singleton.2 (.text className)
  have hlogging : Textual (loggingDocument c.logging) := by
    refine .table ?_
    simp only [List.forall_mem_cons]
    exact ⟨.text _, .bool _, nofun⟩
  have hcomponents : Textual (.list (c.components.map Declaration.toDocument)) := by
    rw [← Declaration.documents_eq]
    exact .list (Declaration.textual_documents c.components)
  refine .table ?_
  simp only [List.forall_mem_cons]
  exact ⟨hmanager, hlogging, hcomponents, nofun⟩

theorem sorted_texts (texts : List String) :
    (Document.list (texts.map .text)).sorted = .list (texts.map .text) := by
  rw [Document.sorted_list, List.map_map]
  rfl

/-- The entry of the configured class, if there is one. -/
def classEntry (m : ManagerConfig) : List (String × Document) :=
  (m.overrideClass.map fun c => ("logger_context_factory", Document.text c)).toList

theorem sorted_managerDocument (m : ManagerConfig) : (managerDocument m).sorted =
    .table (("fallback_level", .text m.fallbackLevel.name) :: classEntry m ++
      [("provider_search_path", .list (m.searchPath.map .text)),
        ("scan_linked", .bool m.scanLinked)]) := by
  have hclass : ((m.overrideClass.map fun c =>
      ("logger_context_factory", Document.text c)).toList.map fun e => (e.1, e.2.sorted)) =
      classEntry m := by
    rw [classEntry]
    cases m.overrideClass <;> rfl
  rw [managerDocument]
  refine Document.sorted_table_of_perm ?_ ?_
  · rw [List.map_append, hclass]
    simp only [List.map_cons, List.map_nil, sorted_texts]
    exact ((List.perm_append_singleton _ [_, _]).append_left _).trans List.perm_middle
  · rw [classEntry]
    cases m.overrideClass with
    | none => exact (by decide : List.Pairwise (· < ·)
        ["fallback_level", "provider_search_path", "scan_linked"])
    | some className => exact (by decide : List.Pairwise (· < ·)
        ["fallback_level", "logger_context_factory", "provider_search_path", "scan_linked"])

theorem sorted_loggingDocument (l : LoggingConfig) : (loggingDocument l).sorted =
    .table [("json_format", .bool l.json), ("level", .text l.level)] :=
  Document.sorted_table_of_perm (.swap _ _ _)
    (by decide : List.Pairwise (· < ·) ["json_format", "level"])

theorem sorted_toDocument (c : Config) : c.toDocument.sorted =
    .table [("components", .list (c.components.map fun d => d.toDocument.sorted)),
      ("logging", (loggingDocument c.logging).sorted),
      ("manager", (managerDocument c.manager).sorted)] := by
  have hcomponents : (Document.list (c.components.map Declaration.toDocument)).sorted =
      .list (c.components.map fun d => d.toDocument.sorted) := by
    rw [Document.sorted_list, List.map_map]
    rfl
  rw [← hcomponents]
  exact Document.sorted_table_of_perm (List.reverse_perm _).symm
    (by decide : List.Pairwise (· < ·) ["components", "logging", "manager"])

/-- What a file says of a part takes the place of its standard values. -/
theorem overlay_standard (c : Config) : Config.standard.toDocument.overlay c.toDocument.sorted =
    .table [
      ("manager", .table (("provider_search_path", .list (c.manager.searchPath.map .text)) ::
        ("scan_linked", .bool c.manager.scanLinked) ::
        ("fallback_level", .text c.manager.fallbackLevel.name) :: classEntry c.manager)),
      ("logging", .table [("level", .text c.logging.level), ("json_format", .bool c.logging.json)]),
      ("components", .list (c.components.map fun d => d.toDocument.sorted))] := by
  rw [sorted_toDocument, sorted_loggingDocument, sorted_managerDocument, classEntry]
  cases c.manager.overrideClass <;> rfl

theorem level?_name (level : Level) : level? (.text level.name) = some level := by
  cases level <;> decide +kernel

theorem texts?_list (texts : List String) : texts? (.list (texts.map .text)) = some texts := by
  have htexts : ∀ s, (Document.text s).asText? = some s := fun _ => rfl
  exact mapM_map_eq_some htexts texts

theorem manager?_fields (m : ManagerConfig) :
    manager? (.table (("provider_search_path", .list (m.searchPath.map .text)) ::
      ("scan_linked", .bool m.scanLinked) :: ("fallback_level", .text m.fallbackLevel.name) ::
      classEntry m)) = some m := by
  have htexts := texts?_list m.searchPath
  have hlevel := level?_name m.fallbackLevel
  obtain ⟨overrideClass, searchPath, scanLinked, fallbackLevel⟩ := m
  cases overrideClass <;>
    simp [manager?, classEntry, Document.fields?, fieldOr, List.lookup_cons, htexts, hlevel,
      Document.asBool?, className?, Document.asText?, ManagerConfig.standard]

theorem components?_sorted (components : List Declaration) :
    components? (.list (components.map fun d => d.toDocument.sorted)) = some components :=
  mapM_map_eq_some (fun d => d.read?_sorted _ (Nat.le_refl _)) components

/-- A configuration is read back from its document over the standard values. -/
theorem ofDocument?_overlay (c : Config) :
    ofDocument? (Config.standard.toDocument.overlay c.toDocument.sorted) = some c := by
  have hmanager := manager?_fields c.manager
  have hcomponents := components?_sorted c.components
  rw [overlay_standard]
  simp [ofDocument?, Document.fields?, fieldOr, List.lookup_cons, hmanager, logging?,
    Document.asText?, Document.asBool?, hcomponents]

end Config
end LoggingFacade
