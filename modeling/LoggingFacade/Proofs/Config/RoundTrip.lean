import LoggingFacade.Config.Loader
import LoggingFacade.Proofs.Config.Documents
import LoggingFacade.Proofs.Text.Utf8
import LoggingFacade.Proofs.Toml.Trees

/-!
# Configurations that are written and loaded again

A valid configuration that is written to a file and loaded from it is the same
configuration, as long as no variable of the environment is meant for it and the
text is read as it was written. The header of a table names all components above
it, so the edition's bound on the parts of a key bounds how deep they may be
nested.
-/

namespace LoggingFacade

open Toml (Tabular FieldValue)

/-- Of what is written of the document, the document is read again, with the
keys of its tables in ascending order. -/
def Toml.Faithful (d : Document) : Prop := Toml.read? .v1_0 (Toml.print d) = some d.sorted

/-! ## Nested components -/

namespace Declaration

/-- How deep declarations are nested, the declaration itself included. -/
def nesting : Declaration → Nat
  | ⟨_, _, children⟩ => childrenNesting children + 1
where
  childrenNesting : List Declaration → Nat
    | [] => 0
    | d :: rest => max (nesting d) (childrenNesting rest)

/-- The entries of the document of a declaration. -/
def entries (d : Declaration) : List (String × Document) :=
  [("type", .text d.typeName),
    ("attributes", .table (d.attributes.entries.map fun e => (e.1, .text e.2))),
    ("children", .list (d.children.map toDocument))]

theorem toDocument_eq (d : Declaration) : d.toDocument = .table d.entries := by
  obtain ⟨typeName, attributes, children⟩ := d
  rw [toDocument, documents_eq]
  rfl

theorem tabular_texts (depth : Nat) (m : TextMap String) :
    Tabular depth (m.entries.map fun e => (e.1, .text e.2)) := by
  refine .of_fields depth ?_ ?_
  · intro e he
    obtain ⟨given, -, rfl⟩ := List.mem_map.1 he
    exact .scalar (.text given.2)
  · simpa [Function.comp_def] using m.nodup_keys

/-- An array of declarations among the values of a table. -/
theorem tabular_declarations {depth : Nat} {key : String} {components : List Declaration}
    {rest : List (String × Document)} (hcomponents : ∀ d ∈ components, Tabular depth d.entries)
    (hkey : key ∉ rest.map (·.1)) (hrest : Tabular (depth + 1) rest) :
    Tabular (depth + 1) ((key, .list (components.map toDocument)) :: rest) := by
  have htables : components.map toDocument = (components.map entries).map .table := by
    rw [List.map_map]
    exact List.map_congr_left fun d _ => d.toDocument_eq
  rw [htables]
  by_cases hempty : components = []
  · subst hempty
    exact .field (.list nofun) hkey hrest
  · refine .tables (by simpa using hempty) ?_ hkey hrest
    intro values hvalues
    obtain ⟨d, hd, rfl⟩ := List.mem_map.1 hvalues
    exact hcomponents d hd

mutual

theorem tabular_entries : (d : Declaration) → ∀ depth, d.nesting ≤ depth →
    Tabular depth d.entries
  | ⟨typeName, attributes, children⟩ => by
    intro depth hdepth
    rw [nesting] at hdepth
    obtain ⟨depth, rfl⟩ : ∃ n, depth = n + 1 := ⟨depth - 1, by omega⟩
    have hchildren := tabular_children children depth (by omega)
    refine .field (.scalar (.text typeName)) (by simp) ?_
    refine .table (tabular_texts depth attributes) (by simp) ?_
    exact tabular_declarations hchildren nofun .nil

theorem tabular_children : (children : List Declaration) → ∀ depth,
    nesting.childrenNesting children ≤ depth → ∀ d ∈ children, Tabular depth d.entries
  | [], _, _ => nofun
  | child :: rest, depth, hdepth => by
    rw [nesting.childrenNesting] at hdepth
    exact List.forall_mem_cons.2 ⟨tabular_entries child depth (by omega),
      tabular_children rest depth (by omega)⟩

end

end Declaration

namespace Config

theorem tabular_manager (depth : Nat) (m : ManagerConfig) :
    Tabular depth ((m.overrideClass.map fun c => ("logger_context_factory", Document.text c)).toList
      ++ [("provider_search_path", .list (m.searchPath.map .text)),
        ("scan_linked", .bool m.scanLinked), ("fallback_level", .text m.fallbackLevel.name)]) := by
  refine .of_fields depth ?_ ?_
  · rw [List.forall_mem_append]
    simp only [List.forall_mem_cons]
    refine ⟨?_, .texts m.searchPath, .scalar (.bool _), .scalar (.text _), List.forall_mem_nil _⟩
    cases m.overrideClass with
    | none => exact List.forall_mem_nil _
    | some className => exact List.forall_mem_singleton.2 (.scalar (.text className))
  · cases m.overrideClass <;> simp

theorem tabular_logging (depth : Nat) (l : LoggingConfig) :
    Tabular depth [("level", .text l.level), ("json_format", .bool l.json)] :=
  .field (.scalar (.text l.level)) (by simp) (.field (.scalar (.bool l.json)) nofun .nil)

/-- How deep the components are nested. -/
def nesting (c : Config) : Nat := Declaration.nesting.childrenNesting c.components

/-- The text of a configuration is read as it was written, if the components are
nested less deep than a key may have parts. -/
theorem faithful_toDocument {c : Config} (h : c.nesting < Toml.Edition.v1_0.greatestDepth) :
    Toml.Faithful c.toDocument := by
  have hchildren := Declaration.tabular_children c.components c.nesting (Nat.le_refl _)
  have hvalues : Tabular (c.nesting + 1) [("manager", managerDocument c.manager),
      ("logging", loggingDocument c.logging),
      ("components", .list (c.components.map Declaration.toDocument))] := by
    refine .table (tabular_manager _ c.manager) (by simp) ?_
    refine .table (tabular_logging _ c.logging) (by simp) ?_
    exact Declaration.tabular_declarations hchildren nofun .nil
  exact Toml.read?_print .v1_0 hvalues h

end Config

/-- Over a table, a table without entries changes nothing. -/
theorem Document.overlay_nothing (entries : List (String × Document)) :
    (table entries).overlay (table []) = table entries := by
  have hmerge : ∀ entries, overlay.mergeEntries entries [] = entries := by
    intro entries
    induction entries with
    | nil => rfl
    | cons e rest ih =>
      obtain ⟨key, value⟩ := e
      rw [overlay.mergeEntries, ih]
      rfl
  rw [overlay, hmerge, List.filter_nil, List.append_nil]

theorem Environment.document_of_no_path {lead : String} {settings : List (String × String)}
    (h : ∀ v ∈ settings, path? lead v.1 = none) : document lead settings = .table [] := by
  rw [document]
  induction settings with
  | nil => rfl
  | cons v rest ih =>
    rw [List.foldl_cons, h v List.mem_cons_self]
    exact ih fun v hv => h v (List.mem_cons_of_mem _ hv)

namespace ConfigLoader

theorem textDocument?_render {c : Config} (h : Toml.Faithful c.toDocument) :
    textDocument? c.render = some c.toDocument.sorted := by
  have hsorted := c.textual_toDocument.sorted
  rw [textDocument?, Config.render, h]
  simp only [Option.bind_eq_bind, Option.bind_some]
  rw [Document.withinBounds?, if_pos (hsorted.integersWithin _), Option.bind_some,
    hsorted.spelledOut]
  rfl

theorem layered?_render {l : ConfigLoader} {h : Host} {c : Config} {path : String}
    (hfaithful : Toml.Faithful c.toDocument)
    (hcontent : h.files.content? path = some (Text.encodeUtf8 c.render.toList))
    (henvironment : ∀ v ∈ h.environment, Environment.path? (l.variablePrefix ++ "_") v.1 = none) :
    l.layered? h (some path) = some (Config.standard.toDocument.overlay c.toDocument.sorted) := by
  have hfile : fileDocument? h (some path) = some c.toDocument.sorted := by
    rw [fileDocument?, Option.bind_some, hcontent]
    simp only [Option.bind_eq_bind]
    rw [Text.ofUtf8?_encodeUtf8, Option.bind_some, textDocument?_render hfaithful]
  have hover : (Config.standard.toDocument.overlay c.toDocument.sorted).overlay (.table []) =
      Config.standard.toDocument.overlay c.toDocument.sorted := by
    rw [c.overlay_standard, Document.overlay_nothing]
  rw [layered?, hfile, Environment.document_of_no_path henvironment]
  exact congrArg some hover

theorem value_load_of_choose {σ : Type} {l : ConfigLoader} {h : Host} {w : σ}
    {path : Option String} (hchoose : ((l.choose h).run w).value = path) {c : Config}
    (hlayered : (l.layered? h path).bind Config.ofDocument? = some c) :
    ((l.load h).run w).value = c.validated := by
  rw [load, Traced.value_bind, hchoose, hlayered]
  rfl

/-- The file that is asked for is taken, if it exists. -/
theorem value_choose_of_path {σ : Type} {l : ConfigLoader} {h : Host} {w : σ} {path : String}
    (hpath : l.configPath = some path) (hpresent : h.files.isPresent path = true) :
    ((l.choose h).run w).value = some path := by
  rw [choose, hpath]
  simp only [hpresent, if_true]
  rfl

/-- A valid configuration that is written to the file which a loader chooses is
loaded as it is, if its text is read as it was written. That is so if the
components are nested less deep than a key may have parts. -/
theorem load_render {σ : Type} {l : ConfigLoader} {h : Host} {c : Config} {path : String} {w : σ}
    (hvalid : c.validate = .ok ())
    (hchoose : ((l.choose h).run w).value = some path)
    (hcontent : h.files.content? path = some (Text.encodeUtf8 c.render.toList))
    (henvironment : ∀ v ∈ h.environment, Environment.path? (l.variablePrefix ++ "_") v.1 = none) :
    (Toml.Faithful c.toDocument → ((l.load h).run w).value = .ok c) ∧
      (c.nesting < Toml.Edition.v1_0.greatestDepth → Toml.Faithful c.toDocument) := by
  refine ⟨?_, Config.faithful_toDocument⟩
  intro hfaithful
  have hread : (l.layered? h (some path)).bind Config.ofDocument? = some c := by
    rw [layered?_render hfaithful hcontent henvironment]
    exact c.ofDocument?_overlay
  rw [value_load_of_choose hchoose hread, Config.validated, hvalid]
  rfl

/-- Components whose attributes look like a boolean, a number and a fraction. -/
def nestedConfig : Config :=
  ⟨⟨some "file", ["plugins", "more plugins"], false, .debug⟩, ⟨"Info", true⟩,
    [⟨"Appenders", .ofList [("enabled", "true"), ("ratio", "1.50")],
      [⟨"Appender", .ofList [("name", "42")], []⟩, ⟨"Layout", .empty, []⟩]⟩]⟩

/-- A host with one file and a variable for other programs. -/
def singleFileHost (content : Text.Bytes) : Host :=
  ⟨⟨[(["lumber.toml"], .file content)], []⟩, [("HOME", "/home/user")]⟩

theorem resolve_singleFile (content : Text.Bytes) :
    (singleFileHost content).files.resolve "/lumber.toml" =
      .ok (["lumber.toml"], .file content) := by
  have hnames : Path.names "/lumber.toml" = ["lumber.toml"] := by decide +kernel
  have habsolute : Path.isAbsolute "/lumber.toml" = true := by decide +kernel
  have hend : Path.endsInDirectory "/lumber.toml" = false := by decide +kernel
  simp [FileSystem.resolve, hnames, habsolute, hend, FileSystem.follow, FileSystem.node?,
    singleFileHost]

/-- Such attributes stay texts, in nested components too. -/
theorem load_render_nested :
    let h := singleFileHost (Text.encodeUtf8 nestedConfig.render.toList)
    ((load ⟨some "/lumber.toml", "LUMBER"⟩ h).run ()).value = .ok nestedConfig := by
  intro h
  have hresolve := resolve_singleFile (Text.encodeUtf8 nestedConfig.render.toList)
  have hpresent : h.files.isPresent "/lumber.toml" = true := by
    rw [FileSystem.isPresent, hresolve]
    rfl
  have hchoose := value_choose_of_path (l := ⟨some "/lumber.toml", "LUMBER"⟩) (w := ()) rfl hpresent
  have hcontent : h.files.content? "/lumber.toml" =
      some (Text.encodeUtf8 nestedConfig.render.toList) := by
    rw [FileSystem.content?, hresolve]
  have hnested : nestedConfig.nesting < Toml.Edition.v1_0.greatestDepth := by decide +kernel
  have hloaded := load_render (by decide +kernel) hchoose hcontent (by decide +kernel)
  exact hloaded.1 (hloaded.2 hnested)

end ConfigLoader
end LoggingFacade
