import LoggingFacade.Proofs.Plugin.Linked
import LoggingFacade.Proofs.Plugin.Reported

/-!
# What becomes of attributes

Names of attributes are compared without regard to case, but a declaration may have
several names that differ in nothing else. A parameter is read from the first of them, in
the order of the keys. Those that no parameter reads are reported; those that stand behind
another one of the same name are not.
-/

namespace LoggingFacade

namespace TextMap

variable {α : Type}

/-- The entry found is that of the smallest key. -/
theorem find?_eq_some_iff (m : TextMap α) (P : String × α → Bool) (e : String × α) :
    m.entries.find? P = some e ↔
      e ∈ m.entries ∧ P e = true ∧ ∀ f ∈ m.entries, f.1 < e.1 → P f = false := by
  rw [List.find?_eq_some_iff_append]
  constructor
  · rintro ⟨hP, before, after, hsplit, hbefore⟩
    have hascending := m.ascending
    rw [hsplit, List.pairwise_append, List.pairwise_cons] at hascending
    obtain ⟨-, ⟨hafter, -⟩, -⟩ := hascending
    refine ⟨by simp [hsplit], hP, ?_⟩
    intro f hf hlt
    rw [hsplit] at hf
    rcases List.mem_append.1 hf with hf | hf
    · simpa using hbefore f hf
    · rcases List.mem_cons.1 hf with rfl | hf
      · exact absurd hlt (String.lt_irrefl _)
      · exact absurd (String.lt_trans hlt (hafter f hf)) (String.lt_irrefl _)
  · rintro ⟨he, hP, hsmaller⟩
    obtain ⟨before, after, hsplit⟩ := List.append_of_mem he
    have hascending := m.ascending
    rw [hsplit, List.pairwise_append] at hascending
    refine ⟨hP, before, after, hsplit, ?_⟩
    intro f hf
    have hlt : f.1 < e.1 := hascending.2.2 f hf e List.mem_cons_self
    have hother := hsmaller f (by simp [hsplit, hf]) hlt
    simp [hother]

end TextMap

namespace Plugin

theorem knows_iff {σ : Type} (p : Plugin σ) (name : String) : p.knows name = true ↔
    ∃ q ∈ p.parameters, q.kind.isAttribute = true ∧ Text.sameName q.name name = true := by
  simp [knows]

end Plugin

namespace Build

variable {σ : Type} {b : Binding σ} {p : Plugin σ} {d : Declaration} {a : Arguments}
  {e : String × String}

/-- The argument of a parameter was read from an attribute: the one that is found under
the parameter's name. -/
structure ReadFrom (d : Declaration) (a : Arguments) (e : String × String) (q : Parameter) :
    Prop where
  isAttribute : q.kind.isAttribute = true
  found : (d.attributes.entries.find? fun f => Text.sameName f.1 q.name) = some e
  read : ∃ value, Coercion.coerce a.component q.name q.kind e.2 = .ok value ∧
    (q.name, value) ∈ a.values

/-- The value of an attribute was used for some parameter. -/
def Used (p : Plugin σ) (d : Declaration) (a : Arguments) (e : String × String) : Prop :=
  ∃ q ∈ p.parameters, ReadFrom d a e q

/-- An attribute stands behind another one of its name, in another case of the letters. -/
def Shadowed (d : Declaration) (e : String × String) : Prop :=
  ∃ f ∈ d.attributes.entries, f.1 < e.1 ∧ Text.sameName f.1 e.1 = true

/-- The reports of a declaration that follow those of the attributes no parameter reads. -/
def laterReports (b : Binding σ) (p : Plugin σ) (d : Declaration) (a : Arguments) (w : σ) :
    List Diagnostic :=
  (outcomes b d.children w).flatMap (childReports d.label) ++ unusedReports p (nested b d w) ++
    factoryReports p d a (stateBelow b d w)

theorem exists_share {q : Parameter} {parameters : List Parameter} (hq : q ∈ parameters)
    (components : List Component) : ∃ picked, (q, picked) ∈ shares parameters components := by
  induction parameters generalizing components with
  | nil => contradiction
  | cons first rest ih =>
    rcases List.mem_cons.1 hq with rfl | hq
    · exact ⟨_, List.mem_cons_self⟩
    · obtain ⟨picked, hpicked⟩ := ih hq (first.leaves components)
      exact ⟨picked, List.mem_cons_of_mem _ hpicked⟩

theorem component_of_assembled {components : List Component}
    (h : assembled p d components = .ok a) (w : σ) : a.component = p.name := by
  obtain ⟨unused, hvalue⟩ := exists_assembleFrom h w
  exact component_assembleFrom hvalue

/-- What is found under the name of a parameter is read, if the arguments can be made. -/
theorem readFrom_of_find? {components : List Component} (h : assembled p d components = .ok a)
    (w : σ) {q : Parameter} (hq : q ∈ p.parameters) (hattribute : q.kind.isAttribute = true)
    (hfound : (d.attributes.entries.find? fun f => Text.sameName f.1 q.name) = some e) :
    ReadFrom d a e q := by
  obtain ⟨unused, hvalue⟩ := exists_assembleFrom h w
  obtain ⟨picked, hshare⟩ := exists_share hq components
  obtain ⟨value, hread, hmem⟩ := (mem_values_assembleFrom hvalue).2 _ hshare
  refine ⟨hattribute, hfound, value, ?_, hmem⟩
  have hraw : q.raw? d = some e.2 := by
    unfold Parameter.raw? Declaration.attr?
    rw [hfound]
    rfl
  rw [component_of_assembled h w]
  unfold Parameter.read at hread
  rw [hraw] at hread
  cases hkind : q.kind with
  | element type => simp [hkind, ParameterKind.isAttribute] at hattribute
  | elements type => simp [hkind, ParameterKind.isAttribute] at hattribute
  | _ => simpa [hkind, Arguments.empty] using hread

theorem used_iff {components : List Component} (h : assembled p d components = .ok a) (w : σ)
    (he : e ∈ d.attributes.entries) : Used p d a e ↔ p.knows e.1 = true ∧ ¬Shadowed d e := by
  constructor
  · rintro ⟨q, hq, hread⟩
    obtain ⟨-, hname, hfirst⟩ := (TextMap.find?_eq_some_iff _ _ _).1 hread.found
    constructor
    · rw [Plugin.knows_iff]
      exact ⟨q, hq, hread.isAttribute, by rw [Text.sameName_comm, hname]⟩
    · rintro ⟨f, hf, hlt, hsame⟩
      have hother := hfirst f hf hlt
      have hmatch : Text.sameName f.1 q.name = true := by
        rw [Text.sameName_iff] at hname hsame ⊢
        exact hsame.trans hname
      rw [hmatch] at hother
      contradiction
  · rintro ⟨hknows, hfirst⟩
    obtain ⟨q, hq, hattribute, hname⟩ := (Plugin.knows_iff _ _).1 hknows
    refine ⟨q, hq, readFrom_of_find? h w hq hattribute ?_⟩
    rw [TextMap.find?_eq_some_iff]
    refine ⟨he, by rw [Text.sameName_comm, hname], ?_⟩
    intro f hf hlt
    by_contra hmatch
    rw [Bool.not_eq_false, Text.sameName_iff] at hmatch
    rw [Text.sameName_iff] at hname
    exact hfirst ⟨f, hf, hlt, (Text.sameName_iff _ _).2 (hmatch.trans hname)⟩

theorem mem_unread_iff (he : e ∈ d.attributes.entries) :
    e.1 ∈ unread p d ↔ p.knows e.1 = false := by
  have hkey : e.1 ∈ d.attributes.keys := List.mem_map_of_mem he
  simp [unread, hkey]

/-- Each attribute of a declaration whose arguments can be made is read by some parameter,
or no parameter knows its name and it is reported, once and before anything else, or it
stands behind another one of its name and is passed over. So none is passed over without
a report if no two names that a parameter knows differ in case alone. -/
theorem attributes_used_reported_or_shadowed (hp : b.lookup d.typeName = some p) {w : σ}
    (hmade : assembled p d (nested b d w) = .ok a) :
    ((build b d).run w).diagnostics =
      ((unread p d).map fun key => .attributeIgnored p.name key) ++ laterReports b p d a w ∧
    (∀ e ∈ d.attributes.entries, (e.1 ∈ unread p d ↔ p.knows e.1 = false) ∧
      (Used p d a e ↔ p.knows e.1 = true ∧ ¬Shadowed d e)) ∧
    ((∀ e ∈ d.attributes.entries, Used p d a e ∨ e.1 ∈ unread p d) ↔
      ∀ e ∈ d.attributes.entries, p.knows e.1 = true → ¬Shadowed d e) := by
  refine ⟨?_, ?_, ?_⟩
  · rw [diagnostics_build hp hmade, laterReports]
    simp only [List.append_assoc]
  · intro e he
    exact ⟨mem_unread_iff he, used_iff hmade w he⟩
  · apply forall₂_congr
    intro e he
    rw [used_iff hmade w he, mem_unread_iff he]
    cases p.knows e.1 <;> simp

/-- A memory appender with a name and with an attribute that it does not know. -/
theorem attributes_used_or_reported_memory :
    let w := World.initial 0 "main"
    let b := ((Registrations.standard.binding : Traced World (Binding World)).run w).value
    let d : Declaration :=
      ⟨"memory", (TextMap.empty.insert "NAME" "m").insert "colour" "red", []⟩
    ∃ a, b.lookup d.typeName = some Plugin.memory ∧
      assembled Plugin.memory d (nested b d w) = .ok a ∧
      (∀ e ∈ d.attributes.entries, Used Plugin.memory d a e ∨ e.1 ∈ unread Plugin.memory d) ∧
      ((build b d).run w).diagnostics =
        .attributeIgnored "Memory" "colour" :: laterReports b Plugin.memory d a w := by
  intro w b d
  have hp : b.lookup d.typeName = some Plugin.memory := by
    dsimp only [b, d, w]
    rfl
  have hmade : assembled Plugin.memory d (nested b d w) =
      .ok ⟨"Memory", [("layout", .absent), ("name", .text "m")]⟩ := rfl
  obtain ⟨hdiagnostics, -, hall⟩ := attributes_used_reported_or_shadowed hp hmade
  refine ⟨_, hp, hmade, hall.2 ?_, hdiagnostics⟩
  intro e he _
  rintro ⟨f, hf, hlt, hsame⟩
  have hentries : d.attributes.entries = [("NAME", "m"), ("colour", "red")] := by decide
  rw [hentries] at he hf
  simp only [List.mem_cons, List.not_mem_nil, or_false] at he hf
  rcases he with rfl | rfl <;> rcases hf with rfl | rfl <;>
    first | exact absurd hlt (by decide) | exact absurd hsame (by decide)

/-- Of two names of a memory appender that differ in case alone, the second one is neither
read nor reported. -/
theorem shadowed_attribute_unreported :
    let w := World.initial 0 "main"
    let b := ((Registrations.standard.binding : Traced World (Binding World)).run w).value
    let d : Declaration :=
      ⟨"Memory", (TextMap.empty.insert "Name" "a").insert "name" "b", []⟩
    ∃ a, b.lookup d.typeName = some Plugin.memory ∧
      assembled Plugin.memory d (nested b d w) = .ok a ∧
      ∃ e ∈ d.attributes.entries, ¬Used Plugin.memory d a e ∧
        .attributeIgnored Plugin.memory.name e.1 ∉ ((build b d).run w).diagnostics := by
  intro w b d
  have hp : b.lookup d.typeName = some Plugin.memory := by
    dsimp only [b, d, w]
    rfl
  have hmade : assembled Plugin.memory d (nested b d w) =
      .ok ⟨"Memory", [("layout", .absent), ("name", .text "a")]⟩ := rfl
  have hentries : d.attributes.entries = [("Name", "a"), ("name", "b")] := by decide
  have hmem : ("name", "b") ∈ d.attributes.entries := by simp [hentries]
  refine ⟨_, hp, hmade, ("name", "b"), hmem, ?_, ?_⟩
  · rw [used_iff hmade w hmem]
    rintro ⟨-, hfirst⟩
    exact hfirst ⟨("Name", "a"), by simp [hentries], by decide, by decide⟩
  · have hdiagnostics : ((build b d).run w).diagnostics = [.componentBuilt "Memory[a]"] := rfl
    simp [hdiagnostics]

end Build
end LoggingFacade
