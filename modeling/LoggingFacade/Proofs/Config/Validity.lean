import LoggingFacade.Proofs.Config.RoundTrip
import LoggingFacade.Proofs.Plugin.Completeness
import LoggingFacade.Proofs.Text.Letter

/-!
# Valid configurations

A configuration is refused for the first of three reasons that applies: the configured
class has no visible character, the level is no severity, or a type somewhere in the
declared components has no visible character. For the last of them the first tree with
such a type is to blame. What is not refused is accepted as it is, from a program or from
a file.
-/

namespace LoggingFacade

namespace Text

/-- Some character of the text is visible. -/
def IsVisible (s : String) : Prop := ∃ c ∈ s.toList, isBlank c = false

theorem isEmpty_trim_iff (s : String) : (trim s).isEmpty = true ↔ ¬IsVisible s := by
  rw [String.isEmpty_iff, trim_eq_empty_iff, allBlank, List.all_eq_true, IsVisible]
  simp

end Text

namespace Severity

/-- The names that a severity is read from, in lower case. -/
def names : List String := ["trace", "debug", "info", "warn", "warning", "error"]

/-- The failure to read a severity. -/
def unknown (level : String) : Error :=
  .configuration ("Invalid log level: " ++ level ++ ". Use trace, debug, info, warn, or error") []

/-- Those that denote it. -/
def spellings : Severity → List String
  | trace => ["trace"]
  | debug => ["debug"]
  | info => ["info"]
  | warn => ["warn", "warning"]
  | error => ["error"]

/-- The lower case of all scripts tells no more texts apart here than that of ASCII. -/
theorem lowercase_mem_spellings_iff (level : String) (severity : Severity) :
    Text.lowercase level ∈ severity.spellings ↔ Text.lower level ∈ severity.spellings :=
  Text.lowercase_mem_iff (by cases severity <;> decide) level

theorem ofName_eq_ok_iff (level : String) (severity : Severity) :
    ofName level = .ok severity ↔ Text.lower level ∈ severity.spellings := by
  rw [← lowercase_mem_spellings_iff, ofName]
  constructor
  · intro h
    split at h
    case h_7 => cases h
    all_goals
      rename_i hname
      cases h
      rw [hname]
      decide
  · generalize Text.lowercase level = name
    revert name
    cases severity <;> simp [spellings]

theorem exists_ofName_iff (level : String) :
    (∃ severity, ofName level = .ok severity) ↔ Text.lower level ∈ names := by
  have hnames : names = [trace, debug, info, warn, error].flatMap spellings := rfl
  simp only [ofName_eq_ok_iff, hnames, List.mem_flatMap]
  constructor
  · rintro ⟨severity, h⟩
    exact ⟨severity, by cases severity <;> simp, h⟩
  · rintro ⟨severity, -, h⟩
    exact ⟨severity, h⟩

theorem ofName_eq_error {level : String} (h : Text.lower level ∉ names) :
    ofName level = .error (unknown level) := by
  cases hread : ofName level with
  | ok severity => exact absurd ((exists_ofName_iff level).1 ⟨severity, hread⟩) h
  | error e =>
    rw [ofName] at hread
    split at hread
    case h_7 => exact hread.symm
    all_goals cases hread

end Severity

namespace Declaration

/-- Every type in the tree is visible. -/
def Named (d : Declaration) : Prop := ∀ node ∈ d.nodes, Text.IsVisible node.typeName

end Declaration

namespace Config

open Declaration (Named)

mutual

theorem isNamed_iff (d : Declaration) : isNamed d = true ↔ d.Named := by
  obtain ⟨typeName, attributes, children⟩ := d
  have hown : (!(Text.trim typeName).isEmpty) = true ↔ Text.IsVisible typeName := by
    rw [Bool.not_eq_true', ← Bool.not_eq_true, Text.isEmpty_trim_iff, not_not]
  rw [isNamed, Bool.and_eq_true, hown, allNamed_iff children, Named, Declaration.nodes]
  simp only [List.forall_mem_append, List.forall_mem_singleton]
  exact and_comm

theorem allNamed_iff (ds : List Declaration) :
    allNamed ds = true ↔ ∀ node ∈ Declaration.nodesAll ds, Text.IsVisible node.typeName := by
  cases ds with
  | nil => simp [allNamed, Declaration.nodesAll]
  | cons d rest =>
    rw [allNamed, Bool.and_eq_true, isNamed_iff d, allNamed_iff rest, Declaration.nodesAll,
      List.forall_mem_append, Named]

end

/-! ## What is refused -/

/-- The failure that blames a component at the top. -/
def unnamedComponent (index : Nat) : Error :=
  .configuration ("components[" ++ toString index ++ "]: component type cannot be empty") []

/-- The first tree with a type that is not visible stands at the index. -/
structure FirstUnnamed (ds : List Declaration) (index : Nat) : Prop where
  unnamed : ∃ d, ds[index]? = some d ∧ ¬d.Named
  before : ∀ i < index, ∀ d, ds[i]? = some d → d.Named

/-- The configured class, if there is one, is visible. -/
def OverrideVisible (c : Config) : Prop :=
  ∀ className, c.manager.overrideClass = some className → Text.IsVisible className

/-- What a configuration has to be. -/
structure Valid (c : Config) : Prop where
  override : c.OverrideVisible
  level : Text.lower c.logging.level ∈ Severity.names
  components : ∀ d ∈ c.components, d.Named

/-- Why a configuration is refused: each reason takes that the ones before it do not apply. -/
inductive Refused (c : Config) : Error → Prop
  | override : ¬c.OverrideVisible →
      Refused c (.configuration "manager.logger_context_factory cannot be empty" [])
  | level : c.OverrideVisible → Text.lower c.logging.level ∉ Severity.names →
      Refused c (Severity.unknown c.logging.level)
  | component {index : Nat} : c.OverrideVisible → Text.lower c.logging.level ∈ Severity.names →
      FirstUnnamed c.components index → Refused c (unnamedComponent index)

/-- A tree in front of the list is not to blame if all its types are visible. -/
theorem firstUnnamed_cons_succ {d : Declaration} {rest : List Declaration} {index : Nat} :
    FirstUnnamed (d :: rest) (index + 1) ↔ d.Named ∧ FirstUnnamed rest index := by
  constructor
  · rintro ⟨hunnamed, hbefore⟩
    refine ⟨hbefore 0 (by omega) d rfl, hunnamed, ?_⟩
    intro i hi
    exact hbefore (i + 1) (by omega)
  · rintro ⟨hd, hunnamed, hbefore⟩
    refine ⟨hunnamed, ?_⟩
    intro i hi other hother
    cases i with
    | zero =>
      cases hother
      exact hd
    | succ i => exact hbefore i (by omega) other hother

theorem exists_firstUnnamed {ds : List Declaration} (h : ¬∀ d ∈ ds, d.Named) :
    ∃ index, FirstUnnamed ds index := by
  induction ds with
  | nil => simp at h
  | cons d rest ih =>
    by_cases hd : d.Named
    · have hrest : ¬∀ other ∈ rest, other.Named :=
        fun hall => h (List.forall_mem_cons.2 ⟨hd, hall⟩)
      obtain ⟨index, hindex⟩ := ih hrest
      exact ⟨index + 1, firstUnnamed_cons_succ.2 ⟨hd, hindex⟩⟩
    · exact ⟨0, ⟨d, rfl, hd⟩, fun i hi => absurd hi (Nat.not_lt_zero i)⟩

theorem validateComponents_of_named {ds : List Declaration} (h : ∀ d ∈ ds, d.Named)
    (start : Nat) : validateComponents start ds = .ok () := by
  induction ds generalizing start with
  | nil => rfl
  | cons d rest ih =>
    obtain ⟨hd, hrest⟩ := List.forall_mem_cons.1 h
    rw [validateComponents, if_pos ((isNamed_iff d).2 hd), ih hrest]

theorem validateComponents_of_unnamed {ds : List Declaration} {index : Nat}
    (h : FirstUnnamed ds index) (start : Nat) :
    validateComponents start ds = .error (unnamedComponent (start + index)) := by
  induction ds generalizing start index with
  | nil =>
    obtain ⟨⟨d, hd, -⟩, -⟩ := h
    simp at hd
  | cons d rest ih =>
    rw [validateComponents]
    cases index with
    | zero =>
      obtain ⟨⟨other, hother, hunnamed⟩, -⟩ := h
      cases hother
      rw [if_neg (fun hd => hunnamed ((isNamed_iff d).1 hd))]
      rfl
    | succ index =>
      obtain ⟨hd, hrest⟩ := firstUnnamed_cons_succ.1 h
      rw [if_pos ((isNamed_iff d).2 hd), ih hrest, Nat.add_assoc, Nat.add_comm 1]

/-! ## The three checks -/

theorem validate_of_not_overrideVisible {c : Config} (h : ¬c.OverrideVisible) :
    c.validate = .error (.configuration "manager.logger_context_factory cannot be empty" []) := by
  simp only [OverrideVisible, not_forall] at h
  obtain ⟨className, hclass, hblank⟩ := h
  rw [validate, hclass]
  simp only [(Text.isEmpty_trim_iff className).2 hblank, if_true]
  rfl

/-- Behind a configured class that is visible, or none, the level and the components count. -/
theorem validate_of_overrideVisible {c : Config} (h : c.OverrideVisible) : c.validate =
    Severity.ofName c.logging.level >>= fun _ => validateComponents 0 c.components := by
  rw [validate]
  cases hclass : c.manager.overrideClass with
  | none => rfl
  | some className =>
    have hvisible : ¬(Text.trim className).isEmpty = true := fun hblank =>
      (Text.isEmpty_trim_iff className).1 hblank (h className hclass)
    simp only [hvisible, Bool.false_eq_true, if_false]

theorem validated_of_valid {c : Config} (h : c.Valid) : c.validated = .ok c := by
  obtain ⟨severity, hlevel⟩ := (Severity.exists_ofName_iff _).2 h.level
  rw [validated, validate_of_overrideVisible h.override, hlevel]
  change (validateComponents 0 c.components >>= fun _ => _) = _
  rw [validateComponents_of_named h.components]
  rfl

theorem validated_of_refused {c : Config} {e : Error} (h : c.Refused e) :
    c.validated = .error e := by
  rw [validated]
  cases h with
  | override hblank =>
    rw [validate_of_not_overrideVisible hblank]
    rfl
  | level hvisible hlevel =>
    rw [validate_of_overrideVisible hvisible, Severity.ofName_eq_error hlevel]
    rfl
  | @component index hvisible hlevel hfirst =>
    obtain ⟨severity, hread⟩ := (Severity.exists_ofName_iff _).2 hlevel
    rw [validate_of_overrideVisible hvisible, hread]
    change (validateComponents 0 c.components >>= fun _ => _) = _
    rw [validateComponents_of_unnamed hfirst, Nat.zero_add]
    rfl

theorem valid_or_refused (c : Config) : c.Valid ∨ ∃ e, c.Refused e := by
  by_cases hvisible : c.OverrideVisible
  · by_cases hlevel : Text.lower c.logging.level ∈ Severity.names
    · by_cases hnamed : ∀ d ∈ c.components, d.Named
      · exact .inl ⟨hvisible, hlevel, hnamed⟩
      · obtain ⟨index, hfirst⟩ := exists_firstUnnamed hnamed
        exact .inr ⟨_, .component hvisible hlevel hfirst⟩
    · exact .inr ⟨_, .level hvisible hlevel⟩
  · exact .inr ⟨_, .override hvisible⟩

/-- Exactly the valid configurations are accepted, as they are, and any other one is
refused for its first reason. A loader accepts and refuses what it reads in the same way. -/
theorem accepts_valid_unchanged {σ : Type} (c : Config) (l : ConfigLoader) (h : Host) (w : σ) :
    (∀ accepted, c.validated = .ok accepted ↔ c.Valid ∧ accepted = c) ∧
    (∀ e, c.validated = .error e ↔ c.Refused e) ∧
    ((l.load h).run w).value =
      match (l.layered? h ((l.choose h).run w).value).bind ofDocument? with
      | some extracted => extracted.validated
      | none => .error ConfigLoader.unreadable := by
  refine ⟨?_, ?_, ?_⟩
  · intro accepted
    constructor
    · intro haccepted
      obtain hvalid | ⟨e, hrefused⟩ := c.valid_or_refused
      · rw [validated_of_valid hvalid, Except.ok.injEq] at haccepted
        exact ⟨hvalid, haccepted.symm⟩
      · rw [validated_of_refused hrefused] at haccepted
        contradiction
    · rintro ⟨hvalid, rfl⟩
      exact validated_of_valid hvalid
  · intro e
    constructor
    · intro herror
      obtain hvalid | ⟨reason, hrefused⟩ := c.valid_or_refused
      · rw [validated_of_valid hvalid] at herror
        contradiction
      · rw [validated_of_refused hrefused, Except.error.injEq] at herror
        exact herror ▸ hrefused
    · exact validated_of_refused
  · cases hextracted : (l.layered? h ((l.choose h).run w).value).bind ofDocument? with
    | some extracted => exact ConfigLoader.value_load_of_choose rfl hextracted
    | none =>
      rw [ConfigLoader.load, Traced.value_bind, hextracted]
      rfl

/-- The second tree is to blame for a type deep in it. -/
example :
    let leaf (typeName : String) : Declaration := ⟨typeName, .empty, []⟩
    let components := [leaf "Console", ⟨"Appenders", .empty, [leaf "Memory", leaf " \t"]⟩, leaf ""]
    ({ standard with components } : Config).validated = .error (unnamedComponent 1) := by
  decide +kernel

end Config
end LoggingFacade
