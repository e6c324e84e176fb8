import LoggingFacade.Proofs.Plugin.Accounting
import LoggingFacade.Proofs.Plugin.CallOrder

/-!
# Reading arguments

What a factory reads under the name of a parameter, in terms of the declaration: the text of
an attribute, the value that a text stands for, or nested components. A plugin that requires
no nested component gets its arguments if and only if its attributes can be read and none of
the required ones is missing.
-/

namespace LoggingFacade

namespace Coercion

variable {component parameter raw : String} {value : Argument}

theorem coerce_bool_eq_ok : coerce component parameter .bool raw = .ok value ↔
    ∃ b, readBool? raw = some b ∧ value = .bool b := by
  unfold coerce
  cases readBool? raw <;> simp [eq_comm]

theorem coerce_charset_eq_ok : coerce component parameter .charset raw = .ok value ↔
    ∃ c, Charset.ofName raw = .ok c ∧ value = .charset c := by
  unfold coerce
  cases Charset.ofName raw <;> simp [eq_comm]

theorem coerce_text (component parameter raw : String) :
    coerce component parameter .text raw = .ok (.text raw) := rfl

end Coercion

namespace Parameter

variable {q : Parameter} {component : String} {d : Declaration}

theorem raw?_withStandard (name : String) (kind : ParameterKind) (standard : String) :
    (withStandard name kind standard).raw? d = some ((d.attr? name).getD standard) :=
  Option.or_some

theorem raw?_mandatory (name : String) (kind : ParameterKind) :
    (mandatory name kind).raw? d = d.attr? name :=
  Option.or_none

theorem coerces_of_text (hkind : q.kind = .text) : q.Coerces component d := by
  intro _ raw _
  exact ⟨.text raw, by rw [hkind, Coercion.coerce_text]⟩

theorem coerces_bool_iff (hkind : q.kind = .bool) : q.Coerces component d ↔
    ∀ raw, q.raw? d = some raw → ∃ b, Coercion.readBool? raw = some b := by
  simp only [Coerces, hkind, ParameterKind.isAttribute, true_implies, Coercion.coerce_bool_eq_ok]
  simp

theorem coerces_charset_iff (hkind : q.kind = .charset) : q.Coerces component d ↔
    ∀ raw, q.raw? d = some raw → ∃ c, Charset.ofName raw = .ok c := by
  simp only [Coerces, hkind, ParameterKind.isAttribute, true_implies,
    Coercion.coerce_charset_eq_ok]
  simp

/-- The attribute can be read, and is there if it is required. -/
def Ready (q : Parameter) (component : String) (d : Declaration) : Prop :=
  q.Coerces component d ∧ (q.required = true → q.raw? d ≠ none)

theorem ready_of_nested (component : String) (d : Declaration)
    (hkind : q.kind.isAttribute = false) (hoptional : q.required = false) :
    q.Ready component d := by
  constructor
  · intro hattribute
    simp [hkind] at hattribute
  · intro hrequired
    simp [hoptional] at hrequired

theorem ready_of_text (component : String) (d : Declaration) (hkind : q.kind = .text)
    (hoptional : q.required = false) : q.Ready component d :=
  ⟨coerces_of_text hkind, fun hrequired => by simp [hoptional] at hrequired⟩

theorem ready_mandatory_iff (name : String) : (mandatory name .text).Ready component d ↔
    ∃ text, d.attr? name = some text := by
  have htext : (mandatory name .text).Coerces component d := coerces_of_text rfl
  rw [Ready, raw?_mandatory, ← Option.ne_none_iff_exists']
  exact ⟨fun h => h.2 rfl, fun h => ⟨htext, fun _ => h⟩⟩

end Parameter

namespace Build

variable {σ : Type} {p : Plugin σ} {d : Declaration} {components : List Component}
  {a : Arguments} {q : Parameter}

theorem map_fst_shares (parameters : List Parameter) (components : List Component) :
    (shares parameters components).map Prod.fst = parameters := by
  induction parameters generalizing components with
  | nil => rfl
  | cons q rest ih => rw [shares, List.map_cons, ih]

/-- Where nested components are optional, only attributes stand in the way. -/
theorem complete_iff (hnested : ∀ q ∈ p.parameters, q.kind.isAttribute = false →
    q.required = false) : Complete p d components ↔
      ∀ q ∈ p.parameters, q.Ready p.name d := by
  have hmissing : ∀ s ∈ shares p.parameters components, s.1.required = true →
      (s.1.Missing d s.2 ↔ s.1.raw? d = none) := by
    intro s hs hrequired
    have hq : s.1 ∈ p.parameters := by
      rw [← map_fst_shares p.parameters components]
      exact List.mem_map_of_mem hs
    apply Parameter.missing_attribute
    by_contra hother
    simp [hnested s.1 hq (Bool.not_eq_true _ ▸ hother)] at hrequired
  constructor
  · intro h q hq
    rw [← map_fst_shares p.parameters components] at hq
    obtain ⟨s, hs, rfl⟩ := List.mem_map.1 hq
    obtain ⟨hcoerces, hgiven⟩ := h s hs
    exact ⟨hcoerces, fun hrequired => (hmissing s hs hrequired).not.1 (hgiven hrequired)⟩
  · intro h s hs
    have hq : s.1 ∈ p.parameters := by
      rw [← map_fst_shares p.parameters components]
      exact List.mem_map_of_mem hs
    obtain ⟨hcoerces, hgiven⟩ := h s.1 hq
    exact ⟨hcoerces, fun hrequired => (hmissing s hs hrequired).not.2 (hgiven hrequired)⟩

section Read

variable (hnames : (p.parameters.map Parameter.name).Nodup)
  (h : assembled p d components = .ok a) (hq : q ∈ p.parameters)

include hnames h hq

theorem text?_of_assembled (w : σ) (hkind : q.kind = .text) : a.text? q.name = q.raw? d := by
  obtain ⟨value, hread, hget⟩ := get?_of_assembled hnames h w hq
  rw [Parameter.read_attribute (by rw [hkind]; rfl)] at hread
  rw [Arguments.text?, hget]
  cases hraw : q.raw? d with
  | none =>
    simp only [hraw, Except.ok.injEq] at hread
    rw [← hread]
  | some raw =>
    simp only [hraw, hkind, Coercion.coerce_text, Except.ok.injEq] at hread
    rw [← hread]

theorem bool_of_assembled (w : σ) (hkind : q.kind = .bool) {raw : String}
    (hraw : q.raw? d = some raw) :
    ∃ b, Coercion.readBool? raw = some b ∧ a.bool q.name = .ok b := by
  obtain ⟨value, hread, hget⟩ := get?_of_assembled hnames h w hq
  rw [Parameter.read_attribute (by rw [hkind]; rfl)] at hread
  simp only [hraw, hkind, Coercion.coerce_bool_eq_ok] at hread
  obtain ⟨b, hbool, rfl⟩ := hread
  exact ⟨b, hbool, by rw [Arguments.bool, hget]⟩

theorem charset_of_assembled (w : σ) (hkind : q.kind = .charset) {raw : String}
    (hraw : q.raw? d = some raw) :
    ∃ c, Charset.ofName raw = .ok c ∧ a.charset q.name = .ok c := by
  obtain ⟨value, hread, hget⟩ := get?_of_assembled hnames h w hq
  rw [Parameter.read_attribute (by rw [hkind]; rfl)] at hread
  simp only [hraw, hkind, Coercion.coerce_charset_eq_ok] at hread
  obtain ⟨c, hcharset, rfl⟩ := hread
  exact ⟨c, hcharset, by rw [Arguments.charset, hget]⟩

/-- The first of the nested layouts. -/
theorem layout?_of_assembled (w : σ) (hkind : q.kind = .element .layout)
    (htaker : taker? p.parameters .layout = some q) :
    a.layout? q.name = (components.filterMap Component.asLayout?).head? := by
  have hlayouts : components.filterMap Component.asLayout? =
      (ofType .layout components).filterMap Component.asLayout? := by
    rw [ofType, List.filterMap_filter]
    congr 1
    funext c
    cases c <;> rfl
  rw [Arguments.layout?, Arguments.element?, get?_element hnames h w hq hkind,
    taken_eq (Parameter.nested?_of_element hkind), if_pos htaker, hlayouts]
  cases hof : ofType .layout components with
  | nil => rfl
  | cons c rest =>
    have hc : c.elementType = .layout := elementType_of_mem_ofType (hof ▸ List.mem_cons_self)
    cases c with
    | layout l => rfl
    | _ => contradiction

end Read

theorem requiredText_of_assembled (hnames : (p.parameters.map Parameter.name).Nodup)
    (h : assembled p d components = .ok a) (w : σ) {name text : String}
    (hq : .mandatory name .text ∈ p.parameters) (hattr : d.attr? name = some text) :
    a.requiredText name = .ok text := by
  have htext : a.text? name = (Parameter.mandatory name .text).raw? d :=
    text?_of_assembled hnames h hq w rfl
  rw [Parameter.raw?_mandatory, hattr] at htext
  rw [Arguments.requiredText, htext]

/-- What takes just the attributes that the arguments take is missing where they are. -/
theorem eq_none_of_error {α : Type} {made : Option α} {e : Error}
    (hcomplete : Complete p d components ↔ ∃ x, made = some x)
    (h : assembled p d components = .error e) : made = none := by
  rw [Option.eq_none_iff_forall_ne_some]
  intro x hx
  obtain ⟨a, ha⟩ := exists_assembled_iff.2 (hcomplete.2 ⟨x, hx⟩)
  rw [ha] at h
  contradiction

end Build
end LoggingFacade
