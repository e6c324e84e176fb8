import LoggingFacade.Proofs.Charset.Names
import LoggingFacade.Proofs.Plugin.Linked
import LoggingFacade.Proofs.Plugin.Reported

/-!
# What declarations ask the linked plugins for

Whether a linked plugin builds a declaration is a matter of the declaration's own type and
attributes: nested declarations that cannot be built are left out. What it makes depends
besides on the nested declarations of one type only. An appender takes the first layout, a
set the last appender of each name. `Declaration.product?` says so by recursion over the
declaration, without any state.
-/

namespace LoggingFacade

open Text (sameName)

/-! ## Types -/

/-- The types of declarations that can be built. -/
inductive LinkedType where
  | xmlLayout
  | console
  | memory
  | appenders

namespace LinkedType

def plugin : LinkedType → Plugin World
  | xmlLayout => Plugin.xml
  | console => Plugin.console
  | memory => Plugin.memory
  | appenders => Plugin.appenderSet

/-- The type of a name, in any case of its letters. -/
def ofName? (name : String) : Option LinkedType :=
  [xmlLayout, console, memory, appenders].find? fun t => sameName name t.plugin.name

/-- The type of the nested components that are used. -/
def takes? : LinkedType → Option ElementType
  | xmlLayout => none
  | console => some .layout
  | memory => some .layout
  | appenders => some .appender

theorem takes?_eq_of_nested? (t : LinkedType) : ∀ q ∈ t.plugin.parameters, ∀ type,
    q.nested? = some type → decide (t.takes? = some type) = true := by
  cases t <;> decide

theorem lower_name_injective {t u : LinkedType}
    (h : Text.lower t.plugin.name = Text.lower u.plugin.name) : t = u := by
  cases t <;> cases u <;> first | rfl | exact absurd h (by decide)

theorem ofName?_eq_none {name : String} :
    ofName? name = none ↔ ∀ t : LinkedType, ¬sameName name t.plugin.name = true := by
  rw [ofName?, List.find?_eq_none]
  constructor
  · intro h t
    exact h t (by cases t <;> simp)
  · exact fun h t _ => h t

theorem ofName?_eq_some {name : String} {t : LinkedType} :
    ofName? name = some t ↔ sameName name t.plugin.name = true := by
  constructor
  · intro h
    have hname := List.find?_some (p := fun t : LinkedType => sameName name t.plugin.name) h
    exact hname
  · intro h
    cases hfound : ofName? name with
    | none => exact absurd h (ofName?_eq_none.1 hfound t)
    | some u =>
      have hname := List.find?_some (p := fun t : LinkedType => sameName name t.plugin.name) hfound
      rw [Text.sameName_iff] at h hname
      rw [lower_name_injective (hname.symm.trans h)]

end LinkedType

/-- The linked plugins are bound, and nothing else. -/
def Binding.Standard (b : Binding World) : Prop :=
  ∀ typeName, b.lookup typeName = (LinkedType.ofName? typeName).map LinkedType.plugin

theorem Binding.Standard.linked {b : Binding World} (hb : b.Standard) : b.Linked := by
  intro typeName p hp
  rw [hb, Option.map_eq_some_iff] at hp
  obtain ⟨t, -, rfl⟩ := hp
  cases t <;> simp [LinkedType.plugin, Plugin.linked]

theorem Registrations.binding_standard {σ : Type} (w : σ) :
    ((standard.binding : Traced σ (Binding World)).run w).value.Standard := by
  intro typeName
  change ((((Binding.empty.add Plugin.xml).add Plugin.console).add Plugin.memory).add
    Plugin.appenderSet).lookup typeName = _
  simp only [Binding.lookup, Binding.add, TextMap.get?_insert]
  cases htype : LinkedType.ofName? typeName with
  | none =>
    have hother := LinkedType.ofName?_eq_none.1 htype
    simp only [Text.sameName_iff] at hother
    exact (if_neg (hother .appenders)).trans ((if_neg (hother .memory)).trans
      ((if_neg (hother .console)).trans (if_neg (hother .xmlLayout))))
  | some t =>
    rw [(Text.sameName_iff _ _).1 (LinkedType.ofName?_eq_some.1 htype)]
    cases t <;> rfl

/-! ## Products -/

/-- What the declaration of an appender asks for. Without a target it is one in memory. -/
structure Outlet where
  name : String
  target : Option ConsoleTarget
  layout : Option XmlLayout

inductive Product where
  | layout (x : XmlLayout)
  | appender (o : Outlet)
  | appenders (outlets : List Outlet)

namespace Product

def elementType : Product → ElementType
  | layout _ => .layout
  | appender _ => .appender
  | appenders _ => .appenders

def asLayout? : Product → Option XmlLayout
  | layout x => some x
  | _ => none

def asOutlet? : Product → Option Outlet
  | appender o => some o
  | _ => none

end Product

namespace Declaration

/-- A switch, which is off if it is not given. -/
def flag? (d : Declaration) (name : String) : Option Bool :=
  match d.attr? name with
  | none => some false
  | some raw => Coercion.readBool? raw

/-- A charset by one of its names, UTF-8 if none is given. -/
def charset? (d : Declaration) : Option Charset :=
  match d.attr? "charset" with
  | none => some .utf8
  | some raw => Charset.named? raw

def target? (d : Declaration) : Option ConsoleTarget :=
  match d.attr? "target" with
  | none => some .systemOut
  | some raw => (ConsoleTarget.ofName raw).toOption

theorem flag?_eq (d : Declaration) (name : String) :
    d.flag? name = Coercion.readBool? ((d.attr? name).getD "false") := by
  unfold flag?
  cases d.attr? name <;> rfl

theorem charset?_eq (d : Declaration) :
    d.charset? = (Charset.ofName ((d.attr? "charset").getD "UTF-8")).toOption := by
  unfold charset?
  cases d.attr? "charset" with
  | none => rfl
  | some raw => exact (Charset.toOption_ofName raw).symm

theorem target?_eq (d : Declaration) : d.target? =
    (ConsoleTarget.ofName ((d.attr? "target").getD ConsoleTarget.systemOut.name)).toOption := by
  unfold target?
  cases d.attr? "target" <;> rfl

def xmlLayout? (d : Declaration) : Option XmlLayout := do
  return ⟨← d.flag? "locationInfo", ← d.flag? "properties", ← d.flag? "complete", ← d.charset?⟩

mutual

/-- What a declaration is built into, if it can be built. -/
def product? : Declaration → Option Product
  | ⟨typeName, attributes, children⟩ =>
    let d : Declaration := ⟨typeName, attributes, children⟩
    let parts := products children
    match LinkedType.ofName? typeName with
    | some .xmlLayout => d.xmlLayout?.map .layout
    | some .console => do
      return .appender ⟨← d.attr? "name", some (← d.target?),
        (parts.filterMap Product.asLayout?).head?⟩
    | some .memory => do
      return .appender ⟨← d.attr? "name", none, (parts.filterMap Product.asLayout?).head?⟩
    | some .appenders => some (.appenders (parts.filterMap Product.asOutlet?))
    | none => none

def products : List Declaration → List Product
  | [] => []
  | child :: rest => (product? child).toList ++ products rest

end

/-- A nested declaration is of use if it is built into what the declaration's type takes. -/
def uses (d child : Declaration) : Bool :=
  (LinkedType.ofName? d.typeName).any fun t =>
    child.product?.any fun made => t.takes? = some made.elementType

/-- The declaration without the nested ones that are of no use. -/
def trimmed (d : Declaration) : Declaration := { d with children := d.children.filter d.uses }

/-- The text of a switch is `true` or `false`, in any case, with white space around it. -/
def SwitchAccepted (d : Declaration) (name : String) : Prop :=
  ∀ raw, d.attr? name = some raw →
    sameName (Text.trim raw) "true" = true ∨ sameName (Text.trim raw) "false" = true

/-- The attributes are in order for a declaration of the type. -/
def Suits (d : Declaration) : LinkedType → Prop
  | .xmlLayout => d.SwitchAccepted "locationInfo" ∧ d.SwitchAccepted "properties" ∧
    d.SwitchAccepted "complete" ∧
      ∀ raw, d.attr? "charset" = some raw → ∃ c : Charset, c.IsNamed raw
  | .console => (∃ name, d.attr? "name" = some name) ∧ ∀ raw, d.attr? "target" = some raw →
    sameName raw "SYSTEM_OUT" = true ∨ sameName raw "SYSTEM_ERR" = true
  | .memory => ∃ name, d.attr? "name" = some name
  | .appenders => True

/-- The declaration is of a linked type, in any case of the letters, and in order for it. -/
def Accepted (d : Declaration) : Prop :=
  ∃ t : LinkedType, sameName d.typeName t.plugin.name = true ∧ d.Suits t

variable {d : Declaration}

/-! ## Acceptance -/

theorem readBool?_iff (raw : String) : (∃ value, Coercion.readBool? raw = some value) ↔
    sameName (Text.trim raw) "true" = true ∨ sameName (Text.trim raw) "false" = true := by
  by_cases htrue : sameName (Text.trim raw) "true" = true
  · simp [Coercion.readBool?, htrue]
  · by_cases hfalse : sameName (Text.trim raw) "false" = true <;>
      simp [Coercion.readBool?, htrue, hfalse]

theorem ofName_eq_systemOut_iff (raw : String) :
    ConsoleTarget.ofName raw = .ok .systemOut ↔ sameName raw "SYSTEM_OUT" = true := by
  by_cases hout : sameName raw "SYSTEM_OUT" = true
  · simp [ConsoleTarget.ofName, ConsoleTarget.name, hout]
  · by_cases herr : sameName raw "SYSTEM_ERR" = true <;>
      simp [ConsoleTarget.ofName, ConsoleTarget.name, hout, herr]

theorem ofName_eq_systemErr_iff (raw : String) :
    ConsoleTarget.ofName raw = .ok .systemErr ↔ sameName raw "SYSTEM_ERR" = true := by
  by_cases herr : sameName raw "SYSTEM_ERR" = true
  · have hout : ¬sameName raw "SYSTEM_OUT" = true := by
      rw [Text.sameName_iff] at herr ⊢
      rw [herr]
      decide
    simp [ConsoleTarget.ofName, ConsoleTarget.name, hout, herr]
  · by_cases hout : sameName raw "SYSTEM_OUT" = true <;>
      simp [ConsoleTarget.ofName, ConsoleTarget.name, hout, herr]

theorem ofName_iff (raw : String) : (∃ target, ConsoleTarget.ofName raw = .ok target) ↔
    sameName raw "SYSTEM_OUT" = true ∨ sameName raw "SYSTEM_ERR" = true := by
  rw [← ofName_eq_systemOut_iff, ← ofName_eq_systemErr_iff]
  constructor
  · rintro ⟨target, h⟩
    cases target with
    | systemOut => exact .inl h
    | systemErr => exact .inr h
  · rintro (h | h)
    · exact ⟨.systemOut, h⟩
    · exact ⟨.systemErr, h⟩

theorem switchAccepted_iff (name : String) :
    d.SwitchAccepted name ↔ ∃ value, d.flag? name = some value := by
  unfold SwitchAccepted flag?
  cases d.attr? name with
  | none => simp
  | some raw => simp only [Option.some.injEq, forall_eq', readBool?_iff]

theorem charset?_iff : (∀ raw, d.attr? "charset" = some raw → ∃ c : Charset, c.IsNamed raw) ↔
    ∃ c, d.charset? = some c := by
  unfold charset?
  cases d.attr? "charset" with
  | none => simp
  | some raw => simp [Charset.named?_eq_some_iff]

theorem target?_iff : (∀ raw, d.attr? "target" = some raw →
    sameName raw "SYSTEM_OUT" = true ∨ sameName raw "SYSTEM_ERR" = true) ↔
      ∃ target, d.target? = some target := by
  unfold target?
  cases d.attr? "target" with
  | none => simp
  | some raw =>
    simp only [← ofName_iff]
    cases htarget : ConsoleTarget.ofName raw <;> simp [htarget, Except.toOption]

theorem xmlLayout?_iff : d.Suits .xmlLayout ↔ ∃ x, d.xmlLayout? = some x := by
  simp only [Suits, switchAccepted_iff, charset?_iff]
  unfold xmlLayout?
  cases d.flag? "locationInfo" <;> cases d.flag? "properties" <;> cases d.flag? "complete" <;>
    cases d.charset? <;> simp

theorem accepted_iff : d.Accepted ↔ ∃ made, product? d = some made := by
  obtain ⟨typeName, attributes, children⟩ := d
  rw [product?]
  cases htype : LinkedType.ofName? typeName with
  | none =>
    have hother := LinkedType.ofName?_eq_none.1 htype
    simp only [reduceCtorEq, exists_false, iff_false]
    rintro ⟨t, hname, -⟩
    exact hother t hname
  | some t =>
    have hsuits : Accepted ⟨typeName, attributes, children⟩ ↔
        Suits ⟨typeName, attributes, children⟩ t := by
      refine ⟨?_, fun h => ⟨t, LinkedType.ofName?_eq_some.1 htype, h⟩⟩
      rintro ⟨u, hname, h⟩
      obtain rfl : u = t :=
        Option.some.inj ((LinkedType.ofName?_eq_some.2 hname).symm.trans htype)
      exact h
    rw [hsuits]
    cases t with
    | xmlLayout =>
      rw [xmlLayout?_iff]
      cases xmlLayout? ⟨typeName, attributes, children⟩ <;> simp
    | console =>
      rw [Suits, target?_iff]
      cases attr? ⟨typeName, attributes, children⟩ "name" <;>
        cases target? ⟨typeName, attributes, children⟩ <;> simp
    | memory =>
      rw [Suits]
      cases attr? ⟨typeName, attributes, children⟩ "name" <;> simp
    | appenders => exact iff_of_true trivial ⟨_, rfl⟩

/-- Types and names of attributes may be in any case, but a target has no white space
around it. -/
example :
    let named := TextMap.empty.insert "Name" "c"
    let console : Declaration := ⟨"CONSOLE", named, [⟨"XmlLayout", .empty, []⟩]⟩
    let padded : Declaration := ⟨"Console", named.insert "target" " SYSTEM_ERR", []⟩
    product? ⟨"Appenders", .empty, [console, padded]⟩ =
      some (.appenders [⟨"c", some .systemOut, some ⟨false, false, false, .utf8⟩⟩]) := by
  rfl

end Declaration

theorem Product.asLayout?_eq_none {made : Product} (h : made.elementType ≠ .layout) :
    made.asLayout? = none := by
  cases made with
  | layout x => exact absurd rfl h
  | _ => rfl

theorem Product.asOutlet?_eq_none {made : Product} (h : made.elementType ≠ .appender) :
    made.asOutlet? = none := by
  cases made with
  | appender o => exact absurd rfl h
  | _ => rfl

namespace Declaration

/-- A part of the products that the declarations left out have no share in. -/
theorem filterMap_products_filter {α : Type} {f : Product → Option α} {keep : Declaration → Bool}
    (h : ∀ child made, product? child = some made → keep child = false → f made = none)
    (ds : List Declaration) :
    (products (ds.filter keep)).filterMap f = (products ds).filterMap f := by
  induction ds with
  | nil => rfl
  | cons child rest ih =>
    cases hkeep : keep child with
    | true => rw [List.filter_cons_of_pos hkeep, products, products, List.filterMap_append,
        List.filterMap_append, ih]
    | false =>
      rw [List.filter_cons_of_neg (by simp [hkeep]), products, List.filterMap_append, ih]
      cases hmade : product? child with
      | none => rfl
      | some made => simp [h child made hmade hkeep]

theorem product?_trimmed (d : Declaration) : product? d.trimmed = product? d := by
  obtain ⟨typeName, attributes, children⟩ := d
  rw [trimmed, product?, product?]
  cases htype : LinkedType.ofName? typeName with
  | none => rfl
  | some t =>
    have hother {kind : ElementType} (hkind : t.takes? = some kind) (child : Declaration)
        (made : Product) (hmade : product? child = some made)
        (huses : uses ⟨typeName, attributes, children⟩ child = false) :
        made.elementType ≠ kind := by
      rintro rfl
      simp [uses, htype, hmade, hkind] at huses
    cases t with
    | xmlLayout => rfl
    | console =>
      simp only [filterMap_products_filter fun child made hmade huses =>
        Product.asLayout?_eq_none (hother rfl child made hmade huses)]
      rfl
    | memory =>
      simp only [filterMap_products_filter fun child made hmade huses =>
        Product.asLayout?_eq_none (hother rfl child made hmade huses)]
      rfl
    | appenders =>
      simp only [filterMap_products_filter fun child made hmade huses =>
        Product.asOutlet?_eq_none (hother rfl child made hmade huses)]

/-- An appender has the first layout that is nested in it. -/
theorem layout_of_product? {d : Declaration} {o : Outlet} (h : d.product? = some (.appender o)) :
    o.layout = ((products d.children).filterMap Product.asLayout?).head? := by
  obtain ⟨typeName, attributes, children⟩ := d
  rw [product?] at h
  cases htype : LinkedType.ofName? typeName with
  | none => simp [htype] at h
  | some t =>
    cases t with
    | xmlLayout => simp [htype] at h
    | console =>
      simp only [htype, Option.bind_eq_bind, Option.bind_eq_some_iff, Option.pure_def,
        Option.some.injEq, Product.appender.injEq] at h
      obtain ⟨name, -, target, -, rfl⟩ := h
      rfl
    | memory =>
      simp only [htype, Option.bind_eq_bind, Option.bind_eq_some_iff, Option.pure_def,
        Option.some.injEq, Product.appender.injEq] at h
      obtain ⟨name, -, rfl⟩ := h
      rfl
    | appenders => simp [htype] at h

end Declaration

end LoggingFacade
