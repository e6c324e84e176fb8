import LoggingFacade.Proofs.Plugin.Likeness
import LoggingFacade.Proofs.Plugin.Products
import LoggingFacade.Proofs.Plugin.Publication
import LoggingFacade.Proofs.Plugin.Reading

/-!
# What the linked plugins accept and make

In any world, a declaration is built by the linked plugins if and only if it asks for
something, and what is built is what it asks for, as the devices of the world show.
-/

namespace LoggingFacade

open Text (sameName)

/-! ## What is built -/

/-- Every device stays as it is. -/
def World.Extends (w v : World) : Prop :=
  ∀ id device, w.devices.get? id = some device → v.devices.get? id = some device

theorem World.Extends.refl (w : World) : w.Extends w := fun _ _ h => h

theorem World.Extends.trans {u v w : World} (huv : u.Extends v) (hvw : v.Extends w) :
    u.Extends w :=
  fun id device h => hvw id device (huv id device h)

theorem World.Extends.of_add {w v : World} {device : Device}
    (h : v.devices = w.devices.add device) : w.Extends v := by
  intro id old hold
  have hid : id ≠ w.devices.next := by
    rintro rfl
    simp at hold
  rw [h, Store.get?_add_of_ne _ _ hid, hold]

/-- The device of a new appender. -/
def Outlet.device (o : Outlet) : Device :=
  match o.target with
  | some target => .console target false false
  | none => .memory (.fresh .empty)

/-- The appender is a new one, as the declaration asks for. -/
structure Outlet.Shows (w : World) (o : Outlet) (a : Appender) : Prop where
  name : a.name = o.name
  layout : a.layout = o.layout.map XmlLayout.toLayout
  device : w.devices.get? a.id = some o.device

/-- The component is what the declaration asks for. A set has the last appender of each name. -/
inductive Product.Shows (w : World) : Product → Component → Prop
  | layout (x : XmlLayout) : Shows w (.layout x) (.layout x.toLayout)
  | appender {o : Outlet} {a : Appender} (h : o.Shows w a) : Shows w (.appender o) (.appender a)
  | appenders {outlets : List Outlet} {m : AppenderMap}
    (h : ∀ name, Option.Rel (Outlet.Shows w) ((outlets.filter (·.name = name)).getLast?)
      (m.get? name)) : Shows w (.appenders outlets) (.appenders m)

theorem Outlet.Shows.mono {w v : World} (h : w.Extends v) {o : Outlet} {a : Appender}
    (hshows : o.Shows w a) : o.Shows v a :=
  ⟨hshows.name, hshows.layout, h _ _ hshows.device⟩

theorem Product.Shows.mono {w v : World} (h : w.Extends v) {made : Product} {c : Component}
    (hshows : made.Shows w c) : made.Shows v c := by
  cases hshows with
  | layout x => exact .layout x
  | appender ha => exact .appender (ha.mono h)
  | appenders hm =>
    refine .appenders fun name => ?_
    have hname := hm name
    generalize (List.filter _ _).getLast? = first at hname ⊢
    generalize AppenderMap.get? _ name = second at hname ⊢
    cases hname with
    | none => exact .none
    | some ha => exact .some (ha.mono h)

theorem Product.Shows.elementType {w : World} {made : Product} {c : Component}
    (h : made.Shows w c) : made.elementType = c.elementType := by
  cases h <;> rfl

theorem Product.filterMap_asLayout? {w : World} {parts : List Product} {cs : List Component}
    (h : List.Forall₂ (Product.Shows w) parts cs) : cs.filterMap Component.asLayout? =
      (parts.filterMap Product.asLayout?).map XmlLayout.toLayout := by
  induction h with
  | nil => rfl
  | cons hfirst _ ih =>
    cases hfirst with
    | layout x =>
      simp only [List.filterMap_cons, Component.asLayout?, Product.asLayout?, ih, List.map_cons]
    | _ => simpa only [List.filterMap_cons, Component.asLayout?, Product.asLayout?] using ih

theorem Product.filterMap_asAppender? {w : World} {parts : List Product} {cs : List Component}
    (h : List.Forall₂ (Product.Shows w) parts cs) :
    List.Forall₂ (Outlet.Shows w) (parts.filterMap Product.asOutlet?)
      (cs.filterMap Component.asAppender?) := by
  refine List.rel_filterMap ?_ h
  intro made c hshows
  cases hshows with
  | appender ha => exact .some ha
  | _ => exact .none

namespace Plugin

/-- Factories of linked plugins add one device at most. -/
theorem extends_linked {p : Plugin World} (hp : p ∈ linked) (a : Arguments) (w : World) :
    w.Extends ((p.factory a).run w).state := by
  simp only [linked, List.mem_cons, List.not_mem_nil, or_false] at hp
  rcases hp with rfl | rfl | rfl | rfl
  · exact .refl w
  · rw [factory_console]
    cases consoleSettings a with
    | error e => exact .refl w
    | ok settings => exact .of_add rfl
  · rw [factory_memory]
    cases a.requiredText "name" with
    | error e => exact .refl w
    | ok name =>
      have hstate := (Appender.run_publishedMemory name (a.layout? "layout") w).2
      simp only [Traced.state_bind, hstate]
      exact .of_add rfl
  · rw [state_appenderSet]
    exact .refl w

end Plugin

namespace Build

variable {d : Declaration} {components : List Component} {a : Arguments}

/-! ## The arguments -/

theorem ready_switch_iff (component name : String) :
    (Parameter.withStandard name .bool "false").Ready component d ↔ d.SwitchAccepted name := by
  rw [Parameter.Ready, Parameter.coerces_bool_iff rfl, Parameter.raw?_withStandard,
    Declaration.switchAccepted_iff, Declaration.flag?_eq]
  simp

theorem ready_charset_iff (component : String) :
    (Parameter.withStandard "charset" .charset "UTF-8").Ready component d ↔
      ∀ raw, d.attr? "charset" = some raw → ∃ c : Charset, c.IsNamed raw := by
  rw [Parameter.Ready, Parameter.coerces_charset_iff rfl, Parameter.raw?_withStandard,
    Declaration.charset?_iff, Declaration.charset?_eq]
  cases hname : Charset.ofName ((d.attr? "charset").getD "UTF-8") <;>
    simp [hname, Except.toOption]

theorem complete_xml :
    Complete (Plugin.xml : Plugin World) d components ↔ d.Suits .xmlLayout := by
  rw [complete_iff (by decide), Declaration.Suits]
  simp only [Plugin.xml, List.forall_mem_cons, ready_switch_iff, ready_charset_iff]
  simp

theorem complete_console :
    Complete Plugin.console d components ↔ ∃ name, d.attr? "name" = some name := by
  rw [complete_iff (by decide)]
  have htarget : (Parameter.withStandard "target" .text "SYSTEM_OUT").Ready "Console" d :=
    Parameter.ready_of_text _ _ rfl rfl
  have hlayout : (Parameter.optional "layout" (.element .layout)).Ready "Console" d :=
    Parameter.ready_of_nested _ _ rfl rfl
  simp only [Plugin.console, List.forall_mem_cons, Parameter.ready_mandatory_iff]
  simp [ConsoleTarget.name, htarget, hlayout]

theorem complete_memory :
    Complete Plugin.memory d components ↔ ∃ name, d.attr? "name" = some name := by
  rw [complete_iff (by decide)]
  have hlayout : (Parameter.optional "layout" (.element .layout)).Ready "Memory" d :=
    Parameter.ready_of_nested _ _ rfl rfl
  simp only [Plugin.memory, List.forall_mem_cons, Parameter.ready_mandatory_iff]
  simp [hlayout]

theorem flag_of_assembled (w : World)
    (h : assembled (Plugin.xml : Plugin World) d components = .ok a) (name : String)
    (hq : .withStandard name .bool "false" ∈ (Plugin.xml : Plugin World).parameters) :
    ∃ value, d.flag? name = some value ∧ a.bool name = .ok value := by
  rw [Declaration.flag?_eq]
  exact bool_of_assembled (by decide) h hq w rfl (Parameter.raw?_withStandard _ _ _)

theorem charset_of_xml (w : World)
    (h : assembled (Plugin.xml : Plugin World) d components = .ok a) :
    ∃ c, d.charset? = some c ∧ a.charset "charset" = .ok c := by
  have hq : .withStandard "charset" .charset "UTF-8" ∈ (Plugin.xml : Plugin World).parameters := by
    simp [Plugin.xml]
  obtain ⟨c, hname, hcharset⟩ :=
    charset_of_assembled (by decide) h hq w rfl (Parameter.raw?_withStandard _ _ _)
  exact ⟨c, by simp [Declaration.charset?_eq, hname, Except.toOption], hcharset⟩

/-- The switches and the charset of a layout. -/
theorem xmlLayout_of_assembled (w : World)
    (h : assembled (Plugin.xml : Plugin World) d components = .ok a) :
    ∃ x, d.xmlLayout? = some x ∧ Plugin.xmlLayout a = .ok x := by
  obtain ⟨locationInfo, hlocationInfo, hl⟩ :=
    flag_of_assembled w h "locationInfo" (by simp [Plugin.xml])
  obtain ⟨properties, hproperties, hp⟩ :=
    flag_of_assembled w h "properties" (by simp [Plugin.xml])
  obtain ⟨complete, hcomplete, hc⟩ := flag_of_assembled w h "complete" (by simp [Plugin.xml])
  obtain ⟨charset, hcharset, hcs⟩ := charset_of_xml w h
  refine ⟨⟨locationInfo, properties, complete, charset⟩, ?_, ?_⟩
  · simp [Declaration.xmlLayout?, hlocationInfo, hproperties, hcomplete, hcharset]
  · rw [Plugin.xmlLayout, hl, hp, hc, hcs]
    rfl

/-- The name and the target of a console appender. -/
theorem consoleSettings_of_assembled (w : World)
    (h : assembled Plugin.console d components = .ok a) :
    ∃ name, d.attr? "name" = some name ∧ Plugin.consoleSettings a =
      (ConsoleTarget.ofName ((d.attr? "target").getD ConsoleTarget.systemOut.name)).map
        fun target => (name, target) := by
  obtain ⟨name, hname⟩ := complete_console.1 (exists_assembled_iff.1 ⟨a, h⟩)
  have hrequired : a.requiredText "name" = .ok name :=
    requiredText_of_assembled (by decide) h w (by simp [Plugin.console]) hname
  have hq : .withStandard "target" .text ConsoleTarget.systemOut.name ∈
      Plugin.console.parameters := by
    simp [Plugin.console]
  have htarget : a.text? "target" = _ := text?_of_assembled (by decide) h hq w rfl
  rw [Parameter.raw?_withStandard] at htarget
  refine ⟨name, hname, ?_⟩
  rw [Plugin.consoleSettings, hrequired, htarget]
  rfl

theorem layout_of_console (w : World) (h : assembled Plugin.console d components = .ok a) :
    a.layout? "layout" = (components.filterMap Component.asLayout?).head? :=
  layout?_of_assembled (q := .optional "layout" (.element .layout)) (by decide) h
    (by simp [Plugin.console]) w rfl rfl

theorem name_of_memory (w : World) (h : assembled Plugin.memory d components = .ok a) :
    ∃ name, d.attr? "name" = some name ∧ a.requiredText "name" = .ok name := by
  obtain ⟨name, hname⟩ := complete_memory.1 (exists_assembled_iff.1 ⟨a, h⟩)
  exact ⟨name, hname, requiredText_of_assembled (by decide) h w (by simp [Plugin.memory]) hname⟩

theorem layout_of_memory (w : World) (h : assembled Plugin.memory d components = .ok a) :
    a.layout? "layout" = (components.filterMap Component.asLayout?).head? :=
  layout?_of_assembled (q := .optional "layout" (.element .layout)) (by decide) h
    (by simp [Plugin.memory]) w rfl rfl

/-! ## One declaration -/

section Own

variable {b : Binding World} {w : World}

theorem shows_xml (hp : b.lookup d.typeName = some Plugin.xml) :
    Option.Rel (Product.Shows ((build b d).run w).state) (d.xmlLayout?.map .layout)
      ((build b d).run w).value.toOption := by
  obtain ⟨hvalue, -⟩ := build_of_some hp w
  cases hmade : assembled Plugin.xml d (nested b d w) with
  | error e =>
    rw [hvalue, hmade, eq_none_of_error (complete_xml.trans Declaration.xmlLayout?_iff) hmade]
    exact .none
  | ok a =>
    obtain ⟨x, hx, hsettings⟩ := xmlLayout_of_assembled w hmade
    have hdone : ((Plugin.xml.factory a).run (stateBelow b d w)).value =
        .done (.layout x.toLayout) := by
      simp only [Plugin.xml, hsettings, Traced.value_pure]
      rfl
    rw [hvalue, hmade, hx]
    simp only [hdone]
    exact .some (.layout x)

theorem shows_console (hp : b.lookup d.typeName = some Plugin.console) {parts : List Product}
    (hparts : List.Forall₂ (Product.Shows (stateBelow b d w)) parts (nested b d w)) :
    Option.Rel (Product.Shows ((build b d).run w).state)
      (do return .appender ⟨← d.attr? "name", some (← d.target?),
        (parts.filterMap Product.asLayout?).head?⟩)
      ((build b d).run w).value.toOption := by
  obtain ⟨hvalue, hstate⟩ := build_of_some hp w
  cases hmade : assembled Plugin.console d (nested b d w) with
  | error e =>
    rw [hvalue, hmade, eq_none_of_error complete_console hmade]
    exact .none
  | ok a =>
    obtain ⟨name, hname, hsettings⟩ := consoleSettings_of_assembled w hmade
    have hlayout := layout_of_console w hmade
    rw [Product.filterMap_asLayout? hparts, List.head?_map] at hlayout
    rw [hvalue, hstate, hmade, hname, Declaration.target?_eq]
    simp only [Plugin.factory_console, hsettings]
    cases ConsoleTarget.ofName ((d.attr? "target").getD ConsoleTarget.systemOut.name) with
    | error e => exact .none
    | ok target =>
      exact .some (.appender ⟨rfl, hlayout, Store.get?_add_next _ _⟩)

theorem shows_memory (hp : b.lookup d.typeName = some Plugin.memory) {parts : List Product}
    (hparts : List.Forall₂ (Product.Shows (stateBelow b d w)) parts (nested b d w)) :
    Option.Rel (Product.Shows ((build b d).run w).state)
      (do return .appender ⟨← d.attr? "name", none, (parts.filterMap Product.asLayout?).head?⟩)
      ((build b d).run w).value.toOption := by
  obtain ⟨hvalue, hstate⟩ := build_of_some hp w
  cases hmade : assembled Plugin.memory d (nested b d w) with
  | error e =>
    rw [hvalue, hmade, eq_none_of_error complete_memory hmade]
    exact .none
  | ok a =>
    obtain ⟨name, hname, hrequired⟩ := name_of_memory w hmade
    have hlayout := layout_of_memory w hmade
    rw [Product.filterMap_asLayout? hparts, List.head?_map] at hlayout
    obtain ⟨happender, hpublished⟩ :=
      Appender.run_publishedMemory name (a.layout? "layout") (stateBelow b d w)
    rw [hvalue, hstate, hmade, hname]
    simp only [Plugin.factory_memory, hrequired, Traced.value_bind, Traced.state_bind,
      Traced.value_pure, Traced.state_pure, happender, hpublished]
    exact .some (.appender ⟨rfl, hlayout, Store.get?_add_next _ _⟩)

theorem shows_appenders (hp : b.lookup d.typeName = some Plugin.appenderSet) {parts : List Product}
    (hparts : List.Forall₂ (Product.Shows (stateBelow b d w)) parts (nested b d w)) :
    Option.Rel (Product.Shows ((build b d).run w).state)
      (some (.appenders (parts.filterMap Product.asOutlet?)))
      ((build b d).run w).value.toOption := by
  obtain ⟨hvalue, hstate⟩ := build_of_some hp w
  rw [assembled_appenderSet] at hvalue hstate
  simp only [Plugin.value_appenderSet] at hvalue
  simp only [Plugin.state_appenderSet] at hstate
  rw [hvalue, hstate]
  refine .some (.appenders fun name => ?_)
  change Option.Rel _ _ ((AppenderMap.collected ((ofType .appender (nested b d w)).filterMap
    Component.asAppender?)).get? name)
  rw [filterMap_ofType_appender, AppenderMap.get?_collected]
  apply getLast?_rel
  apply List.rel_filter _ (Product.filterMap_asAppender? hparts)
  intro o a hshows
  simp [hshows.name]

end Own

/-! ## All declarations -/

variable {b : Binding World}

/-- Building declarations after a world changes none of its devices. -/
theorem extends_after (hb : b.Standard) (ds : List Declaration) (w : World) :
    w.Extends (stateAfter b ds w) :=
  related_after (R := World.Extends) World.Extends.refl (fun _ _ _ => World.Extends.trans)
    (fun typeName p hp => Plugin.extends_linked (hb.linked typeName p hp)) ds w

mutual

/-- What is built is what the declaration asks for, if it can be built at all. -/
theorem shows_build (hb : b.Standard) (d : Declaration) (w : World) :
    Option.Rel (Product.Shows ((build b d).run w).state) d.product?
      ((build b d).run w).value.toOption := by
  obtain ⟨typeName, attributes, children⟩ := d
  have hlookup := hb typeName
  rw [Declaration.product?]
  cases htype : LinkedType.ofName? typeName with
  | none =>
    rw [htype] at hlookup
    rw [run_build_of_none (d := ⟨typeName, attributes, children⟩) hlookup]
    exact .none
  | some t =>
    rw [htype] at hlookup
    have hparts : List.Forall₂ (Product.Shows (stateBelow b ⟨typeName, attributes, children⟩ w))
        (Declaration.products children) (nested b ⟨typeName, attributes, children⟩ w) :=
      shows_buildChildren hb children w _
    cases t with
    | xmlLayout => exact shows_xml (d := ⟨typeName, attributes, children⟩) hlookup
    | console => exact shows_console (d := ⟨typeName, attributes, children⟩) hlookup hparts
    | memory => exact shows_memory (d := ⟨typeName, attributes, children⟩) hlookup hparts
    | appenders => exact shows_appenders (d := ⟨typeName, attributes, children⟩) hlookup hparts

theorem shows_buildChildren (hb : b.Standard) (ds : List Declaration) (w : World)
    (parent : String) : List.Forall₂ (Product.Shows ((buildChildren b parent ds).run w).state)
      (Declaration.products ds) ((buildChildren b parent ds).run w).value := by
  cases ds with
  | nil =>
    rw [Declaration.products, buildChildren]
    exact .nil
  | cons child rest =>
    have hchild := shows_build hb child w
    have hrest := shows_buildChildren hb rest ((build b child).run w).state parent
    -- The first component was shown before the rest was built, which only adds devices.
    have hextends := extends_after hb rest ((build b child).run w).state
    rw [← state_buildChildren b parent] at hextends
    rw [Declaration.products, value_buildChildren_cons, state_buildChildren_cons]
    generalize child.product? = made at hchild ⊢
    generalize ((build b child).run w).value = value at hchild ⊢
    cases value with
    | error e =>
      cases hchild with
      | none => exact hrest
    | ok c =>
      cases hchild with
      | some hshows => exact .cons (hshows.mono hextends) hrest

end

/-! ## Nested declarations of no use -/

theorem uses_eq (hb : b.Standard) {t : LinkedType}
    (ht : LinkedType.ofName? d.typeName = some t) (child : Declaration) (w : World) :
    d.uses child = ((build b child).run w).value.toOption.any fun c =>
      decide (t.takes? = some c.elementType) := by
  have hchild := shows_build hb child w
  rw [Declaration.uses, ht]
  simp only [Option.any_some]
  generalize child.product? = made at hchild ⊢
  generalize ((build b child).run w).value.toOption = value at hchild ⊢
  cases hchild with
  | none => rfl
  | some hshows => simp [hshows.elementType]

/-- Without the nested declarations that are of no use, the same is built. -/
theorem shows_trimmed (hb : b.Standard) (d : Declaration) (w v : World) :
    Agree (fun c c' => ∃ made : Product, made.Shows ((build b d).run w).state c ∧
        made.Shows ((build b d.trimmed).run v).state c')
      ((build b d).run w).value ((build b d.trimmed).run v).value := by
  have hlike : Agree (Component.Like Appender.Twins) ((build b d).run w).value
      ((build b d.trimmed).run v).value := by
    have hlookup := hb d.typeName
    cases ht : LinkedType.ofName? d.typeName with
    | none =>
      rw [ht] at hlookup
      have htrimmed : b.lookup d.trimmed.typeName = none := hlookup
      rw [value_build_of_none hlookup, value_build_of_none htrimmed]
      exact .error _
    | some t =>
      rw [ht] at hlookup
      exact like_build_filter hb.linked.respects_twins hlookup t.takes?_eq_of_nested?
        (uses_eq hb ht) w v
  have hfirst := shows_build hb d w
  have hsecond := shows_build hb d.trimmed v
  rw [Declaration.product?_trimmed] at hsecond
  generalize d.product? = made at hfirst hsecond
  generalize ((build b d).run w).value = first at hlike hfirst ⊢
  generalize ((build b d.trimmed).run v).value = second at hlike hsecond ⊢
  cases hlike with
  | error e => exact .error e
  | ok =>
    cases hfirst with
    | some hw =>
      cases hsecond with
      | some hv => exact .ok ⟨_, hw, hv⟩

theorem layout_of_build (hb : b.Standard) {w : World} {a : Appender}
    (h : ((build b d).run w).value = .ok (.appender a)) :
    a.layout = ((built (results b d.children w)).filterMap Component.asLayout?).head? := by
  have hshows := shows_build hb d w
  have hparts := shows_buildChildren hb d.children w d.label
  rw [h] at hshows
  cases hmade : d.product? with
  | none =>
    rw [hmade] at hshows
    cases hshows
  | some made =>
    rw [hmade] at hshows
    cases hshows with
    | some hshows =>
      cases hshows with
      | appender ha =>
        rw [ha.layout, Declaration.layout_of_product? hmade, ← List.head?_map,
          ← Product.filterMap_asLayout? hparts]
        exact congrArg (fun cs : List Component => (cs.filterMap Component.asLayout?).head?)
          (nested_eq_built b d w)

theorem set_of_build (hb : b.Standard) {w : World} {m : AppenderMap}
    (h : ((build b d).run w).value = .ok (.appenders m)) : m.Named ∧ ∀ name, m.get? name =
      (((built (results b d.children w)).filterMap Component.asAppender?).filter
        (·.name = name)).getLast? := by
  have hset := eq_collected hb.linked h
  rw [← filterMap_asAppender?] at hset
  rw [hset]
  exact ⟨AppenderMap.named_collected _, AppenderMap.get?_collected _⟩

end Build
end LoggingFacade
