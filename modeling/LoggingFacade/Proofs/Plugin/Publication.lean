import LoggingFacade.Proofs.Appender.Replacement
import LoggingFacade.Proofs.Plugin.Linked

/-!
# Publication and contribution

Declarations give appenders two names. A memory appender is published as soon as it is
built, at whatever depth, and whatever becomes of the declarations around it; the report
takes the appenders that declarations at the top and the sets among them contribute. In
both, the last appender of a name counts. So the two agree on a name if the memory
appenders of that name are contributed, and no others are.
-/

namespace LoggingFacade

namespace Build

variable {σ : Type}

/-- The name of the plugin and the appender, if a declaration was built into one. -/
def maker? (b : Binding σ) (t : Trial) : Option (String × Appender) :=
  match b.lookup t.1.typeName, t.2 with
  | some p, .ok (.appender a) => some (p.name, a)
  | _, _ => none

/-- All appenders that declarations at any depth are built into, in the order of building,
each with the name of its plugin. -/
def made (b : Binding σ) (ds : List Declaration) (w : σ) : List (String × Appender) :=
  (trialsAll b ds w).filterMap (maker? b)

/-- The appender that a declaration at the top is built into, or those directly nested in
it if it is built into a set. -/
def contributedBy (b : Binding σ) (d : Declaration) (w : σ) : List (String × Appender) :=
  match ((build b d).run w).value with
  | .ok (.appenders _) => (results b d.children w).filterMap (maker? b)
  | value => (maker? b (d, value)).toList

/-- The appenders that declarations at the top and the sets among them contribute. -/
def contributed (b : Binding σ) : List Declaration → σ → List (String × Appender)
  | [], _ => []
  | d :: rest, w => contributedBy b d w ++ contributed b rest ((build b d).run w).state

/-- Those of the memory plugin. -/
def memories (made : List (String × Appender)) : List Appender :=
  (made.filter fun x => x.1 = Plugin.memory.name).map Prod.snd

/-- Memory appenders are published one after the other. -/
def publishAll (made : List (String × Appender)) (m : TextMap Appender) : TextMap Appender :=
  (memories made).foldl (fun m a => m.insert a.name a) m

theorem publishAll_append (first second : List (String × Appender)) (m : TextMap Appender) :
    publishAll (first ++ second) m = publishAll second (publishAll first m) := by
  simp [publishAll, memories]

theorem get?_publishAll (made : List (String × Appender)) (m : TextMap Appender) (name : String) :
    (publishAll made m).get? name =
      (((memories made).filter (·.name = name)).getLast?).or (m.get? name) :=
  lookup_foldl (fun m a other => m.get?_insert a.name other a) (memories made) m name

/-! ## What is published -/

section Published

variable {b : Binding World} {d : Declaration} {p : Plugin World}

theorem publishAll_of_ne (hp : b.lookup d.typeName = some p) (hname : p.name ≠ Plugin.memory.name)
    (result : Except Error Component) (m : TextMap Appender) :
    publishAll (maker? b (d, result)).toList m = m := by
  have hmaker : ∀ x ∈ (maker? b (d, result)).toList, x.1 ≠ Plugin.memory.name := by
    intro x hx
    rw [Option.mem_toList, maker?] at hx
    dsimp only at hx
    rw [hp] at hx
    cases result with
    | error e => contradiction
    | ok c =>
      cases c with
      | appender a => exact Option.some.inj hx ▸ hname
      | appenders map => contradiction
      | layout l => contradiction
  rw [publishAll, memories, List.filter_eq_nil_iff.2 fun x hx => by simp [hmaker x hx]]
  rfl

/-- The factory of a declaration publishes what the declaration is built into, if it is a
memory appender. -/
theorem published_own (hb : b.Linked) (hp : b.lookup d.typeName = some p) (w : World) :
    ((build b d).run w).state.published =
      publishAll (maker? b (d, ((build b d).run w).value)).toList
        (stateBelow b d w).published := by
  obtain ⟨hvalue, hstate⟩ := build_of_some hp w
  have hlinked := hb d.typeName p hp
  simp only [Plugin.linked, List.mem_cons, List.not_mem_nil, or_false] at hlinked
  cases hmade : assembled p d (nested b d w) with
  | error e =>
    rw [hmade] at hvalue hstate
    rw [hvalue, hstate, maker?, hp]
    rfl
  | ok a =>
    rw [hmade] at hvalue hstate
    dsimp only at hvalue hstate
    rcases hlinked with rfl | rfl | rfl | rfl
    · rw [publishAll_of_ne hp (by decide), hstate, Plugin.state_xml]
    · rw [publishAll_of_ne hp (by decide), hstate, Plugin.published_console]
    · rcases Plugin.run_memory a (stateBelow b d w) with ⟨e, hfailed, hsame⟩ | ⟨x, hdone, hnew⟩
      · rw [hfailed] at hvalue
        rw [hstate, hsame, hvalue, maker?, hp]
        rfl
      · rw [hdone] at hvalue
        rw [hstate, hnew, hvalue, maker?, hp]
        rfl
    · rw [publishAll_of_ne hp (by decide), hstate, Plugin.state_appenderSet]

mutual

theorem published_build (hb : b.Linked) (d : Declaration) (w : World) :
    ((build b d).run w).state.published =
      publishAll ((trials b d w).filterMap (maker? b)) w.published := by
  obtain ⟨typeName, attributes, children⟩ := d
  cases hp : b.lookup typeName with
  | none =>
    have hrun := run_build_of_none (d := ⟨typeName, attributes, children⟩) hp w
    rw [trials_of_none (d := ⟨typeName, attributes, children⟩) hp, hrun, List.filterMap_cons,
      maker?, hp]
    rfl
  | some p =>
    have hnested := published_after hb children w
    rw [published_own (d := ⟨typeName, attributes, children⟩) hb hp,
      trials_of_some (d := ⟨typeName, attributes, children⟩) hp, List.filterMap_append,
      publishAll_append, ← made, ← hnested, stateBelow, state_buildChildren,
      List.filterMap_cons]
    cases maker? b _ <;> rfl

theorem published_after (hb : b.Linked) (ds : List Declaration) (w : World) :
    (stateAfter b ds w).published = publishAll (made b ds w) w.published := by
  cases ds with
  | nil => rfl
  | cons d rest =>
    have hfirst := published_build hb d w
    have hrest := published_after hb rest ((build b d).run w).state
    rw [made, trialsAll, List.filterMap_append, publishAll_append, ← hfirst]
    exact hrest

end

end Published

/-! ## What is reported -/

section Contributed

variable {b : Binding World} {d : Declaration} {p : Plugin World}

theorem elementType_of_judge {σ : Type} {p : Plugin σ} {attempt : Attempt Component} {c : Component}
    (h : judge p attempt = .ok c) : c.elementType = p.elementType := by
  unfold judge at h
  split at h
  · contradiction
  · contradiction
  · split at h
    · rename_i htype
      exact Except.ok.inj h ▸ htype
    · contradiction

/-- The set of appenders takes all nested appenders, whatever else is nested. -/
theorem assembled_appenderSet (d : Declaration) (components : List Component) :
    assembled (Plugin.appenderSet (σ := World)) d components =
      .ok ((Arguments.empty "appenders").set "appenders"
        (.elements (ofType .appender components))) := rfl

theorem filterMap_ofType_appender (components : List Component) :
    (ofType .appender components).filterMap Component.asAppender? =
      components.filterMap Component.asAppender? := by
  rw [ofType, List.filterMap_filter]
  congr 1
  funext c
  cases c <;> rfl

/-- Appenders among results were built by plugins. -/
theorem filterMap_asAppender? (b : Binding World) (ds : List Declaration) (w : World) :
    ((results b ds w).filterMap fun t => t.2.toOption).filterMap Component.asAppender? =
      ((results b ds w).filterMap (maker? b)).map Prod.snd := by
  induction ds generalizing w with
  | nil => rfl
  | cons d rest ih =>
    rw [results, List.filterMap_cons, List.filterMap_cons]
    have hrest := ih ((build b d).run w).state
    cases hvalue : ((build b d).run w).value with
    | error e =>
      have hnone : maker? b (d, .error e) = none := by
        rw [maker?]
        cases b.lookup d.typeName <;> rfl
      rw [hnone]
      exact hrest
    | ok c =>
      obtain ⟨p, hp⟩ := exists_plugin hvalue
      cases c with
      | appender a =>
        have hmaker : maker? b (d, .ok (.appender a)) = some (p.name, a) := by
          rw [maker?, hp]
        rw [hmaker]
        exact congrArg (a :: ·) hrest
      | appenders m =>
        have hnone : maker? b (d, .ok (.appenders m)) = none := by rw [maker?, hp]
        rw [hnone]
        exact hrest
      | layout l =>
        have hnone : maker? b (d, .ok (.layout l)) = none := by rw [maker?, hp]
        rw [hnone]
        exact hrest

/-- A set holds the appenders directly nested in it. -/
theorem eq_collected (hb : b.Linked) {w : World} {m : AppenderMap}
    (h : ((build b d).run w).value = .ok (.appenders m)) :
    m = AppenderMap.collected (((results b d.children w).filterMap (maker? b)).map Prod.snd) := by
  obtain ⟨p, hp⟩ := exists_plugin h
  obtain ⟨hvalue, -⟩ := build_of_some hp w
  have hlinked := hb d.typeName p hp
  simp only [Plugin.linked, List.mem_cons, List.not_mem_nil, or_false] at hlinked
  rw [h] at hvalue
  cases hmade : assembled p d (nested b d w) with
  | error e =>
    rw [hmade] at hvalue
    contradiction
  | ok a =>
    rw [hmade] at hvalue
    dsimp only at hvalue
    have htype := elementType_of_judge hvalue.symm
    rcases hlinked with rfl | rfl | rfl | rfl
    · contradiction
    · contradiction
    · contradiction
    · rw [assembled_appenderSet] at hmade
      obtain rfl := Except.ok.inj hmade
      rw [Plugin.value_appenderSet] at hvalue
      have helements : ((Arguments.empty "appenders").set "appenders"
          (.elements (ofType .appender (nested b d w)))).elements "appenders" =
            ofType .appender (nested b d w) := rfl
      rw [Component.appenders.inj (Except.ok.inj hvalue), helements, filterMap_ofType_appender,
        nested, value_buildChildren, filterMap_asAppender?]

/-- The last appender of a name among those that a declaration at the top brings to the
report. -/
theorem last_contributedBy (hb : b.Linked) (d : Declaration) (w : World) (name : String) :
    (((((build b d).run w).value.toOption.map Component.contribution).getD []).filter
        (·.name = name)).getLast? =
      (((contributedBy b d w).map Prod.snd).filter (·.name = name)).getLast? := by
  rw [contributedBy]
  cases hvalue : ((build b d).run w).value with
  | error e =>
    dsimp only
    rw [maker?]
    cases b.lookup d.typeName <;> rfl
  | ok c =>
    obtain ⟨p, hp⟩ := exists_plugin hvalue
    cases c with
    | appender a =>
      dsimp only
      rw [maker?, hp]
      rfl
    | layout l =>
      dsimp only
      rw [maker?, hp]
      rfl
    | appenders m =>
      -- a set has one appender of each name already, the last one nested in it
      have hset := eq_collected hb hvalue
      have hnamed : m.Named := hset ▸ AppenderMap.named_collected _
      change (m.appenders.filter (·.name = name)).getLast? = _
      rw [hnamed.filter_appenders, ← AppenderMap.get?_collected, ← hset]
      cases m.get? name <;> rfl

theorem last_contributed (hb : b.Linked) (ds : List Declaration) (w : World) (name : String) :
    ((((results b ds w).filterMap fun t => t.2.toOption).flatMap Component.contribution).filter
        (·.name = name)).getLast? =
      (((contributed b ds w).map Prod.snd).filter (·.name = name)).getLast? := by
  induction ds generalizing w with
  | nil => rfl
  | cons d rest ih =>
    have hfirst := last_contributedBy hb d w name
    have hrest := ih ((build b d).run w).state
    have hsplit : ((results b (d :: rest) w).filterMap fun t => t.2.toOption).flatMap
        Component.contribution =
          (((build b d).run w).value.toOption.map Component.contribution).getD [] ++
            ((results b rest ((build b d).run w).state).filterMap fun t => t.2.toOption).flatMap
              Component.contribution := by
      rw [results, List.filterMap_cons]
      cases ((build b d).run w).value <;> rfl
    rw [hsplit, contributed, List.map_append, List.filter_append, List.filter_append,
      List.getLast?_append, List.getLast?_append, hfirst, hrest]

theorem contributed_sublist (b : Binding World) (ds : List Declaration) (w : World) :
    (contributed b ds w).Sublist (made b ds w) := by
  induction ds generalizing w with
  | nil => exact List.nil_sublist _
  | cons d rest ih =>
    rw [contributed, made, trialsAll, List.filterMap_append]
    refine List.Sublist.append ?_ (ih _)
    rw [contributedBy]
    split
    · rename_i m hvalue
      obtain ⟨p, hp⟩ := exists_plugin hvalue
      rw [trials_of_some hp, List.filterMap_append]
      exact ((results_sublist_trialsAll b d.children w).filterMap _).trans
        (List.sublist_append_left _ _)
    · have hself : (maker? b (d, ((build b d).run w).value)).toList =
          [(d, ((build b d).run w).value)].filterMap (maker? b) := by
        rw [List.filterMap_cons]
        cases maker? b (d, ((build b d).run w).value) <;> rfl
      rw [hself]
      exact (sublist_trials b d w).filterMap _

end Contributed

/-- With the linked plugins, the memory appender that is found under a name is the last one
of that name that was built, at whatever depth; the appender that the report has under a
name is the last one of that name that was contributed. If all memory appenders are
contributed, and no other contributed appender has the name of one, then every memory
appender of the report is found under its name, and all that are found are in the report. -/
theorem published_and_reported (w : World) (hnone : w.published = .empty)
    (ds : List Declaration) :
    let b := ((Registrations.standard.binding : Traced World (Binding World)).run w).value
    let o := (ComponentReport.build b ds).run w
    let built := memories (made b ds w)
    (∀ name, Appender.lookup o.state name = (built.filter (·.name = name)).getLast?) ∧
    (∀ name, o.value.appenders.get? name =
      (((contributed b ds w).map Prod.snd).filter (·.name = name)).getLast?) ∧
    (contributed b ds w).Sublist (made b ds w) ∧
    (memories (contributed b ds w) = built →
      (∀ x ∈ contributed b ds w, x.1 ≠ Plugin.memory.name → ∀ a ∈ built, x.2.name ≠ a.name) →
      (∀ a ∈ o.value.appenders.appenders, a ∈ built →
        Appender.lookup o.state a.name = some a) ∧
      ∀ name a, Appender.lookup o.state name = some a → a ∈ o.value.appenders.appenders) := by
  intro b o built
  have hb : b.Linked := fun typeName p hp => Binding.mem_of_lookup_ofList hp
  obtain ⟨happenders, -, hstate⟩ := ComponentReport.run_build b ds w
  have hlookup : ∀ name, Appender.lookup o.state name =
      (built.filter (·.name = name)).getLast? := by
    intro name
    rw [Appender.lookup, hstate, published_after hb, get?_publishAll, hnone]
    exact Option.or_none
  have hreport : ∀ name, o.value.appenders.get? name =
      (((contributed b ds w).map Prod.snd).filter (·.name = name)).getLast? := by
    intro name
    rw [happenders, AppenderMap.get?_collected, last_contributed hb]
  refine ⟨hlookup, hreport, contributed_sublist b ds w, fun hall hothers => ?_⟩
  have hsame : ∀ name, (∃ a ∈ built, a.name = name) →
      o.value.appenders.get? name = Appender.lookup o.state name := by
    rintro name ⟨a, ha, hname⟩
    have hmemories : ∀ x ∈ contributed b ds w, x.2.name = name → x.1 = Plugin.memory.name := by
      intro x hx hxname
      by_contra hother
      exact hothers x hx hother a ha (hxname.trans hname.symm)
    rw [hreport, hlookup, ← hall, memories, List.filter_map, List.filter_map, List.filter_filter]
    congr 2
    refine List.filter_congr fun x hx => ?_
    by_cases hxname : x.2.name = name
    · simp [hxname, hmemories x hx hxname]
    · simp [hxname]
  constructor
  · intro a ha hbuilt
    have hnamed : o.value.appenders.Named := happenders ▸ AppenderMap.named_collected _
    obtain ⟨name, hentry⟩ := AppenderMap.mem_appenders.1 ha
    obtain rfl : name = a.name := hnamed _ hentry
    rw [← hsame a.name ⟨a, hbuilt, rfl⟩]
    exact AppenderMap.get?_eq_some.2 hentry
  · intro name a hfound
    have hlast := hlookup name
    rw [hfound] at hlast
    obtain ⟨hbuilt, hname⟩ := List.mem_filter.1 (List.mem_of_getLast? hlast.symm)
    have hget := hsame name ⟨a, hbuilt, of_decide_eq_true hname⟩
    rw [hfound] at hget
    exact AppenderMap.mem_appenders.2 ⟨name, AppenderMap.get?_eq_some.1 hget⟩

/-- A memory appender that is nested in a console appender is ignored there, and takes the
place of the one of its name at the top all the same: what is found under the name is not
in the report, and what the report has is not found. -/
theorem ignored_memory_published :
    let w := World.initial 0 "main"
    let b := ((Registrations.standard.binding : Traced World (Binding World)).run w).value
    let memory : Declaration := ⟨"Memory", TextMap.empty.insert "name" "m", []⟩
    let ds := [memory, ⟨"Console", TextMap.empty.insert "name" "c", [memory]⟩]
    let o := (ComponentReport.build b ds).run w
    w.published = .empty ∧
      ¬(∀ a ∈ o.value.appenders.appenders, a ∈ memories (made b ds w) →
        Appender.lookup o.state a.name = some a) ∧
      ¬∀ name a, Appender.lookup o.state name = some a → a ∈ o.value.appenders.appenders := by
  intro w b memory ds o
  have hreport : o.value.appenders.appenders = [⟨0, "m", none⟩, ⟨2, "c", none⟩] := rfl
  have hbuilt : memories (made b ds w) = [⟨0, "m", none⟩, ⟨1, "m", none⟩] := by
    dsimp only [w, b, ds, memory]
    rfl
  have hfound : Appender.lookup o.state "m" = some ⟨1, "m", none⟩ := rfl
  refine ⟨rfl, fun hlookup => ?_, fun hmem => ?_⟩
  · have hfirst := hlookup ⟨0, "m", none⟩ (by simp [hreport]) (by simp [hbuilt])
    rw [hfound] at hfirst
    exact absurd (congrArg Appender.id (Option.some.inj hfirst)) (by decide)
  · have hignored := List.mem_map_of_mem (f := Appender.id) (hmem "m" _ hfound)
    rw [hreport] at hignored
    exact absurd hignored (by decide)

/-- A memory appender in a set, and a console appender beside the set. -/
theorem published_and_reported_set :
    let w := World.initial 0 "main"
    let b := ((Registrations.standard.binding : Traced World (Binding World)).run w).value
    let memory : Declaration := ⟨"Memory", TextMap.empty.insert "name" "m", []⟩
    let ds := [⟨"Appenders", .empty, [memory]⟩, ⟨"Console", TextMap.empty.insert "name" "c", []⟩]
    let o := (ComponentReport.build b ds).run w
    w.published = .empty ∧ memories (contributed b ds w) = memories (made b ds w) ∧
      Appender.lookup o.state "m" = some ⟨0, "m", none⟩ ∧
      ∀ name a, Appender.lookup o.state name = some a → a ∈ o.value.appenders.appenders := by
  intro w b memory ds o
  obtain ⟨-, -, -, hrestored⟩ := published_and_reported w rfl ds
  have hcontributed : contributed b ds w =
      [("Memory", ⟨0, "m", none⟩), ("Console", ⟨1, "c", none⟩)] := by
    dsimp only [w, b, ds, memory]
    rfl
  have hbuilt : memories (made b ds w) = [⟨0, "m", none⟩] := by
    dsimp only [w, b, ds, memory]
    rfl
  have hothers : ∀ x ∈ contributed b ds w, x.1 ≠ Plugin.memory.name →
      ∀ a ∈ memories (made b ds w), x.2.name ≠ a.name := by
    rw [hcontributed, hbuilt]
    decide
  have hall : memories (contributed b ds w) = memories (made b ds w) := by
    rw [hcontributed, hbuilt]
    rfl
  obtain ⟨hfound, hreported⟩ := hrestored hall hothers
  have hreport : o.value.appenders.appenders = [⟨0, "m", none⟩, ⟨1, "c", none⟩] := rfl
  exact ⟨rfl, hall, hfound ⟨0, "m", none⟩ (hreport ▸ List.mem_cons_self)
    (hbuilt ▸ List.mem_cons_self), hreported⟩

end Build
end LoggingFacade
