import LoggingFacade.Registrations
import LoggingFacade.Proofs.Appender.Memory
import LoggingFacade.Proofs.Plugin.Lookup
import LoggingFacade.Proofs.Plugin.Report

/-!
# What the linked plugins do

Only the factory of memory appenders publishes something, which is what it makes. The
factory of sets takes the appenders among its arguments, the last one of each name.
-/

namespace LoggingFacade

open Traced (Reports)

namespace Binding

/-- All plugins are those of the facade. -/
def Linked (b : Binding World) : Prop :=
  ∀ typeName p, b.lookup typeName = some p → p ∈ Plugin.linked

theorem mem_of_lookup_ofList {σ τ : Type} {plugins : List (Plugin σ)} {w : τ} {typeName : String}
    {p : Plugin σ} (h : ((ofList plugins).run w).value.lookup typeName = some p) :
    p ∈ plugins := by
  rw [lookup_ofList] at h
  exact List.mem_reverse.1 (List.mem_of_find?_eq_some h)

theorem state_ofList {σ τ : Type} (plugins : List (Plugin σ)) (w : τ) :
    ((ofList plugins).run w).state = w := by
  have hgo : ∀ b : Binding σ, ((ofList.go b plugins).run w).state = w := by
    induction plugins with
    | nil => exact fun b => rfl
    | cons p rest ih =>
      intro b
      rw [ofList.go]
      split <;> exact ih _
  exact hgo empty

end Binding

namespace Plugin

theorem state_xml (a : Arguments) (w : World) : ((xml.factory a).run w).state = w := rfl

theorem state_appenderSet (a : Arguments) (w : World) :
    ((appenderSet.factory a).run w).state = w :=
  congrArg Outcome.state (AppenderMap.run_collect _ w)

theorem value_appenderSet (a : Arguments) (w : World) :
    ((appenderSet.factory a).run w).value = .done (.appenders (AppenderMap.collected
      ((a.elements "appenders").filterMap Component.asAppender?))) :=
  congrArg (fun o : Outcome World AppenderMap => Attempt.done (Component.appenders o.value))
    (AppenderMap.run_collect _ w)

theorem factory_console (a : Arguments) : console.factory a =
    match consoleSettings a with
    | .error e => pure (.failed e)
    | .ok (name, target) => do
      return .done (.appender (← Appender.console name target (a.layout? "layout"))) := rfl

theorem factory_memory (a : Arguments) : memory.factory a =
    match a.requiredText "name" with
    | .error e => pure (.failed e)
    | .ok name => do
      return .done (.appender (← Appender.publishedMemory name (a.layout? "layout"))) := rfl

theorem published_console (a : Arguments) (w : World) :
    ((console.factory a).run w).state.published = w.published := by
  rw [factory_console]
  cases consoleSettings a with
  | error e => rfl
  | ok settings => rfl

/-- The factory of memory appenders publishes what it makes. -/
theorem run_memory (a : Arguments) (w : World) :
    (∃ e, ((memory.factory a).run w).value = .failed e ∧ ((memory.factory a).run w).state = w) ∨
      ∃ x, ((memory.factory a).run w).value = .done (.appender x) ∧
        ((memory.factory a).run w).state.published = w.published.insert x.name x := by
  rw [factory_memory]
  cases a.requiredText "name" with
  | error e => exact .inl ⟨e, rfl, rfl⟩
  | ok name =>
    exact .inr ⟨((Appender.publishedMemory name (a.layout? "layout")).run w).value, rfl,
      Appender.published_publishedMemory name _ w⟩

/-- The factories report appenders that take the place of others, and sets. -/
theorem reports_linked {P : Diagnostic → Prop}
    (hpublication : ∀ name, P (.publicationReplaced name))
    (hreplaced : ∀ name, P (.appenderReplaced name)) (hset : ∀ count, P (.appendersCollected count))
    {p : Plugin World} (hp : p ∈ linked) (a : Arguments) : Reports P (p.factory a) := by
  simp only [linked, List.mem_cons, List.not_mem_nil, or_false] at hp
  rcases hp with rfl | rfl | rfl | rfl
  · exact Traced.reports_pure _
  · rw [factory_console]
    cases consoleSettings a with
    | error e => exact Traced.reports_pure _
    | ok settings => exact Traced.reports_of_silent fun _ => rfl
  · rw [factory_memory]
    cases a.requiredText "name" with
    | error e => exact Traced.reports_pure _
    | ok name =>
      refine Traced.Reports.bind ?_ fun _ => Traced.reports_pure _
      refine Traced.reports_silent_bind (fun _ => rfl) fun _ => ?_
      apply Traced.reports_get_bind
      intro w
      refine Traced.reports_silent_bind (fun _ => rfl) fun _ => ?_
      split
      · exact Traced.reports_report_bind (hpublication _) (Traced.reports_pure _)
      · exact Traced.reports_pure _
  · refine Traced.Reports.bind (AppenderMap.reports_collect hreplaced _) fun map => ?_
    exact Traced.reports_report_bind (hset _) (Traced.reports_pure _)

end Plugin

end LoggingFacade
