import LoggingFacade.Plugin.Binding
import LoggingFacade.Proofs.Text.Letter
import LoggingFacade.Proofs.TextMap
import Mathlib.Data.List.Dedup

/-!
# Plugins found by name

Names are the same if they differ at most in the case of ASCII letters. A plugin is bound under
the lower case of its name, which is one key for all names that are the same; so a lookup finds
the last plugin of a name, and only the order of plugins of one name matters. Every plugin
either brings a new name or takes the place of another one, and is then reported.
-/

namespace LoggingFacade

open Text (SameLetters)

/-- The name is that of the plugin, in any case. -/
def Plugin.isNamed {σ : Type} (p : Plugin σ) (name : String) : Bool := SameLetters p.name name

namespace Binding

variable {σ τ : Type}

/-! ## One plugin after the other -/

theorem get?_add (b : Binding σ) (p : Plugin σ) (key : String) :
    (b.add p).plugins.get? key = if Text.lower p.name = key then some p else b.plugins.get? key := by
  rw [add, TextMap.get?_insert]
  simp only [eq_comm]

theorem size_add (b : Binding σ) (p : Plugin σ) :
    (b.add p).size = if (b.lookup p.name).isSome then b.size else b.size + 1 :=
  TextMap.length_put _ p b.plugins.ascending

theorem value_go (b : Binding σ) (plugins : List (Plugin σ)) (w : τ) :
    ((ofList.go b plugins).run w).value = plugins.foldl add b := by
  induction plugins generalizing b with
  | nil => rfl
  | cons p rest ih =>
    rw [ofList.go, List.foldl_cons, ← ih]
    split <;> rfl

theorem diagnostics_go_cons (b : Binding σ) (p : Plugin σ) (rest : List (Plugin σ)) (w : τ) :
    ((ofList.go b (p :: rest)).run w).diagnostics =
      (if (b.lookup p.name).isSome then [.pluginReplaced p.name] else []) ++
        ((ofList.go (b.add p) rest).run w).diagnostics := by
  rw [ofList.go]
  split <;> rfl

/-! ## All plugins -/

/-- Under a key stands the last plugin whose name it is in lower case. -/
theorem get?_foldl_add (b : Binding σ) (plugins : List (Plugin σ)) (key : String) :
    (plugins.foldl add b).plugins.get? key =
      (plugins.reverse.find? fun p => Text.lower p.name = key).or (b.plugins.get? key) := by
  induction plugins generalizing b with
  | nil => rfl
  | cons p rest ih =>
    rw [List.foldl_cons, ih, get?_add, List.reverse_cons, List.find?_append, Option.or_assoc]
    by_cases h : Text.lower p.name = key <;> simp [h]

theorem lookup_foldl_add (b : Binding σ) (plugins : List (Plugin σ)) (name : String) :
    (plugins.foldl add b).lookup name =
      (plugins.reverse.find? (·.isNamed name)).or (b.lookup name) := by
  unfold lookup
  rw [get?_foldl_add]
  simp only [Text.lower_eq_lower]
  rfl

theorem lookup_ofList (plugins : List (Plugin σ)) (w : τ) (name : String) :
    ((ofList plugins).run w).value.lookup name = plugins.reverse.find? (·.isNamed name) := by
  rw [ofList, value_go, lookup_foldl_add]
  exact Option.or_none

/-- Each plugin is reported or makes the binding larger. -/
theorem length_diagnostics_go (b : Binding σ) (plugins : List (Plugin σ)) (w : τ) :
    ((ofList.go b plugins).run w).diagnostics.length + (plugins.foldl add b).size =
      b.size + plugins.length := by
  induction plugins generalizing b with
  | nil => exact Nat.zero_add _
  | cons p rest ih =>
    have hrest := ih (b.add p)
    rw [size_add] at hrest
    rw [diagnostics_go_cons, List.length_append, List.foldl_cons, List.length_cons]
    split at hrest
    · rename_i hfound
      rw [if_pos hfound, List.length_singleton]
      omega
    · rename_i hfound
      rw [if_neg hfound, List.length_nil]
      omega

/-- What is reported is a plugin whose name was bound before. -/
theorem mem_diagnostics_go {b : Binding σ} {plugins : List (Plugin σ)} {w : τ} {d : Diagnostic}
    (h : d ∈ ((ofList.go b plugins).run w).diagnostics) :
    ∃ before p after, plugins = before ++ p :: after ∧ d = .pluginReplaced p.name ∧
      ((before.foldl add b).lookup p.name).isSome = true := by
  induction plugins generalizing b with
  | nil => contradiction
  | cons p rest ih =>
    rw [diagnostics_go_cons, List.mem_append] at h
    rcases h with hfirst | hlater
    · split at hfirst
      · rename_i hfound
        exact ⟨[], p, rest, rfl, List.mem_singleton.1 hfirst, hfound⟩
      · contradiction
    · obtain ⟨before, q, after, rfl, hd, hfound⟩ := ih hlater
      exact ⟨p :: before, q, after, rfl, hd, hfound⟩

theorem mem_diagnostics_ofList {plugins : List (Plugin σ)} {w : τ} {d : Diagnostic}
    (h : d ∈ ((ofList plugins).run w).diagnostics) :
    ∃ before p after, plugins = before ++ p :: after ∧ d = .pluginReplaced p.name ∧
      ∃ q ∈ before, SameLetters q.name p.name := by
  obtain ⟨before, p, after, hsplit, hd, hfound⟩ := mem_diagnostics_go h
  rw [lookup_foldl_add] at hfound
  obtain ⟨q, hq, hname⟩ := List.find?_isSome.1 (Option.or_none ▸ hfound)
  exact ⟨before, p, after, hsplit, hd, q, List.mem_reverse.1 hq, of_decide_eq_true hname⟩

theorem mem_keys_foldl_add (plugins : List (Plugin σ)) (key : String) :
    key ∈ (plugins.foldl add empty).plugins.entries.map (·.1) ↔
      key ∈ plugins.map fun p => Text.lower p.name := by
  have hnone : (plugins.foldl add empty).plugins.get? key = none ↔
      key ∉ plugins.map fun p => Text.lower p.name := by
    rw [get?_foldl_add, Option.or_eq_none_iff, List.find?_eq_none]
    simp [empty, TextMap.get?]
  rw [← not_iff_not, ← hnone, ← TextMap.lookup_eq_none]
  rfl

theorem size_ofList (plugins : List (Plugin σ)) (w : τ) :
    ((ofList plugins).run w).value.size =
      (plugins.map fun p => Text.lower p.name).dedup.length := by
  rw [ofList, value_go, size, ← List.length_map (·.1)]
  apply List.Perm.length_eq
  rw [List.perm_ext_iff_of_nodup (TextMap.nodup_keys _) (List.nodup_dedup _)]
  intro key
  rw [List.mem_dedup, mem_keys_foldl_add]

/-! ## Other orders -/

/-- The same plugins in another order. Only neighbours with different names change places, so
those of one name stay in their order. -/
inductive Rearranged : List (Plugin σ) → List (Plugin σ) → Prop
  | nil : Rearranged [] []
  | cons {l m : List (Plugin σ)} (p : Plugin σ) : Rearranged l m → Rearranged (p :: l) (p :: m)
  | swap {p q : Plugin σ} (l : List (Plugin σ)) : ¬SameLetters p.name q.name →
      Rearranged (p :: q :: l) (q :: p :: l)
  | trans {l m n : List (Plugin σ)} : Rearranged l m → Rearranged m n → Rearranged l n

/-- At most one of two plugins with different names has the name that is looked for. -/
theorem Rearranged.find?_reverse {l m : List (Plugin σ)} (h : Rearranged l m) (name : String) :
    l.reverse.find? (·.isNamed name) = m.reverse.find? (·.isNamed name) := by
  induction h with
  | nil => rfl
  | cons p _ ih => rw [List.reverse_cons, List.find?_append, ih, List.reverse_cons, List.find?_append]
  | @swap p q l hne =>
    have hone : ¬(p.isNamed name = true ∧ q.isNamed name = true) := by
      rintro ⟨hp, hq⟩
      rw [Plugin.isNamed, decide_eq_true_eq, ← Text.lower_eq_lower] at hp hq
      exact hne ((Text.lower_eq_lower _ _).1 (hp.trans hq.symm))
    simp only [List.reverse_cons, List.append_assoc, List.find?_append, List.singleton_append]
    congr 1
    simp only [List.find?_cons, List.find?_nil]
    cases hp : p.isNamed name <;> cases hq : q.isNamed name <;> simp_all
  | trans _ _ ihl ihm => rw [ihl, ihm]

theorem rearranged_of_perm {l m : List (Plugin σ)} (hperm : l.Perm m)
    (h : l.Pairwise fun p q => ¬SameLetters p.name q.name) : Rearranged l m := by
  induction hperm with
  | nil => exact .nil
  | cons p _ ih => exact .cons p (ih h.of_cons)
  | swap p q l => exact .swap l ((List.pairwise_cons.1 h).1 p List.mem_cons_self)
  | trans hlm _ ihl ihm =>
    refine .trans (ihl h) (ihm ((hlm.pairwise_iff ?_).1 h))
    intro p q hne heq
    rw [← Text.lower_eq_lower] at hne heq
    exact hne heq.symm

/-- Plugins are found by their names in any case of the ASCII letters: a lookup gives the last
plugin of the list that has the name, or none if no plugin has it. There is one plugin for each
name, a report for every other one, and each report is about a plugin whose name an earlier
one has. So the case of the name that is looked up does not matter, nor does the order of
plugins with different names. -/
theorem lookup_finds_last (plugins : List (Plugin σ)) (w : τ) :
    let bound := (ofList plugins).run w
    (∀ name, bound.value.lookup name =
      plugins.reverse.find? fun p => SameLetters p.name name) ∧
    bound.value.size = (plugins.map fun p => Text.lower p.name).dedup.length ∧
    (∀ a b, Text.lower a = Text.lower b ↔ SameLetters a b) ∧
    bound.diagnostics.length + bound.value.size = plugins.length ∧
    (∀ d ∈ bound.diagnostics, ∃ before p after, plugins = before ++ p :: after ∧
      d = .pluginReplaced p.name ∧ ∃ q ∈ before, SameLetters q.name p.name) ∧
    (∀ a b, SameLetters a b → bound.value.lookup a = bound.value.lookup b) ∧
    (∀ others, Rearranged plugins others → ∀ (v : τ) name,
      ((ofList others).run v).value.lookup name = bound.value.lookup name) ∧
    (plugins.Pairwise (fun p q => ¬SameLetters p.name q.name) → ∀ others, plugins.Perm others →
      ∀ (v : τ) name, ((ofList others).run v).value.lookup name = bound.value.lookup name) := by
  intro bound
  have hrearranged : ∀ others, Rearranged plugins others → ∀ (v : τ) name,
      ((ofList others).run v).value.lookup name = bound.value.lookup name := by
    intro others hothers v name
    rw [lookup_ofList, lookup_ofList, hothers.find?_reverse]
  refine ⟨lookup_ofList plugins w, size_ofList plugins w, Text.lower_eq_lower, ?_,
    fun d hd => mem_diagnostics_ofList hd, ?_, hrearranged, ?_⟩
  · have hcount := length_diagnostics_go empty plugins w
    rw [← value_go empty plugins w] at hcount
    exact hcount.trans (Nat.zero_add _)
  · intro a b hab
    rw [lookup, lookup, (Text.lower_eq_lower a b).2 hab]
  · intro hdifferent others hperm
    exact hrearranged others (rearranged_of_perm hperm hdifferent)

/-- Two cases of one name, and two names that differ in the case of a letter beyond ASCII. -/
theorem lookup_finds_last_umlaut :
    let plugin (name : String) : Plugin Unit := ⟨name, .layout, "", [], fun _ => return .crashed⟩
    let bound (plugins : List (Plugin Unit)) := ((ofList plugins).run ()).value
    let given := [plugin "Box", plugin "HÖHE", plugin "BOX"]
    let moved := [plugin "HÖHE", plugin "Box", plugin "BOX"]
    let small := [plugin "höhe", plugin "HÖHE"]
    (SameLetters "bOx" "box" ∧ (bound given).lookup "bOx" = (bound given).lookup "box") ∧
      (bound given).lookup "box" = some (plugin "BOX") ∧ (bound given).size = 2 ∧
      (Rearranged given moved ∧ (bound moved).lookup "box" = (bound given).lookup "box") ∧
      small.Pairwise (fun p q => ¬SameLetters p.name q.name) ∧ small.Perm small.reverse ∧
      (bound small.reverse).lookup "höhe" = (bound small).lookup "höhe" := by
  intro plugin bound given moved small
  have hsame : SameLetters "bOx" "box" := by decide
  have hmoved : Rearranged given moved := .swap _ (by decide)
  have hdifferent : small.Pairwise (fun p q => ¬SameLetters p.name q.name) := by decide
  have hperm : small.Perm small.reverse := small.reverse_perm.symm
  obtain ⟨hlookup, hsize, -, -, -, hcase, horder, -⟩ := lookup_finds_last given ()
  obtain ⟨-, -, -, -, -, -, -, hany⟩ := lookup_finds_last small ()
  refine ⟨⟨hsame, hcase _ _ hsame⟩, ?_, ?_, ⟨hmoved, horder moved hmoved () "box"⟩, hdifferent,
    hperm, hany hdifferent _ hperm () "höhe"⟩
  · rw [hlookup]
    exact List.find?_cons_of_pos (by decide)
  · exact hsize.trans (by decide)

end Binding
end LoggingFacade
