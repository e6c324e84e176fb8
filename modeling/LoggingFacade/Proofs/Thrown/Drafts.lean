import LoggingFacade.Thrown
import Mathlib.Data.List.Basic

/-!
# What is left of a draft

Wherever in its chain an error fails, and however it fails, nothing is left of
what was written before: a chain is finished exactly if each of its elements
is, and then it is their texts. So the lines of an error follow from what its
elements show, in a fixed order of preference.
-/

namespace LoggingFacade

/-- Nothing is kept of a rendering that did not come to its end. -/
def Rendering.result? (r : Rendering) : Option String :=
  match r.mode with
  | .whole => some r.text
  | _ => none

theorem Draft.finished?_andThen (d : Draft) (write : String → Draft) :
    (d.andThen write).finished? = d.finished?.bind fun text => (write text).finished? := by
  obtain ⟨text, ending⟩ := d
  cases ending <;> rfl

theorem Rendering.finished?_writeTo (r : Rendering) (before : String) :
    (r.writeTo before).finished? = r.result?.map (before ++ ·) := by
  obtain ⟨text, mode⟩ := r
  cases mode <;> rfl

theorem Rendering.result?_eq (r : Rendering) :
    r.result? = if r.mode = .whole then some r.text else none := by
  obtain ⟨text, mode⟩ := r
  cases mode <;> rfl

namespace Thrown

/-- The texts of the causes, each announced on a line of its own. -/
def causesText? : List Rendering → Option String
  | [] => some ""
  | cause :: more => do
    let text ← cause.result?
    let rest ← causesText? more
    return "\nCaused by: " ++ text ++ rest

/-- The text of the whole chain, if every element shows itself. -/
def chainText? (t : Thrown) : Option String := do
  let text ← t.display.result?
  let rest ← causesText? t.causes
  return text ++ rest

theorem finished?_writeCauses (causes : List Rendering) (before : String) :
    (writeCauses causes before).finished? = (causesText? causes).map (before ++ ·) := by
  induction causes generalizing before with
  | nil => simp [writeCauses, causesText?, Draft.finished?]
  | cons cause more ih =>
    rw [writeCauses, Draft.finished?_andThen, Rendering.finished?_writeTo, causesText?]
    cases cause.result? with
    | none => rfl
    | some text =>
      simp only [Option.map_some, Option.bind_some, ih, Option.bind_eq_bind]
      cases causesText? more with
      | none => rfl
      | some rest => simp [String.append_assoc]

theorem finished?_draft (t : Thrown) : t.draft.finished? = t.chainText? := by
  rw [draft, Draft.finished?_andThen, Rendering.finished?_writeTo, chainText?]
  cases t.display.result? with
  | none => rfl
  | some text =>
    simp only [Option.map_some, Option.bind_some, finished?_writeCauses, String.empty_append]
    cases causesText? t.causes <;> rfl

theorem lines_eq (t : Thrown) : t.lines =
    match t.chainText? with
    | some text => Text.lines text
    | none => [t.debug.result?.getD placeholder] := by
  rw [lines, finished?_draft, Rendering.finished?_writeTo]
  cases t.chainText? with
  | none => simp
  | some text => rfl

/-! ## What the elements show -/

/-- The elements in the order in which they are written. -/
def chain (t : Thrown) : List Rendering := t.display :: t.causes

/-- Every element of the chain shows itself. -/
def Shown (t : Thrown) : Prop := ∀ r ∈ t.chain, r.mode = .whole

instance (t : Thrown) : Decidable t.Shown :=
  inferInstanceAs (Decidable (∀ r ∈ t.chain, r.mode = .whole))

/-- The texts of the chain, whether or not they are shown. -/
def fullText (t : Thrown) : String :=
  t.display.text ++ String.join (t.causes.map fun cause => "\nCaused by: " ++ cause.text)

/-- What stands for an error that does not show its chain. -/
def fallback (t : Thrown) : String :=
  if t.debug.mode = .whole then t.debug.text else placeholder

/-- Two texts make one exactly if both are shown. -/
theorem join_shown {p q : Prop} [Decidable p] [Decidable q] (join : String → String → String)
    (a b : String) :
    (do
      let text ← (if p then some a else none)
      let rest ← (if q then some b else none)
      return join text rest) = if p ∧ q then some (join a b) else none := by
  by_cases hp : p
  · by_cases hq : q
    · simp [hp, hq]
    · simp [hp, hq]
  · simp [hp]

theorem causesText?_eq (causes : List Rendering) : causesText? causes =
    if ∀ r ∈ causes, r.mode = .whole then
      some (String.join (causes.map fun cause => "\nCaused by: " ++ cause.text))
    else none := by
  induction causes with
  | nil => simp [causesText?]
  | cons cause more ih =>
    rw [causesText?, Rendering.result?_eq, ih]
    simp only [List.forall_mem_cons, List.map_cons, String.join_cons]
    exact join_shown (p := cause.mode = .whole) (q := ∀ r ∈ more, r.mode = .whole)
      (fun text rest => "\nCaused by: " ++ text ++ rest) _ _

theorem chainText?_eq (t : Thrown) : t.chainText? = if t.Shown then some t.fullText else none := by
  rw [chainText?, Rendering.result?_eq, causesText?_eq]
  simp only [Shown, chain, fullText, List.forall_mem_cons]
  exact join_shown (p := t.display.mode = .whole) (q := ∀ r ∈ t.causes, r.mode = .whole)
    (· ++ ·) _ _

theorem lines_of_shown {t : Thrown} (h : t.Shown) : t.lines = Text.lines t.fullText := by
  rw [lines_eq, chainText?_eq, if_pos h]

theorem lines_of_not_shown {t : Thrown} (h : ¬t.Shown) : t.lines = [t.fallback] := by
  have hfallback : t.debug.result?.getD placeholder = t.fallback := by
    rw [Rendering.result?_eq, fallback]
    split <;> rfl
  rw [lines_eq, chainText?_eq, if_neg h, ← hfallback]

end Thrown
end LoggingFacade
