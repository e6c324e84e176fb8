import LoggingFacade.Provider.Registry
import Mathlib.Data.List.Basic

/-!
# Usable sources

What a source has to be to yield a descriptor: its record is trusted, and the
catalog makes a backend of the class that it names. Loading a source finds
exactly this descriptor.
-/

namespace LoggingFacade

/-- What a descriptor repeats of its record. -/
def Descriptor.claim {β : Type} (d : Descriptor β) : Claim :=
  ⟨d.className, d.apiVersion, d.priority, d.source⟩

namespace Source

/-- The record of a source can be read, is made for an accepted version, names a
class and has a valid priority. -/
def Claims (s : Source) (c : Claim) : Prop :=
  c.source = s.id ∧ ∃ text m, s.read = .ok text ∧ Metadata.read s.id text = .ok m ∧
    m.apiVersion = some c.apiVersion ∧ Provider.isCompatible m.apiVersion = true ∧
    m.factory = some c.className ∧ m.priority s.id = .ok c.priority

/-- The record claims what the descriptor says, and its backend is the answer
for the class. -/
def Yields {γ : Type} (answer : String → String → Option γ) (s : Source) (d : Descriptor γ) :
    Prop :=
  s.Claims d.claim ∧ answer d.className d.source = some d.backend

def Usable {γ : Type} (answer : String → String → Option γ) (s : Source) : Prop :=
  ∃ d, s.Yields answer d

theorem judge_eq_trusted {source : String} {m : Metadata} {c : Claim} :
    judge source m = .trusted c ↔ c.source = source ∧ m.apiVersion = some c.apiVersion ∧
      Provider.isCompatible m.apiVersion = true ∧ m.factory = some c.className ∧
      m.priority source = .ok c.priority := by
  obtain ⟨className, version, priority, id⟩ := c
  rw [judge]
  cases hcompatible : Provider.isCompatible m.apiVersion with
  | false => simp
  | true =>
    obtain ⟨declared, hdeclared⟩ : ∃ declared, m.apiVersion = some declared := by
      cases hversion : m.apiVersion with
      | none => simp [hversion, Provider.isCompatible] at hcompatible
      | some declared => exact ⟨declared, rfl⟩
    cases hfactory : m.factory with
    | none => simp
    | some name =>
      cases hpriority : m.priority source with
      | error e => simp
      | ok p =>
        simp [hdeclared]
        grind

theorem examine_eq_trusted {s : Source} {c : Claim} : s.examine = .trusted c ↔ s.Claims c := by
  rw [examine, Claims]
  cases hread : s.read with
  | error e => simp
  | ok text =>
    cases hrecord : Metadata.read s.id text with
    | error e => simp [hrecord]
    | ok m => simp [hrecord, judge_eq_trusted]

/-- A source with a trusted record yields what the record says, if there is a backend. -/
theorem yields_iff_of_trusted {γ : Type} {answer : String → String → Option γ} {s : Source}
    {c : Claim} (h : s.examine = .trusted c) (d : Descriptor γ) :
    s.Yields answer d ↔ d.claim = c ∧ answer c.className c.source = some d.backend := by
  rw [Yields, ← examine_eq_trusted, h, Examination.trusted.injEq]
  constructor
  · rintro ⟨rfl, hanswer⟩
    exact ⟨rfl, hanswer⟩
  · rintro ⟨rfl, hanswer⟩
    exact ⟨rfl, hanswer⟩

theorem Yields.claim_eq {γ : Type} {answer : String → String → Option γ} {s : Source}
    {d : Descriptor γ} {c : Claim} (hyields : s.Yields answer d) (h : s.examine = .trusted c) :
    d.claim = c :=
  ((yields_iff_of_trusted h d).1 hyields).1

theorem not_usable_of_passedOver {γ : Type} {answer : String → String → Option γ} {s : Source}
    {reason : Diagnostic} (h : s.examine = .passedOver reason) : ¬s.Usable answer := by
  rintro ⟨d, hclaims, -⟩
  rw [← examine_eq_trusted, h] at hclaims
  contradiction

end Source

/-- What an attempt came to, unless it failed or ended abruptly. -/
def Attempt.done? {α : Type} : Attempt α → Option α
  | done a => some a
  | failed _ => none
  | crashed => none

/-- The backend that a catalog makes of a class in a state, if it makes one. -/
def Catalog.made? {σ β : Type} (c : Catalog σ β) (w : σ) (className source : String) : Option β :=
  ((c.instantiate className source).run w).value.done?

namespace Registry

variable {σ β : Type} (r : Registry σ β)

theorem value_instantiate (className source : String) (w : σ) (backend : β) :
    ((r.instantiate className source).run w).value = .ok backend ↔
      r.catalog.made? w className source = some backend := by
  rw [instantiate, Traced.value_bind, Traced.value_pure, Catalog.made?]
  cases ((r.catalog.instantiate className source).run w).value <;> simp [Attempt.done?]

theorem value_fulfil (c : Claim) (w : σ) (d : Descriptor β) :
    ((r.fulfil c).run w).value = .ok d ↔
      d.claim = c ∧ r.catalog.made? w c.className c.source = some d.backend := by
  obtain ⟨backend, className, version, priority, source⟩ := d
  rw [← value_instantiate, fulfil, Traced.value_bind]
  cases ((r.instantiate c.className c.source).run w).value with
  | error e => simp
  | ok made =>
    obtain ⟨_, _, _, _⟩ := c
    simp [Descriptor.claim]
    grind

/-- Loading a source finds the descriptor that it yields. -/
theorem value_load (s : Source) (w : σ) (d : Descriptor β) :
    ((r.load s).run w).value = some d ↔ s.Yields (r.catalog.made? w) d := by
  rw [Source.Yields, ← Source.examine_eq_trusted, load]
  cases s.examine with
  | broken e => simp only [Traced.value_bind, Traced.value_pure, reduceCtorEq, false_and]
  | passedOver reason => simp only [Traced.value_bind, Traced.value_pure, reduceCtorEq, false_and]
  | trusted c =>
    have hmade : (Examination.trusted c = .trusted d.claim ∧
        r.catalog.made? w d.className d.source = some d.backend) ↔
        ((r.fulfil c).run w).value = .ok d := by
      rw [value_fulfil, Examination.trusted.injEq]
      constructor
      · rintro ⟨rfl, hbackend⟩
        exact ⟨rfl, hbackend⟩
      · rintro ⟨rfl, hbackend⟩
        exact ⟨rfl, hbackend⟩
    rw [hmade, Traced.value_bind]
    cases ((r.fulfil c).run w).value with
    | ok found => simp
    | error e => simp only [Traced.value_bind, Traced.value_pure, reduceCtorEq]

end Registry
end LoggingFacade
