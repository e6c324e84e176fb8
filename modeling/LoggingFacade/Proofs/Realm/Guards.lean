import LoggingFacade.Backend.Routing
import Mathlib.Data.List.Induction

/-!
# Guards of realms

A thread enters realms and drops the guards that it was given, in any order. A guard puts
back the realm in which it was taken, whatever happened since. So as long as each guard is
dropped before the older ones, the realm is that of the latest guard alive, and that of the
start without one; dropped in another order, guards leave the thread in a realm that none
of them is alive for.
-/

namespace LoggingFacade
namespace Realm

inductive Move where
  | enter (realm : Realm)
  /-- Drops the guard at a place among those alive; the one taken last is at place 0. -/
  | leave (place : Nat)
  deriving DecidableEq

namespace Move

def isEnter : Move → Bool
  | enter _ => true
  | leave _ => false

end Move

/-- A guard with the realm it was taken for, and the number of those taken before it. -/
structure Stay where
  number : Nat
  realm : Realm
  guard : Guard

/-- A thread and its guards that are alive, the latest first. -/
structure Thread where
  world : World
  taken : Nat
  alive : List Stay

namespace Thread

def begin (w : World) : Thread := ⟨w, 0, []⟩

/-- A guard that is not alive cannot be dropped. -/
def step? (t : Thread) : Move → Option Thread
  | .enter realm =>
    let o := (World.enterRealm realm).run t.world
    some ⟨o.state, t.taken + 1, ⟨t.taken, realm, o.value⟩ :: t.alive⟩
  | .leave place => do
    let stay ← t.alive[place]?
    return ⟨((World.leaveRealm stay.guard).run t.world).state, t.taken, t.alive.eraseIdx place⟩

def run? (t : Thread) (moves : List Move) : Option Thread := moves.foldlM step? t

variable {w : World} {t u : Thread} {moves : List Move} {m : Move}

theorem run?_concat : t.run? (moves ++ [m]) = (t.run? moves).bind fun u => u.step? m := by
  simp [run?, List.foldlM_append]

theorem run?_concat_eq_some (h : t.run? (moves ++ [m]) = some u) :
    ∃ v, t.run? moves = some v ∧ v.step? m = some u := by
  rw [run?_concat] at h
  exact Option.bind_eq_some_iff.1 h

/-! ## What a move does -/

theorem step?_enter {realm : Realm} (h : t.step? (.enter realm) = some u) :
    u.world.realm = some realm ∧ u.taken = t.taken + 1 ∧
      u.alive = ⟨t.taken, realm, ⟨t.world.realm⟩⟩ :: t.alive := by
  cases h
  exact ⟨rfl, rfl, rfl⟩

theorem step?_leave {place : Nat} (h : t.step? (.leave place) = some u) :
    ∃ stay, t.alive[place]? = some stay ∧ u.world.realm = stay.guard.previous ∧
      u.taken = t.taken ∧ u.alive = t.alive.eraseIdx place := by
  obtain ⟨stay, hstay, hu⟩ := Option.bind_eq_some_iff.1 h
  cases hu
  exact ⟨stay, hstay, rfl, rfl, rfl⟩

/-! ## Where guards were taken -/

/-- The guard was taken by one of the moves, and restores the realm in front of it. -/
def TakenIn (w : World) (moves : List Move) (stay : Stay) : Prop :=
  ∃ first rest v, moves = first ++ .enter stay.realm :: rest ∧
    first.countP Move.isEnter = stay.number ∧ (begin w).run? first = some v ∧
    stay.guard.previous = v.world.realm

theorem TakenIn.concat {stay : Stay} (h : TakenIn w moves stay) (m : Move) :
    TakenIn w (moves ++ [m]) stay := by
  obtain ⟨first, rest, v, rfl, hnumber, hv, hprevious⟩ := h
  exact ⟨first, rest ++ [m], v, by simp, hnumber, hv, hprevious⟩

theorem taken_eq_countP (h : (begin w).run? moves = some t) :
    t.taken = moves.countP Move.isEnter := by
  induction moves using List.reverseRecOn generalizing t with
  | nil =>
    cases h
    rfl
  | append_singleton moves m ih =>
    obtain ⟨u, hu, hstep⟩ := run?_concat_eq_some h
    rw [List.countP_append, ← ih hu]
    cases m with
    | enter realm => exact (step?_enter hstep).2.1
    | leave place =>
      obtain ⟨stay, -, -, htaken, -⟩ := step?_leave hstep
      exact htaken

theorem takenIn_of_mem_alive (h : (begin w).run? moves = some t) {stay : Stay}
    (hstay : stay ∈ t.alive) : TakenIn w moves stay := by
  induction moves using List.reverseRecOn generalizing t with
  | nil =>
    cases h
    contradiction
  | append_singleton moves m ih =>
    obtain ⟨u, hu, hstep⟩ := run?_concat_eq_some h
    cases m with
    | enter realm =>
      obtain ⟨-, -, halive⟩ := step?_enter hstep
      rw [halive] at hstay
      rcases List.mem_cons.1 hstay with rfl | hstay
      · exact ⟨moves, [], u, rfl, (taken_eq_countP hu).symm, hu, rfl⟩
      · exact (ih hu hstay).concat _
    | leave place =>
      obtain ⟨dropped, -, -, -, halive⟩ := step?_leave hstep
      rw [halive] at hstay
      exact (ih hu (List.mem_of_mem_eraseIdx hstay)).concat _

/-! ## Guards that are dropped in order -/

/-- Only the latest guard alive is ever dropped. -/
def InOrder (moves : List Move) : Prop := ∀ place, .leave place ∈ moves → place = 0

/-- The realm of the latest guard; that of the start without one. -/
def innermost (start : Option Realm) (alive : List Stay) : Option Realm :=
  (alive.head?.map Stay.realm).or start

/-- Each guard restores the realm of the one before it. -/
def Nested (start : Option Realm) : List Stay → Prop
  | [] => True
  | stay :: rest => stay.guard.previous = innermost start rest ∧ Nested start rest

theorem nested_of_inOrder (h : (begin w).run? moves = some t) (horder : InOrder moves) :
    Nested w.realm t.alive ∧ t.world.realm = innermost w.realm t.alive := by
  induction moves using List.reverseRecOn generalizing t with
  | nil =>
    cases h
    exact ⟨trivial, rfl⟩
  | append_singleton moves m ih =>
    obtain ⟨u, hu, hstep⟩ := run?_concat_eq_some h
    obtain ⟨hnested, hrealm⟩ := ih hu fun place hplace =>
      horder place (List.mem_append_left _ hplace)
    cases m with
    | enter realm =>
      obtain ⟨hentered, -, halive⟩ := step?_enter hstep
      rw [halive, hentered]
      exact ⟨⟨hrealm, hnested⟩, rfl⟩
    | leave place =>
      have hplace : place = 0 := horder place (by simp)
      obtain ⟨stay, hstay, hleft, -, halive⟩ := step?_leave hstep
      subst hplace
      cases hu : u.alive with
      | nil => simp [hu] at hstay
      | cons latest rest =>
        have hlatest : latest = stay := by simpa [hu] using hstay
        subst hlatest
        rw [hu] at hnested halive
        rw [halive, hleft]
        exact ⟨hnested.2, hnested.1⟩

/-- To enter a realm makes it the current one, and to drop a guard makes the one current
again in which that guard was taken. If guards are dropped in order, the realm is at all
times that of the latest guard alive, and in the end, when none is, that of the start. -/
theorem guards_restore_realm (h : (begin w).run? moves = some t) :
    (∀ before realm, moves = before ++ [.enter realm] → t.world.realm = some realm) ∧
    (∀ before place, moves = before ++ [.leave place] → ∃ u stay,
      (begin w).run? before = some u ∧ u.alive[place]? = some stay ∧
      ∃ first rest v, before = first ++ .enter stay.realm :: rest ∧
        first.countP Move.isEnter = stay.number ∧ (begin w).run? first = some v ∧
        t.world.realm = v.world.realm) ∧
    (InOrder moves → t.world.realm = (t.alive.head?.map Stay.realm).or w.realm) := by
  refine ⟨?_, ?_, fun horder => (nested_of_inOrder h horder).2⟩
  · rintro before realm rfl
    obtain ⟨u, -, hstep⟩ := run?_concat_eq_some h
    exact (step?_enter hstep).1
  · rintro before place rfl
    obtain ⟨u, hu, hstep⟩ := run?_concat_eq_some h
    obtain ⟨stay, hstay, hleft, -, -⟩ := step?_leave hstep
    obtain ⟨first, rest, v, hbefore, hnumber, hv, hprevious⟩ :=
      takenIn_of_mem_alive hu (List.mem_of_getElem? hstay)
    exact ⟨u, stay, hu, hstay, first, rest, v, hbefore, hnumber, hv, hleft.trans hprevious⟩

/-- Two guards on top of each other, then one more in the outer realm. -/
theorem guards_restore_realm_nested :
    let w := World.initial 0 "main"
    let moves : List Move := [.enter "a", .enter "b", .leave 0, .enter "c", .leave 0, .leave 0]
    InOrder moves ∧ ∃ t, (begin w).run? moves = some t ∧ t.alive = [] ∧
      t.world.realm = w.realm := by
  intro w moves
  have horder : InOrder moves := by simp [InOrder, moves]
  have hrun : (begin w).run? moves = some _ := rfl
  obtain ⟨-, -, hrealm⟩ := guards_restore_realm hrun
  exact ⟨horder, _, hrun, rfl, hrealm horder⟩

/-- The guard of the outer realm is dropped first: the thread is in no realm while the
inner guard is alive, and in the outer one when none is, as are the contexts it asks for. -/
theorem guards_out_of_order :
    let w := World.initial 0 "main"
    let moves : List Move := [.enter "a", .enter "b", .leave 1, .leave 0]
    ∃ u t, (begin w).run? (moves.take 3) = some u ∧ (begin w).run? moves = some t ∧
      u.alive.map Stay.realm = ["b"] ∧ u.world.realm = none ∧
      t.alive = [] ∧ t.world.realm = some "a" ∧ t.world.realm ≠ w.realm ∧
      Backend.requestedRealm t.world none = "a" ∧
      Backend.requestedRealm w none = Realm.default :=
  ⟨_, _, rfl, rfl, rfl, rfl, rfl, rfl, by decide, rfl, rfl⟩

end Thread
end Realm
end LoggingFacade
