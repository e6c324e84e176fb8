import LoggingFacade.Proofs.Appender.Separate
import Mathlib.Data.List.Induction

/-!
# Published memory appenders

Memory appenders are made, published or not, given events, stopped and looked up, in any
order. Under a name that appender is found which was published last of that name, unless it
was stopped since then. Stopping an appender ends no publication but its own: another one of
its name stays published, whether it took the place of the stopped one or the stopped one
was never published at all.
-/

namespace LoggingFacade
namespace Appender

/-! ## Calls -/

/-- A call to memory appenders, which go by the order in which they were made. -/
inductive MemoryCall where
  | make (published : Bool) (name : String) (layout : Option Layout)
  | append (place : Nat) (e : Event)
  | stop (place : Nat)
  | find (name : String)

namespace MemoryCall

def isMake : MemoryCall → Bool
  | make .. => true
  | _ => false

def isFind : MemoryCall → Bool
  | find _ => true
  | _ => false

/-- The call publishes an appender under the name. -/
def publishes (name : String) : MemoryCall → Bool
  | make published own _ => published && decide (own = name)
  | _ => false

/-- The call stops the appender at the place. -/
def stops (place : Nat) : MemoryCall → Bool
  | stop other => decide (other = place)
  | _ => false

/-- The events that the call gives to the appender at the place. -/
def given (place : Nat) : MemoryCall → List Event
  | append other e => if other = place then [e] else []
  | _ => []

/-- The events that are given to an appender before it is stopped. -/
def taken (place : Nat) (calls : List MemoryCall) : List Event :=
  (calls.takeWhile fun c => !c.stops place).flatMap (given place)

/-- What the call does to the frame of the appender at the place. -/
def reframe (place : Nat) (a : Appender) (f : Frame Buffer) : MemoryCall → Frame Buffer
  | append other e => if other = place then a.appendedFrame e f else f
  | stop other => if other = place then a.stoppedFrame f else f
  | _ => f

/-- The appender that the call makes, by its identity. -/
def product (id : Nat) : MemoryCall → List Appender
  | make _ name layout => [⟨id, name, layout⟩]
  | _ => []

/-- What the call finds. -/
def answer (w : World) : MemoryCall → List (Option Appender)
  | find name => [lookup w name]
  | _ => []

/-- The appender at the place was published under the name, after all others of that name, and
not stopped since then. -/
def Stands (calls : List MemoryCall) (name : String) (place : Nat) : Prop :=
  ∃ before layout after, calls = before ++ make true name layout :: after ∧
    before.countP isMake = place ∧
    ∀ c ∈ after, c.publishes name = false ∧ c.stops place = false

variable {calls : List MemoryCall} {c : MemoryCall} {name : String} {place : Nat}
  {a : Appender}

theorem length_product (id : Nat) (c : MemoryCall) :
    (c.product id).length = [c].countP isMake := by
  cases c <;> rfl

theorem length_answer (w : World) (c : MemoryCall) :
    (c.answer w).length = [c].countP isFind := by
  cases c <;> rfl

theorem id_of_mem_product {id : Nat} (h : a ∈ c.product id) : a.id = id := by
  cases c with
  | make published name layout => rw [List.mem_singleton.1 h]
  | _ => contradiction

theorem nodup_product (c : MemoryCall) (id : Nat) : ((c.product id).map Appender.id).Nodup := by
  cases c <;> simp [product]

theorem publishes_iff : c.publishes name = true ↔ ∃ layout, c = make true name layout := by
  cases c <;> simp [publishes]

theorem not_stands_nil : ¬Stands [] name place := by
  rintro ⟨before, layout, after, heq, -⟩
  simp at heq

theorem stands_concat : Stands (calls ++ [c]) name place ↔
    (c.publishes name = true ∧ calls.countP isMake = place) ∨
      (Stands calls name place ∧ c.publishes name = false ∧ c.stops place = false) := by
  constructor
  · rintro ⟨before, layout, after, heq, hplace, hlater⟩
    cases after using List.reverseRecOn with
    | nil =>
      obtain ⟨rfl, hc⟩ := List.append_inj' heq rfl
      exact .inl ⟨publishes_iff.2 ⟨layout, by simpa using hc⟩, hplace⟩
    | append_singleton after last _ =>
      rw [← List.cons_append, ← List.append_assoc] at heq
      obtain ⟨rfl, hc⟩ := List.append_inj' heq rfl
      obtain rfl : c = last := by simpa using hc
      refine .inr ⟨⟨before, layout, after, rfl, hplace, fun d hd => ?_⟩, ?_⟩
      · exact hlater d (List.mem_append_left _ hd)
      · exact hlater c (List.mem_append_right _ (List.mem_singleton_self c))
  · rintro (⟨hc, hplace⟩ | ⟨⟨before, layout, after, rfl, hplace, hlater⟩, hc⟩)
    · obtain ⟨layout, rfl⟩ := publishes_iff.1 hc
      exact ⟨calls, layout, [], rfl, hplace, by simp⟩
    · refine ⟨before, layout, after ++ [c], by simp, hplace, fun d hd => ?_⟩
      rcases List.mem_append.1 hd with hd | hd
      · exact hlater d hd
      · rw [List.mem_singleton.1 hd]
        exact hc

theorem Stands.lt (h : Stands calls name place) : place < calls.countP isMake := by
  obtain ⟨before, layout, after, rfl, rfl, -⟩ := h
  simp [isMake, List.countP_cons]

theorem taken_concat (place : Nat) (calls : List MemoryCall) (c : MemoryCall) :
    taken place (calls ++ [c]) =
      taken place calls ++ if calls.any (stops place) then [] else c.given place := by
  unfold taken
  induction calls with
  | nil => cases c <;> simp [given, stops, List.takeWhile_cons]
  | cons d rest ih =>
    cases hstops : d.stops place with
    | true => simp [hstops]
    | false => simpa [hstops] using ih

theorem isPrefix_reframe (place : Nat) (a : Appender) (f : Frame Buffer) (c : MemoryCall) :
    f.sink.bytes <+: (c.reframe place a f).sink.bytes := by
  cases c with
  | append other e =>
    rw [reframe, appendedFrame]
    split
    · split
      · exact List.prefix_rfl
      · simp [Frame.opened]
    · exact List.prefix_rfl
  | stop other =>
    rw [reframe, stoppedFrame]
    split
    · split
      · exact List.prefix_rfl
      · simp [Frame.opened]
    · exact List.prefix_rfl
  | _ => exact List.prefix_rfl

/-- A call does to the frame what belongs to one more call. -/
theorem reframe_written (place : Nat) (a : Appender) (calls : List MemoryCall) (c : MemoryCall) :
    c.reframe place a (a.writtenFrame .empty (taken place calls) (calls.any (stops place))) =
      a.writtenFrame .empty (taken place (calls ++ [c])) ((calls ++ [c]).any (stops place)) := by
  rw [taken_concat, List.any_append]
  cases hstopped : calls.any (stops place) with
  | true => cases c <;> simp [reframe, appendedFrame, stoppedFrame, writtenFrame]
  | false =>
    cases c with
    | append other e =>
      by_cases hplace : other = place
      · simp [reframe, given, stops, hplace, appendedFrame_written]
      · simp [reframe, given, stops, hplace]
    | stop other =>
      by_cases hplace : other = place
      · simp [reframe, given, stops, hplace, stoppedFrame_written]
      · simp [reframe, given, stops, hplace]
    | _ => simp [reframe, given, stops]

end MemoryCall

/-! ## One appender -/

variable {w : World} {a b : Appender} {f : Frame Buffer}

theorem Holds.setFrame_eq (h : Holds w a f) (g : Frame Buffer) :
    a.setFrame w g = { w with devices := w.devices.set a.id (.memory g) } := by
  rw [Appender.setFrame, h]

theorem Holds.state_append (h : Holds w a f) (e : Event) : ((a.append e).run w).state =
    { w with devices := w.devices.set a.id (.memory (a.appendedFrame e f)) } := by
  rw [Appender.run_append h.frame?, h.setFrame_eq]

/-- Of all that is published, stopping removes the appender itself. -/
theorem get?_unpublish (w : World) (a : Appender) (name : String) :
    (a.unpublish.run w).state.published.get? name = some b ↔
      w.published.get? name = some b ∧ (name = a.name → b.id ≠ a.id) := by
  rw [unpublish, Traced.run_bind_of_quiet (Traced.run_get w)]
  cases hown : w.published.get? a.name with
  | none =>
    simp only [Traced.state_pure]
    refine ⟨fun h => ⟨h, ?_⟩, And.left⟩
    rintro rfl
    simp [hown] at h
  | some other =>
    simp only
    split
    · rename_i hid
      simp only [Traced.state_bind, Traced.run_set, Traced.state_report, TextMap.get?_erase]
      by_cases hname : name = a.name
      · rw [hname, hown]
        simp only [if_true, true_implies, Option.some.injEq, reduceCtorEq, false_iff]
        rintro ⟨rfl, hne⟩
        exact hne hid
      · simp [hname]
    · rename_i hid
      simp only [Traced.state_pure]
      refine ⟨fun h => ⟨h, ?_⟩, And.left⟩
      rintro rfl
      rw [hown, Option.some.injEq] at h
      rwa [← h]

theorem Holds.lookup_stop (h : Holds w a f) (name : String) :
    lookup (a.stop.run w).state name = some b ↔
      lookup w name = some b ∧ (name = a.name → b.id ≠ a.id) := by
  rw [Appender.stop, Traced.run_bind_of_quiet (Traced.run_get w), h]
  dsimp only
  rw [Traced.run_bind_of_quiet (h.run_onFrame (a.stop_eq f)), Traced.state_bind,
    Traced.state_pure, h.setFrame_eq]
  exact get?_unpublish _ a name

theorem Holds.devices_stop (h : Holds w a f) : (a.stop.run w).state.devices =
    w.devices.set a.id (.memory (a.stoppedFrame f)) := by
  rw [(run_stop h.frame?).2.2.1, h.setFrame_eq]

/-! ## All of them -/

open MemoryCall

/-- A world in which memory appenders were made and looked up, one after the other. -/
structure Handles where
  world : World
  made : List Appender
  found : List (Option Appender)

namespace Handles

def begin (w : World) : Handles := ⟨w, [], []⟩

/-- A call to an appender that was not made yet does nothing. -/
def step (s : Handles) : MemoryCall → Handles
  | .make published name layout =>
    let o := (newMemory published name layout).run s.world
    { s with world := o.state, made := s.made ++ [o.value] }
  | .append place e =>
    match s.made[place]? with
    | some a => { s with world := ((a.append e).run s.world).state }
    | none => s
  | .stop place =>
    match s.made[place]? with
    | some a => { s with world := (a.stop.run s.world).state }
    | none => s
  | .find name => { s with found := s.found ++ [lookup s.world name] }

def run (s : Handles) (calls : List MemoryCall) : Handles := calls.foldl step s

/-- Appenders that are told apart by their identities, each with a frame in memory, and among
them all that are published, under their names. -/
structure Sound (s : Handles) : Prop where
  distinct : (s.made.map Appender.id).Nodup
  held : ∀ a ∈ s.made, ∃ f, Holds s.world a f
  listed : ∀ name a, lookup s.world name = some a → a ∈ s.made ∧ a.name = name

variable {s : Handles} {c : MemoryCall} {place : Nat}

theorem run_concat (s : Handles) (calls : List MemoryCall) (c : MemoryCall) :
    s.run (calls ++ [c]) = (s.run calls).step c := List.foldl_concat ..

theorem run_append (s : Handles) (calls later : List MemoryCall) :
    s.run (calls ++ later) = (s.run calls).run later := List.foldl_append ..

theorem made_step (s : Handles) (c : MemoryCall) :
    (s.step c).made = s.made ++ c.product s.world.devices.next := by
  cases c with
  | make published name layout =>
    simp only [step, product, (run_newMemory published name layout s.world).1]
  | append place e =>
    rw [step]
    split <;> simp [product]
  | stop place =>
    rw [step]
    split <;> simp [product]
  | find name => simp [step, product]

theorem found_step (s : Handles) (c : MemoryCall) :
    (s.step c).found = s.found ++ c.answer s.world := by
  cases c with
  | make published name layout => simp [step, answer]
  | append place e =>
    rw [step]
    split <;> simp [answer]
  | stop place =>
    rw [step]
    split <;> simp [answer]
  | find name => rfl

theorem length_made_run (s : Handles) (calls : List MemoryCall) :
    (s.run calls).made.length = s.made.length + calls.countP isMake := by
  induction calls using List.reverseRecOn with
  | nil => rfl
  | append_singleton calls c ih =>
    simp only [run_concat, made_step, List.length_append, length_product, ih, List.countP_append,
      Nat.add_assoc]

theorem length_found_run (s : Handles) (calls : List MemoryCall) :
    (s.run calls).found.length = s.found.length + calls.countP isFind := by
  induction calls using List.reverseRecOn with
  | nil => rfl
  | append_singleton calls c ih =>
    simp only [run_concat, found_step, List.length_append, length_answer, ih, List.countP_append,
      Nat.add_assoc]

/-- What was made and found once remains so. -/
theorem isPrefix_run (s : Handles) (calls : List MemoryCall) :
    s.made <+: (s.run calls).made ∧ s.found <+: (s.run calls).found := by
  induction calls using List.reverseRecOn with
  | nil => exact ⟨List.prefix_rfl, List.prefix_rfl⟩
  | append_singleton calls c ih =>
    rw [run_concat, made_step, found_step]
    exact ⟨ih.1.trans (List.prefix_append _ _), ih.2.trans (List.prefix_append _ _)⟩

theorem getElem?_made_run_of_lt (h : place < s.made.length) (calls : List MemoryCall) :
    (s.run calls).made[place]? = s.made[place]? := by
  obtain ⟨later, hlater⟩ := (isPrefix_run s calls).1
  rw [← hlater, List.getElem?_append_left h]

theorem getElem?_made_run (ha : s.made[place]? = some a) (calls : List MemoryCall) :
    (s.run calls).made[place]? = some a := by
  obtain ⟨hlt, -⟩ := List.getElem?_eq_some_iff.1 ha
  rw [getElem?_made_run_of_lt hlt, ha]

theorem getElem?_found_run (s : Handles) (name : String) (after : List MemoryCall) {k : Nat}
    (hk : k = s.found.length) :
    (s.run (find name :: after)).found[k]? = some (lookup s.world name) := by
  obtain ⟨later, hlater⟩ := (isPrefix_run (s.step (find name)) after).2
  change ((s.step (find name)).run after).found[k]? = _
  simp [← hlater, found_step, answer, hk]

namespace Sound

theorem place_eq (h : Sound s) {other : Nat} (ha : s.made[place]? = some a)
    (hb : s.made[other]? = some b) (hid : a.id = b.id) : place = other := by
  obtain ⟨hlt, -⟩ := List.getElem?_eq_some_iff.1 ha
  apply (List.getElem?_inj (by simpa using hlt) h.distinct).1
  simp [ha, hb, hid]

theorem eq_of_id (h : Sound s) (ha : a ∈ s.made) (hb : b ∈ s.made) (hid : a.id = b.id) :
    a = b := by
  obtain ⟨place, hplace⟩ := List.getElem?_of_mem ha
  obtain ⟨other, hother⟩ := List.getElem?_of_mem hb
  rw [h.place_eq hplace hother hid, hother] at hplace
  exact (Option.some.inj hplace).symm

/-- An appender has the frame that it had, unless it is the one whose frame is set. -/
theorem holds_of_set (h : Sound s) {other : Nat} (ha : s.made[place]? = some a)
    (hb : s.made[other]? = some b) (hf : Holds s.world a f) {g : Frame Buffer}
    (hg : Holds s.world b g) (act : Appender → Frame Buffer → Frame Buffer) {w : World}
    (hw : w.devices = s.world.devices.set b.id (.memory (act b g))) :
    Holds w a (if other = place then act a f else f) := by
  unfold Holds
  rw [hw]
  split
  · rename_i hplace
    rw [hplace, ha] at hb
    obtain rfl : a = b := Option.some.inj hb
    obtain rfl : f = g := by simpa [Holds] using hf.symm.trans hg
    exact Store.get?_set_self hf _
  · rename_i hplace
    have hne : a.id ≠ b.id := fun hid => hplace (h.place_eq ha hb hid).symm
    rw [Store.get?_set_of_ne _ _ hne]
    exact hf

theorem holds_step (h : Sound s) (ha : s.made[place]? = some a) (hf : Holds s.world a f)
    (c : MemoryCall) : Holds (s.step c).world a (c.reframe place a f) := by
  have hnone {other : Nat} (hother : s.made[other]? = none) : other ≠ place := by
    rintro rfl
    simp [hother] at ha
  cases c with
  | make published name layout =>
    have hold : a.id ≠ s.world.devices.next := by
      intro hid
      simp [Holds, hid] at hf
    simp only [step, reframe, Holds, (run_newMemory published name layout s.world).2]
    rw [Store.get?_add_of_ne _ _ hold]
    exact hf
  | append other e =>
    rw [step]
    split
    · rename_i b hb
      obtain ⟨g, hg⟩ := h.held b (List.mem_of_getElem? hb)
      apply h.holds_of_set ha hb hf hg (fun b g => b.appendedFrame e g)
      rw [hg.state_append]
    · rename_i hother
      simpa [reframe, hnone hother] using hf
  | stop other =>
    rw [step]
    split
    · rename_i b hb
      obtain ⟨g, hg⟩ := h.held b (List.mem_of_getElem? hb)
      exact h.holds_of_set ha hb hf hg stoppedFrame hg.devices_stop
    · rename_i hother
      simpa [reframe, hnone hother] using hf
  | find name => exact hf

/-- After a call the same is found under a name, unless the call publishes another appender
under it or stops the one that is found. -/
theorem lookup_step (h : Sound s) (c : MemoryCall) (name : String) (b : Appender) :
    lookup (s.step c).world name = some b ↔
      (c.publishes name = true ∧ (s.step c).made[s.made.length]? = some b) ∨
        (lookup s.world name = some b ∧ c.publishes name = false ∧
          ∀ place, c.stops place = true → s.made[place]? ≠ some b) := by
  cases c with
  | make published own layout =>
    simp only [made_step, product, publishes, stops, List.getElem?_concat_length]
    simp only [step, lookup, (run_newMemory published own layout s.world).1,
      (run_newMemory published own layout s.world).2]
    cases published with
    | false => simp
    | true =>
      by_cases hname : own = name
      · simp [TextMap.get?_insert, hname]
      · simp [TextMap.get?_insert, hname, Ne.symm hname]
  | append place e =>
    have hsame : lookup (s.step (.append place e)).world name = lookup s.world name := by
      rw [step]
      split
      · rename_i a ha
        obtain ⟨f, hf⟩ := h.held a (List.mem_of_getElem? ha)
        rw [lookup, hf.state_append]
        rfl
      · rfl
    simp [hsame, publishes, stops]
  | stop place =>
    simp only [publishes, stops, decide_eq_true_eq, forall_eq']
    cases ha : s.made[place]? with
    | none => simp [step, ha]
    | some a =>
      have hmem : a ∈ s.made := List.mem_of_getElem? ha
      obtain ⟨f, hf⟩ := h.held a hmem
      simp only [step, ha, hf.lookup_stop]
      simp only [Bool.false_eq_true, false_and, false_or, true_and]
      refine and_congr_right fun hb => ?_
      obtain ⟨hmade, hname⟩ := h.listed name b hb
      constructor
      · rintro hne ⟨⟩
        exact hne hname.symm rfl
      · intro hne _ hid
        exact hne (congrArg some (h.eq_of_id hmem hmade hid.symm))
  | find other => simp [step, publishes, stops]

protected theorem step (h : Sound s) (c : MemoryCall) : Sound (s.step c) where
  distinct := by
    rw [made_step, List.map_append, List.nodup_append]
    refine ⟨h.distinct, c.nodup_product _, ?_⟩
    intro id hid other hother
    obtain ⟨a, ha, rfl⟩ := List.mem_map.1 hid
    obtain ⟨b, hb, rfl⟩ := List.mem_map.1 hother
    obtain ⟨f, hf⟩ := h.held a ha
    rw [id_of_mem_product hb]
    intro hnext
    simp [Holds, hnext] at hf
  held a ha := by
    rw [made_step, List.mem_append] at ha
    rcases ha with ha | ha
    · obtain ⟨place, hplace⟩ := List.getElem?_of_mem ha
      obtain ⟨f, hf⟩ := h.held a ha
      exact ⟨_, h.holds_step hplace hf c⟩
    · cases c with
      | make published name layout =>
        have hnew := (holds_newMemory published name layout s.world).1
        rw [(run_newMemory published name layout s.world).1, ← List.mem_singleton.1 ha] at hnew
        exact ⟨_, hnew⟩
      | _ => contradiction
  listed name b hb := by
    rcases (h.lookup_step c name b).1 hb with ⟨hc, hnew⟩ | ⟨hold, -⟩
    · refine ⟨List.mem_of_getElem? hnew, ?_⟩
      obtain ⟨layout, rfl⟩ := publishes_iff.1 hc
      rw [made_step, product, List.getElem?_concat_length, Option.some.injEq] at hnew
      rw [← hnew]
    · obtain ⟨hmade, hname⟩ := h.listed name b hold
      refine ⟨?_, hname⟩
      rw [made_step]
      exact List.mem_append_left _ hmade

protected theorem run (h : Sound s) (calls : List MemoryCall) : Sound (s.run calls) := by
  induction calls using List.reverseRecOn with
  | nil => exact h
  | append_singleton calls c ih =>
    rw [run_concat]
    exact ih.step c

end Sound

/-! ## Runs -/

theorem length_made_begin (w : World) (calls : List MemoryCall) :
    ((begin w).run calls).made.length = calls.countP isMake := by
  simp [length_made_run, begin]

theorem length_found_begin (w : World) (calls : List MemoryCall) :
    ((begin w).run calls).found.length = calls.countP isFind := by
  simp [length_found_run, begin]

theorem sound_begin {w : World} (h : w.published = .empty) : Sound (begin w) where
  distinct := List.nodup_nil
  held a ha := by contradiction
  listed name a ha := by
    rw [lookup, begin, h] at ha
    contradiction

/-- What is found under a name stands under it. -/
theorem lookup_run {w : World} (h : w.published = .empty) (calls : List MemoryCall)
    (name : String) (b : Appender) :
    lookup ((begin w).run calls).world name = some b ↔
      ∃ place, Stands calls name place ∧ ((begin w).run calls).made[place]? = some b := by
  induction calls using List.reverseRecOn generalizing b with
  | nil =>
    have hnone : lookup w name = none := by
      rw [lookup, h]
      rfl
    simp [run, begin, hnone, not_stands_nil]
  | append_singleton calls c ih =>
    have hsound := (sound_begin h).run calls
    have hlength := length_made_begin w calls
    -- From here on both sides speak of the last call and of the calls before it.
    rw [run_concat, hsound.lookup_step, ih, hlength]
    simp only [stands_concat]
    constructor
    · rintro (⟨hc, hnew⟩ | ⟨⟨place, hstands, hplace⟩, hc, hstop⟩)
      · exact ⟨_, .inl ⟨hc, rfl⟩, hnew⟩
      · refine ⟨place, .inr ⟨hstands, hc, ?_⟩, getElem?_made_run hplace [c]⟩
        by_contra hstops
        exact hstop place (Bool.not_eq_false _ ▸ hstops) hplace
    · rintro ⟨place, ⟨hc, rfl⟩ | ⟨hstands, hc, hstop⟩, hplace⟩
      · exact .inl ⟨hc, hplace⟩
      · have hold : ((begin w).run calls).made[place]? = some b :=
          (getElem?_made_run_of_lt (hlength ▸ hstands.lt) [c]).symm.trans hplace
        refine .inr ⟨⟨place, hstands, hold⟩, hc, ?_⟩
        intro other hother hsame
        rw [hsound.place_eq hold hsame rfl] at hstop
        simp [hstop] at hother

/-- An appender has the frame that the calls after it was made amount to. -/
theorem Sound.holds_run {s : Handles} (h : Sound s) (published : Bool) (name : String)
    (layout : Option Layout) (after : List MemoryCall) :
    ∃ a, (s.run (make published name layout :: after)).made[s.made.length]? = some a ∧
      a.name = name ∧ a.layout = layout ∧
      Holds (s.run (make published name layout :: after)).world a
        (a.writtenFrame .empty (taken s.made.length after) (after.any (stops s.made.length))) := by
  induction after using List.reverseRecOn with
  | nil =>
    have hnew := (holds_newMemory published name layout s.world).1
    rw [(run_newMemory published name layout s.world).1] at hnew
    refine ⟨⟨s.world.devices.next, name, layout⟩, ?_, rfl, rfl, ?_⟩
    · change (s.step (make published name layout)).made[s.made.length]? = _
      rw [made_step, product, List.getElem?_concat_length]
    · rw [taken, List.takeWhile_nil, List.flatMap_nil, List.any_nil, writtenFrame_nil]
      exact hnew
  | append_singleton after c ih =>
    obtain ⟨a, ha, hname, hlayout, hholds⟩ := ih
    rw [← List.cons_append, run_concat]
    refine ⟨a, getElem?_made_run ha [c], hname, hlayout, ?_⟩
    rw [← reframe_written]
    exact (h.run _).holds_step ha hholds c

/-- A call only adds to what an appender holds. -/
theorem Sound.isPrefix_contents_run {s : Handles} (h : Sound s) (ha : a ∈ s.made)
    (calls : List MemoryCall) : a.contents s.world <+: a.contents (s.run calls).world := by
  induction calls using List.reverseRecOn with
  | nil => exact List.prefix_rfl
  | append_singleton calls c ih =>
    have hsound := h.run calls
    obtain ⟨place, hplace⟩ := List.getElem?_of_mem ha
    have hmade := getElem?_made_run hplace calls
    obtain ⟨f, hf⟩ := hsound.held a (List.mem_of_getElem? hmade)
    rw [run_concat, (hsound.holds_step hmade hf c).contents]
    rw [hf.contents] at ih
    exact ih.trans (isPrefix_reframe place a f c)

/-- Each call that looks up a name finds the appender that stands under it at that time, if
there is one. Stopping an appender changes nothing about what is found but that this very
appender is no longer found. All that was made keeps what it holds: its events between the
header and the footer of its layout, up to when it was stopped. -/
theorem found_iff_published_last {w : World} (hnone : w.published = .empty)
    (calls : List MemoryCall) :
    let s := (begin w).run calls
    (∀ before name after, calls = before ++ find name :: after →
      ∃ answer, s.found[before.countP isFind]? = some answer ∧
        ∀ a, answer = some a ↔ ∃ place, Stands before name place ∧ s.made[place]? = some a) ∧
    (∀ place a, s.made[place]? = some a → ∀ name b,
      lookup (s.step (.stop place)).world name = some b ↔ lookup s.world name = some b ∧ b ≠ a) ∧
    (s.made.map Appender.id).Nodup ∧
    (∀ before published name layout after, calls = before ++ make published name layout :: after →
      let place := before.countP isMake
      ∃ a, s.made[place]? = some a ∧ a.name = name ∧ a.layout = layout ∧
        a.contents s.world = a.output (taken place after) (after.any (stops place))) ∧
    ∀ later, ∀ a ∈ s.made, a.contents s.world <+: a.contents (s.run later).world := by
  have hsound := (sound_begin hnone).run calls
  refine ⟨?_, ?_, hsound.distinct, ?_, ?_⟩
  · rintro before name after rfl
    rw [run_append]
    refine ⟨_, getElem?_found_run ((begin w).run before) name after ?_, fun a => ?_⟩
    · exact (length_found_begin w before).symm
    · rw [lookup_run hnone]
      refine exists_congr fun place => and_congr_right fun hstands => ?_
      have hlt : place < ((begin w).run before).made.length := by
        rw [length_made_begin]
        exact hstands.lt
      rw [getElem?_made_run_of_lt hlt]
  · intro place a ha name b
    simp only [hsound.lookup_step, publishes, stops, decide_eq_true_eq, forall_eq', ha]
    simp [eq_comm]
  · rintro before published name layout after rfl
    have hlength := length_made_begin w before
    obtain ⟨a, ha, hname, hlayout, hholds⟩ :=
      ((sound_begin hnone).run before).holds_run published name layout after
    rw [← run_append, hlength] at ha hholds
    exact ⟨a, ha, hname, hlayout, hholds.contents⟩
  · intro later a ha
    exact hsound.isPrefix_contents_run ha later

/-- The second appender of a name is found in place of the first, also after that one and one
that was not published were stopped. -/
theorem found_iff_published_last_replaced :
    let w := World.initial 0 "main"
    let before := [make true "m" none, make false "m" none, make true "m" none, .stop 1, .stop 0]
    let s := (begin w).run (before ++ find "m" :: [.stop 2])
    w.published = .empty ∧ Stands before "m" 2 ∧
      ∃ a, s.made[2]? = some a ∧ s.found[0]? = some (some a) := by
  intro w before s
  have hnone : w.published = .empty := rfl
  have hstands : Stands before "m" 2 :=
    ⟨[make true "m" none, make false "m" none], none, [.stop 1, .stop 0], rfl, rfl, by
      simp [publishes, stops]⟩
  obtain ⟨answer, hfound, hanswer⟩ :=
    (found_iff_published_last hnone (before ++ find "m" :: [.stop 2])).1 before "m" _ rfl
  have hlt : 2 < s.made.length := by
    rw [length_made_begin]
    decide
  have hmade : s.made[2]? = some s.made[2] := List.getElem?_eq_getElem hlt
  refine ⟨hnone, hstands, _, hmade, ?_⟩
  rw [← (hanswer _).2 ⟨2, hstands, hmade⟩]
  exact hfound

end Handles
end Appender
end LoggingFacade
