import LoggingFacade.Proofs.Appender.Replacement
import LoggingFacade.Proofs.Context.Steps
import Mathlib.Data.List.Perm.Basic

/-!
# Delivery in any order of steps

However the steps of log calls and replacements come, a log call offers its event once
to each appender of one map, which was in force at a moment of the call. An appender
takes an event as a whole, or refuses it because it is stopped, and a stopped appender
is one that some published map lacks. So nothing is lost on an appender that stays.
-/

namespace LoggingFacade

open Appender (Apart)
open AppenderMap (used Keyed)

namespace Interleaving
namespace State

/-- The appenders that a call has offered its event. -/
def offered (s : State) (i : Nat) : List Appender :=
  (s.offers.filter fun o => o.call = i).map Offer.appender

/-- The events that an appender has taken. -/
def accepted (s : State) (a : Appender) : List Event :=
  (s.offers.filter fun o => o.appender.id = a.id ∧ o.result.isOk = true).map Offer.event

/-- One of the published maps, other than the empty one of the start, lacks the appender. -/
def Lacks (s : State) (a : Appender) : Prop := ∃ m ∈ s.published.tail, m.holds a = false

/-- What a call has offered is its own event. Before it took a map it has offered
nothing; from then on, what it has offered and has still to offer are the appenders of
that map. -/
structure Serves (s : State) (i : Nat) (call : LogCall) : Prop where
  event : ∀ o ∈ s.offers, o.call = i → o.event = call.event
  waiting : call.taken = none → s.offered i = [] ∧ call.pending = []
  serving : ∀ k, call.taken = some k →
    ∃ m, s.published[k]? = some m ∧ (s.offered i ++ call.pending).Perm m.appenders

/-- What holds at any time. -/
structure Sound (c : Context) (maps : List AppenderMap) (base : Nat → Buffer) (s : State) :
    Prop where
  has : ∃ m, s.published.getLast? = some m ∧ c.Has s.world m
  calls : ∀ i call, s.calls[i]? = some call → s.Serves i call
  offers : ∀ o ∈ s.offers, o.call < s.calls.length ∧ (o.result = .ok () ∨
    o.result = .error (.appender o.appender.name Frame.isStopped) ∧ s.Lacks o.appender)
  stopping : ∀ entries ∈ s.stopping, ∀ e ∈ entries, e.2 ∈ used maps ∧ s.Lacks e.2
  frames : ∃ frames, Apart s.world (used maps) frames ∧ ∀ a ∈ used maps, ∃ stopped,
    frames a.id = a.writtenFrame (base a.id) (s.accepted a) stopped ∧ (stopped = true → s.Lacks a)

variable {c : Context} {maps : List AppenderMap} {base : Nat → Buffer} {s t : State}

theorem Lacks.mono {a : Appender} (h : s.Lacks a) (hpublished : s.published <+: t.published) :
    t.Lacks a := by
  obtain ⟨m, hm, hlacks⟩ := h
  exact ⟨m, hpublished.sublist.tail.subset hm, hlacks⟩

theorem getElem?_published {k : Nat} {m : AppenderMap} (hpublished : s.published <+: t.published)
    (hm : s.published[k]? = some m) : t.published[k]? = some m := by
  obtain ⟨hlt, rfl⟩ := List.getElem?_eq_some_iff.1 hm
  exact List.prefix_iff_getElem?.1 hpublished k hlt

theorem Serves.congr {i : Nat} {call : LogCall} (h : s.Serves i call)
    (hoffers : t.offers = s.offers) (hpublished : s.published <+: t.published) :
    t.Serves i call := by
  have hsame : t.offered i = s.offered i := by rw [offered, offered, hoffers]
  refine ⟨by rw [hoffers]; exact h.event, ?_, fun k hk => ?_⟩
  · rw [hsame]
    exact h.waiting
  · obtain ⟨m, hm, hperm⟩ := h.serving k hk
    exact ⟨m, getElem?_published hpublished hm, by rw [hsame]; exact hperm⟩

theorem Serves.mem_used {i : Nat} {call : LogCall} (h : s.Serves i call)
    (hpublished : s.published ⊆ maps) {a : Appender} (ha : a ∈ call.pending) : a ∈ used maps := by
  cases htaken : call.taken with
  | none =>
    rw [(h.waiting htaken).2] at ha
    contradiction
  | some k =>
    obtain ⟨m, hm, hperm⟩ := h.serving k htaken
    exact AppenderMap.mem_used.2
      ⟨m, hpublished (List.mem_of_getElem? hm), hperm.subset (List.mem_append_right _ ha)⟩

theorem offered_append (s : State) (i j : Nat) (call : LogCall) (a : Appender) (n : Nat) :
    (s.append i j call a).offered n = s.offered n ++ if i = n then [a] else [] := by
  simp only [offered, append, List.filter_append, List.map_append]
  split <;> simp_all

theorem accepted_eq {o : Offer} (hoffers : t.offers = s.offers ++ [o]) (a : Appender) :
    t.accepted a = s.accepted a ++
      if o.appender.id = a.id ∧ o.result.isOk = true then [o.event] else [] := by
  simp only [accepted, hoffers, List.filter_append, List.map_append]
  split <;> simp_all

/-- An appender that was pending is now among those that were offered the event. -/
theorem Serves.append {i j : Nat} {call : LogCall} (h : s.Serves i call) {a : Appender}
    (ha : call.pending[j]? = some a) :
    (s.append i j call a).Serves i { call with pending := call.pending.eraseIdx j } where
  event o ho hcall := by
    rcases List.mem_append.1 ho with hold | hnew
    · exact h.event o hold hcall
    · rw [List.mem_singleton.1 hnew]
  waiting hnone := by
    rw [(h.waiting hnone).2] at ha
    contradiction
  serving k hk := by
    obtain ⟨m, hm, hperm⟩ := h.serving k hk
    refine ⟨m, hm, .trans ?_ hperm⟩
    obtain ⟨hlt, rfl⟩ := List.getElem?_eq_some_iff.1 ha
    rw [offered_append, if_pos rfl, List.append_assoc]
    exact (List.getElem_cons_eraseIdx_perm hlt).append_left _

theorem Serves.append_other {i j n : Nat} {call other : LogCall} (h : s.Serves n other)
    (hne : n ≠ i) (a : Appender) : (s.append i j call a).Serves n other := by
  have hsame : (s.append i j call a).offered n = s.offered n := by
    rw [offered_append, if_neg hne.symm, List.append_nil]
  refine ⟨fun o ho hcall => ?_, by rw [hsame]; exact h.waiting, by rw [hsame]; exact h.serving⟩
  rcases List.mem_append.1 ho with hold | hnew
  · exact h.event o hold hcall
  · rw [List.mem_singleton.1 hnew] at hcall
    exact absurd hcall.symm hne

/-- Appending gives the appender another frame and leaves all else as it is. -/
theorem apart_append {frames : Nat → Frame Buffer} {a : Appender}
    (h : Apart s.world (used maps) frames) (ha : a ∈ used maps) (i j : Nat) (call : LogCall) :
    let t := s.append i j call a
    let g := a.appendedFrame call.event (frames a.id)
    Apart t.world (used maps) (Function.update frames a.id g) ∧
      t.world.contexts = s.world.contexts ∧
      t.offers = s.offers ++ [⟨i, call.event, a, a.appendResult (frames a.id)⟩] := by
  intro t g
  have hrun := Appender.run_append (h.frame a ha) call.event
  have hworld : t.world = a.setFrame s.world g := congrArg Outcome.state hrun
  refine ⟨hworld ▸ h.setFrame ha g, hworld ▸ Appender.contexts_setFrame s.world a g, ?_⟩
  exact congrArg (fun result => s.offers ++ [⟨i, call.event, a, result⟩])
    (congrArg Outcome.value hrun)

/-! ## Single steps -/

theorem Sound.begin (h : Sound c maps base s) (l : Logger) (e : Event) :
    Sound c maps base (s.begin l e) where
  has := h.has
  calls i call hcall := by
    rcases call_of_concat hcall with hold | ⟨rfl, rfl⟩
    · exact (h.calls i call hold).congr rfl (List.prefix_refl _)
    · have hnone : ∀ o ∈ s.offers, o.call ≠ s.calls.length := fun o ho =>
        Nat.ne_of_lt (h.offers o ho).1
      refine ⟨fun o ho hcall => absurd hcall (hnone o ho), fun _ => ⟨?_, rfl⟩, nofun⟩
      rw [offered, List.filter_eq_nil_iff.2 fun o ho => by simpa using hnone o ho]
      rfl
  offers o ho := by
    refine ⟨?_, (h.offers o ho).2⟩
    rw [State.begin, List.length_append]
    exact Nat.lt_add_right _ (h.offers o ho).1
  stopping := h.stopping
  frames := h.frames

theorem Sound.snapshot (h : Sound c maps base s) {i : Nat} {call : LogCall}
    (hcall : s.calls[i]? = some call) (hnone : call.taken = none) :
    Sound c maps base (s.snapshot c i call) where
  has := h.has
  calls n other hother := by
    rcases call_of_set hother with ⟨rfl, rfl⟩ | ⟨-, hold⟩
    · obtain ⟨m, hm, hhas⟩ := h.has
      refine ⟨(h.calls n call hcall).event, nofun, fun k hk => ⟨m, ?_, ?_⟩⟩
      · rw [← Option.some.inj hk]
        exact List.getLast?_eq_getElem?.symm.trans hm
      · have hnothing : (s.snapshot c n call).offered n = [] :=
          ((h.calls n call hcall).waiting hnone).1
        rw [hnothing, hhas.table]
        exact .refl _
    · exact (h.calls n other hold).congr rfl (List.prefix_refl _)
  offers o ho := by
    rw [State.snapshot, List.length_set]
    exact h.offers o ho
  stopping := h.stopping
  frames := h.frames

theorem Sound.append (h : Sound c maps base s) (hkeyed : Keyed maps)
    (hpublished : s.published ⊆ maps) {i j : Nat} {call : LogCall} {a : Appender}
    (hcall : s.calls[i]? = some call) (ha : call.pending[j]? = some a) :
    Sound c maps base (s.append i j call a) := by
  have hserves := h.calls i call hcall
  have hused : a ∈ used maps := hserves.mem_used hpublished (List.mem_of_getElem? ha)
  obtain ⟨frames, hapart, hframes⟩ := h.frames
  obtain ⟨hafter, hcontexts, hoffers⟩ := apart_append hapart hused i j call
  obtain ⟨stopped, hframe, hlacks⟩ := hframes a hused
  rw [hframe] at hafter hoffers
  refine ⟨?_, fun n other hother => ?_, fun o ho => ?_, h.stopping, _, hafter, fun b hb => ?_⟩
  · obtain ⟨m, hm, hhas⟩ := h.has
    exact ⟨m, hm, hhas.congr hcontexts⟩
  · rcases call_of_set hother with ⟨rfl, rfl⟩ | ⟨hne, hold⟩
    · exact hserves.append ha
    · exact (h.calls n other hold).append_other hne a
  · rw [State.append, List.length_set]
    rw [hoffers] at ho
    rcases List.mem_append.1 ho with hold | hnew
    · exact h.offers o hold
    · obtain ⟨hlt, -⟩ := List.getElem?_eq_some_iff.1 hcall
      rw [List.mem_singleton.1 hnew]
      refine ⟨hlt, ?_⟩
      cases stopped with
      | false => exact .inl rfl
      | true => exact .inr ⟨rfl, hlacks rfl⟩
  · rw [accepted_eq hoffers]
    by_cases hid : b.id = a.id
    · obtain rfl := hkeyed.identified b hb a hused hid
      rw [Function.update_self]
      cases stopped with
      | false =>
        refine ⟨false, ?_, nofun⟩
        rw [Appender.appendedFrame_written, if_pos ⟨rfl, rfl⟩]
      | true =>
        refine ⟨true, ?_, hlacks⟩
        rw [if_neg fun hok => Bool.noConfusion hok.2, List.append_nil]
        rfl
    · rw [Function.update_of_ne hid, if_neg fun hok => hid hok.1.symm, List.append_nil]
      exact hframes b hb

/-- What a replacement drops is what its map lacks. -/
theorem Sound.swap (h : Sound c maps base s) (hkeyed : Keyed maps)
    (hpublished : s.published ⊆ maps) {next : AppenderMap} (hnext : next ∈ maps) :
    Sound c maps base (s.swap c next) := by
  obtain ⟨m, hm, hhas⟩ := h.has
  have hmem : m ∈ maps := hpublished (List.mem_of_getLast? hm)
  have hlater : s.published <+: (s.swap c next).published := List.prefix_append _ _
  obtain ⟨frames, hapart, hframes⟩ := h.frames
  refine ⟨⟨next, List.getLast?_concat, hhas.publish next⟩,
    fun i call hcall => (h.calls i call hcall).congr rfl hlater, fun o ho => ?_,
    fun entries hentries e he => ?_, frames, hapart.congr rfl fun target => by cases target <;> rfl,
    fun a ha => ?_⟩
  · exact ⟨(h.offers o ho).1, (h.offers o ho).2.imp_right fun h => ⟨h.1, h.2.mono hlater⟩⟩
  · rcases List.mem_append.1 hentries with hold | hnew
    · exact ⟨(h.stopping entries hold e he).1, (h.stopping entries hold e he).2.mono hlater⟩
    · rw [List.mem_singleton.1 hnew, hhas.table, hkeyed.dropped_eq hmem hnext] at he
      obtain ⟨hentry, hlacks⟩ := List.mem_filter.1 he
      have hused : e.2 ∈ used maps :=
        AppenderMap.mem_used.2 ⟨m, hmem, AppenderMap.mem_appenders.2 ⟨e.1, hentry⟩⟩
      refine ⟨hused, next, ?_, by simpa using hlacks⟩
      have hne : s.published ≠ [] := List.ne_nil_of_mem (List.mem_of_getLast? hm)
      rw [State.swap, List.tail_append_of_ne_nil hne]
      exact List.mem_append_right _ List.mem_cons_self
  · obtain ⟨stopped, hframe, hlacks⟩ := hframes a ha
    exact ⟨stopped, hframe, fun hstopped => (hlacks hstopped).mono hlater⟩

theorem Sound.stop (h : Sound c maps base s) (hkeyed : Keyed maps) {k j : Nat}
    {entries : List (String × Appender)} {entry : String × Appender}
    (hentries : s.stopping[k]? = some entries) (hentry : entries[j]? = some entry) :
    Sound c maps base (s.stop k j entries entry) := by
  have hmem := h.stopping entries (List.mem_of_getElem? hentries)
  obtain ⟨hused, hlacks⟩ := hmem entry (List.mem_of_getElem? hentry)
  obtain ⟨frames, hapart, hframes⟩ := h.frames
  obtain ⟨hafter, hcontexts⟩ := Appender.reframes_stopDropped hused s.world frames hapart
  refine ⟨?_, fun i call hcall => (h.calls i call hcall).congr rfl (List.prefix_refl _), h.offers,
    fun rest hrest e he => ?_, _, hafter, fun a ha => ?_⟩
  · obtain ⟨m, hm, hhas⟩ := h.has
    exact ⟨m, hm, hhas.congr hcontexts⟩
  · rcases List.mem_or_eq_of_mem_set hrest with hold | rfl
    · exact h.stopping rest hold e he
    · exact hmem e (List.mem_of_mem_eraseIdx he)
  · obtain ⟨stopped, hframe, hstopped⟩ := hframes a ha
    by_cases hid : a.id = entry.2.id
    · obtain rfl := hkeyed.identified a ha entry.2 hused hid
      rw [Function.update_self, hframe]
      refine ⟨true, ?_, fun _ => hlacks⟩
      cases stopped with
      | false => exact Appender.stoppedFrame_written _ _ _
      | true => rfl
    · rw [Function.update_of_ne hid]
      exact ⟨stopped, hframe, hstopped⟩

/-! ## Runs -/

theorem Sound.step (h : Sound c maps base s) (hkeyed : Keyed maps) {action : Action}
    (hstep : s.step? c action = some t) (hpublished : t.published ⊆ maps) :
    Sound c maps base t := by
  have hbefore : s.published ⊆ maps := fun m hm => hpublished ((published_step hstep).subset hm)
  cases action with
  | begin l e =>
    obtain ⟨-, rfl⟩ := step?_begin.1 hstep
    exact h.begin l e
  | snapshot i =>
    obtain ⟨call, ⟨hcall, hnone⟩, rfl⟩ := step?_snapshot.1 hstep
    exact h.snapshot hcall hnone
  | append i j =>
    obtain ⟨call, hcall, a, ha, rfl⟩ := step?_append.1 hstep
    exact h.append hkeyed hbefore hcall ha
  | swap next =>
    obtain rfl := step?_swap.1 hstep
    exact h.swap hkeyed hbefore (hpublished (List.mem_append_right _ List.mem_cons_self))
  | stop k j =>
    obtain ⟨entries, hentries, entry, hentry, rfl⟩ := step?_stop.1 hstep
    exact h.stop hkeyed hentries hentry

theorem Sound.run (h : Sound c maps base s) (hkeyed : Keyed maps) {actions : List Action}
    (hrun : s.run? c actions = some t) (hpublished : t.published ⊆ maps) :
    Sound c maps base t := by
  induction actions generalizing s with
  | nil =>
    obtain rfl := Option.some.inj hrun
    exact h
  | cons action rest ih =>
    obtain ⟨u, hstep, hrest⟩ := run?_cons.1 hrun
    have hnext : u.published ⊆ maps := fun m hm => hpublished ((published_run hrest).subset hm)
    exact ih (h.step hkeyed hstep hnext) hrest

/-- A new context has no appenders, and nothing was done with it. -/
theorem sound_start (name : String) (level : Level) {w : World}
    (hnew : Apart w (used maps) fun id => .fresh (base id)) :
    let opened := (Context.standard name level).run w
    Sound opened.value maps base (start opened.state) := by
  intro opened
  have hhas : opened.value.Has opened.state .empty :=
    ⟨.empty, Store.get?_add_next _ _, rfl, nofun⟩
  have hworld : Apart opened.state (used maps) fun id => .fresh (base id) :=
    hnew.congr rfl fun target => by cases target <;> rfl
  refine ⟨⟨.empty, rfl, hhas⟩, ?_, ?_, ?_, _, hworld,
    fun a _ => ⟨false, (a.writtenFrame_nil (base a.id)).symm, nofun⟩⟩
  · simp [start]
  · simp [start]
  · simp [start]

/-! ## What an append does -/

/-- An append adds a whole rendering or, if the appender is stopped, nothing. It is the
only appender that it concerns. -/
theorem Sound.offer (h : Sound c maps base s) (hkeyed : Keyed maps)
    (hpublished : s.published ⊆ maps) {i j : Nat} (hstep : s.step? c (.append i j) = some t) :
    ∃ call a result f g, s.calls[i]? = some call ∧ call.pending[j]? = some a ∧
      t.offers = s.offers ++ [⟨i, call.event, a, result⟩] ∧
      a.frame? s.world = some f ∧ a.frame? t.world = some g ∧
      (f.stopped = false ∧ result = .ok () ∧
          g.bytes = f.bytes ++ (if f.started then [] else Frame.header a.layout) ++
            Layout.render a.layout call.event ∨
        f.stopped = true ∧ result = .error (.appender a.name Frame.isStopped) ∧ g = f) ∧
      ∀ b ∈ used maps, b ≠ a → b.frame? t.world = b.frame? s.world := by
  obtain ⟨call, hcall, a, ha, rfl⟩ := step?_append.1 hstep
  have hused : a ∈ used maps :=
    (h.calls i call hcall).mem_used hpublished (List.mem_of_getElem? ha)
  obtain ⟨frames, hapart, -⟩ := h.frames
  obtain ⟨hafter, -, hoffers⟩ := apart_append hapart hused i j call
  refine ⟨call, a, _, _, _, hcall, ha, hoffers, hapart.frame a hused, hafter.frame a hused, ?_,
    fun b hb hne => ?_⟩
  · rw [Function.update_self]
    cases hstopped : (frames a.id).stopped with
    | false =>
      refine .inl ⟨rfl, ?_, ?_⟩
      · rw [Appender.appendResult, if_neg (by simp [hstopped])]
      · rw [Appender.appendedFrame, if_neg (by simp [hstopped])]
        rfl
    | true =>
      refine .inr ⟨rfl, ?_, ?_⟩
      · rw [Appender.appendResult, if_pos hstopped]
      · rw [Appender.appendedFrame, if_pos hstopped]
  · have hid : b.id ≠ a.id := fun hid => hne (hkeyed.identified b hb a hused hid)
    rw [hafter.frame b hb, Function.update_of_ne hid, hapart.frame b hb]

/-! ## Appenders that stay -/

theorem not_lacks {a : Appender} (hstays : ∀ m ∈ s.published.tail, m.holds a = true) :
    ¬ s.Lacks a := by
  rintro ⟨m, hm, hlacks⟩
  rw [hstays m hm] at hlacks
  contradiction

/-- An appender that no published map lacks takes the event of each call that took such
a map. -/
theorem Sound.offer_of_stays (h : Sound c maps base s) (hkeyed : Keyed maps)
    (hpublished : s.published ⊆ maps) {a : Appender} (ha : a ∈ used maps)
    (hstays : ∀ m ∈ s.published.tail, m.holds a = true) {i k : Nat} {call : LogCall}
    (hcall : s.calls[i]? = some call) (htaken : call.taken = some (k + 1))
    (hdone : a ∉ call.pending) : ⟨i, call.event, a, .ok ()⟩ ∈ s.offers := by
  have hserves := h.calls i call hcall
  obtain ⟨m, hm, hperm⟩ := hserves.serving (k + 1) htaken
  have htail : m ∈ s.published.tail := List.mem_of_getElem? (List.getElem?_tail.trans hm)
  have hmem : a ∈ m.appenders :=
    hkeyed.mem_of_holds (hpublished (List.mem_of_getElem? hm)) ha (hstays m htail)
  have hoffered : a ∈ s.offered i :=
    (List.mem_append.1 (hperm.symm.subset hmem)).resolve_right hdone
  obtain ⟨o, ho, rfl⟩ := List.mem_map.1 hoffered
  obtain ⟨hmade, hi⟩ := List.mem_filter.1 ho
  obtain rfl := of_decide_eq_true hi
  have hok : o.result = .ok () :=
    (h.offers o hmade).2.resolve_right fun hrefused => not_lacks hstays hrefused.2
  rw [← hserves.event o hmade rfl, ← hok]
  exact hmade

/-- The steps of log calls and replacements come in any order. A call offers its event
once to each appender of one map, which was in force when the call had begun and taken no
other, and to no other appender. Each offer adds the whole rendering of the event, behind
the header if there was none yet, or is refused by a stopped appender, which stays as it
is, as do all others. At any time an appender holds, behind what its sink had before, the
header if it took an event or is stopped, the events it took, and the footer if it is
stopped. An appender that is in every published map is not stopped, and it has taken the
event of each call that took one of these maps and is done with it. -/
theorem calls_serve_one_map (name : String) (level : Level) (w : World) (base : Nat → Buffer)
    (actions : List Action) :
    let opened := (Context.standard name level).run w
    let c := opened.value
    ∀ s, (start opened.state).run? c actions = some s → Keyed s.published →
      (Apart w (used s.published) fun id => .fresh (base id)) →
      (∀ o ∈ s.offers, o.call < s.calls.length) ∧
      (∀ i call, s.calls[i]? = some call →
        (∀ o ∈ s.offers, o.call = i → o.event = call.event) ∧
        (call.taken = none → s.offered i = [] ∧ call.pending = []) ∧
        ∀ k, call.taken = some k → ∃ m, s.published[k]? = some m ∧
          (s.offered i ++ call.pending).Perm m.appenders ∧ (m.appenders.map Appender.id).Nodup ∧
          ∃ earlier later t, actions = earlier ++ .snapshot i :: later ∧
            (start opened.state).run? c earlier = some t ∧ (t.world.contextState c).table = m ∧
            ∃ before, t.calls[i]? = some before ∧ before.taken = none) ∧
      (∀ i j t, s.step? c (.append i j) = some t → ∃ call a result f g,
        s.calls[i]? = some call ∧ call.pending[j]? = some a ∧
        t.offers = s.offers ++ [⟨i, call.event, a, result⟩] ∧
        a.frame? s.world = some f ∧ a.frame? t.world = some g ∧
        (f.stopped = false ∧ result = .ok () ∧
            g.bytes = f.bytes ++ (if f.started then [] else Frame.header a.layout) ++
              Layout.render a.layout call.event ∨
          f.stopped = true ∧ result = .error (.appender a.name Frame.isStopped) ∧ g = f) ∧
        ∀ b ∈ used s.published, b ≠ a → b.frame? t.world = b.frame? s.world) ∧
      ∀ a ∈ used s.published, ∃ f, a.frame? s.world = some f ∧
        f.bytes = (base a.id).bytes ++ a.output (s.accepted a) f.stopped ∧
        ((∀ m ∈ s.published.tail, m.holds a = true) → f.stopped = false ∧
          ∀ i call k, s.calls[i]? = some call → call.taken = some (k + 1) → a ∉ call.pending →
            ⟨i, call.event, a, .ok ()⟩ ∈ s.offers ∧ call.event ∈ s.accepted a) := by
  intro opened c s hrun hkeyed hnew
  have hstart : Sound c s.published base (start opened.state) := sound_start name level hnew
  have hsound := hstart.run hkeyed hrun (List.Subset.refl _)
  refine ⟨fun o ho => (hsound.offers o ho).1, fun i call hcall => ?_,
    fun i j t hstep => hsound.offer hkeyed (List.Subset.refl _) hstep, fun a ha => ?_⟩
  · have hserves := hsound.calls i call hcall
    refine ⟨hserves.event, hserves.waiting, fun k htaken => ?_⟩
    obtain ⟨m, hm, hperm⟩ := hserves.serving k htaken
    refine ⟨m, hm, hperm, hkeyed.nodup_ids (List.mem_of_getElem? hm), ?_⟩
    rcases exists_snapshot hrun hcall htaken with ⟨before, hbefore, -⟩ |
      ⟨earlier, later, t, hactions, hearlier, hlater, rfl, hbefore⟩
    · contradiction
    · obtain ⟨n, hn, hhas⟩ := (hstart.run hkeyed hearlier hlater.subset).has
      have hlast : s.published[t.published.length - 1]? = some n :=
        getElem?_published hlater (List.getLast?_eq_getElem?.symm.trans hn)
      obtain rfl : n = m := Option.some.inj (hlast.symm.trans hm)
      exact ⟨earlier, later, t, hactions, hearlier, hhas.table, hbefore⟩
  · obtain ⟨frames, hapart, hframes⟩ := hsound.frames
    obtain ⟨stopped, hframe, hlacks⟩ := hframes a ha
    have hstopped : (frames a.id).stopped = stopped := by rw [hframe]; rfl
    refine ⟨frames a.id, hapart.frame a ha, ?_, fun hstays => ⟨?_, ?_⟩⟩
    · rw [hstopped, hframe]
      rfl
    · rw [hstopped]
      exact Bool.eq_false_iff.2 fun h => not_lacks hstays (hlacks h)
    · intro i call k hcall htaken hdone
      have hoffer := hsound.offer_of_stays hkeyed (List.Subset.refl _) ha hstays hcall htaken hdone
      have htook : call.event ∈ s.accepted a :=
        List.mem_map.2 ⟨_, List.mem_filter.2 ⟨hoffer, decide_eq_true ⟨rfl, rfl⟩⟩, rfl⟩
      exact ⟨hoffer, htook⟩

/-- While a call has its map, another map drops one of the two appenders; the call is
refused there and served by the one that stays. -/
theorem calls_serve_one_map_refused :
    let plain : Layout := ⟨fun e => e.message.getD "", none, some [0x3E], .usAscii, "text/plain"⟩
    let kept : Appender := ⟨0, "kept", some plain⟩
    let gone : Appender := ⟨1, "gone", some plain⟩
    let both : AppenderMap := ⟨[("kept", kept), ("gone", gone)], by simp⟩
    let one : AppenderMap := ⟨[("kept", kept)], by simp⟩
    let memory : Device := .memory (.fresh .empty)
    let w := { World.initial 0 "main" with devices := ⟨[memory, memory]⟩ }
    let opened := (Context.standard "app" .info).run w
    let l : Logger := ⟨0, "a", .info, .parameterized, opened.value⟩
    let e := Event.create "main" 0 "a" .info "on"
    ∃ s, (start opened.state).run? opened.value [.swap both, .begin l e, .snapshot 0, .swap one,
        .stop 1 0, .append 0 1, .append 0 0] = some s ∧
      (gone.frame? s.world).map Frame.bytes = some [0x3E] ∧
      ⟨0, e, kept, .ok ()⟩ ∈ s.offers ∧ e ∈ s.accepted kept := by
  intro plain kept gone both one memory w opened l e
  have hused : ∀ a ∈ used [.empty, both, one], a = kept ∨ a = gone := by
    intro a ha
    have hall : a ∈ [kept, gone, kept] := ha
    simp only [List.mem_cons, List.not_mem_nil, or_false] at hall
    tauto
  have hkeyed : Keyed [.empty, both, one] := by
    refine ⟨by decide, fun a ha b hb hid => ?_⟩
    rcases hused a ha with rfl | rfl <;> rcases hused b hb with rfl | rfl <;>
      first | rfl | simp [kept, gone] at hid
  have hnew : Apart w (used [.empty, both, one]) fun _ => .fresh .empty := by
    refine ⟨fun a ha => ?_, fun a ha b hb t ht => ?_⟩
    · rcases hused a ha with rfl | rfl <;> rfl
    · rcases hused a ha with rfl | rfl <;> contradiction
  obtain ⟨-, -, -, hframes⟩ := calls_serve_one_map "app" .info w (fun _ => .empty) [.swap both,
    .begin l e, .snapshot 0, .swap one, .stop 1 0, .append 0 1, .append 0 0] _ rfl hkeyed hnew
  obtain ⟨_, -, -, hstays⟩ := hframes kept List.mem_cons_self
  obtain ⟨-, hserved⟩ := hstays (by decide)
  exact ⟨_, rfl, by decide +kernel, hserved 0 ⟨l, e, some 1, []⟩ 0 rfl rfl nofun⟩

end State
end Interleaving
end LoggingFacade
