import LoggingFacade.Sink

/-!
# Watched sinks

What a sink is asked for, and what it takes of it, whatever it answers: it may take
bytes in parts, take none, fail or crash at any call. A watched sink keeps a list of
the calls it gets and else behaves as the sink it is laid over. To write a text is
to offer what is left of it until the sink has it all or a call goes wrong; so the
sink takes an initial part of the text, and all of it if the writing succeeds.
-/

namespace LoggingFacade

open Text (Bytes)

namespace Sink

variable {S : Type} [Sink S] {s : S} {text : Bytes}

theorem writeFlushed_of_done (h : (writeAll s text).2 = .done ()) :
    writeFlushed s text = flush (writeAll s text).1 := by
  rw [writeFlushed]
  cases hwrite : writeAll s text with
  | mk sink answer =>
    rw [hwrite] at h
    dsimp only at h
    rw [h]

theorem writeFlushed_of_ne_done (h : (writeAll s text).2 ≠ .done ()) :
    writeFlushed s text = writeAll s text := by
  rw [writeFlushed]
  cases hwrite : writeAll s text with
  | mk sink answer =>
    rw [hwrite] at h
    cases answer with
    | done value => contradiction
    | failed reason => rfl
    | crashed => rfl

end Sink

/-- A sink that does what it says. Each write adds an initial part of the bytes
offered, as long as the count if there is one, and a flush adds nothing. A write
that goes wrong may still have taken a part. -/
class LawfulSink (S : Type) [Sink S] : Prop where
  write (s : S) (offered : Bytes) : ∃ taken, taken <+: offered ∧
    Sink.bytes (Sink.write s offered).1 = Sink.bytes s ++ taken ∧
    ∀ n, (Sink.write s offered).2 = .done n → taken.length = n
  flush (s : S) : Sink.bytes (Sink.flush s).1 = Sink.bytes s

instance : LawfulSink Buffer where
  write b offered := ⟨offered, List.prefix_refl offered, rfl, fun n h => by cases h; rfl⟩
  flush _ := rfl

theorem ScriptedSink.exists_taken (s : ScriptedSink) (offered : Bytes) : ∃ taken,
    taken <+: offered ∧ (s.write offered).1.data = s.data ++ taken ∧
    ∀ n, (s.write offered).2 = .done n → taken.length = n := by
  have htake : ∀ count : Nat, ∃ taken, taken <+: offered ∧
      s.data ++ offered.take count = s.data ++ taken ∧
      ∀ n, (Answer.done (offered.take count).length : Answer Nat) = .done n → taken.length = n := by
    intro count
    refine ⟨offered.take count, List.take_prefix count offered, rfl, ?_⟩
    intro n h
    cases h
    rfl
  have hnone : s.data = s.data ++ [] := (List.append_nil _).symm
  unfold ScriptedSink.write
  cases s.writes.head? with
  | none => exact htake offered.length
  | some step =>
    cases step with
    | whole => exact htake offered.length
    | atMost count => exact htake count
    | refuse => exact ⟨[], List.nil_prefix, hnone, nofun⟩
    | crash => exact ⟨[], List.nil_prefix, hnone, nofun⟩

theorem ScriptedSink.data_flush (s : ScriptedSink) : s.flush.1.data = s.data := by
  unfold ScriptedSink.flush
  cases s.flushes.head? with
  | none => rfl
  | some step => cases step <;> rfl

instance : LawfulSink ScriptedSink where
  write := ScriptedSink.exists_taken
  flush := ScriptedSink.data_flush

/-- A call of a sink, with its answer. -/
inductive SinkCall where
  | write (offered : Bytes) (answer : Answer Nat)
  | flush (answer : Answer Unit)

/-- A write succeeds if it takes something. -/
def SinkCall.Succeeded : SinkCall → Prop
  | write _ answer => ∃ n, answer = .done (n + 1)
  | flush answer => answer = .done ()

/-- What became of a text that was written to a sink: the calls that were made, the
bytes that were taken, and how it ended. -/
structure Row where
  calls : List SinkCall
  taken : Bytes
  answer : Answer Unit

namespace Row

/-- Nothing was to be written. -/
def none : Row := ⟨[], [], .done ()⟩

/-- The row of a text that is written as a whole: what is left of it is offered
until nothing is left or a call goes wrong. -/
inductive Offers : Row → Bytes → Prop
  | nothing : none.Offers []
  | part {row : Row} {taken rest : Bytes} : taken ≠ [] → row.Offers rest →
      Offers ⟨.write (taken ++ rest) (.done taken.length) :: row.calls, taken ++ row.taken,
        row.answer⟩ (taken ++ rest)
  | zero {text : Bytes} : text ≠ [] →
      Offers ⟨[.write text (.done 0)], [], .failed Sink.nothingTaken⟩ text
  | failed {taken text : Bytes} {reason : String} : text ≠ [] → taken <+: text →
      Offers ⟨[.write text (.failed reason)], taken, .failed reason⟩ text
  | crashed {taken text : Bytes} : text ≠ [] → taken <+: text →
      Offers ⟨[.write text .crashed], taken, .crashed⟩ text

/-- The row of a text that is written as a whole, with a flush behind it. -/
inductive Tries : Row → Bytes → Prop
  | ended {row : Row} {text : Bytes} : row.Offers text → row.answer ≠ .done () → row.Tries text
  | flushed {row : Row} {text : Bytes} (answer : Answer Unit) : row.Offers text →
      row.answer = .done () → Tries ⟨row.calls ++ [.flush answer], row.taken, answer⟩ text

variable {row : Row} {text : Bytes}

theorem Offers.isPrefix_taken (h : row.Offers text) : row.taken <+: text := by
  induction h with
  | nothing => exact List.nil_prefix
  | part hne hrest ih => exact (List.prefix_append_right_inj _).2 ih
  | zero hne => exact List.nil_prefix
  | failed hne htaken => exact htaken
  | crashed hne htaken => exact htaken

theorem Offers.taken_eq (h : row.Offers text) (hdone : row.answer = .done ()) :
    row.taken = text := by
  induction h with
  | nothing => rfl
  | part hne hrest ih =>
    dsimp only at hdone ⊢
    rw [ih hdone]
  | zero hne => contradiction
  | failed hne htaken => contradiction
  | crashed hne htaken => contradiction

theorem Offers.answer_eq (h : row.Offers text) (hcalls : ∀ c ∈ row.calls, c.Succeeded) :
    row.answer = .done () := by
  induction h with
  | nothing => rfl
  | part hne hrest ih => exact ih fun c hc => hcalls c (List.mem_cons_of_mem _ hc)
  | zero hne =>
    obtain ⟨n, hn⟩ := hcalls _ List.mem_cons_self
    cases hn
  | failed hne htaken =>
    obtain ⟨n, hn⟩ := hcalls _ List.mem_cons_self
    cases hn
  | crashed hne htaken =>
    obtain ⟨n, hn⟩ := hcalls _ List.mem_cons_self
    cases hn

theorem Tries.isPrefix_taken (h : row.Tries text) : row.taken <+: text := by
  cases h with
  | ended hoffers hanswer => exact hoffers.isPrefix_taken
  | flushed answer hoffers hdone => exact hoffers.isPrefix_taken

theorem Tries.taken_eq (h : row.Tries text) (hdone : row.answer = .done ()) :
    row.taken = text := by
  cases h with
  | ended hoffers hanswer => contradiction
  | flushed answer hoffers hwritten => exact hoffers.taken_eq hwritten

theorem Tries.answer_eq (h : row.Tries text) (hcalls : ∀ c ∈ row.calls, c.Succeeded) :
    row.answer = .done () := by
  cases h with
  | ended hoffers hanswer => exact absurd (hoffers.answer_eq hcalls) hanswer
  | flushed answer hoffers hdone =>
    exact hcalls (.flush answer) (List.mem_append_right _ List.mem_cons_self)

end Row

/-- A sink with the calls it got. -/
structure Watched (S : Type) where
  sink : S
  calls : List SinkCall

namespace Watched

variable {S : Type}

/-- The sink before any call. -/
def fresh (s : S) : Watched S := ⟨s, []⟩

variable [Sink S]

instance : Sink (Watched S) where
  write w offered :=
    let (sink, answer) := Sink.write w.sink offered
    (⟨sink, w.calls ++ [.write offered answer]⟩, answer)
  flush w :=
    let (sink, answer) := Sink.flush w.sink
    (⟨sink, w.calls ++ [.flush answer]⟩, answer)
  bytes w := Sink.bytes w.sink

/-- An operation gives the same on the sink watched as on the sink alone. The row
has the calls it made, the bytes taken and its answer. -/
structure Sees (w : Watched S) (row : Row) (watched : Watched S × Answer Unit)
    (alone : S × Answer Unit) : Prop where
  watched : watched = (⟨alone.1, w.calls ++ row.calls⟩, row.answer)
  answer : alone.2 = row.answer
  bytes : Sink.bytes alone.1 = Sink.bytes w.sink ++ row.taken

theorem write_eq (w : Watched S) (offered : Bytes) : Sink.write w offered =
    (⟨(Sink.write w.sink offered).1, w.calls ++ [.write offered (Sink.write w.sink offered).2]⟩,
      (Sink.write w.sink offered).2) := rfl

theorem flush_eq (w : Watched S) : Sink.flush w =
    (⟨(Sink.flush w.sink).1, w.calls ++ [.flush (Sink.flush w.sink).2]⟩,
      (Sink.flush w.sink).2) := rfl

variable [LawfulSink S]

/-- By induction on what is left to be written. -/
theorem exists_offers (w : Watched S) (text : Bytes) :
    ∃ row : Row, row.Offers text ∧ w.Sees row (Sink.writeAll w text) (Sink.writeAll w.sink text) := by
  match text with
  | [] =>
    rw [Sink.writeAll_nil, Sink.writeAll_nil]
    refine ⟨.none, .nothing, ?_, rfl, (List.append_nil _).symm⟩
    rw [Row.none, List.append_nil]
  | b :: rest =>
    have hne : b :: rest ≠ [] := List.cons_ne_nil b rest
    obtain ⟨taken, hprefix, hbytes, hcount⟩ := LawfulSink.write w.sink (b :: rest)
    rw [Sink.writeAll, Sink.writeAll, write_eq]
    cases hwrite : Sink.write w.sink (b :: rest) with
    | mk sink answer =>
      rw [hwrite] at hbytes hcount
      cases answer with
      | failed reason => exact ⟨_, .failed hne hprefix, rfl, rfl, hbytes⟩
      | crashed => exact ⟨_, .crashed hne hprefix, rfl, rfl, hbytes⟩
      | done n =>
        have hlength := hcount n rfl
        cases n with
        | zero =>
          rw [List.length_eq_zero_iff.1 hlength] at hbytes
          exact ⟨_, .zero hne, rfl, rfl, hbytes⟩
        | succ n =>
          -- the part taken is the one that is not offered again
          obtain ⟨left, hleft⟩ := hprefix
          have hdrop : rest.drop n = left := by
            rw [← List.drop_succ_cons (a := b), ← hleft, ← hlength, List.drop_left]
          have hsome : taken ≠ [] := by
            intro hnil
            rw [hnil] at hlength
            contradiction
          obtain ⟨row, hrow, hwatched, hanswer, hrest⟩ := exists_offers
            (⟨sink, w.calls ++ [.write (b :: rest) (.done (n + 1))]⟩ : Watched S) left
          have hpart := Row.Offers.part hsome hrow
          rw [hleft, hlength] at hpart
          dsimp only at hbytes hwatched hrest ⊢
          rw [hdrop]
          refine ⟨_, hpart, ?_, hanswer, ?_⟩
          · rw [hwatched, List.append_assoc]
            rfl
          · rw [hrest, hbytes, List.append_assoc]
termination_by text.length

theorem exists_tries (w : Watched S) (text : Bytes) :
    ∃ row : Row, row.Tries text ∧
      w.Sees row (Sink.writeFlushed w text) (Sink.writeFlushed w.sink text) := by
  obtain ⟨row, hrow, hwatched, halone, hbytes⟩ := exists_offers w text
  have hanswer : (Sink.writeAll w text).2 = row.answer := by rw [hwatched]
  by_cases hdone : row.answer = .done ()
  · rw [Sink.writeFlushed_of_done (hanswer.trans hdone),
      Sink.writeFlushed_of_done (halone.trans hdone), hwatched, flush_eq]
    refine ⟨_, .flushed (Sink.flush (Sink.writeAll w.sink text).1).2 hrow hdone, ?_, rfl, ?_⟩
    · rw [List.append_assoc]
    · rw [LawfulSink.flush, hbytes]
  · rw [Sink.writeFlushed_of_ne_done (hanswer ▸ hdone),
      Sink.writeFlushed_of_ne_done (halone ▸ hdone)]
    exact ⟨row, .ended hrow hdone, hwatched, halone, hbytes⟩

end Watched
end LoggingFacade
