import LoggingFacade.Text.Utf8

/-!
# Byte sinks

A sink takes bytes, perhaps fewer than it is given, and can be flushed. Writing
all of a text repeats until nothing is left; a sink that takes nothing of a
non-empty rest has failed. What a sink took before it failed stays in it.
-/

namespace LoggingFacade

open Text (Bytes)

/-- How one call of a sink ends. -/
inductive Answer (α : Type) where
  | done (value : α)
  | failed (reason : String)
  | crashed
  deriving DecidableEq, Repr

class Sink (S : Type) where
  /-- Offers bytes; the answer counts those that were taken. -/
  write : S → Bytes → S × Answer Nat
  flush : S → S × Answer Unit
  /-- All bytes taken so far. -/
  bytes : S → Bytes

namespace Sink

variable {S : Type} [Sink S]

def nothingTaken : String := "failed to write whole buffer"

/-- Offers what is left until the sink has taken all of it. -/
def writeAll (s : S) (bytes : Bytes) : S × Answer Unit :=
  match bytes with
  | [] => (s, .done ())
  | b :: rest =>
    match write s (b :: rest) with
    | (s, .done 0) => (s, .failed nothingTaken)
    | (s, .done (n + 1)) => writeAll s (rest.drop n)
    | (s, .failed reason) => (s, .failed reason)
    | (s, .crashed) => (s, .crashed)
termination_by bytes.length
decreasing_by simp +arith

/-- Writes all bytes, then flushes. -/
def writeFlushed (s : S) (bytes : Bytes) : S × Answer Unit :=
  match writeAll s bytes with
  | (s, .done ()) => flush s
  | (s, .failed reason) => (s, .failed reason)
  | (s, .crashed) => (s, .crashed)

@[simp] theorem writeAll_nil (s : S) : writeAll s [] = (s, .done ()) := by
  rw [writeAll]

end Sink

/-- A sink that takes everything. -/
structure Buffer where
  bytes : Bytes
  deriving DecidableEq, Repr

namespace Buffer

def empty : Buffer := ⟨[]⟩

instance : Sink Buffer where
  write b offered := (⟨b.bytes ++ offered⟩, .done offered.length)
  flush b := (b, .done ())
  bytes := Buffer.bytes

@[simp] theorem writeAll_eq (b : Buffer) (bytes : Bytes) :
    Sink.writeAll b bytes = (⟨b.bytes ++ bytes⟩, .done ()) := by
  cases bytes with
  | nil => simp
  | cons x rest => rw [Sink.writeAll]; simp [Sink.write]

@[simp] theorem writeFlushed_eq (b : Buffer) (bytes : Bytes) :
    Sink.writeFlushed b bytes = (⟨b.bytes ++ bytes⟩, .done ()) := by
  simp [Sink.writeFlushed, Sink.flush]

end Buffer

/-- What a scripted sink does with one write. -/
inductive WriteStep where
  | whole
  | atMost (count : Nat)
  | refuse
  | crash
  deriving DecidableEq, Repr

/-- What a scripted sink does with one flush. -/
inductive FlushStep where
  | accept
  | refuse
  | crash
  deriving DecidableEq, Repr

/-- A sink whose faults are given beforehand, call by call. After the end of
its scripts it is without faults. -/
structure ScriptedSink where
  data : Bytes
  writes : List WriteStep
  flushes : List FlushStep
  deriving DecidableEq, Repr

namespace ScriptedSink

def writeRefusal : String := "sink full"

def flushRefusal : String := "flush failed"

def take (s : ScriptedSink) (offered : Bytes) (count : Nat) : ScriptedSink × Answer Nat :=
  let taken := offered.take count
  ({ s with data := s.data ++ taken }, .done taken.length)

def write (s : ScriptedSink) (offered : Bytes) : ScriptedSink × Answer Nat :=
  let rest := { s with writes := s.writes.drop 1 }
  match s.writes.head? with
  | some (.atMost count) => rest.take offered count
  | some .refuse => (rest, .failed writeRefusal)
  | some .crash => (rest, .crashed)
  | _ => rest.take offered offered.length

def flush (s : ScriptedSink) : ScriptedSink × Answer Unit :=
  let rest := { s with flushes := s.flushes.drop 1 }
  match s.flushes.head? with
  | some .refuse => (rest, .failed flushRefusal)
  | some .crash => (rest, .crashed)
  | _ => (rest, .done ())

instance : Sink ScriptedSink where
  write := write
  flush := flush
  bytes := data

end ScriptedSink
end LoggingFacade
