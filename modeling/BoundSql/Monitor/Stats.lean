import BoundSql.Monitor.Event

/-! # Statistics

A statistics monitor counts events in words of 64 bits, which wrap around (`Tally`), and hands out
what the words say (`Stats`).  A reset starts it anew.

A duration that is too long for a word counts as the greatest word.  The sum of the durations wraps
around like every word, and when it has, the greatest word is put in its place, so it stays there.
The slowest statement changes only when a duration is strictly greater than all before it.
-/

namespace BoundSql.Monitor

/-- What statistics say. -/
structure Stats where
  total : Nat
  failed : Nat
  slow : Nat
  selects : Nat
  inserts : Nat
  updates : Nat
  deletes : Nat
  totalDuration : Duration
  maxDuration : Duration
  slowest? : Option String
  deriving DecidableEq, Repr

/-- The words of a statistics monitor; durations are in nanoseconds. -/
structure Tally where
  total : UInt64 := 0
  failed : UInt64 := 0
  slow : UInt64 := 0
  totalNanos : UInt64 := 0
  selects : UInt64 := 0
  inserts : UInt64 := 0
  updates : UInt64 := 0
  deletes : UInt64 := 0
  maxNanos : UInt64 := 0
  slowest? : Option String := none
  deriving DecidableEq, Repr

namespace Tally

/-- Nothing seen yet. -/
def zero : Tally := {}

/-- Add a duration to the sum; a sum that wrapped around becomes the greatest word. -/
def addDuration (t : Tally) (nanos : UInt64) : Tally :=
  let wrapped := { t with totalNanos := t.totalNanos + nanos }
  if t.totalNanos.toNat + nanos.toNat < UInt64.size then wrapped
  else { wrapped with totalNanos := UInt64.ofNat Duration.greatestWord }

/-- Count a statement under its kind. -/
def countKind (t : Tally) : Kind → Tally
  | .select => { t with selects := t.selects + 1 }
  | .insert => { t with inserts := t.inserts + 1 }
  | .update => { t with updates := t.updates + 1 }
  | .delete => { t with deletes := t.deletes + 1 }
  | .other => t

/-- Count a failure. -/
def countFailure (t : Tally) (r : Result) : Tally :=
  if r.isError then { t with failed := t.failed + 1 } else t

/-- Keep the greatest duration, with the statement that took it first. -/
def keepSlowest (t : Tally) (sql : String) (nanos : UInt64) : Tally :=
  if t.maxNanos < nanos then { t with maxNanos := nanos, slowest? := some sql } else t

/-- The words after one more event. -/
def receive (t : Tally) : Event → Tally
  | .started _ => t
  | .completed c d r =>
    let nanos := UInt64.ofNat d.clampedNanos
    let counted := { t with total := t.total + 1 }
    (((counted.addDuration nanos).countKind c.kind).countFailure r).keepSlowest c.sql nanos
  | .slow _ _ => { t with slow := t.slow + 1 }

/-- What the words say. -/
def stats (t : Tally) : Stats where
  total := t.total.toNat
  failed := t.failed.toNat
  slow := t.slow.toNat
  selects := t.selects.toNat
  inserts := t.inserts.toNat
  updates := t.updates.toNat
  deletes := t.deletes.toNat
  totalDuration := ⟨t.totalNanos.toNat⟩
  maxDuration := ⟨t.maxNanos.toNat⟩
  slowest? := t.slowest?

/-- What happens to a statistics monitor: an event, or a reset. -/
inductive Entry where
  | event (e : Event)
  | reset
  deriving DecidableEq, Repr

/-- The words after an entry of the history. -/
def step (t : Tally) : Entry → Tally
  | .event e => t.receive e
  | .reset => zero

/-- The words after a history. -/
def ofHistory (entries : List Entry) : Tally :=
  entries.foldl step zero

end Tally

end BoundSql.Monitor
