import BoundSql.Monitor.Stats
import Mathlib.Algebra.GroupWithZero.Nat
import Mathlib.Algebra.Order.BigOperators.Group.List
import Mathlib.Algebra.Order.Group.Nat

/-!
# What statistics say

The statistics of a history are a summary of the events since its last reset
(`Tally.summarizes_ofHistory`), as long as these are fewer than `2 ^ 64`.  `Stats.Summarizes` says
what a summary is, event by event.

The words themselves know no such bound, so each kind of word has a law for all histories:

* a word that counts gives the number of events that it counts, up to wrapping around
  (`Tally.counts_foldl`, for all seven of them);
* the sum of durations is the true sum, at most the greatest word (`Tally.toNat_totalNanos_foldl`);
* the greatest duration is the true one (`Tally.toNat_maxNanos_foldl`);
* the slowest statement is the first that took the greatest duration (`Tally.KeepsSlowest.run`).

Each is an induction on the events from the law of one event.
-/

namespace BoundSql.Monitor

/-! ## Events -/

namespace Event

/-- A statement has completed. -/
def isCompletion : Event → Bool
  | .completed .. => true
  | _ => false

/-- A statement of a kind has completed. -/
def completes (k : Kind) : Event → Bool
  | .completed c _ _ => c.kind == k
  | _ => false

/-- A statement has completed with an error. -/
def isFailure : Event → Bool
  | .completed _ _ (.error _) => true
  | _ => false

/-- A statement was slow. -/
def isSlow : Event → Bool
  | .slow .. => true
  | _ => false

end Event

/-- The durations of the completed statements in nanoseconds, each at most `2 ^ 64 - 1`. -/
def durations (es : List Event) : List Nat :=
  es.filterMap fun
    | .completed _ d _ => some (min d.nanos (2 ^ 64 - 1))
    | _ => none

theorem durations_append (es fs : List Event) :
    durations (es ++ fs) = durations es ++ durations fs :=
  List.filterMap_append

/-- Every completed statement is of one kind. -/
theorem countP_completes (es : List Event) :
    es.countP (Event.completes .select) + es.countP (Event.completes .insert) +
      es.countP (Event.completes .update) + es.countP (Event.completes .delete) +
      es.countP (Event.completes .other) = es.countP Event.isCompletion := by
  induction es with
  | nil => rfl
  | cons e es ih =>
    rcases e with c | ⟨c, d, r⟩ | ⟨c, d⟩
    · simpa [Event.completes, Event.isCompletion] using ih
    · have counts : Event.isCompletion (.completed c d r) = true := rfl
      rw [List.countP_cons_of_pos counts, ← ih]
      cases kind : c.kind <;> simp [Event.completes, kind] <;> omega
    · simpa [Event.completes, Event.isCompletion] using ih

/-- A statement completed after less than the greatest duration was reached, and none completed
later took longer: it is the first of the slowest. -/
def FirstSlowest (es : List Event) (c : Context) (d : Duration) : Prop :=
  ∃ before r after, es = before ++ .completed c d r :: after ∧
    (∀ n ∈ durations before, n < min d.nanos (2 ^ 64 - 1)) ∧
    ∀ n ∈ durations after, n ≤ min d.nanos (2 ^ 64 - 1)

/-- No other statement becomes the first of the slowest by events that take no longer. -/
theorem FirstSlowest.append {es : List Event} {c : Context} {d : Duration}
    (first : FirstSlowest es c d) {fs : List Event}
    (quick : ∀ n ∈ durations fs, n ≤ min d.nanos (2 ^ 64 - 1)) : FirstSlowest (es ++ fs) c d := by
  obtain ⟨before, r, after, rfl, less, most⟩ := first
  refine ⟨before, r, after ++ fs, by simp, less, fun n inside => ?_⟩
  rw [durations_append, List.mem_append] at inside
  exact inside.elim (most n) (quick n)

/-! ## Summaries -/

/-- Statistics are the summary of events. -/
structure Stats.Summarizes (s : Stats) (es : List Event) : Prop where
  total : s.total = es.countP Event.isCompletion
  selects : s.selects = es.countP (Event.completes .select)
  inserts : s.inserts = es.countP (Event.completes .insert)
  updates : s.updates = es.countP (Event.completes .update)
  deletes : s.deletes = es.countP (Event.completes .delete)
  kinds : s.selects + s.inserts + s.updates + s.deletes =
    s.total - es.countP (Event.completes .other)
  failed : s.failed = es.countP Event.isFailure
  slow : s.slow = es.countP Event.isSlow
  totalDuration : s.totalDuration.nanos = min (durations es).sum (2 ^ 64 - 1)
  maxDuration : s.maxDuration.nanos = (durations es).foldl max 0
  max_le_total : s.maxDuration.nanos ≤ s.totalDuration.nanos
  /-- No statement is the slowest unless one took its time. -/
  slowest : s.maxDuration.nanos = 0 ∧ s.slowest? = none ∨
    0 < s.maxDuration.nanos ∧ ∃ c d, FirstSlowest es c d ∧
      min d.nanos (2 ^ 64 - 1) = s.maxDuration.nanos ∧ s.slowest? = some c.sql

theorem foldl_max_le {ns : List Nat} {start bound : Nat} (small : start ≤ bound)
    (le : ∀ n ∈ ns, n ≤ bound) : ns.foldl max start ≤ bound := by
  induction ns generalizing start with
  | nil => exact small
  | cons n ns ih =>
    exact ih (max_le small (le n List.mem_cons_self)) fun m inside =>
      le m (List.mem_cons_of_mem n inside)

theorem le_of_mem_durations {es : List Event} {n : Nat} (inside : n ∈ durations es) :
    n ≤ 2 ^ 64 - 1 := by
  obtain ⟨e, -, found⟩ := List.mem_filterMap.mp inside
  rcases e with c | ⟨c, d, r⟩ | ⟨c, d⟩ <;> cases found
  exact min_le_right _ _

/-- One duration is at most the sum of all, and at most the greatest word. -/
theorem foldl_max_durations_le (es : List Event) :
    (durations es).foldl max 0 ≤ min (durations es).sum (2 ^ 64 - 1) :=
  foldl_max_le (Nat.zero_le _) fun n inside =>
    le_min (List.single_le_sum (fun m _ => Nat.zero_le m) n inside) (le_of_mem_durations inside)

namespace Tally

/-! ## One event -/

/-- The word of a duration is its nanoseconds, if they fit, and otherwise the greatest word. -/
theorem toNat_clampedNanos (d : Duration) :
    (UInt64.ofNat d.clampedNanos).toNat = min d.nanos (2 ^ 64 - 1) := by
  have clamped : d.clampedNanos ≤ 2 ^ 64 - 1 := min_le_right _ _
  exact UInt64.toNat_ofNat_of_lt' (Nat.lt_of_le_of_lt clamped (by decide))

/-- **The sum does not wrap around**: it is the true sum, or the greatest word. -/
theorem toNat_addDuration (t : Tally) (nanos : UInt64) :
    (t.addDuration nanos).totalNanos.toNat =
      min (t.totalNanos.toNat + nanos.toNat) (2 ^ 64 - 1) := by
  have size : UInt64.size = 2 ^ 64 := rfl
  have greatest : Duration.greatestWord = 2 ^ 64 - 1 := rfl
  rw [addDuration]
  split
  · next fits =>
    rw [UInt64.toNat_add, Nat.mod_eq_of_lt fits]
    omega
  · next wraps =>
    rw [UInt64.toNat_ofNat_of_lt' (by decide)]
    omega

theorem toNat_keepSlowest (t : Tally) (sql : String) (nanos : UInt64) :
    (t.keepSlowest sql nanos).maxNanos.toNat = max t.maxNanos.toNat nanos.toNat := by
  rw [keepSlowest]
  split
  · next more => exact (max_eq_right (UInt64.lt_iff_toNat_lt.mp more).le).symm
  · next less => exact (max_eq_left (UInt64.le_iff_toNat_le.mp (UInt64.not_lt.mp less))).symm

/-- One more, if it counts. -/
def plus (word : UInt64) (counts : Bool) : UInt64 :=
  if counts then word + 1 else word

/-- **What a completion does** to the words, one by one. -/
theorem receive_completed (t : Tally) (c : Context) (d : Duration) (r : Result) :
    t.receive (.completed c d r) =
      let nanos := UInt64.ofNat d.clampedNanos
      { total := t.total + 1
        failed := plus t.failed r.isError
        slow := t.slow
        totalNanos := (t.addDuration nanos).totalNanos
        selects := plus t.selects (c.kind == .select)
        inserts := plus t.inserts (c.kind == .insert)
        updates := plus t.updates (c.kind == .update)
        deletes := plus t.deletes (c.kind == .delete)
        maxNanos := (t.keepSlowest c.sql nanos).maxNanos
        slowest? := (t.keepSlowest c.sql nanos).slowest? } := by
  simp only [receive, addDuration, countFailure, keepSlowest, plus]
  cases c.kind <;> simp only [countKind] <;> grind

/-- The seven words that count go up by one for the events that they count. -/
theorem counts_receive (t : Tally) (e : Event) :
    (t.receive e).total = plus t.total e.isCompletion ∧
    (t.receive e).failed = plus t.failed e.isFailure ∧
    (t.receive e).slow = plus t.slow e.isSlow ∧
    (t.receive e).selects = plus t.selects (e.completes .select) ∧
    (t.receive e).inserts = plus t.inserts (e.completes .insert) ∧
    (t.receive e).updates = plus t.updates (e.completes .update) ∧
    (t.receive e).deletes = plus t.deletes (e.completes .delete) := by
  rcases e with c | ⟨c, d, r⟩ | ⟨c, d⟩
  · exact ⟨rfl, rfl, rfl, rfl, rfl, rfl, rfl⟩
  · have failed : Event.isFailure (.completed c d r) = r.isError := by cases r <;> rfl
    rw [receive_completed, failed]
    exact ⟨rfl, rfl, rfl, rfl, rfl, rfl, rfl⟩
  · exact ⟨rfl, rfl, rfl, rfl, rfl, rfl, rfl⟩

/-! ## Events in turn -/

/-- What counts may as well be added to what is counted later. -/
theorem plus_add (word : UInt64) (counts : Bool) (later : Nat) :
    plus word counts + UInt64.ofNat later =
      word + UInt64.ofNat (later + if counts then 1 else 0) := by
  rw [Nat.add_comm, UInt64.ofNat_add, ← UInt64.add_assoc, plus]
  split <;> simp

/-- **A word that counts** gives the number of events that it counts, up to wrapping around. -/
theorem counts_foldl {word : Tally → UInt64} {counts : Event → Bool}
    (step : ∀ t e, word (t.receive e) = plus (word t) (counts e)) (t : Tally) (es : List Event) :
    word (es.foldl receive t) = word t + UInt64.ofNat (es.countP counts) := by
  induction es generalizing t with
  | nil => simp
  | cons e es ih => rw [List.foldl_cons, ih, step, List.countP_cons, plus_add]

/-- The sum of durations is the true sum, or the greatest word. -/
theorem toNat_totalNanos_foldl (t : Tally) (es : List Event) :
    (es.foldl receive t).totalNanos.toNat =
      min (t.totalNanos.toNat + (durations es).sum) (2 ^ 64 - 1) := by
  induction es generalizing t with
  | nil =>
    have word : t.totalNanos.toNat ≤ 2 ^ 64 - 1 := Nat.le_sub_one_of_lt (UInt64.toNat_lt_size _)
    exact (min_eq_left word).symm
  | cons e es ih =>
    rw [List.foldl_cons, ih]
    rcases e with c | ⟨c, d, r⟩ | ⟨c, d⟩
    · rfl
    · have sum : (durations (.completed c d r :: es)).sum =
          min d.nanos (2 ^ 64 - 1) + (durations es).sum := rfl
      rw [receive_completed, toNat_addDuration, toNat_clampedNanos, sum]
      omega
    · rfl

/-- The greatest duration is the true one. -/
theorem toNat_maxNanos_foldl (t : Tally) (es : List Event) :
    (es.foldl receive t).maxNanos.toNat = (durations es).foldl max t.maxNanos.toNat := by
  induction es generalizing t with
  | nil => rfl
  | cons e es ih =>
    rw [List.foldl_cons, ih]
    rcases e with c | ⟨c, d, r⟩ | ⟨c, d⟩
    · rfl
    · have durations : durations (.completed c d r :: es) =
          min d.nanos (2 ^ 64 - 1) :: durations es := rfl
      rw [receive_completed, toNat_keepSlowest, toNat_clampedNanos, durations, List.foldl_cons]
    · rfl

/-- After events, the slowest statement is the first that took the greatest duration. -/
structure KeepsSlowest (es : List Event) (t : Tally) : Prop where
  greatest : ∀ n ∈ durations es, n ≤ t.maxNanos.toNat
  kept : t.maxNanos.toNat = 0 ∧ t.slowest? = none ∨
    0 < t.maxNanos.toNat ∧ ∃ c d, FirstSlowest es c d ∧
      min d.nanos (2 ^ 64 - 1) = t.maxNanos.toNat ∧ t.slowest? = some c.sql

/-- An event that is no completion leaves the slowest statement as it is. -/
theorem KeepsSlowest.other {past : List Event} {t t' : Tally} (keeps : KeepsSlowest past t)
    {e : Event} (untimed : durations [e] = []) (sameNanos : t'.maxNanos = t.maxNanos)
    (sameSql : t'.slowest? = t.slowest?) : KeepsSlowest (past ++ [e]) t' := by
  obtain ⟨greatest, kept⟩ := keeps
  constructor
  · rwa [durations_append, untimed, List.append_nil, sameNanos]
  · rw [sameNanos, sameSql]
    refine kept.imp_right fun ⟨pos, c, d, first, rest⟩ => ⟨pos, c, d, first.append ?_, rest⟩
    rw [untimed]
    exact fun _ => nofun

theorem KeepsSlowest.step {past : List Event} {t : Tally} (keeps : KeepsSlowest past t)
    (e : Event) : KeepsSlowest (past ++ [e]) (t.receive e) := by
  rcases e with c | ⟨c, d, r⟩ | ⟨c, d⟩
  · exact keeps.other rfl rfl rfl
  · obtain ⟨greatest, kept⟩ := keeps
    have one : durations [.completed c d r] = [min d.nanos (2 ^ 64 - 1)] := rfl
    have word := toNat_clampedNanos d
    rw [receive_completed]
    by_cases more : t.maxNanos < UInt64.ofNat d.clampedNanos
    · have less : t.maxNanos.toNat < min d.nanos (2 ^ 64 - 1) := by
        rw [← word]
        exact UInt64.lt_iff_toNat_lt.mp more
      have first : FirstSlowest (past ++ [.completed c d r]) c d :=
        ⟨past, r, [], rfl, fun n inside => (greatest n inside).trans_lt less, fun _ => nofun⟩
      constructor
      · simp only [keepSlowest, if_pos more, word, durations_append, one, List.mem_append,
          List.mem_singleton]
        rintro n (inside | rfl)
        · exact ((greatest n inside).trans_lt less).le
        · exact le_rfl
      · simp only [keepSlowest, if_pos more, word]
        exact .inr ⟨Nat.zero_lt_of_lt less, c, d, first, rfl, rfl⟩
    · have most : min d.nanos (2 ^ 64 - 1) ≤ t.maxNanos.toNat := by
        rw [← word]
        exact UInt64.le_iff_toNat_le.mp (UInt64.not_lt.mp more)
      constructor
      · simp only [keepSlowest, if_neg more, durations_append, one, List.mem_append,
          List.mem_singleton]
        rintro n (inside | rfl)
        · exact greatest n inside
        · exact most
      · simp only [keepSlowest, if_neg more]
        refine kept.imp_right fun ⟨pos, c', d', first, same, slowest⟩ =>
          ⟨pos, c', d', first.append ?_, same, slowest⟩
        rw [one, same]
        exact fun n inside => List.mem_singleton.mp inside ▸ most
  · exact keeps.other rfl rfl rfl

theorem KeepsSlowest.run {past : List Event} {t : Tally} (keeps : KeepsSlowest past t)
    (es : List Event) : KeepsSlowest (past ++ es) (es.foldl receive t) := by
  induction es generalizing past t with
  | nil =>
    rw [List.append_nil]
    exact keeps
  | cons e es ih =>
    rw [List.append_cons]
    exact ih (keeps.step e)

/-! ## Histories -/

/-- The events since the last reset. -/
def sinceReset : List Entry → List Event
  | [] => []
  | .reset :: rest => sinceReset rest
  | .event e :: rest => if .reset ∈ rest then sinceReset rest else e :: sinceReset rest

theorem foldl_step (t : Tally) (entries : List Entry) :
    entries.foldl step t =
      (sinceReset entries).foldl receive (if .reset ∈ entries then zero else t) := by
  induction entries generalizing t with
  | nil => rfl
  | cons entry rest ih =>
    rw [List.foldl_cons, ih]
    rcases entry with e | _
    · by_cases reset : .reset ∈ rest <;> simp [sinceReset, reset, step]
    · simp [sinceReset, step]

/-- A history is worth the events since its last reset. -/
theorem ofHistory_eq (entries : List Entry) :
    ofHistory entries = (sinceReset entries).foldl receive zero := by
  rw [ofHistory, foldl_step, ite_self]

/-- A word that counts few events does not wrap around. -/
theorem toNat_counts {word : Tally → UInt64} {counts : Event → Bool}
    (step : ∀ t e, word (t.receive e) = plus (word t) (counts e)) (start : word zero = 0)
    {es : List Event} (few : es.length < UInt64.size) :
    (word (es.foldl receive zero)).toNat = es.countP counts := by
  rw [counts_foldl step, start, UInt64.zero_add]
  exact UInt64.toNat_ofNat_of_lt' (List.countP_le_length.trans_lt few)

/-- The statistics of few events are their summary. -/
theorem summarizes_foldl {es : List Event} (few : es.length < UInt64.size) :
    (es.foldl receive zero).stats.Summarizes es := by
  have total := toNat_counts (fun t e => (counts_receive t e).1) rfl few
  have failed := toNat_counts (fun t e => (counts_receive t e).2.1) rfl few
  have slow := toNat_counts (fun t e => (counts_receive t e).2.2.1) rfl few
  have selects := toNat_counts (fun t e => (counts_receive t e).2.2.2.1) rfl few
  have inserts := toNat_counts (fun t e => (counts_receive t e).2.2.2.2.1) rfl few
  have updates := toNat_counts (fun t e => (counts_receive t e).2.2.2.2.2.1) rfl few
  have deletes := toNat_counts (fun t e => (counts_receive t e).2.2.2.2.2.2) rfl few
  have sum : (es.foldl receive zero).totalNanos.toNat = min (durations es).sum (2 ^ 64 - 1) := by
    rw [toNat_totalNanos_foldl]
    exact congrArg (min · (2 ^ 64 - 1)) (Nat.zero_add _)
  have greatest : (es.foldl receive zero).maxNanos.toNat = (durations es).foldl max 0 :=
    toNat_maxNanos_foldl zero es
  have kinds : (es.foldl receive zero).selects.toNat + (es.foldl receive zero).inserts.toNat +
      (es.foldl receive zero).updates.toNat + (es.foldl receive zero).deletes.toNat =
      (es.foldl receive zero).total.toNat - es.countP (Event.completes .other) := by
    rw [selects, inserts, updates, deletes, total, ← countP_completes]
    omega
  have start : KeepsSlowest [] zero := ⟨fun _ => nofun, .inl ⟨rfl, rfl⟩⟩
  exact {
    total, failed, slow, selects, inserts, updates, deletes, kinds
    totalDuration := sum
    maxDuration := greatest
    max_le_total := by
      simp only [stats, sum, greatest]
      exact foldl_max_durations_le es
    slowest := (start.run es).kept }

/-- **Statistics are the summary of their history**: they depend on nothing but the events since
the last reset, and when these are fewer than `2 ^ 64`, they are the summary of these events. -/
theorem summarizes_ofHistory (entries : List Entry) :
    (∀ others, sinceReset others = sinceReset entries →
      (ofHistory others).stats = (ofHistory entries).stats) ∧
    ((sinceReset entries).length < 2 ^ 64 →
      (ofHistory entries).stats.Summarizes (sinceReset entries)) := by
  refine ⟨fun others same => ?_, fun few => ?_⟩
  · rw [ofHistory_eq, ofHistory_eq, same]
  · rw [ofHistory_eq]
    exact summarizes_foldl few

/-- After a reset, a SELECT that took no time, a DELETE and an INSERT that took five nanoseconds
each, an UPDATE that failed after two, and something that is no statement: the DELETE was the
slowest.  Then two statements that took longer than a word can hold, of which the first is the
slowest. -/
theorem summarizes_ofHistory_full :
    let select := Event.completed (.of "SELECT A" 0) ⟨0⟩ (.rows 1)
    let short : List Event :=
      [select, .completed (.of "DELETE" 1) ⟨5⟩ (.affected 0), .slow (.of "DELETE" 1) ⟨5⟩,
        .completed (.of "INSERT" 0) ⟨5⟩ (.affected 1),
        .completed (.of "UPDATE T" 1) ⟨2⟩ (.error "locked"),
        .completed (.of "PRAGMA" 0) ⟨3⟩ (.affected 0)]
    let long : List Event :=
      [.completed (.of "UPDATE T" 1) ⟨2 ^ 64⟩ (.affected 2),
        .completed (.of "SELECT B" 0) ⟨2 ^ 64 + 1⟩ (.rows 0)]
    let entries (es : List Event) : List Entry := [.event select, .reset] ++ es.map .event
    (sinceReset (entries short) = short ∧
      (ofHistory (entries short)).stats = (ofHistory (short.map .event)).stats ∧
      (ofHistory (entries short)).stats.Summarizes short ∧ (ofHistory (entries short)).stats =
        { total := 5, failed := 1, slow := 1, selects := 1, inserts := 1, updates := 1, deletes := 1
          totalDuration := ⟨15⟩, maxDuration := ⟨5⟩, slowest? := some "DELETE" }) ∧
    (ofHistory (entries (short ++ long))).stats.Summarizes (short ++ long) ∧
      (ofHistory (entries (short ++ long))).stats =
        { total := 7, failed := 1, slow := 1, selects := 2, inserts := 1, updates := 2, deletes := 1
          totalDuration := ⟨2 ^ 64 - 1⟩, maxDuration := ⟨2 ^ 64 - 1⟩
          slowest? := some "UPDATE T" } := by
  intro select short long entries
  have since : sinceReset (entries short) = short := by decide
  refine ⟨⟨since, (summarizes_ofHistory (short.map .event)).1 (entries short) ?_,
    (summarizes_ofHistory (entries short)).2 ?_, ?_⟩,
    (summarizes_ofHistory (entries (short ++ long))).2 ?_, ?_⟩ <;> decide

end Tally

end BoundSql.Monitor
