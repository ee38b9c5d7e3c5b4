import BoundSql.Monitor.Logging
import BoundSql.Proofs.Encoding
import BoundSql.Proofs.Statistics

/-!
# Durations in the log

What a logging monitor writes for an event holds the duration in whole microseconds, of which the
lower 64 bits are kept (`Logging.reports_iff`).  Statistics narrow durations too, but clamp them, so
that a longer duration never counts as a shorter one.  In the log the shortest duration that is too
long for a word, `Duration.tooLong`, is reported as 0: less than any duration before it, and less
than the least duration of the monitor, which is compared before narrowing.

So whatever a reader of the log may conclude from the numbers for all durations up to a bound, it
holds if and only if the microseconds of the bound fit a word (`Logging.durations_kept_iff`).  Each
way from the left is one event of `Duration.tooLong`; each way from the right is that narrowing
changes nothing (`Duration.microsWord_of_fits`).
-/

namespace BoundSql

/-! ## Microseconds -/

namespace Duration

/-- The whole microseconds of a span. -/
def micros (d : Duration) : Nat :=
  d.nanos / 1000

/-- The whole microseconds of a span, at most those that a word of 64 bits holds. -/
def clampedMicros (d : Duration) : Nat :=
  min d.micros (2 ^ 64 - 1)

/-- The whole microseconds of a span are a word of 64 bits. -/
def Fits (d : Duration) : Prop :=
  d.micros < UInt64.size

/-- The shortest span that does not fit. -/
def tooLong : Duration :=
  ⟨UInt64.size * 1000⟩

/-- The longest span of whole seconds in a word, and nanoseconds beyond them. -/
def greatest : Duration :=
  .of (UInt64.size - 1) 999999999

variable {d bound : Duration}

theorem micros_mono (le : d.nanos ≤ bound.nanos) : d.micros ≤ bound.micros :=
  Nat.div_le_div_right le

theorem Fits.mono (fits : bound.Fits) (le : d.nanos ≤ bound.nanos) : d.Fits :=
  Nat.lt_of_le_of_lt (micros_mono le) fits

theorem microsWord_of_fits (fits : d.Fits) : d.microsWord = d.micros :=
  Nat.mod_eq_of_lt fits

theorem clampedMicros_of_fits (fits : d.Fits) : d.clampedMicros = d.micros :=
  min_eq_left (Nat.le_sub_one_of_lt fits)

/-- The word is what clamping gives only if it fits, or by chance. -/
theorem microsWord_eq_clampedMicros_iff :
    d.microsWord = d.clampedMicros ↔ d.Fits ∨ d.microsWord = 2 ^ 64 - 1 := by
  by_cases fits : d.Fits
  · simp only [microsWord_of_fits fits, clampedMicros_of_fits fits, fits, true_or]
  · have clamped : d.clampedMicros = 2 ^ 64 - 1 :=
      min_eq_right ((Nat.sub_le _ _).trans (Nat.le_of_not_lt fits))
    simp only [clamped, fits, false_or]

theorem not_fits_iff : ¬ d.Fits ↔ tooLong.nanos ≤ d.nanos := by
  rw [Fits, Nat.not_lt, micros, Nat.le_div_iff_mul_le (by decide)]
  rfl

/-- The word of the shortest span that does not fit has lost all there was. -/
theorem microsWord_tooLong : tooLong.microsWord = 0 := by
  rw [microsWord, tooLong, Nat.mul_div_cancel _ (by decide), Nat.mod_self]

end Duration

/-! ## Entries -/

namespace LogEntry

/-- The text of a field. -/
def field? (entry : LogEntry) (name : String) : Option String :=
  entry.fields.lookup name

/-- The microseconds that an entry reports. -/
def micros? (entry : LogEntry) : Option Nat :=
  (entry.field? "duration_us").bind Decimal.natural?

@[simp] theorem micros?_completed (level : Level) (c : Monitor.Context) (d : Duration)
    (r : Monitor.Result) (sql : String) :
    (completed level c d r sql).micros? = some d.microsWord :=
  Decimal.natural?_natural d.microsWord

@[simp] theorem micros?_slow (c : Monitor.Context) (d : Duration) (sql : String) :
    (slow c d sql).micros? = some d.microsWord :=
  Decimal.natural?_natural d.microsWord

end LogEntry

namespace Monitor

/-- How long the statement of an event has taken, once it has run. -/
def Event.duration? : Event → Option Duration
  | .started _ => none
  | .completed _ d _ => some d
  | .slow _ d => some d

namespace Logging

variable {l : Logging} {bound : Duration}

/-- Something is written for an event: for a completion that took the least duration, if there is
one, and for everything that was slow. -/
def Writes (l : Logging) : Event → Prop
  | .started _ => False
  | .completed _ d _ => ∀ least ∈ l.minDuration?, least.nanos ≤ d.nanos
  | .slow _ _ => True

theorem leavesOut_eq_false_iff {d : Duration} :
    l.leavesOut d = false ↔ ∀ least ∈ l.minDuration?, least.nanos ≤ d.nanos := by
  rw [leavesOut]
  cases l.minDuration? <;> simp

/-- An event of a duration is written, with a number of microseconds. -/
def Reports (l : Logging) (e : Event) (d : Duration) (n : Nat) : Prop :=
  e.duration? = some d ∧ ∃ entry ∈ l.entries e, entry.micros? = some n

/-- **What is reported**: the lower 64 bits of the whole microseconds. -/
theorem reports_iff {e : Event} {d : Duration} {n : Nat} :
    l.Reports e d n ↔ e.duration? = some d ∧ l.Writes e ∧ n = d.microsWord := by
  refine and_congr_right fun takes => ?_
  rcases e with c | ⟨c, d', r⟩ | ⟨c, d'⟩
  · cases takes
  · cases takes
    rw [Writes, ← leavesOut_eq_false_iff]
    cases out : l.leavesOut d <;> simp [entries, out, eq_comm]
  · cases takes
    simp [entries, Writes, eq_comm]

/-- A slow statement is always reported. -/
theorem reports_slow (l : Logging) (c : Context) (d : Duration) :
    l.Reports (.slow c d) d d.microsWord :=
  reports_iff.mpr ⟨rfl, trivial, rfl⟩

/-! ## What the numbers tell -/

/-- Among durations up to a bound, a longer one is not reported as a shorter one. -/
def Ordered (l : Logging) (bound : Duration) : Prop :=
  ∀ e f d d' n n', l.Reports e d n → l.Reports f d' n' →
    d.nanos ≤ d'.nanos → d'.nanos ≤ bound.nanos → n ≤ n'

/-- Durations up to a bound are reported as they are, or as the greatest word. -/
def Clamped (l : Logging) (bound : Duration) : Prop :=
  ∀ e d n, l.Reports e d n → d.nanos ≤ bound.nanos → n = d.clampedMicros

/-- Completions that take a duration up to a bound are not reported as less than the least one. -/
def AtLeast (l : Logging) (bound : Duration) : Prop :=
  ∀ c d r n least, l.minDuration? = some least → l.Reports (.completed c d r) d n →
    d.nanos ≤ bound.nanos → least.clampedMicros ≤ n

/-- **The clamped number** is reported of all durations that fit, and not of the first that does
not. -/
theorem clamped_iff : l.Clamped bound ↔ bound.Fits := by
  constructor
  · intro clamped
    by_contra long
    have reported : Duration.tooLong.microsWord = Duration.tooLong.clampedMicros :=
      clamped _ _ _ (l.reports_slow (.of "" 0) _) (Duration.not_fits_iff.mp long)
    exact absurd reported (by decide)
  · intro fits e d n reports within
    obtain ⟨-, -, rfl⟩ := reports_iff.mp reports
    exact Duration.microsWord_eq_clampedMicros_iff.mpr (.inl (fits.mono within))

/-- **The order** is kept among all durations that fit, and not between a microsecond and the first
that does not. -/
theorem ordered_iff : l.Ordered bound ↔ bound.Fits := by
  constructor
  · intro ordered
    by_contra long
    have reported : (⟨1000⟩ : Duration).microsWord ≤ Duration.tooLong.microsWord :=
      ordered _ _ _ _ _ _ (l.reports_slow (.of "" 0) _) (l.reports_slow (.of "" 0) _)
        (by decide) (Duration.not_fits_iff.mp long)
    exact absurd reported (by decide)
  · intro fits e f d d' n n' first second le within
    obtain ⟨-, -, rfl⟩ := reports_iff.mp first
    obtain ⟨-, -, rfl⟩ := reports_iff.mp second
    have fits' : d'.Fits := fits.mono within
    rw [Duration.microsWord_of_fits (fits'.mono le), Duration.microsWord_of_fits fits']
    exact Duration.micros_mono le

/-- What takes the least duration is written. -/
theorem writes_completed_iff {c : Context} {d least : Duration} {r : Result}
    (set : l.minDuration? = some least) :
    l.Writes (.completed c d r) ↔ least.nanos ≤ d.nanos := by
  simp [Writes, set]

theorem atLeast_of_fits (fits : bound.Fits) : l.AtLeast bound := by
  intro c d r n least set reports within
  obtain ⟨-, written, rfl⟩ := reports_iff.mp reports
  have enough : least.nanos ≤ d.nanos := (writes_completed_iff set).mp written
  have fits' : d.Fits := fits.mono within
  rw [Duration.microsWord_of_fits fits', Duration.clampedMicros_of_fits (fits'.mono enough)]
  exact Duration.micros_mono enough

/-- **The least duration** bounds what is reported of all durations that fit, and not of the first
that does not, which is long enough to be written. -/
theorem atLeast_iff {least : Duration} (set : l.minDuration? = some least)
    (positive : 0 < least.micros) (small : least.Fits) : l.AtLeast bound ↔ bound.Fits := by
  refine ⟨fun above => ?_, atLeast_of_fits⟩
  by_contra long
  have enough : least.nanos ≤ Duration.tooLong.nanos := by
    by_contra less
    exact Duration.not_fits_iff.mpr (Nat.le_of_not_le less) small
  have reports : l.Reports (.completed (.of "" 0) Duration.tooLong (.rows 0)) Duration.tooLong
      Duration.tooLong.microsWord :=
    reports_iff.mpr ⟨rfl, (writes_completed_iff set).mpr enough, rfl⟩
  have reported := above _ _ _ _ _ set reports (Duration.not_fits_iff.mp long)
  rw [Duration.microsWord_tooLong, Duration.clampedMicros_of_fits small] at reported
  exact Nat.not_lt.mpr reported positive

/-- The greatest duration in statistics of one statement. -/
theorem maxDuration_receive_zero (c : Context) (d : Duration) (r : Result) :
    (Tally.zero.receive (.completed c d r)).stats.maxDuration = ⟨min d.nanos (2 ^ 64 - 1)⟩ :=
  congrArg Duration.mk <| (Tally.toNat_maxNanos_foldl .zero [.completed c d r]).trans
    (max_eq_right (Nat.zero_le _))

/-- **What durations in the log tell.**  An entry reports the whole microseconds of a duration
modulo `2 ^ 64`, which is the clamped number only if they fit a word or happen to be the greatest
word in their lower bits.  Among the durations up to a bound the order is kept, and so is the
clamped number, exactly when the microseconds of the bound fit a word.  Then no completion is
reported below the least duration of the monitor; and if this is at least a microsecond and fits,
exactly then.  While its nanoseconds fit a word, a duration is in the log what it is in
statistics. -/
theorem durations_kept_iff (l : Logging) (bound : Duration) :
    (∀ e d n, l.Reports e d n ↔
      e.duration? = some d ∧ l.Writes e ∧ n = d.micros % UInt64.size) ∧
    (∀ e d n, l.Reports e d n →
      (n = d.clampedMicros ↔ d.micros < UInt64.size ∨ n = 2 ^ 64 - 1)) ∧
    (l.Ordered bound ↔ bound.micros < UInt64.size) ∧
    (l.Clamped bound ↔ bound.micros < UInt64.size) ∧
    (bound.micros < UInt64.size → l.AtLeast bound) ∧
    (∀ least, l.minDuration? = some least → 0 < least.micros → least.micros < UInt64.size →
      (l.AtLeast bound ↔ bound.micros < UInt64.size)) ∧
    ∀ c d r n, l.Reports (.completed c d r) d n → d.nanos < UInt64.size →
      n = (Tally.zero.receive (.completed c d r)).stats.maxDuration.micros := by
  refine ⟨fun e d n => reports_iff, ?_, ordered_iff, clamped_iff, atLeast_of_fits,
    fun least set positive small => atLeast_iff set positive small, ?_⟩
  · intro e d n reports
    obtain ⟨-, -, rfl⟩ := reports_iff.mp reports
    exact Duration.microsWord_eq_clampedMicros_iff
  · intro c d r n reports short
    obtain ⟨-, -, rfl⟩ := reports_iff.mp reports
    have whole : min d.nanos (2 ^ 64 - 1) = d.nanos := min_eq_left (Nat.le_sub_one_of_lt short)
    have fits : d.Fits := Nat.lt_of_le_of_lt (Nat.div_le_self _ _) short
    rw [maxDuration_receive_zero, whole, Duration.microsWord_of_fits fits]

/-- A monitor that leaves out what takes less than a second reports a second and a half as what it
is in statistics.  Up to two seconds its numbers can be trusted, but not up to the longest span. -/
theorem durations_kept_iff_seconds :
    let l : Logging := { minDuration? := some (.of 1 0) }
    let e : Event := .completed (.of "DELETE FROM T" 0) (.of 1 500000000) (.affected 1)
    l.Reports e (.of 1 500000000) 1500000 ∧
      1500000 = (Duration.of 1 500000000).clampedMicros ∧
      1500000 = (Tally.zero.receive e).stats.maxDuration.micros ∧
      l.Ordered (.of 2 0) ∧ l.Clamped (.of 2 0) ∧ l.AtLeast (.of 2 0) ∧ ¬ l.AtLeast .greatest := by
  intro l e
  obtain ⟨entries, clamped, ordered, all, above, -, statistics⟩ := durations_kept_iff l (.of 2 0)
  obtain ⟨-, -, -, -, -, onlyThen, -⟩ := durations_kept_iff l .greatest
  have reports : l.Reports e (.of 1 500000000) 1500000 :=
    (entries e _ _).mpr ⟨rfl, (writes_completed_iff rfl).mpr (by decide), by decide⟩
  refine ⟨reports, (clamped e _ _ reports).mpr (.inl (by decide)),
    statistics _ _ _ _ reports (by decide), ordered.mpr (by decide), all.mpr (by decide),
    above (by decide), fun trusted => ?_⟩
  exact absurd ((onlyThen (.of 1 0) rfl (by decide) (by decide)).mp trusted) (by decide)

/-- A monitor that leaves out what takes less than a second reports one second as a million
microseconds, and more than half a million years as none: among all spans that there are, neither
the order nor the clamped number nor the least duration is kept. -/
theorem long_duration_reported_as_none :
    let l : Logging := { minDuration? := some (.of 1 0) }
    let c : Context := .of "DELETE FROM T" 0
    let short : Duration := .of 1 0
    let long : Duration := .of 18446744073709 551616000
    short.nanos ≤ long.nanos ∧
      l.Reports (.completed c short (.affected 1)) short 1000000 ∧
      l.Reports (.completed c long (.affected 1)) long 0 ∧
      ¬ l.Ordered .greatest ∧ ¬ l.Clamped .greatest ∧ ¬ l.AtLeast .greatest := by
  intro l c short long
  have reported (d : Duration) (enough : short.nanos ≤ d.nanos) :
      l.Reports (.completed c d (.affected 1)) d d.microsWord :=
    reports_iff.mpr ⟨rfl, (writes_completed_iff rfl).mpr enough, rfl⟩
  have longer : short.nanos ≤ long.nanos := by decide
  have within : long.nanos ≤ Duration.greatest.nanos := by decide
  have first : l.Reports (.completed c short (.affected 1)) short 1000000 :=
    (by decide : short.microsWord = 1000000) ▸ reported short (Nat.le_refl _)
  have second : l.Reports (.completed c long (.affected 1)) long 0 :=
    (by decide : long.microsWord = 0) ▸ reported long longer
  refine ⟨longer, first, second, fun ordered => ?_, fun clamped => ?_, fun above => ?_⟩
  · exact absurd (ordered _ _ _ _ _ _ first second longer within) (by decide)
  · exact absurd (clamped _ _ _ second within) (by decide)
  · exact absurd (above _ _ _ _ _ rfl second within) (by decide)

end Logging

end Monitor

end BoundSql
