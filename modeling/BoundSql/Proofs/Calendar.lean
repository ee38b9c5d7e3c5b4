import BoundSql.Calendar.Text
import BoundSql.Proofs.Encoding

/-!
# Dates and times are read back

Dates, times and timestamps are read back from their texts (`Date.read_text`, `Time.read_text`,
`Timestamp.read_text`), leap seconds and years of more than four digits included; and the text of a
timestamp is refused as a date (`Date.read_timestamp_text`).

A part of a pattern is read back when the text goes on in a way that tells where its own text ends
(`Part.read_write`).  Only three parts ask for that: a year, which may have more than four digits, a
fraction, which may be left out, and a gap.  A pattern in which every part ends where the next one
begins is `Separated`, and reads back what it writes, down to whatever follows
(`Pattern.readFrom_write`, by induction on the pattern).

Tagged data is written without gaps and read by patterns that allow them.  Such a pattern reads what
is written by its parts other than gaps (`Pattern.readFrom_withoutGaps`).
-/

namespace BoundSql.Calendar

open Decimal Text

/-! ## Blanks and digits -/

theorem isBlank_of_isDigit {c : Char} (digit : isDigit c = true) : isBlank c = false := by
  have bounds : 48 ≤ c.toNat ∧ c.toNat ≤ 57 := by
    rw [isDigit, Bool.and_eq_true, decide_eq_true_eq, decide_eq_true_eq] at digit
    exact ⟨UInt32.le_iff_toNat_le.mp digit.1, UInt32.le_iff_toNat_le.mp digit.2⟩
  grind [isBlank]

/-- No blank stands before a padded number. -/
theorem avoids_blank_paddedDigits (width n : Nat) (rest : List Char) :
    Avoids isBlank (paddedDigits width n ++ rest) := by
  obtain ⟨d, ds, written, digit⟩ := exists_paddedDigits_cons width n
  rw [written]
  exact avoids_cons (isBlank_of_isDigit digit)

/-! ## Numbers -/

theorem readDigits_digits {ds : List Char} (nonempty : ds ≠ []) (rest : List Char) :
    readDigits ds rest = .ok (ofDigits ds, rest) := by
  cases ds with
  | nil => exact absurd rfl nonempty
  | cons d ds => rfl

/-- A number of full width is read back, whatever follows. -/
theorem readNumber_paddedDigits {width n : Nat} (wide : 0 < width) (small : n < 10 ^ width)
    (rest : List Char) : readNumber width (paddedDigits width n ++ rest) = .ok (n, rest) := by
  have length := length_paddedDigits wide small
  have digits : ((paddedDigits width n ++ rest).take width).takeWhile isDigit =
      paddedDigits width n := by
    refine takeWhile_take (fun c => isDigit_of_mem_paddedDigits) (Nat.le_of_eq length) ?_
    rw [length, Nat.sub_self]
    exact fun _ => nofun
  simp only [readNumber, digits, List.drop_left, readDigits_digits (paddedDigits_ne_nil width n),
    ofDigits_paddedDigits]

/-- A number of any width is read back when no digit follows. -/
theorem readLongNumber_paddedDigits (width n : Nat) {rest : List Char}
    (ends : Avoids isDigit rest) :
    readLongNumber (paddedDigits width n ++ rest) = .ok (n, rest) := by
  have digits : ∀ c ∈ paddedDigits width n, isDigit c = true :=
    fun c => isDigit_of_mem_paddedDigits
  rw [readLongNumber, takeWhile_append_of_avoids digits ends,
    dropWhile_append_of_avoids digits ends, readDigits_digits (paddedDigits_ne_nil width n),
    ofDigits_paddedDigits]

/-- A digit is no sign of a year. -/
theorem readYear_paddedDigits (width n : Nat) (rest : List Char) :
    readYear (paddedDigits width n ++ rest) =
      (readNumber 4 (paddedDigits width n ++ rest)).map fun (n, after) => ((n : Int), after) := by
  obtain ⟨d, ds, written, digit⟩ := exists_paddedDigits_cons width n
  rw [written, List.cons_append, readYear]
  · rintro more minus
    cases minus
    exact absurd digit (by decide)
  · rintro more plus
    cases plus
    exact absurd digit (by decide)

/-- A year is read back when no digit follows. -/
theorem readYear_yearText (year : Int) {rest : List Char} (ends : Avoids isDigit rest) :
    readYear (yearText year ++ rest) = .ok (year, rest) := by
  rw [yearText]
  split
  · next plain =>
    have four : year.natAbs < 10 ^ 4 := by omega
    have value : (year.natAbs : Int) = year := by omega
    rw [readYear_paddedDigits, readNumber_paddedDigits (by decide) four]
    exact congrArg (fun y => Except.ok (y, rest)) value
  · split
    · next negative =>
      have value : -(year.natAbs : Int) = year := by omega
      rw [List.cons_append, readYear, readLongNumber_paddedDigits 4 _ ends]
      exact congrArg (fun y => Except.ok (y, rest)) value
    · next positive =>
      have value : (year.natAbs : Int) = year := by omega
      rw [List.cons_append, readYear, readLongNumber_paddedDigits 4 _ ends]
      exact congrArg (fun y => Except.ok (y, rest)) value

/-- No blank stands before a year. -/
theorem dropBlanks_yearText (year : Int) (rest : List Char) :
    dropBlanks (yearText year ++ rest) = yearText year ++ rest := by
  rw [yearText]
  split
  · exact dropWhile_of_avoids (avoids_blank_paddedDigits 4 _ rest)
  · exact dropWhile_of_avoids (avoids_cons (by split <;> decide))

/-- Some digits after a point are read back when no digit follows. -/
theorem readFraction_paddedDigits {places n : Nat} (wide : 0 < places) (nine : places ≤ 9)
    (small : n < 10 ^ places) {rest : List Char} (ends : Avoids isDigit rest) :
    readFraction (paddedDigits places n ++ rest) = .ok (n * 10 ^ (9 - places), rest) := by
  have length := length_paddedDigits wide small
  have fits : (paddedDigits places n).length ≤ 9 := by rwa [length]
  have digits : ((paddedDigits places n ++ rest).take 9).takeWhile isDigit =
      paddedDigits places n :=
    takeWhile_take (fun c => isDigit_of_mem_paddedDigits) fits (ends.take _)
  simp only [readFraction, digits, List.drop_left, readDigits_digits (paddedDigits_ne_nil places n),
    ofDigits_paddedDigits]
  simp only [length, Except.map, dropWhile_of_avoids ends]
  rfl

/-! ## Parts -/

/-- What is shown once a part was read. -/
def Part.put (t r : Reading) : Part → Reading
  | .year => { r with year := t.year }
  | .month => { r with month := t.month }
  | .day => { r with day := t.day }
  | .hour => { r with hour := t.hour }
  | .minute => { r with minute := t.minute }
  | .second => { r with second := t.second }
  | .fraction => { r with nano := if t.nano = 0 then r.nano else t.nano }
  | .mark _ => r
  | .gap => r

/-- What is shown is what calendar and clock can show. -/
structure Reading.Real (t : Reading) : Prop where
  year : firstYear ≤ t.year ∧ t.year ≤ lastYear
  month : 1 ≤ t.month ∧ t.month ≤ 12
  day : 1 ≤ t.day ∧ t.day ≤ 31
  hour : t.hour ≤ 23
  minute : t.minute ≤ 59
  second : t.second ≤ 60
  nano : t.nano < nanosPerSecond

/-- A text goes on in a way that tells where the text of a part ends. -/
def Part.EndsBefore (rest : List Char) : Part → Prop
  | .year => Avoids isDigit rest
  | .fraction => Avoids isDigit rest ∧ Avoids (· == '.') rest
  | .gap => Avoids isBlank rest
  | _ => True

/-- A fraction of a second is read back when neither a digit nor a point follows. -/
theorem read_fractionText (t r : Reading) (small : t.nano < nanosPerSecond) {rest : List Char}
    (ends : Avoids isDigit rest) (noPoint : Avoids (· == '.') rest) :
    Part.read r (fractionText t.nano ++ rest) .fraction = .ok (Part.fraction.put t r, rest) := by
  have point : ∀ {places n : Nat}, 0 < places → places ≤ 9 → n < 10 ^ places →
      n * 10 ^ (9 - places) = t.nano →
      Part.read r ('.' :: paddedDigits places n ++ rest) .fraction =
        .ok ({ r with nano := t.nano }, rest) := by
    intro places n wide nine small value
    rw [List.cons_append, Part.read, readFraction_paddedDigits wide nine small ends, value]
    rfl
  have billion : nanosPerSecond = 1000000000 := rfl
  rw [fractionText, Part.put]
  by_cases none : t.nano = 0
  · rw [if_pos none, if_pos none, List.nil_append, Part.read]
    rintro more rfl
    exact absurd (noPoint _ rfl) (by decide)
  rw [if_neg none, if_neg none]
  split
  · exact point (by decide) (by decide) (by omega) (by omega)
  split
  · exact point (by decide) (by decide) (by omega) (by omega)
  · exact point (by decide) (by decide) (by omega) (by omega)

/-- A number of two digits is read back, whatever follows. -/
theorem readField_paddedDigits {low high n : Nat} (bounds : low ≤ n ∧ n ≤ high) (two : n < 10 ^ 2)
    (place : Nat → Reading) (rest : List Char) :
    readField low high (paddedDigits 2 n ++ rest) place = .ok (place n, rest) := by
  rw [readField, dropBlanks, dropWhile_of_avoids (avoids_blank_paddedDigits 2 n rest),
    readNumber_paddedDigits (by decide) two, within, if_pos bounds]
  rfl

/-- **A part is read back** where its text ends. -/
theorem Part.read_write {t : Reading} (real : t.Real) (r : Reading) (part : Part) {rest : List Char}
    (ends : part.EndsBefore rest) :
    part.read r (part.write t ++ rest) = .ok (part.put t r, rest) := by
  obtain ⟨year, month, day, hour, minute, second, nano⟩ := real
  cases part with
  | year =>
    have word : Int32.minValue.toInt ≤ t.year ∧ t.year ≤ Int32.maxValue.toInt := by
      have first : firstYear = -262143 := rfl
      have last : lastYear = 262142 := rfl
      have least : Int32.minValue.toInt = -2147483648 := rfl
      have greatest : Int32.maxValue.toInt = 2147483647 := rfl
      omega
    rw [write, read, dropBlanks_yearText, readYear_yearText t.year ends]
    exact if_pos word
  | month => exact readField_paddedDigits month (by omega) (fun n => { r with month := n }) rest
  | day => exact readField_paddedDigits day (by omega) (fun n => { r with day := n }) rest
  | hour =>
    have bounds : 0 ≤ t.hour ∧ t.hour ≤ 23 := ⟨Nat.zero_le _, hour⟩
    exact readField_paddedDigits bounds (by omega) (fun n => { r with hour := n }) rest
  | minute =>
    have bounds : 0 ≤ t.minute ∧ t.minute ≤ 59 := ⟨Nat.zero_le _, minute⟩
    exact readField_paddedDigits bounds (by omega) (fun n => { r with minute := n }) rest
  | second =>
    have bounds : 0 ≤ t.second ∧ t.second ≤ 60 := ⟨Nat.zero_le _, second⟩
    exact readField_paddedDigits bounds (by omega) (fun n => { r with second := n }) rest
  | fraction => exact read_fractionText t r nano ends.1 ends.2
  | mark c => exact if_pos rfl
  | gap => exact congrArg (fun rest => Except.ok (r, rest)) (dropWhile_of_avoids ends)

/-! ## Patterns -/

namespace Pattern

/-- What is shown once the parts of a pattern were read. -/
def put (t : Reading) : Pattern → Reading → Reading
  | [], r => r
  | part :: p, r => put t p (part.put t r)

/-- Every part of a pattern ends where the next one begins, and the last where the rest begins. -/
def Separated (t : Reading) (rest : List Char) : Pattern → Prop
  | [] => True
  | part :: p => part.EndsBefore (p.flatMap (Part.write t) ++ rest) ∧ Separated t rest p

/-- **The parts of a pattern are read back in turn**, and the rest is left. -/
theorem readFrom_write {t : Reading} (real : t.Real) {p : Pattern} (r : Reading) {rest : List Char}
    (separated : p.Separated t rest) :
    readFrom p r (p.flatMap (Part.write t) ++ rest) = .ok (p.put t r, rest) := by
  induction p generalizing r with
  | nil => rfl
  | cons part p ih =>
    obtain ⟨ends, later⟩ := separated
    rw [List.flatMap_cons, List.append_assoc, readFrom, part.read_write real r ends]
    exact ih (part.put t r) later

/-- A whole text is read back. -/
theorem read_write {t : Reading} (real : t.Real) {p : Pattern} (separated : p.Separated t []) :
    p.read (p.write t) = .ok (p.put t .start) := by
  have found := readFrom_write real .start separated
  rw [List.append_nil] at found
  rw [read, write, String.toList_ofList, found]
  rfl

/-- A text that goes on is refused as too long. -/
theorem read_write_append {t : Reading} (real : t.Real) {p : Pattern} {c : Char}
    {rest : List Char} (separated : p.Separated t (c :: rest)) :
    p.read (p.write t ++ String.ofList (c :: rest)) = .error .tooLong := by
  rw [read, write, String.toList_append, String.toList_ofList, String.toList_ofList,
    readFrom_write real .start separated]
  rfl

/-- A pattern is separated when its two halves are. -/
theorem Separated.append {t : Reading} {rest : List Char} {p q : Pattern}
    (first : p.Separated t (q.flatMap (Part.write t) ++ rest)) (second : q.Separated t rest) :
    Separated t rest (p ++ q) := by
  induction p with
  | nil => exact second
  | cons part p ih =>
    obtain ⟨ends, later⟩ := first
    have texts : (p ++ q).flatMap (Part.write t) ++ rest =
        p.flatMap (Part.write t) ++ (q.flatMap (Part.write t) ++ rest) := by
      rw [List.flatMap_append, List.append_assoc]
    refine ⟨?_, ih later⟩
    rwa [← texts] at ends

theorem write_append (t : Reading) (p q : Pattern) :
    Pattern.write (p ++ q) t = p.write t ++ q.write t := by
  rw [write, List.flatMap_append, String.ofList_append]
  rfl

/-! ### Gaps that are not written -/

/-- The parts of a pattern other than gaps. -/
def withoutGaps : Pattern → Pattern
  | [] => []
  | .gap :: p => withoutGaps p
  | part :: p => part :: withoutGaps p

/-- Every part of a pattern ends where the next one that is no gap begins. -/
def Tight (t : Reading) (rest : List Char) : Pattern → Prop
  | [] => True
  | part :: p =>
    part.EndsBefore ((withoutGaps p).flatMap (Part.write t) ++ rest) ∧ Tight t rest p

/-- **A pattern with gaps reads what is written without them.** -/
theorem readFrom_withoutGaps {t : Reading} (real : t.Real) {p : Pattern} (r : Reading)
    {rest : List Char} (tight : p.Tight t rest) :
    readFrom p r (p.withoutGaps.flatMap (Part.write t) ++ rest) = .ok (p.put t r, rest) := by
  induction p generalizing r with
  | nil => rfl
  | cons part p ih =>
    obtain ⟨ends, later⟩ := tight
    by_cases gap : part = .gap
    · subst gap
      have skipped : Part.read r ((withoutGaps p).flatMap (Part.write t) ++ rest) .gap =
          .ok (r, (withoutGaps p).flatMap (Part.write t) ++ rest) :=
        congrArg (fun rest => Except.ok (r, rest)) (dropWhile_of_avoids ends)
      rw [withoutGaps, readFrom, skipped]
      exact ih r later
    · rw [withoutGaps, List.flatMap_cons, List.append_assoc, readFrom, part.read_write real r ends]
      · exact ih (part.put t r) later
      · exact gap

/-- A whole text without gaps is read by a pattern with them. -/
theorem read_withoutGaps {t : Reading} (real : t.Real) {p : Pattern} (tight : p.Tight t []) :
    p.read (p.withoutGaps.write t) = .ok (p.put t .start) := by
  have found := readFrom_withoutGaps real .start tight
  rw [List.append_nil] at found
  rw [read, write, String.toList_ofList, found]
  rfl

end Pattern

theorem separated_datePattern (t : Reading) (rest : List Char) : datePattern.Separated t rest :=
  ⟨avoids_cons rfl, trivial, trivial, trivial, trivial, trivial⟩

theorem separated_timePattern (t : Reading) : timePattern.Separated t [] :=
  ⟨trivial, trivial, trivial, trivial, trivial, ⟨avoids_nil, avoids_nil⟩, trivial⟩

theorem separated_timestampPattern (t : Reading) : timestampPattern.Separated t [] := by
  refine (separated_datePattern t _).append ⟨?_, separated_timePattern t⟩
  rw [List.append_nil]
  exact avoids_blank_paddedDigits 2 t.hour _

theorem tight_looseDatePattern (t : Reading) : looseDatePattern.Tight t [] :=
  ⟨avoids_cons rfl, avoids_cons rfl, trivial, trivial, avoids_cons rfl, trivial, trivial, avoids_nil,
    trivial⟩

theorem tight_looseMinutePattern (t : Reading) (rest : List Char) :
    looseMinutePattern.Tight t rest :=
  ⟨trivial, avoids_cons rfl, trivial, trivial, trivial⟩

theorem tight_looseSecondPattern (t : Reading) : looseSecondPattern.Tight t [] :=
  ⟨avoids_cons rfl, trivial, trivial, ⟨avoids_nil, avoids_nil⟩, avoids_nil, trivial⟩

theorem tight_looseTimestampPattern (t : Reading) : looseTimestampPattern.Tight t [] :=
  ⟨avoids_cons rfl, avoids_cons rfl, trivial, trivial, avoids_cons rfl, trivial, trivial,
    avoids_cons rfl, trivial, trivial, avoids_cons rfl, trivial, trivial, tight_looseSecondPattern t⟩

/-! ## Dates and times -/

theorem daysInMonth_le (year : Int) (month : Nat) : daysInMonth year month ≤ 31 := by
  unfold daysInMonth
  split <;> try split
  all_goals omega

/-- The seconds and nanoseconds of a time as a clock shows them. -/
theorem clock_bounds (t : Time) : t.hour ≤ 23 ∧ t.minute ≤ 59 ∧
    t.second + t.nano / nanosPerSecond ≤ 60 ∧ t.nano % nanosPerSecond < nanosPerSecond := by
  have hour := t.hour_lt
  have minute := t.minute_lt
  have second := t.second_lt
  have nano := t.nano_lt
  simp only [nanosPerSecond] at nano ⊢
  omega

theorem Reading.real_of (d : Date) (t : Time) : (Reading.of d t).Real := by
  obtain ⟨hour, minute, second, nano⟩ := clock_bounds t
  exact {
    year := ⟨d.year_lower, d.year_upper⟩
    month := ⟨d.month_pos, d.month_le⟩
    day := ⟨d.day_pos, Nat.le_trans d.day_le (daysInMonth_le d.year d.month)⟩
    hour, minute, second, nano }

theorem Reading.real_reading (t : Time) : t.reading.Real := by
  obtain ⟨hour, minute, second, nano⟩ := clock_bounds t
  exact {
    year := show firstYear ≤ 0 ∧ 0 ≤ lastYear by decide
    month := show 1 ≤ 1 ∧ 1 ≤ 12 by decide
    day := show 1 ≤ 1 ∧ 1 ≤ 31 by decide
    hour, minute, second, nano }

/-- What shows a date is worth that date. -/
theorem Reading.date_of (d : Date) {r : Reading} (year : r.year = d.year)
    (month : r.month = d.month) (day : r.day = d.day) : r.date = .ok d := by
  rw [Reading.date, year, month, day, Date.of?_self]

/-- **What shows a time is worth that time**, also when it is a leap second. -/
theorem Reading.time_of (t : Time) {r : Reading} (hour : r.hour = t.hour)
    (minute : r.minute = t.minute) (second : r.second = t.second + t.nano / nanosPerSecond)
    (nano : r.nano = t.nano % nanosPerSecond) : r.time = .ok t := by
  have last := t.leap
  have ordinary := t.second_lt
  have limit := t.nano_lt
  simp only [nanosPerSecond] at second nano last limit
  have found : (if r.second = 60 then Time.of? r.hour r.minute 59 (nanosPerSecond + r.nano)
      else Time.of? r.hour r.minute r.second r.nano) = some t := by
    by_cases leap : 1000000000 ≤ t.nano
    · have shown : r.second = 60 := by omega
      have whole : nanosPerSecond + r.nano = t.nano := by
        simp only [nanosPerSecond]
        omega
      rw [if_pos shown, whole, hour, minute, ← last leap]
      exact t.of?_self
    · have shown : r.second = t.second := by omega
      have part : r.nano = t.nano := by omega
      rw [if_neg (by omega), shown, part, hour, minute]
      exact t.of?_self
  rw [Reading.time, found]

/-- What shows a date and a time is worth both. -/
theorem Reading.timestamp_of {t : Timestamp} {r : Reading} (date : r.date = .ok t.date)
    (time : r.time = .ok t.time) : r.timestamp = .ok t := by
  rw [Reading.timestamp, date, time]

end BoundSql.Calendar

namespace BoundSql

open Calendar

/-- **A date is read back from its text.** -/
theorem Date.read_text (d : Date) : Date.read d.text = .ok d := by
  rw [Date.read, Date.text, Pattern.read_write (Reading.real_of d _) (separated_datePattern _ _)]
  exact Reading.date_of d rfl rfl rfl

/-- **A time is read back from its text.** -/
theorem Time.read_text (t : Time) : Time.read t.text = .ok t := by
  rw [Time.read, Time.text, Pattern.read_write (Reading.real_reading t) (separated_timePattern _)]
  refine Reading.time_of t rfl rfl rfl ?_
  exact ite_eq_right_iff.mpr Eq.symm

/-- **A timestamp is read back from its text.** -/
theorem Timestamp.read_text (t : Timestamp) : Timestamp.read t.text = .ok t := by
  let shown := timestampPattern.put (Reading.of t.date t.time) .start
  have date : shown.date = .ok t.date := Reading.date_of t.date rfl rfl rfl
  have time : shown.time = .ok t.time :=
    Reading.time_of t.time rfl rfl rfl (ite_eq_right_iff.mpr Eq.symm)
  have read : timestampPattern.read t.text = .ok shown :=
    Pattern.read_write (Reading.real_of t.date t.time) (separated_timestampPattern _)
  have whole : (timestampPattern.read t.text >>= Reading.timestamp) = .ok t := by
    rw [read]
    exact Reading.timestamp_of date time
  rw [Timestamp.read, whole]

/-- A date is read back from its text where gaps are allowed. -/
theorem Date.readLoose_text (d : Date) : Date.readLoose d.text = .ok d := by
  have read : looseDatePattern.read d.text = .ok (looseDatePattern.put (Reading.of d _) .start) :=
    Pattern.read_withoutGaps (Reading.real_of d _) (tight_looseDatePattern _)
  rw [Date.readLoose, read]
  exact Reading.date_of d rfl rfl rfl

/-- A time is read back from its text where gaps are allowed. -/
theorem Time.readLoose_text (t : Time) : Time.readLoose t.text = .ok t := by
  -- the minutes leave the text of the seconds, and the seconds leave nothing
  let seconds := looseSecondPattern.withoutGaps.flatMap (Part.write t.reading)
  let minute := looseMinutePattern.put t.reading .start
  have real := Reading.real_reading t
  have halves : t.text.toList =
      looseMinutePattern.withoutGaps.flatMap (Part.write t.reading) ++ seconds := by
    rw [Time.text, Pattern.write, String.toList_ofList, ← List.flatMap_append]
    rfl
  have first : looseMinutePattern.readFrom .start t.text.toList = .ok (minute, seconds) := by
    rw [halves]
    exact Pattern.readFrom_withoutGaps real .start (tight_looseMinutePattern _ seconds)
  have second : looseSecondPattern.readFrom minute seconds =
      .ok (looseSecondPattern.put t.reading minute, []) := by
    have found := Pattern.readFrom_withoutGaps real minute (tight_looseSecondPattern t.reading)
    rwa [List.append_nil] at found
  rw [Time.readLoose, first]
  simp only [second]
  exact Reading.time_of t rfl rfl rfl (ite_eq_right_iff.mpr Eq.symm)

/-- A timestamp with a `T` is read back where gaps are allowed. -/
theorem Timestamp.readLoose_joinedText (t : Timestamp) :
    Timestamp.readLoose t.joinedText = .ok t := by
  have read : looseTimestampPattern.read t.joinedText =
      .ok (looseTimestampPattern.put (Reading.of t.date t.time) .start) :=
    Pattern.read_withoutGaps (Reading.real_of t.date t.time) (tight_looseTimestampPattern _)
  rw [Timestamp.readLoose, read]
  exact Reading.timestamp_of (Reading.date_of t.date rfl rfl rfl)
    (Reading.time_of t.time rfl rfl rfl (ite_eq_right_iff.mpr Eq.symm))

/-- **A timestamp is refused as a date**: its text goes on after that of its date. -/
theorem Date.read_timestamp_text (t : Timestamp) : Date.read t.text = .error .tooLong := by
  have read : datePattern.read t.text = .error .tooLong := by
    rw [Timestamp.text, timestampPattern, Pattern.write_append]
    exact Pattern.read_write_append (Reading.real_of t.date t.time) (separated_datePattern _ _)
  rw [Date.read, read]
  rfl

end BoundSql
