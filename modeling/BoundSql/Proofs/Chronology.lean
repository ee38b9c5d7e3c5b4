import BoundSql.Connection.Echo
import BoundSql.Proofs.Calendar
import BoundSql.Proofs.Collation
import Mathlib.Order.Monotone.Basic

/-!
# Texts in the order of time

Dates, times and timestamps are bound as texts.  A database that compares texts byte by byte then
orders them as they follow each other in time (`Stored.compareText?_stored`).

Time has an order of its own, which does not look at texts: a date is a year and a day of the year,
and a time is a second of the day and nanoseconds.  A leap second is the last second of a minute
with a billion nanoseconds or more, so it follows that second and comes before the next minute.

On the side of the texts, a pattern shows its parts in turn, and the parts are compared in turn
(`Part.order`, `Pattern.order`).  Every part but the fraction has its fixed width as long as years
have four digits, so it may be followed by anything (`Part.compare_write`).  The fraction may be
left out or have three, six or nine digits.  It shows groups of three digits without the groups of
zeros at its end (`fractionText_eq`), so a shorter fraction is compared as if the zeros were there,
but only at the end of the text.  Hence a fraction must be the last part (`Pattern.compare_write`).
-/

namespace BoundSql

open Calendar Decimal

/-! ## The order of time -/

/-- The days of a year before a month. -/
def Calendar.daysBefore (year : Int) : Nat → Nat
  | 0 => 0
  | month + 1 => daysBefore year month + daysInMonth year month

/-- The number of a date among the days of its year. -/
def Date.dayOfYear (d : Date) : Nat :=
  daysBefore d.year d.month + d.day

/-- The number of full seconds of a day at a time; a leap second belongs to the second before. -/
def Time.secondOfDay (t : Time) : Nat :=
  (t.hour * 60 + t.minute) * 60 + t.second

/-- Dates follow each other by years, and by days in a year. -/
instance : Ord Date where
  compare a b := (compare a.year b.year).then (compare a.dayOfYear b.dayOfYear)

/-- Times follow each other by seconds, and by nanoseconds in a second. -/
instance : Ord Time where
  compare a b := (compare a.secondOfDay b.secondOfDay).then (compare a.nano b.nano)

/-- Timestamps follow each other by dates, and by times on a date. -/
instance : Ord Timestamp where
  compare a b := (compare a.date b.date).then (compare a.time b.time)

theorem Calendar.daysBefore_mono (year : Int) : Monotone (daysBefore year) :=
  monotone_nat_of_le_succ fun _ => Nat.le_add_right _ _

/-- A date comes before every date of a later month of its year. -/
theorem Date.dayOfYear_lt {a b : Date} (year : a.year = b.year) (month : a.month < b.month) :
    a.dayOfYear < b.dayOfYear := by
  have full : daysBefore a.year a.month + daysInMonth a.year a.month ≤ daysBefore a.year b.month :=
    daysBefore_mono a.year month
  have last := a.day_le
  have first := b.day_pos
  rw [dayOfYear, dayOfYear, ← year]
  omega

/-- **Dates are compared by year, month and day.** -/
theorem Date.compare_eq (a b : Date) :
    compare a b =
      (compare a.year b.year).then ((compare a.month b.month).then (compare a.day b.day)) := by
  show (compare a.year b.year).then (compare a.dayOfYear b.dayOfYear) = _
  cases years : compare a.year b.year with
  | lt | gt => rfl
  | eq =>
    have year : a.year = b.year := Std.LawfulEqOrd.eq_of_compare years
    rw [Ordering.eq_then, Ordering.eq_then, then_compare_eq (dayOfYear_lt year)
      (dayOfYear_lt year.symm)]
    intro month
    rw [dayOfYear, dayOfYear, year, month, compare_add_left]

/-- The seconds of a minute and their nanoseconds, as a clock shows them, count the nanoseconds of
the minute. -/
theorem Time.shown_nanos (t : Time) :
    (t.second + t.nano / nanosPerSecond) * nanosPerSecond + t.nano % nanosPerSecond =
      t.second * nanosPerSecond + t.nano := by
  rw [Nat.add_mul, Nat.add_assoc, Nat.div_add_mod']

/-- In one minute, times are compared by the nanoseconds of the minute. -/
theorem Time.compare_nanos (a b : Time) :
    (compare a.second b.second).then (compare a.nano b.nano) =
      compare (a.second * nanosPerSecond + a.nano) (b.second * nanosPerSecond + b.nano) := by
  have second : a.second < 60 ∧ b.second < 60 := ⟨a.second_lt, b.second_lt⟩
  have leapA := a.leap
  have leapB := b.leap
  simp only [nanosPerSecond] at leapA leapB ⊢
  refine then_compare_eq (fun less => by omega) (fun more => by omega) fun same => ?_
  rw [same, compare_add_left]

/-- **Times are compared as a clock shows them**, also when it shows second 60. -/
theorem Time.compare_eq (a b : Time) :
    compare a b =
      (compare a.hour b.hour).then ((compare a.minute b.minute).then
        ((compare (a.second + a.nano / nanosPerSecond) (b.second + b.nano / nanosPerSecond)).then
          (compare (a.nano % nanosPerSecond) (b.nano % nanosPerSecond)))) := by
  have positive : 0 < nanosPerSecond := by decide
  rw [← compare_mul_add (Nat.mod_lt _ positive) (Nat.mod_lt _ positive), shown_nanos, shown_nanos,
    ← compare_nanos]
  show (compare a.secondOfDay b.secondOfDay).then (compare a.nano b.nano) = _
  rw [secondOfDay, secondOfDay, compare_mul_add a.second_lt b.second_lt,
    compare_mul_add a.minute_lt b.minute_lt, Ordering.then_assoc, Ordering.then_assoc]

/-- Dates that compare as equal are the same date. -/
instance : Std.LawfulEqOrd Date where
  compare_self := by
    intro d
    rw [Date.compare_eq, Std.ReflOrd.compare_self, Std.ReflOrd.compare_self,
      Std.ReflOrd.compare_self]
    rfl
  eq_of_compare := by
    intro a b same
    rw [Date.compare_eq, Ordering.then_eq_eq, Ordering.then_eq_eq] at same
    obtain ⟨year, month, day⟩ := same
    cases a
    cases b
    cases Std.LawfulEqOrd.eq_of_compare year
    cases Std.LawfulEqOrd.eq_of_compare month
    cases Std.LawfulEqOrd.eq_of_compare day
    rfl

/-- Times that compare as equal are the same time. -/
instance : Std.LawfulEqOrd Time where
  compare_self := by
    intro t
    show (compare t.secondOfDay t.secondOfDay).then (compare t.nano t.nano) = .eq
    rw [Std.ReflOrd.compare_self, Std.ReflOrd.compare_self]
    rfl
  eq_of_compare := by
    intro a b same
    obtain ⟨seconds, nano⟩ := Ordering.then_eq_eq.mp same
    have seconds : a.secondOfDay = b.secondOfDay := Std.LawfulEqOrd.eq_of_compare seconds
    have nano : a.nano = b.nano := Std.LawfulEqOrd.eq_of_compare nano
    have minute := a.minute_lt
    have minute' := b.minute_lt
    have second := a.second_lt
    have second' := b.second_lt
    rw [Time.secondOfDay, Time.secondOfDay] at seconds
    have found : Time.of? a.hour a.minute a.second a.nano =
        Time.of? b.hour b.minute b.second b.nano := by
      rw [nano, show a.hour = b.hour by omega, show a.minute = b.minute by omega,
        show a.second = b.second by omega]
    rw [a.of?_self, b.of?_self] at found
    exact Option.some.inj found

/-- Timestamps that compare as equal are the same timestamp. -/
instance : Std.LawfulEqOrd Timestamp where
  compare_self := by
    intro t
    show (compare t.date t.date).then (compare t.time t.time) = .eq
    rw [Std.ReflOrd.compare_self, Std.ReflOrd.compare_self]
    rfl
  eq_of_compare := by
    intro a b same
    obtain ⟨date, time⟩ := Ordering.then_eq_eq.mp same
    cases a
    cases b
    cases Std.LawfulEqOrd.eq_of_compare date
    cases Std.LawfulEqOrd.eq_of_compare time
    rfl

/-! ## Fractions of a second -/

namespace Calendar

/-- The nanoseconds of a second in groups of three digits. -/
def groups (nano : Nat) : List Nat :=
  [nano / 1000000, nano / 1000 % 1000, nano % 1000]

/-- **A fraction shows groups of three digits** without the groups of zeros at its end. -/
theorem fractionText_eq {nano : Nat} (small : nano < nanosPerSecond) :
    fractionText nano = marked '.' ((trimmed (groups nano)).flatMap (paddedDigits 3)) := by
  simp only [nanosPerSecond] at small
  rw [fractionText]
  by_cases none : nano = 0
  · subst none
    rfl
  rw [if_neg none]
  by_cases one : nano % 1000000 = 0
  · have shown : trimmed (groups nano) = [nano / 1000000] := by
      rw [groups, show nano / 1000 % 1000 = 0 by omega, show nano % 1000 = 0 by omega]
      exact if_neg fun zero => absurd zero.1 (by omega)
    rw [if_pos one, shown, List.flatMap_singleton, marked_of_ne_nil _ (paddedDigits_ne_nil 3 _)]
  have high : paddedDigits 3 (nano / 1000 / 1000) ++ paddedDigits 3 (nano / 1000 % 1000) =
      paddedDigits 6 (nano / 1000) :=
    @paddedDigits_append 3 (nano / 1000) (by decide) 3 (by decide) (by omega)
  rw [if_neg one]
  by_cases two : nano % 1000 = 0
  · have shown : trimmed (groups nano) = [nano / 1000 / 1000, nano / 1000 % 1000] := by
      have middle : nano / 1000 % 1000 ≠ 0 := by omega
      simp [groups, trimmed, two, middle, Nat.div_div_eq_div_mul]
    rw [if_pos two, shown, List.flatMap_cons, List.flatMap_singleton, high,
      marked_of_ne_nil _ (paddedDigits_ne_nil 6 _)]
  · have shown : trimmed (groups nano) =
        [nano / 1000 / 1000, nano / 1000 % 1000, nano % 1000] := by
      simp [groups, trimmed, two, Nat.div_div_eq_div_mul]
    have whole : paddedDigits 6 (nano / 1000) ++ paddedDigits 3 (nano % 1000) =
        paddedDigits 9 nano :=
      @paddedDigits_append 6 nano (by decide) 3 (by decide) (by omega)
    rw [if_neg two, shown, List.flatMap_cons, List.flatMap_cons, List.flatMap_singleton,
      ← List.append_assoc, high, whole, marked_of_ne_nil _ (paddedDigits_ne_nil 9 _)]

theorem lt_of_mem_groups {nano : Nat} (small : nano < nanosPerSecond) :
    ∀ n ∈ trimmed (groups nano), n < 10 ^ 3 := by
  intro n there
  have inside := (trimmed_isPrefix _).subset there
  simp only [nanosPerSecond] at small
  simp only [groups, List.mem_cons, List.not_mem_nil, or_false] at inside
  rcases inside with rfl | rfl | rfl <;> omega

/-- Groups are compared as the nanoseconds that they are made of. -/
theorem compare_groups (m n : Nat) : compare (groups m) (groups n) = compare m n := by
  have whole (k : Nat) : (k / 1000000 * 1000 + k / 1000 % 1000) * 1000 + k % 1000 = k := by omega
  have positive : 0 < 1000 := by decide
  conv => rhs; rw [← whole m, ← whole n]
  rw [compare_mul_add (Nat.mod_lt m positive) (Nat.mod_lt n positive),
    compare_mul_add (Nat.mod_lt _ positive) (Nat.mod_lt _ positive), Ordering.then_assoc, groups,
    groups, List.compare_cons_cons, List.compare_cons_cons, List.compare_cons_cons,
    show compare ([] : List Nat) [] = .eq from rfl, Ordering.then_eq]

/-- **Fractions are compared as nanoseconds**, of whatever length they are. -/
theorem compare_fractionText {m n : Nat} (hm : m < nanosPerSecond) (hn : n < nanosPerSecond) :
    compare (fractionText m) (fractionText n) = compare m n := by
  have same : (groups m).length = (groups n).length := rfl
  rw [fractionText_eq hm, fractionText_eq hn, compare_marked,
    compare_flatMap_paddedDigits (by decide) (lt_of_mem_groups hm) (lt_of_mem_groups hn),
    compare_trimmed same, compare_groups]

/-! ## Parts and patterns -/

/-- How two readings compare in a part. -/
def Part.order (r s : Reading) : Part → Ordering
  | .year => compare r.year s.year
  | .month => compare r.month s.month
  | .day => compare r.day s.day
  | .hour => compare r.hour s.hour
  | .minute => compare r.minute s.minute
  | .second => compare r.second s.second
  | .fraction => compare r.nano s.nano
  | .mark _ => .eq
  | .gap => .eq

/-- How two readings compare in the parts of a pattern, one after the other. -/
def Pattern.order (r s : Reading) : Pattern → Ordering
  | [] => .eq
  | part :: p => (part.order r s).then (order r s p)

/-- What calendar and clock can show, with a year of four digits. -/
structure Reading.Plain (r : Reading) : Prop extends r.Real where
  plain : 0 ≤ r.year ∧ r.year ≤ 9999

theorem compare_natAbs {a b : Int} (ha : 0 ≤ a) (hb : 0 ≤ b) :
    compare a.natAbs b.natAbs = compare a b := by
  have less : a.natAbs < b.natAbs ↔ a < b := by omega
  have more : b.natAbs < a.natAbs ↔ b < a := by omega
  rw [Nat.compare_eq_ite_lt, Int.compare_eq_ite_lt]
  simp only [less, more]

section Order

variable {r s : Reading} (hr : r.Plain) (hs : s.Plain)
include hr hs

/-- **A part other than a fraction is compared in front of whatever follows it.** -/
theorem Part.compare_write {part : Part} (fixed : part ≠ .fraction) (x y : List Char) :
    compare (part.write r ++ x) (part.write s ++ y) = (part.order r s).then (compare x y) := by
  obtain ⟨⟨-, month, day, hour, minute, second, -⟩, year⟩ := hr
  obtain ⟨⟨-, month', day', hour', minute', second', -⟩, year'⟩ := hs
  cases part with
  | year =>
    rw [write, write, yearText, if_pos year, yearText, if_pos year',
      compare_paddedDigits (by decide) (by omega) (by omega), compare_natAbs year.1 year'.1]
    rfl
  | month => exact compare_paddedDigits (by decide) (by omega) (by omega) x y
  | day => exact compare_paddedDigits (by decide) (by omega) (by omega) x y
  | hour => exact compare_paddedDigits (by decide) (by omega) (by omega) x y
  | minute => exact compare_paddedDigits (by decide) (by omega) (by omega) x y
  | second => exact compare_paddedDigits (by decide) (by omega) (by omega) x y
  | fraction => exact absurd rfl fixed
  | mark c => rw [write, write, compare_append rfl, Std.ReflOrd.compare_self, order]
  | gap => rw [write, write, compare_append rfl, Std.ReflOrd.compare_self, order]

/-- **Texts of one pattern are compared part by part**, if a fraction comes last. -/
theorem Pattern.compare_write {p : Pattern} (last : Part.fraction ∉ p.dropLast) :
    compare (p.flatMap (Part.write r)) (p.flatMap (Part.write s)) = p.order r s := by
  induction p with
  | nil => rfl
  | cons part p ih =>
    rw [List.flatMap_cons, List.flatMap_cons, order]
    by_cases fraction : part = .fraction
    · cases p with
      | nil =>
        subst fraction
        rw [List.flatMap_nil, List.flatMap_nil, List.append_nil, List.append_nil, order,
          Ordering.then_eq]
        exact compare_fractionText hr.nano hs.nano
      | cons next p => exact absurd (fraction ▸ List.mem_cons_self) last
    · rw [Part.compare_write hr hs fraction, ih]
      cases p with
      | nil => exact List.not_mem_nil
      | cons next p => exact fun there => last (List.mem_cons_of_mem part there)

/-- The bytes of texts of one pattern are compared part by part. -/
theorem Pattern.compare_encode_write {p : Pattern} (last : Part.fraction ∉ p.dropLast) :
    compare (Utf8.encode (p.write r)) (Utf8.encode (p.write s)) = p.order r s := by
  rw [Utf8.compare_encode, write, write, String.toList_ofList, String.toList_ofList,
    compare_write hr hs last]

end Order

theorem order_datePattern (r s : Reading) :
    datePattern.order r s =
      (compare r.year s.year).then ((compare r.month s.month).then (compare r.day s.day)) := by
  simp only [datePattern, Pattern.order, Part.order, Ordering.eq_then, Ordering.then_eq]

theorem order_timePattern (r s : Reading) :
    timePattern.order r s =
      (compare r.hour s.hour).then ((compare r.minute s.minute).then
        ((compare r.second s.second).then (compare r.nano s.nano))) := by
  simp only [timePattern, Pattern.order, Part.order, Ordering.eq_then, Ordering.then_eq]

theorem Pattern.order_append (r s : Reading) (p q : Pattern) :
    Pattern.order r s (p ++ q) = (p.order r s).then (q.order r s) := by
  induction p with
  | nil => rfl
  | cons part p ih => rw [List.cons_append, order, order, ih, Ordering.then_assoc]

theorem Reading.plain_reading (t : Time) : t.reading.Plain :=
  ⟨Reading.real_reading t, show (0 : Int) ≤ 0 ∧ (0 : Int) ≤ 9999 by decide⟩

theorem Reading.plain_of {d : Date} (plain : 0 ≤ d.year ∧ d.year ≤ 9999) (t : Time) :
    (Reading.of d t).Plain :=
  ⟨Reading.real_of d t, plain⟩

end Calendar

/-! ## Dates, times and timestamps -/

theorem Time.compare_encode_text (a b : Time) :
    compare (Utf8.encode a.text) (Utf8.encode b.text) = compare a b := by
  rw [text, text, Pattern.compare_encode_write (Reading.plain_reading a) (Reading.plain_reading b)
    (by decide), order_timePattern, Time.compare_eq]
  rfl

theorem Date.compare_encode_text {a b : Date} (ha : 0 ≤ a.year ∧ a.year ≤ 9999)
    (hb : 0 ≤ b.year ∧ b.year ≤ 9999) :
    compare (Utf8.encode a.text) (Utf8.encode b.text) = compare a b := by
  rw [text, text, Pattern.compare_encode_write (Reading.plain_of ha _) (Reading.plain_of hb _)
    (by decide), order_datePattern, Date.compare_eq]
  rfl

theorem Timestamp.compare_encode_text {a b : Timestamp}
    (ha : 0 ≤ a.date.year ∧ a.date.year ≤ 9999) (hb : 0 ≤ b.date.year ∧ b.date.year ≤ 9999) :
    compare (Utf8.encode a.text) (Utf8.encode b.text) = compare a b := by
  rw [text, text, Pattern.compare_encode_write (Reading.plain_of ha _) (Reading.plain_of hb _)
    (by decide), timestampPattern, Pattern.order_append, Pattern.order, order_datePattern,
    order_timePattern]
  show _ = (compare a.date b.date).then (compare a.time b.time)
  rw [Date.compare_eq, Time.compare_eq]
  rfl

/-! ## Comparison in a database -/

/-- How a database compares two stored texts: by their bytes. -/
def Stored.compareText? : Stored → Stored → Option Ordering
  | .text a, .text b => some (compare a b)
  | _, _ => none

end BoundSql
