import BoundSql.Calendar.Pattern

/-! # The texts of dates, times and timestamps

Dates are written `2024-02-29`, times `23:59:60.500`, timestamps as a date, a space and a time.
The same patterns read them; a timestamp may also have a `T` between its halves, and a text that
neither pattern reads is refused with the fault of the second.

Tagged data writes the `T` and has readers of its own: blanks may follow every field, and the
seconds of a time may be missing.
-/

namespace BoundSql

open Calendar

namespace Calendar

/-- Year, month and day. -/
def datePattern : Pattern := [.year, .mark '-', .month, .mark '-', .day]

/-- Hour, minute, second and fraction. -/
def timePattern : Pattern := [.hour, .mark ':', .minute, .mark ':', .second, .fraction]

/-- A date and a time with a gap between them. -/
def timestampPattern : Pattern := datePattern ++ .gap :: timePattern

/-- A date and a time with a `T` between them. -/
def joinedPattern : Pattern := datePattern ++ .mark 'T' :: timePattern

/-- A date with gaps. -/
def looseDatePattern : Pattern := [.year, .gap, .mark '-', .month, .gap, .mark '-', .day, .gap]

/-- Hour and minute with a gap. -/
def looseMinutePattern : Pattern := [.hour, .gap, .mark ':', .minute]

/-- The seconds of a time with gaps. -/
def looseSecondPattern : Pattern := [.gap, .mark ':', .second, .fraction, .gap]

/-- A timestamp with a `T` and gaps. -/
def looseTimestampPattern : Pattern :=
  looseDatePattern ++ .mark 'T' :: (looseMinutePattern ++ looseSecondPattern)

/-- The date that is shown. -/
def Reading.date (r : Reading) : Except Fault Date :=
  match Date.of? r.year r.month r.day with
  | some d => .ok d
  | none => .error .outOfRange

/-- The time that is shown; second 60 is a leap second. -/
def Reading.time (r : Reading) : Except Fault Time :=
  let found :=
    if r.second = 60 then Time.of? r.hour r.minute 59 (nanosPerSecond + r.nano)
    else Time.of? r.hour r.minute r.second r.nano
  match found with
  | some t => .ok t
  | none => .error .outOfRange

/-- The date and the time that are shown. -/
def Reading.timestamp (r : Reading) : Except Fault Timestamp :=
  match r.date with
  | .error e => .error e
  | .ok date =>
    match r.time with
    | .error e => .error e
    | .ok time => .ok ⟨date, time⟩

/-- Calendar and clock at a date and a time. -/
def Reading.of (d : Date) (t : Time) : Reading where
  year := d.year
  month := d.month
  day := d.day
  hour := t.hour
  minute := t.minute
  second := t.second + t.nano / nanosPerSecond
  nano := t.nano % nanosPerSecond

end Calendar

/-! ### Writing -/

/-- The text of a date. -/
def Date.text (d : Date) : String :=
  Pattern.write datePattern (Reading.of d .midnight)

/-- The clock at a time, on an arbitrary day. -/
def Time.reading (t : Time) : Reading :=
  { Reading.start with
    hour := t.hour
    minute := t.minute
    second := t.second + t.nano / nanosPerSecond
    nano := t.nano % nanosPerSecond }

/-- The text of a time. -/
def Time.text (t : Time) : String :=
  Pattern.write timePattern t.reading

/-- The text of a timestamp, with a space between its halves. -/
def Timestamp.text (t : Timestamp) : String :=
  Pattern.write timestampPattern (Reading.of t.date t.time)

/-- The text of a timestamp, with a `T` between its halves. -/
def Timestamp.joinedText (t : Timestamp) : String :=
  Pattern.write joinedPattern (Reading.of t.date t.time)

/-! ### Reading -/

/-- Read a date. -/
def Date.read (s : String) : Except Fault Date :=
  datePattern.read s >>= Reading.date

/-- Read a time. -/
def Time.read (s : String) : Except Fault Time :=
  timePattern.read s >>= Reading.time

/-- Read a timestamp with a space or a `T` between its halves. -/
def Timestamp.read (s : String) : Except Fault Timestamp :=
  match timestampPattern.read s >>= Reading.timestamp with
  | .ok t => .ok t
  | .error _ => joinedPattern.read s >>= Reading.timestamp

/-- Read a date with gaps. -/
def Date.readLoose (s : String) : Except Fault Date :=
  looseDatePattern.read s >>= Reading.date

/-- Read a timestamp with a `T` and gaps. -/
def Timestamp.readLoose (s : String) : Except Fault Timestamp :=
  looseTimestampPattern.read s >>= Reading.timestamp

/-- Read a time with gaps; when the seconds cannot be read, nothing but blanks may stand there. -/
def Time.readLoose (s : String) : Except Fault Time :=
  match looseMinutePattern.readFrom .start s.toList with
  | .error e => .error e
  | .ok (r, rest) =>
    let found :=
      match looseSecondPattern.readFrom r rest with
      | .ok found => found
      | .error _ => (r, rest)
    finish (Pattern.readFrom [.gap] found.1 found.2) >>= Reading.time

end BoundSql
