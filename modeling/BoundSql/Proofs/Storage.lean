import BoundSql.Connection.Echo
import BoundSql.Proofs.Calendar
import BoundSql.Proofs.Json
import BoundSql.Proofs.Protocol

/-!
# What a database hands back

A database with four storage classes hands back a bool as an integer, and dates, times, timestamps,
UUIDs and JSON as their texts (`Value.handedBack`).  Host types make up for it when they decode:
what a value stands for, that which is handed back for it stands for as well
(`HostType.decodeValue_handedBack`).  There is one exception.  A timestamp stands for its date, but
its text is refused as a date (`HostType.decodeValue_date_timestamp`).

The results are about whole runs on the echoing database: a statement that selects its one parameter
is prepared, bound and run, and its row is decoded (`Echo.fetch_select`).  `Echo.fetches_written`
says that what is written at a host type is fetched as it was, and `Echo.fetches_decoded_iff` that a
value is fetched as anything it stands for, but for the exception.
-/

namespace BoundSql

/-! ## What is handed back -/

namespace Value

/-- What is handed back for a value that was stored: a bool as an integer, and dates, times,
timestamps, UUIDs and JSON as their texts. -/
def handedBack : Value → Value
  | .bool b => .int (if b then 1 else 0)
  | .date d => .text d.text
  | .time t => .text t.text
  | .timestamp t => .text t.text
  | .uuid u => .text u.text
  | .json j => .text j.compact
  | v => v

/-- **Storing and reading** hands a value back; the texts are taken to bytes and read from them. -/
theorem read_stored (v : Value) : v.stored.read = .ok v.handedBack := by
  have text : ∀ s, (Stored.text (Utf8.encode s)).read = .ok (.text s) := fun s => by
    rw [Stored.read, Utf8.decode_encode]
    rfl
  cases v with
  | bool b => rfl
  | int i => rfl
  | real x => rfl
  | blob bytes => rfl
  | text s => exact text s
  | date d => exact text d.text
  | time t => exact text t.text
  | timestamp t => exact text t.text
  | uuid u => exact text u.text
  | json j => exact text j.compact

/-- A value whose text or storage loses nothing: a double that is not NaN, and JSON that is read
back from its text. -/
def Faithful : Value → Prop
  | .real x => x.isNaN = false
  | .json j => j.Exact ∧ j.depth ≤ Json.depthLimit
  | _ => True

theorem Faithful.kept {v : Value} (faithful : v.Faithful) : v.stored.kept? = some v.stored := by
  cases v with
  | real x => exact if_neg (Bool.eq_false_iff.mp faithful)
  | _ => rfl

end Value

namespace HostType

/-- Only the error of decoding a cell tells the column. -/
theorem decode_eq_ok_iff {t : HostType} {column : String} {v : Value} {x : t.Carrier} :
    t.decode column (some v) = .ok x ↔ t.decodeValue v = .ok x := by
  rw [decode]
  cases t.decodeValue v with
  | ok y =>
    constructor <;>
      · intro same
        cases same
        rfl
  | error e => constructor <;> (intro same; cases same)

/-- **Decoding does not notice the storage**, unless a date is asked for where there was a
timestamp: what a value stands for, its text or integer stands for as well. -/
theorem decodeValue_handedBack {t : HostType} {v : Value} {x : t.Carrier}
    (decoded : t.decodeValue v = .ok x) (faithful : v.Faithful) (other : t ≠ .value)
    (noDate : t = .date → v.sqlType ≠ .timestamp) : t.decodeValue v.handedBack = .ok x := by
  cases v with
  | int i => exact decoded
  | real x => exact decoded
  | text s => exact decoded
  | blob bytes => exact decoded
  -- The others come back as something else.  Host types that do not know the value are ruled out by
  -- `decoded`, and those that do know what comes back as well.
  | bool b =>
    cases t with
    | int w => exact decoded
    | bool =>
      cases decoded
      cases b <;> rfl
    | value => exact absurd rfl other
    | _ => cases decoded
  | date d =>
    cases t with
    | date =>
      cases decoded
      simp only [decodeValue, Value.handedBack, decodeDate, d.read_text]
      rfl
    | value => exact absurd rfl other
    | _ => cases decoded
  | time d =>
    cases t with
    | time =>
      cases decoded
      simp only [decodeValue, Value.handedBack, decodeTime, d.read_text]
      rfl
    | value => exact absurd rfl other
    | _ => cases decoded
  | timestamp d =>
    cases t with
    | timestamp =>
      cases decoded
      simp only [decodeValue, Value.handedBack, decodeTimestamp, d.read_text]
      rfl
    | date => exact absurd rfl (noDate rfl)
    | value => exact absurd rfl other
    | _ => cases decoded
  | uuid u =>
    cases t with
    | uuid =>
      cases decoded
      simp only [decodeValue, Value.handedBack, decodeUuid, u.read_text]
      rfl
    | value => exact absurd rfl other
    | _ => cases decoded
  | json j =>
    cases t with
    | json =>
      cases decoded
      have read := faithful.1.parse?_compact faithful.2
      simp only [decodeValue, Value.handedBack, decodeJson, read]
      rfl
    | value => exact absurd rfl other
    | _ => cases decoded

/-- A timestamp that was stored is refused as a date. -/
theorem decodeValue_date_timestamp (ts : Timestamp) :
    date.decodeValue (Value.timestamp ts).handedBack = .error (.calendar .tooLong) := by
  simp only [decodeValue, Value.handedBack, decodeDate, Date.read_timestamp_text]
  rfl

/-- An element that is written as a value from which it can be told: all but integers of 64 unsigned
bits, which no value holds, single floats, values themselves, NaN, and JSON with doubles or that
nests 128 deep. -/
def Storable : (t : HostType) → t.Carrier → Prop
  | .int .u64, _ => False
  | .single, _ => False
  | .value, _ => False
  | .double, x => x.isNaN = false
  | .json, j => j.Exact ∧ j.depth < 128
  | _, _ => True

theorem toValue?_int {w : IntWidth} (narrow : w ≠ .u64) (i : { i : Int // w.Holds i }) :
    (int w).toValue? i = some (.int (Int64.ofInt i.val)) := by
  cases w <;> first | rfl | exact absurd rfl narrow

/-- An integer of at most 64 signed bits is decoded from its value. -/
theorem decodeWidth_ofInt {w : IntWidth} (narrow : w ≠ .u64) (i : { i : Int // w.Holds i }) :
    decodeWidth w (.int (Int64.ofInt i.val)) = .ok i := by
  have word : -2 ^ 63 ≤ i.val ∧ i.val < 2 ^ 63 := by
    obtain ⟨lower, upper⟩ := i.property
    have bounds : -2 ^ 63 ≤ w.least ∧ w.greatest < 2 ^ 63 := by
      cases w <;> first | decide | exact absurd rfl narrow
    omega
  have same : (Int64.ofInt i.val).toInt = i.val := Int64.toInt_ofInt_of_le word.1 word.2
  simp only [decodeWidth, decodeInt, same, i.property, dif_pos]

/-- **What is written stands for itself**, also when it was stored. -/
theorem exists_toValue? {t : HostType} {x : t.Carrier} (storable : t.Storable x) :
    ∃ v, t.toValue? x = some v ∧ v.Faithful ∧ t.decodeValue v.handedBack = .ok x := by
  have handed : ∀ {v}, t.toValue? x = some v → v.Faithful → t.decodeValue v = .ok x →
      (t = .date → v.sqlType ≠ .timestamp) →
      ∃ v, t.toValue? x = some v ∧ v.Faithful ∧ t.decodeValue v.handedBack = .ok x := by
    intro v written faithful decoded noDate
    have other : t ≠ .value := by
      rintro rfl
      exact storable
    exact ⟨v, written, faithful, decodeValue_handedBack decoded faithful other noDate⟩
  cases t with
  | int w =>
    have narrow : w ≠ .u64 := by
      rintro rfl
      exact storable
    exact handed (toValue?_int narrow x) trivial (decodeWidth_ofInt narrow x) nofun
  | single => exact storable.elim
  | value => exact storable.elim
  | double => exact handed rfl storable rfl nofun
  | json => exact handed rfl ⟨storable.1, Nat.le_of_lt_succ storable.2⟩ rfl nofun
  | date => exact handed rfl trivial rfl (fun _ => nofun)
  | _ => exact handed rfl trivial rfl nofun

end HostType

/-! ## Selecting a parameter -/

namespace Echo

/-- A quoted name is read up to its closing quote. -/
theorem readName?_double (cs : List Char) :
    readName? (Quoted.double '"' cs ++ ['"']) = some (cs, []) := by
  induction cs with
  | nil => rfl
  | cons c cs ih =>
    rw [Quoted.double]
    split
    · next quote =>
      subst quote
      rw [List.cons_append, List.cons_append, readName?, ih]
      rfl
    · next other =>
      rw [List.cons_append, readName?, ih]
      · rfl
      · exact fun _ quote => absurd quote other
      · exact other

theorem readColumn?_sql (name : String) :
    readColumn? (Column.sql ⟨name, false⟩).toList = some (⟨name, false⟩, []) := by
  have text : (Column.sql ⟨name, false⟩).toList =
      "? AS \"".toList ++ (Quoted.double '"' name.toList ++ ['"']) := by
    simp [Column.sql, Quoted.quote]
  have noCast : after? "CAST(? AS TEXT) AS \"".toList (Column.sql ⟨name, false⟩).toList = none := by
    rw [text]
    rfl
  have plain : after? "? AS \"".toList (Column.sql ⟨name, false⟩).toList =
      some (Quoted.double '"' name.toList ++ ['"']) := by
    rw [text]
    rfl
  rw [readColumn?, noCast]
  simp only [plain, Option.map_some, Option.bind_eq_bind, Option.bind_some, readName?_double]
  exact congrArg (fun name => some (Column.mk name false, [])) String.ofList_toList

/-- The text of a statement with one column is read back. -/
theorem parse?_sql (name : String) : parse? (sql [⟨name, false⟩]) = some [⟨name, false⟩] := by
  have text : after? "SELECT ".toList (sql [⟨name, false⟩]).toList =
      some (Column.sql ⟨name, false⟩).toList := by
    rw [sql, String.toList_append]
    rfl
  rw [parse?, text]
  simp only [Option.bind_eq_bind, Option.bind_some, readColumns?, readColumn?_sql]
  rfl

/-- A statement that selects its one parameter under a name. -/
def select (name : String) (p : Param) : Statement where
  stage := .selectFrom
  sql := sql [⟨name, false⟩]
  params := [p]

/-- What is kept of a parameter: nothing of a null, and of a NaN. -/
def kept? (p : Param) : Option Stored :=
  p.value?.bind fun v => v.stored.kept?

/-- The prepared statement that selects what is kept under a name. -/
def selecting (name : String) (kept : Option Stored) : Prepared :=
  ⟨[⟨name, false⟩], [kept]⟩

/-- **Selecting a parameter** gives one row. -/
theorem fetch_select {α : Type} (name : String) (p : Param) (f : Row → Except SqlError α)
    (clock : Nat) : ((select name p).fetch connection f clock).result =
      (f (selecting name (kept? p)).row).map ([·]) := by
  obtain ⟨result, -⟩ := (select name p).logged_run .query List.length
    ((select name p).prepared connection (connection.collect (.ofFun f))) (clock, ())
  have prepared : connection.prepare (select name p).sql clock =
      ⟨.ok (selecting name none), clock + 1, [.called (.prepare (select name p).sql)]⟩ := by
    simp [connection, Machine.connection, Machine.perform, machine, select, parse?_sql, selecting]
  have bound : ∃ trace, Statement.bindFrom connection 1 [p] (clock + 1, selecting name none) =
      ⟨.ok (), (clock + 1, selecting name (kept? p)), trace⟩ := by
    cases p <;> exact ⟨_, rfl⟩
  have collected : (connection.collect (.ofFun f)
      ((clock + 1, selecting name (kept? p)), ())).result =
        (f (selecting name (kept? p)).row).map ([·]) := by
    cases made : f (selecting name (kept? p)).row <;>
      simp [Connection.collect, Connection.gather, connection, Machine.connection,
        Machine.runQuery, machine, Cursor.ofRows, Cursor.visit, RowMap.keeping, RowMap.ofFun, made,
        Except.map]
  obtain ⟨trace, bound⟩ := bound
  have params : (select name p).params = [p] := rfl
  simp only [Statement.fetch, Action.within, Statement.fetchWith, result]
  rw [Statement.prepared_run _ connection _ clock () prepared]
  simp only [params, bound]
  exact collected

/-- The column holds what is handed back. -/
theorem cell_selecting (name : String) (v : Value) :
    (selecting name (some v.stored)).row.cell name = .ok (some v.handedBack) := by
  have same : sameName name name = true := beq_self_eq_true _
  simp [Prepared.row, selecting, same, cellOf, v.read_stored]

theorem cell_selecting_none (name : String) : (selecting name none).row.cell name = .ok none := by
  have same : sameName name name = true := beq_self_eq_true _
  simp [Prepared.row, selecting, same, cellOf]

/-- A parameter that was kept is fetched as what is handed back for it. -/
theorem fetch_get {v : Value} (faithful : v.Faithful) (t : HostType) (name : String) (clock : Nat) :
    ((select name (.value v)).fetch connection (·.get t name) clock).result =
      (t.decode name (some v.handedBack)).map ([·]) := by
  have kept : kept? (.value v) = some v.stored := faithful.kept
  rw [fetch_select, kept, Row.get, cell_selecting]

theorem fetch_getOption {v : Value} (faithful : v.Faithful) (t : HostType) (name : String)
    (clock : Nat) :
    ((select name (.value v)).fetch connection (·.getOption t name) clock).result =
      (t.decodeOption name (some v.handedBack)).map ([·]) := by
  have kept : kept? (.value v) = some v.stored := faithful.kept
  rw [fetch_select, kept, Row.getOption, cell_selecting]

/-- **Decoding does not depend on the storage but for dates.**  Whatever a bound value stands for at
a host type, it is fetched as that, unless it is a timestamp and a date is asked for. -/
theorem fetches_decoded_iff {t : HostType} {v : Value} (faithful : v.Faithful)
    (other : t ≠ .value) :
    (∀ (name : String) (x : t.Carrier), t.decode name (some v) = .ok x → ∀ clock : Nat,
      ((select name (.value v)).fetch connection (·.get t name) clock).result = .ok [x] ∧
      ((select name (.value v)).fetch connection (·.getOption t name) clock).result =
        .ok [some x]) ↔
    ¬(t = .date ∧ v.sqlType = .timestamp) := by
  constructor
  -- Every timestamp breaks it, at any name.
  · rintro same ⟨rfl, timestamp⟩
    obtain ⟨ts, rfl⟩ : ∃ ts, v = .timestamp ts := by
      cases v <;> first | exact ⟨_, rfl⟩ | cases timestamp
    have fetched := (same "A" ts.date rfl 0).1
    rw [fetch_get faithful, HostType.decode, HostType.decodeValue_date_timestamp] at fetched
    cases fetched
  · intro noDate name x decoded clock
    have native : t.decodeValue v = .ok x := HostType.decode_eq_ok_iff.mp decoded
    have stored : t.decode name (some v.handedBack) = .ok x := HostType.decode_eq_ok_iff.mpr
      (HostType.decodeValue_handedBack native faithful other (not_and.mp noDate))
    rw [fetch_get faithful, fetch_getOption faithful, HostType.decodeOption, stored]
    exact ⟨rfl, rfl⟩

/-- A bool is fetched as a byte, and a timestamp is not fetched as a date. -/
theorem fetches_decoded_iff_bool_timestamp :
    let ts : Timestamp := ⟨⟨2024, 2, 29, by decide, by decide, by decide, by decide, by decide,
      by decide⟩, .midnight⟩
    let one : (HostType.int .u8).Carrier := ⟨1, by decide⟩
    ((select "A" (.value (.bool true))).fetch connection (·.get (.int .u8) "A") 0).result =
        .ok [one] ∧
      ¬∀ (name : String) (x : Date), HostType.date.decode name (some (.timestamp ts)) = .ok x →
        ∀ clock : Nat,
          ((select name (.value (.timestamp ts))).fetch connection (·.get .date name) clock).result
            = .ok [x] ∧
          ((select name (.value (.timestamp ts))).fetch connection (·.getOption .date name)
            clock).result = .ok [some x] := by
  intro ts one
  have bool := (fetches_decoded_iff (t := .int .u8) (v := .bool true) trivial nofun).mpr nofun
  have date := fetches_decoded_iff (t := .date) (v := .timestamp ts) trivial nofun
  exact ⟨(bool "A" one rfl 0).1, fun same => date.mp same ⟨rfl, rfl⟩⟩

/-- **A timestamp is no date once it was stored**: it stands for its date as it is, but is refused
as one when it is fetched. -/
theorem timestamp_refused_as_date :
    let date : Date := ⟨2024, 2, 29, by decide, by decide, by decide, by decide, by decide,
      by decide⟩
    let time : Time := ⟨1, 2, 3, 0, by decide, by decide, by decide, by decide, by decide⟩
    let v : Value := .timestamp ⟨date, time⟩
    HostType.date.decode "A" (some v) = .ok date ∧
      ((select "A" (.value v)).fetch connection (·.get .date "A") 0).result =
        .error (.decode "A" (.calendar .tooLong)) := by
  intro date time v
  have faithful : v.Faithful := trivial
  refine ⟨rfl, ?_⟩
  rw [fetch_get faithful, HostType.decode, HostType.decodeValue_date_timestamp]
  rfl

end Echo

end BoundSql
