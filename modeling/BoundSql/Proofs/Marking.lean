import BoundSql.Proofs.Durations
import BoundSql.Proofs.FanOut
import BoundSql.Proofs.TextLimit
import BoundSql.Proofs.Truncation

/-!
# Marks of shortened texts in the log

Two limits are put to the text of a statement before it is logged: the connection cuts it for all
monitors, and a logging monitor cuts what it is told once more.  Only the monitor leaves a mark, so
its entries are honest about the text that it was told (`Logging.marked_shown`).  About the text
that was prepared they are when the connection has not cut it, or when the monitor cuts what is
left; `Logging.marked_shown_cut_iff` says that there is only one case more, by chance.

For sessions there are two parts to this.  What is logged is what the events leave, one after the
other: this is kept by everything that a command is put together from (`Trace.Writes`), as what a
panel logs for an event never changes (`Instrumented.Steady`).  And the events are those of the
whole texts, under the limit (`performAll_within`).
-/

namespace BoundSql

open Monitor Session

variable {σ τ ω π α β : Type}

/-! ## Marked texts -/

namespace Monitor

/-- A text is shown whole, or as a proper beginning of it with three dots behind. -/
def Marked (text shown : String) : Prop :=
  shown = text ∨ ∃ kept : String, kept.toList <+: text.toList ∧ kept ≠ text ∧ shown = kept ++ "..."

/-- A beginning is marked when it is shorter. -/
theorem marked_of_lt {text kept : String} (begins : kept.toList <+: text.toList)
    (less : kept.utf8ByteSize < text.utf8ByteSize) : Marked text (kept ++ "...") := by
  refine .inr ⟨kept, begins, ?_, rfl⟩
  rintro rfl
  exact absurd less (Nat.lt_irrefl _)

namespace Logging

variable {l : Logging} {text : String} {limit most : Nat}

theorem shown_of_none (unlimited : l.maxSqlLength? = none) (text : String) :
    l.shown text = text := by
  rw [shown, unlimited]

theorem shown_of_lt (limited : l.maxSqlLength? = some most) (long : most < text.utf8ByteSize) :
    l.shown text = Utf8.cut text most ++ "..." := by
  simp only [shown, limited, Utf8.cutWithDots_of_lt long]

/-- A monitor shortens what is longer than its limit. -/
def Shortens (l : Logging) (text : String) : Prop :=
  ∃ most, l.maxSqlLength? = some most ∧ most < text.utf8ByteSize

theorem shown_of_not_shortens (whole : ¬ l.Shortens text) : l.shown text = text := by
  cases limited : l.maxSqlLength? with
  | none => exact shown_of_none limited text
  | some most =>
    have fits : text.utf8ByteSize ≤ most :=
      Nat.le_of_not_lt fun long => whole ⟨most, limited, long⟩
    simp only [shown, limited, Utf8.cutWithDots_of_le fits]

/-- What is shortened is marked, as a part of any text that it is the beginning of. -/
theorem marked_of_shortens {told : String} (begins : told.toList <+: text.toList)
    (shortens : l.Shortens told) : Marked text (l.shown told) := by
  obtain ⟨most, limited, long⟩ := shortens
  have cut := Utf8.isCut_cut most told
  rw [shown_of_lt limited long]
  refine marked_of_lt (cut.begins.trans begins) ?_
  calc (Utf8.cut told most).utf8ByteSize
    _ ≤ most := cut.fits
    _ < told.utf8ByteSize := long
    _ ≤ text.utf8ByteSize := Utf8.utf8ByteSize_le_of_isPrefix begins

/-- **A logging monitor marks what it shortens.** -/
theorem marked_shown (l : Logging) (text : String) : Marked text (l.shown text) := by
  by_cases shortens : l.Shortens text
  · exact marked_of_shortens (List.prefix_refl _) shortens
  · exact .inl (shown_of_not_shortens shortens)

/-- **The mark of a text that a connection cuts before** is there if it cuts nothing, if the monitor
shortens the rest, or if the rest happens to end in three dots. -/
theorem marked_shown_cut_iff :
    Marked text (l.shown (Utf8.cut text limit)) ↔ text.utf8ByteSize ≤ limit ∨
      l.Shortens (Utf8.cut text limit) ∨ ∃ kept, Utf8.cut text limit = kept ++ "..." := by
  have begins := (Utf8.isCut_cut limit text).begins
  by_cases shortens : l.Shortens (Utf8.cut text limit)
  · exact iff_of_true (marked_of_shortens begins shortens) (.inr (.inl shortens))
  · rw [shown_of_not_shortens shortens, ← Utf8.cut_eq_self_iff]
    constructor
    · rintro (whole | ⟨kept, -, -, dots⟩)
      · exact .inl whole
      · exact .inr (.inr ⟨kept, dots⟩)
    · rintro (whole | shortens' | ⟨kept, dots⟩)
      · exact .inl whole
      · exact absurd shortens' shortens
      · have size : kept.utf8ByteSize < (Utf8.cut text limit).utf8ByteSize := by
          rw [dots, String.utf8ByteSize_append]
          exact Nat.lt_add_of_pos_right (by decide)
        have start : kept.toList <+: (Utf8.cut text limit).toList := by
          rw [dots, String.toList_append]
          exact List.prefix_append _ _
        rw [dots]
        exact marked_of_lt (start.trans begins)
          (Nat.lt_of_lt_of_le size (Utf8.utf8ByteSize_le_of_isPrefix begins))

end Logging

end Monitor

/-! ## What events leave in the log -/

namespace Trace

theorem log_append (t u : Trace) : log (t ++ u) = log t ++ log u :=
  List.filterMap_append

/-- What is logged in a trace is what its events leave, one after the other. -/
def Writes (entries : Event → List LogEntry) (t : Trace) : Prop :=
  t.log = t.events.flatMap entries

variable {entries : Event → List LogEntry} {t u : Trace}

theorem Writes.append (first : t.Writes entries) (rest : u.Writes entries) :
    (t ++ u).Writes entries := by
  unfold Writes at first rest ⊢
  rw [log_append, events_append, List.flatMap_append, first, rest]

end Trace

namespace Cursor

/-- Rows leave nothing. -/
theorem writes_visit {ρ : Type} (entries : Event → List LogEntry) (visitor : Visitor ω)
    (c : Cursor ρ) (w : ω) : (c.visit visitor w).trace.Writes entries := by
  induction c generalizing w with
  | ended result s => rfl
  | row r next ih => exact ih (visitor r w).1 (visitor r w).2

end Cursor

namespace Session

theorem writes_withStatement {entries : Event → List LogEntry} (n : Nat) (answer : β → Answer α)
    {a : Action ((σ × τ) × ω) β} {s : Session σ τ} {w : ω}
    (writes : ∀ t, (a ((s.state, t), w)).trace.Writes entries) :
    (withStatement n answer a (s, w)).trace.Writes entries := by
  cases known : s.statements[n]? with
  | none =>
    rw [withStatement_none known]
    rfl
  | some t =>
    rw [withStatement_some known]
    exact writes t

theorem writes_prepare {entries : Event → List LogEntry} {c : Connection σ τ} {sql : String}
    {s : Session σ τ} (writes : (c.prepare sql s.state).trace.Writes entries) :
    (prepare (α := α) c sql s).trace.Writes entries := by
  rw [prepare]
  cases (c.prepare sql s.state).result <;> exact writes

end Session

namespace Instrumented

/-- What a monitor logs for an event is the same at all times. -/
structure Steady (l : Listener π) (entries : π → Event → List LogEntry) : Prop where
  written (p : π) (e : Event) : (l p e).2 = entries p e
  kept (p : π) (e : Event) : entries (l p e).1 = entries p

/-- A panel is steady. -/
theorem steady_panel : Steady Panel.receive Panel.entries where
  written := Panel.receive_snd
  kept p e := funext (p.entries_receive e)

section Steady

variable {l : Listener π} {entries : π → Event → List LogEntry} (steady : Steady l entries)

include steady

theorem entries_hear (p : π) (es : List Event) : entries (hear l p es) = entries p := by
  induction es generalizing p with
  | nil => rfl
  | cons e es ih => exact (ih (l p e).1).trans (steady.kept p e)

theorem writes_tell (p : π) (e : Event) : (tell l p e).2.Writes (entries p) := by
  have log : (tell l p e).2.log = (l p e).2 := by
    simp [tell, Trace.log, List.filterMap_map]
  have events : (tell l p e).2.events = [e] := by
    simp [tell, Trace.events, List.filterMap_map]
  unfold Trace.Writes
  rw [log, events, steady.written, List.flatMap_singleton]

/-- **Telling events** leaves what they leave. -/
theorem writes_tellAll (p : π) (es : List Event) : (tellAll l p es).2.Writes (entries p) := by
  induction es generalizing p with
  | nil => rfl
  | cons e es ih =>
    rw [tellAll]
    refine (writes_tell steady p e).append ?_
    rw [← steady.kept p e]
    exact ih (l p e).1

theorem writes_observe {config : MonitorConfig} {now : σ → Nat} {summary : α → Result}
    {run : Action ((σ × τ) × ω) α} {s : σ} {p : π} {t : τ} {k : Tracked} {w : ω}
    (silent : (run ((s, t), w)).trace.Writes (entries p)) :
    (observe l config now summary run (((s, p), (t, k)), w)).trace.Writes (entries p) := by
  have later := writes_tellAll steady (tellAll l p (config.told [.started k.context])).1
    (config.told (ending config k.context ⟨now (run ((s, t), w)).state.1.1 - now s⟩
      (reportedResult summary (run ((s, t), w)).result)))
  rw [tellAll_fst, entries_hear steady, ← tellAll_fst] at later
  exact ((writes_tellAll steady p _).append silent).append later

variable (config : MonitorConfig) (m : Machine σ τ)

theorem writes_prepare_connectionTo (sql : String) (x : σ) (p : π) :
    ((connectionTo l config m.connection).prepare sql (x, p)).trace.Writes (entries p) := by
  rcases answer : m.prepare sql x with ⟨e | t, y⟩
  · rw [prepare_connectionTo_error l config answer]
    exact writes_tellAll steady p _
  · rw [prepare_connectionTo_ok l config answer]
    rfl

/-- **A command** leaves in the log what its events leave. -/
theorem writes_performWith (map : RowMap ω α) (command : Command)
    (s : Session (σ × π) (τ × Tracked)) (w : ω) :
    (performWith (connectionTo l config m.connection) map command (s, w)).trace.Writes
      (entries s.state.2) := by
  cases command with
  | prepare sql => exact writes_prepare (writes_prepare_connectionTo steady config m sql _ _)
  | bind n index v => exact writes_withStatement n _ fun _ => rfl
  | bindNull n index t => exact writes_withStatement n _ fun _ => rfl
  | update n => exact writes_withStatement n _ fun _ => writes_observe steady rfl
  | query n =>
    refine writes_withStatement n _ fun (t, k) => ?_
    -- The query that the statement is asked for is `observe` on one whose rows are counted.
    let x := ((s.state, (t, k)), (w, ([] : List α)))
    let run := m.connection.gather (counting map.keeping) 0
    have queried : ((connectionTo l config m.connection).query map.keeping x).trace =
        (observe l config m.now .rows run x).trace :=
      congrArg Outcome.trace (Action.run_bind_pure _ _ x)
    have writes : (observe l config m.now .rows run x).trace.Writes (entries s.state.2) :=
      writes_observe steady (Cursor.writes_visit _ _ _ _)
    rw [← queried] at writes
    exact writes

/-- **A session** leaves in the log what its events leave. -/
theorem log_performAll (commands : List (Command × RowMap ω α))
    (s : Session (σ × π) (τ × Tracked)) (w : ω) :
    let steps := performAll (connectionTo l config m.connection) commands (s, w)
    steps.flatMap (·.outcome.trace.log) =
      (steps.flatMap (·.outcome.trace.events)).flatMap (entries s.state.2) := by
  induction commands generalizing s w with
  | nil => rfl
  | cons first rest ih =>
    let out := performWith (connectionTo l config m.connection) first.2 first.1 (s, w)
    have writes : out.trace.Writes (entries s.state.2) :=
      writes_performWith steady config m first.2 first.1 s w
    obtain ⟨es, -, -, monitor⟩ := takesTurn_performWith l config m first.2 first.1 s w
    have kept : entries out.state.1.state.2 = entries s.state.2 :=
      (congrArg entries monitor).trans (entries_hear steady _ _)
    have later := ih out.state.1 out.state.2
    rw [kept] at later
    simp only [performAll, List.flatMap_cons, List.flatMap_append]
    exact congrArg₂ (· ++ ·) writes later

end Steady

end Instrumented

/-! ## Marks in the log of a session -/

namespace Monitor

/-- What a logging monitor shows of a text that was prepared, when a connection tells it the text
under a limit. -/
structure Logging.Shows (l : Logging) (limit : Nat) (text told shown : String) : Prop where
  cut : Utf8.IsCut limit text told
  marked : Marked told shown
  unlimited : l.maxSqlLength? = none → shown = told
  /-- The connection has not cut the text. -/
  fits : text.utf8ByteSize ≤ limit → Marked text shown ∧ (l.maxSqlLength? = none → shown = text)
  /-- The monitor shortens what the connection has left. -/
  shortened : l.Shortens told → Marked text shown

theorem Logging.shows (l : Logging) (limit : Nat) (text : String) :
    l.Shows limit text (Utf8.cut text limit) (l.shown (Utf8.cut text limit)) where
  cut := Utf8.isCut_cut limit text
  marked := l.marked_shown _
  unlimited none := shown_of_none none _
  fits fits := by
    refine ⟨marked_shown_cut_iff.mpr (.inl fits), fun unlimited => ?_⟩
    rw [shown_of_none unlimited, Utf8.cut_eq_self_iff.mpr fits]
  shortened shortens := marked_shown_cut_iff.mpr (.inr (.inl shortens))

/-- The text in what a logging monitor writes. -/
theorem Logging.sql_of_mem_entries {l : Logging} {e : Event} {entry : LogEntry}
    (inside : entry ∈ l.entries e) : entry.field? "sql" = some (l.shown e.context.sql) := by
  rcases e with c | ⟨c, d, r⟩ | ⟨c, d⟩
  · cases inside
  · rw [entries] at inside
    split at inside
    · cases inside
    · rw [List.mem_singleton.mp inside]
      rfl
  · rw [List.mem_singleton.mp inside]
    rfl

/-- What a panel logs is written by one of its logging leaves. -/
theorem Panel.exists_of_mem_entries {p : Panel} {e : Event} {entry : LogEntry}
    (inside : entry ∈ p.entries e) : ∃ l, .logging l ∈ p.leaves ∧ entry ∈ l.entries e := by
  obtain ⟨place, -, written⟩ := List.mem_flatMap.mp inside
  cases there : p.leaves[place]? with
  | none =>
    rw [there] at written
    cases written
  | some leaf =>
    rw [there] at written
    cases leaf with
    | logging l => exact ⟨l, List.mem_of_getElem? there, written⟩
    | silent | stats | record => cases written

end Monitor

namespace Instrumented

/-- **Marks of shortened texts.**  While monitoring is on, the log of a session that starts with no
statements is what the leaves of the panel log for the events of the session, each of which is about
a text that was prepared, and tells the longest beginning of it within the limit of the connection.
Every entry is written by a logging leaf, and it shows the text that was told, whole or marked, and
whole if the leaf has no limit.  It shows the prepared text so if this is within the limit, and also
if the leaf shortens what was told. -/
theorem shortened_marked {config : MonitorConfig} (on : config.enabled = true) (m : Machine σ τ)
    (commands : List (Command × RowMap ω α)) (x : σ) (p : Panel) (w : ω) :
    let steps := performAll (connection config m.connection) commands (⟨(x, p), []⟩, w)
    let whole := reported config m.now (performAll m.connection commands (⟨x, []⟩, w)) []
    let limit := config.maxSqlLength
    steps.flatMap (·.outcome.trace.log) = whole.flatMap (fun e => p.entries (e.within limit)) ∧
    ∀ e ∈ whole, .prepare e.context.sql ∈ commands.map Prod.fst ∧
      ∀ entry ∈ p.entries (e.within limit), ∃ l told shown, .logging l ∈ p.leaves ∧
        entry.field? "sql" = some shown ∧ l.Shows limit e.context.sql told shown := by
  intro steps whole limit
  refine ⟨?_, fun e reported => ⟨?_, fun entry written => ?_⟩⟩
  · have log : steps.flatMap (·.outcome.trace.log) =
        (steps.flatMap (·.outcome.trace.events)).flatMap p.entries :=
      log_performAll steady_panel config m commands ⟨(x, p), []⟩ w
    have events : steps.flatMap (·.outcome.trace.events) = whole.map (Event.within limit) :=
      performAll_within Panel.receive on limit m commands (⟨(x, p), []⟩, w) rfl
    rw [log, events, List.flatMap_map]
  · obtain ⟨sql, count, context, ⟨step, among, asked⟩ | none⟩ := context_of_mem_reported reported
    · rw [context]
      exact asked ▸ command_of_mem_performAll among
    · cases none
  · obtain ⟨l, leaf, written⟩ := Panel.exists_of_mem_entries written
    have field := Logging.sql_of_mem_entries written
    rw [Event.context_within] at field
    exact ⟨l, _, _, leaf, field, l.shows limit e.context.sql⟩

/-- A text that the connection cuts inside a character, logged by a monitor that shortens the rest
and by one without a limit. -/
theorem shortened_marked_twice :
    let config := MonitorConfig.default.enable.withMaxSqlLength 9
    let p : Panel := ⟨.composite [.leaf 0, .leaf 1],
      [.logging { maxSqlLength? := some 6 }, .logging { maxSqlLength? := none }]⟩
    let commands : List (Command × RowMap Unit Unit) :=
      [.prepare "SELECT 'é'", .update 0].map fun command => (command, .ofFun fun _ => .ok ())
    let log := (performAll (connection config (Script.machine {}).connection) commands
      (⟨(0, p), []⟩, ())).flatMap (·.outcome.trace.log)
    config.enabled = true ∧ log.map (·.field? "sql") = [some "SELECT...", some "SELECT '"] ∧
      ∀ entry ∈ log, ∃ l told shown, .logging l ∈ p.leaves ∧
        entry.field? "sql" = some shown ∧ l.Shows 9 "SELECT 'é'" told shown := by
  intro config p commands log
  have on : config.enabled = true := rfl
  obtain ⟨leaves, shown⟩ := shortened_marked on (Script.machine {}) commands 0 p ()
  refine ⟨on, by decide, fun entry written => ?_⟩
  rw [show log = _ from leaves, List.mem_flatMap] at written
  obtain ⟨e, reported, written⟩ := written
  obtain ⟨prepared, shows⟩ := shown e reported
  have text : e.context.sql = "SELECT 'é'" := by simpa [commands] using prepared
  rw [text] at shows
  exact shows entry written

/-- A statement that the connection cuts behind a word is logged as if it were another one, by a
monitor without a limit and by one whose limit is not reached. -/
theorem cut_logged_without_mark :
    let text := "DELETE FROM T WHERE A = 1"
    let config := MonitorConfig.default.enable.withMaxSqlLength 13
    let p : Panel := ⟨.composite [.leaf 0, .leaf 1],
      [.logging { maxSqlLength? := none }, .logging .default]⟩
    let commands : List (Command × RowMap Unit Unit) :=
      [.prepare text, .update 0].map fun command => (command, .ofFun fun _ => .ok ())
    let log := (performAll (connection config (Script.machine {}).connection) commands
      (⟨(0, p), []⟩, ())).flatMap (·.outcome.trace.log)
    config.enabled = true ∧ log.map (·.field? "sql") = List.replicate 2 (some "DELETE FROM T") ∧
      ¬ Marked text "DELETE FROM T" := by
  intro text config p commands log
  refine ⟨rfl, by decide, ?_⟩
  rintro (whole | ⟨kept, -, -, dots⟩)
  · exact absurd whole (by decide)
  · have last := congrArg (fun s : String => s.toList.getLast?) dots
    simp at last

end Instrumented

end BoundSql
