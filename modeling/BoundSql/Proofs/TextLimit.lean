import BoundSql.Proofs.Keyword
import BoundSql.Proofs.Reporting
import BoundSql.Proofs.Statistics

/-!
# Limits to the text that monitors see

A limit to the length of statement texts is to change nothing but the texts that monitors see.  It
does change more, for the kind of a statement is read off what is left of its text.

What is to be reported without a limit is a matter of the wrapped machine alone.  `reported` reads
it off the steps of a session on the machine itself, going by the whole texts of the statements and
the greatest indices that were bound to them.  Under a limit the same is reported, event by event,
with the text of every context cut and its kind as this text shows it (`Event.within`).  The step
lemma is `Instrumented.Turn.within`, with one case for each turn.  The run lemma `performAll_within`
is an induction on the commands, and its invariant is that the connection remembers what is known,
cut.

So it is decided text by text whether a limit leaves the kinds as they are, and whether two limits
differ in more than texts (`Instrumented.sameButText_iff_within`).
-/

namespace BoundSql

open Monitor Session
open Instrumented (Tracked)

variable {σ τ ω π α : Type}

namespace Monitor

/-! ## Events and their texts -/

/-- An event about another context. -/
def Event.mapContext (f : Context → Context) : Event → Event
  | .started c => .started (f c)
  | .completed c d r => .completed (f c) d r
  | .slow c d => .slow (f c) d

/-- The context with its text cut, and with the kind that this text shows. -/
def Context.within (limit : Nat) (c : Context) : Context :=
  { c with sql := Utf8.cut c.sql limit, kind := Kind.within limit c.sql }

/-- The event as it is under a limit. -/
def Event.within (limit : Nat) : Event → Event :=
  mapContext (Context.within limit)

/-- The event without the text of its statement. -/
def Event.withoutText : Event → Event :=
  mapContext fun c => { c with sql := "" }

/-- Events differ in the texts of their statements at most. -/
def SameButText (es fs : List Event) : Prop :=
  es.map Event.withoutText = fs.map Event.withoutText

theorem Context.of_cut (limit : Nat) (sql : String) (count : Nat) :
    Context.of (Utf8.cut sql limit) count = (Context.of sql count).within limit := by
  unfold Context.within Context.of
  rw [Kind.ofSql_cut]

theorem Event.context_within (limit : Nat) (e : Event) :
    (e.within limit).context = e.context.within limit := by
  rcases e with c | ⟨c, d, r⟩ | ⟨c, d⟩ <;> rfl

/-- An event under two limits is the same but for its text when they show the same kind. -/
theorem Event.withoutText_within_eq_iff (a b : Nat) (e : Event) :
    (e.within a).withoutText = (e.within b).withoutText ↔
      Kind.within a e.context.sql = Kind.within b e.context.sql := by
  rcases e with c | ⟨c, d, r⟩ | ⟨c, d⟩ <;>
    simp [Event.within, Event.withoutText, mapContext, Context.within, context]

/-- Events under two limits differ in texts at most just when the limits show the same kinds. -/
theorem sameButText_map_within_iff (es : List Event) (a b : Nat) :
    SameButText (es.map (Event.within a)) (es.map (Event.within b)) ↔
      ∀ e ∈ es, Kind.within a e.context.sql = Kind.within b e.context.sql := by
  unfold SameButText
  rw [List.map_map, List.map_map, List.map_inj_left]
  exact forall₂_congr fun e _ => Event.withoutText_within_eq_iff a b e

/-- Events of whole texts keep their kinds under a limit just when it spares the first words. -/
theorem kinds_map_within_iff {es : List Event}
    (whole : ∀ e ∈ es, e.context.kind = Kind.ofSql e.context.sql) (limit : Nat) :
    (es.map (Event.within limit)).map (·.context.kind) = es.map (·.context.kind) ↔
      ∀ e ∈ es, Kind.SparesWord limit e.context.sql := by
  rw [List.map_map, List.map_inj_left]
  refine forall₂_congr fun e inside => ?_
  rw [← Kind.within_eq_iff, Function.comp_apply, Event.context_within, whole e inside]
  rfl

namespace Tally

/-- The words without the text of the slowest statement. -/
def withoutText (t : Tally) : Tally :=
  { t with slowest? := none }

/-- No word but the text of the slowest statement depends on a text. -/
theorem withoutText_receive (t : Tally) (e : Event) :
    (t.receive e).withoutText = (t.withoutText.receive e.withoutText).withoutText := by
  rcases e with c | ⟨c, d, r⟩ | ⟨c, d⟩
  · rfl
  · simp only [Event.withoutText, Event.mapContext, receive_completed, withoutText, addDuration,
      keepSlowest]
    split <;> split <;> rfl
  · rfl

/-- Events that differ in texts at most make the same words. -/
theorem withoutText_foldl {es fs : List Event} (same : SameButText es fs) {t u : Tally}
    (start : t.withoutText = u.withoutText) :
    (es.foldl receive t).withoutText = (fs.foldl receive u).withoutText := by
  unfold SameButText at same
  induction es generalizing fs t u with
  | nil =>
    rw [List.map_nil, eq_comm, List.map_eq_nil_iff] at same
    rw [same]
    exact start
  | cons e es ih =>
    rw [List.map_cons, eq_comm, List.map_eq_cons_iff] at same
    obtain ⟨f, rest, rfl, first, later⟩ := same
    refine ih later.symm ?_
    rw [withoutText_receive t e, withoutText_receive u f, start, first]

end Tally

end Monitor

/-! ## What is to be reported, without a limit -/

namespace Session

namespace Step

/-- What a run is worth: a query as many rows as it handed over. -/
def worth (step : Step σ τ ω α) : Result :=
  match step.outcome.result with
  | .ok (.affected count) => .affected count
  | .ok _ => .rows step.outcome.trace.rows.length
  | .error e => .ofError e.text

/-- What is known of the statements after something was bound to one of them. -/
def raise (known : List Tracked) (n index : Nat) : List Tracked :=
  match known[n]? with
  | some k => known.set n { k with bound := max k.bound index }
  | none => known

/-- What is known of the statements after a step. -/
def remember (step : Step σ τ ω α) (known : List Tracked) : List Tracked :=
  match step.command, step.outcome.result with
  | .prepare sql, .ok _ => known ++ [⟨sql, 0⟩]
  | .bind n index _, .ok .bound => raise known n index
  | .bindNull n index _, .ok .bound => raise known n index
  | _, _ => known

/-- What is to be reported of the run of a statement. -/
def reportRun (config : MonitorConfig) (now : σ → Nat) (step : Step σ τ ω α)
    (known : List Tracked) (n : Nat) : List Event :=
  match known[n]? with
  | some k => .started k.context :: Instrumented.ending config k.context (step.span now) step.worth
  | none => []

/-- What is to be reported of a step, from what is known of the statements. -/
def report (config : MonitorConfig) (now : σ → Nat) (step : Step σ τ ω α)
    (known : List Tracked) : List Event :=
  match step.command, step.outcome.result with
  | .prepare sql, .error e =>
    [.started (.of sql 0), .completed (.of sql 0) (step.span now) (.ofError e.text)]
  | .update n, _ => step.reportRun config now known n
  | .query n, _ => step.reportRun config now known n
  | _, _ => []

end Step

/-- What is to be reported of steps in turn. -/
def reported (config : MonitorConfig) (now : σ → Nat) :
    List (Step σ τ ω α) → List Tracked → List Event
  | [], _ => []
  | step :: rest, known =>
    step.report config now known ++ reported config now rest (step.remember known)

namespace Step

variable {config : MonitorConfig} {now : σ → Nat} {step : Step σ τ ω α}
  {known : List Tracked} {n index : Nat}

theorem worth_of_ends {result : Result} (ends : step.Ends result) : result = step.worth := by
  unfold worth
  cases ends with
  | affected done => simp only [done]
  | rows done => simp only [done]
  | failed failed told =>
    rw [Utf8.isDotted_iff.mp told]
    simp only [failed]
    rfl

theorem exists_of_prepared? {sql : String} (prepared : step.prepared? = some sql) :
    step.command = .prepare sql ∧ ∃ answer, step.outcome.result = .ok answer := by
  unfold prepared? at prepared
  split at prepared <;> simp_all

theorem remember_of_binds (binds : step.Binds n index) :
    step.remember known = raise known n index := by
  obtain ⟨⟨v, asked⟩ | ⟨t, asked⟩, done⟩ := binds <;> simp only [remember, asked, done]

theorem remember_of_not_bound (asked : step.AsksToBind n index)
    (refused : step.outcome.result ≠ .ok .bound) : step.remember known = known := by
  unfold remember
  obtain ⟨v, asked⟩ | ⟨t, asked⟩ := asked <;> rw [asked] <;> split <;> simp_all

theorem remember_of_asksToRun (asked : step.AsksToRun n) : step.remember known = known := by
  obtain asked | asked := asked <;> simp only [remember, asked]

theorem report_of_asksToBind (asked : step.AsksToBind n index) :
    step.report config now known = [] := by
  obtain ⟨v, asked⟩ | ⟨t, asked⟩ := asked <;> simp only [report, asked]

theorem report_of_asksToRun (asked : step.AsksToRun n) :
    step.report config now known = step.reportRun config now known n := by
  obtain asked | asked := asked <;> simp only [report, asked]

theorem sql_of_mem_raise {k : Tracked} (inside : k ∈ raise known n index) :
    k.sql ∈ known.map Tracked.sql := by
  unfold raise at inside
  split at inside
  · next k' opened =>
    have among : k'.sql ∈ known.map Tracked.sql :=
      List.mem_map_of_mem (List.mem_of_getElem? opened)
    rcases List.mem_or_eq_of_mem_set inside with same | rfl
    · exact List.mem_map_of_mem same
    · exact among
  · exact List.mem_map_of_mem inside

/-- A statement is known by a text that is prepared by the step, or by one that was known. -/
theorem sql_of_mem_remember {k : Tracked} (inside : k ∈ step.remember known) :
    step.command = .prepare k.sql ∨ k.sql ∈ known.map Tracked.sql := by
  unfold remember at inside
  split at inside
  · next asked done =>
    rcases List.mem_append.mp inside with old | new
    · exact .inr (List.mem_map_of_mem old)
    · rw [List.mem_singleton.mp new]
      exact .inl asked
  · exact .inr (sql_of_mem_raise inside)
  · exact .inr (sql_of_mem_raise inside)
  · exact .inr (List.mem_map_of_mem inside)

theorem context_of_mem_reportRun {e : Event} (inside : e ∈ step.reportRun config now known n) :
    ∃ sql count, e.context = .of sql count ∧ sql ∈ known.map Tracked.sql := by
  unfold reportRun Instrumented.ending at inside
  split at inside
  · next k opened =>
    refine ⟨k.sql, k.bound, ?_, List.mem_map_of_mem (List.mem_of_getElem? opened)⟩
    rcases List.mem_cons.mp inside with rfl | inside
    · rfl
    rcases List.mem_cons.mp inside with rfl | inside
    · rfl
    split at inside
    · rw [List.mem_singleton.mp inside]
      rfl
    · cases inside
  · cases inside

/-- What is to be reported of a step is about the text that it prepares, or one that was known. -/
theorem context_of_mem_report {e : Event} (inside : e ∈ step.report config now known) :
    ∃ sql count, e.context = .of sql count ∧
      (step.command = .prepare sql ∨ sql ∈ known.map Tracked.sql) := by
  unfold report at inside
  split at inside
  · next sql e' asked refused =>
    refine ⟨sql, 0, ?_, .inl asked⟩
    rcases List.mem_pair.mp inside with rfl | rfl <;> rfl
  · obtain ⟨sql, count, context, there⟩ := context_of_mem_reportRun inside
    exact ⟨sql, count, context, .inr there⟩
  · obtain ⟨sql, count, context, there⟩ := context_of_mem_reportRun inside
    exact ⟨sql, count, context, .inr there⟩
  · cases inside

end Step

/-- What is to be reported of steps is about texts that were prepared or known. -/
theorem context_of_mem_reported {config : MonitorConfig} {now : σ → Nat}
    {steps : List (Step σ τ ω α)} {known : List Tracked} {e : Event}
    (inside : e ∈ reported config now steps known) :
    ∃ sql count, e.context = .of sql count ∧
      ((∃ step ∈ steps, step.command = .prepare sql) ∨ sql ∈ known.map Tracked.sql) := by
  induction steps generalizing known with
  | nil => cases inside
  | cons step rest ih =>
    rcases List.mem_append.mp inside with now | later
    · obtain ⟨sql, count, context, source⟩ := Step.context_of_mem_report now
      exact ⟨sql, count, context, source.imp_left fun asked => ⟨step, List.mem_cons_self, asked⟩⟩
    · obtain ⟨sql, count, context, ⟨later, among, asked⟩ | there⟩ := ih later
      · exact ⟨sql, count, context, .inl ⟨later, List.mem_cons_of_mem step among, asked⟩⟩
      · obtain ⟨k, inside, rfl⟩ := List.mem_map.mp there
        refine ⟨k.sql, count, context, (Step.sql_of_mem_remember inside).imp_left fun asked => ?_⟩
        exact ⟨step, List.mem_cons_self, asked⟩

theorem command_of_mem_performAll {c : Connection σ τ} {commands : List (Command × RowMap ω α)}
    {s : Session σ τ × ω} {step : Step σ τ ω α} (inside : step ∈ performAll c commands s) :
    step.command ∈ commands.map Prod.fst := by
  induction commands generalizing s with
  | nil => cases inside
  | cons first rest ih =>
    rcases List.mem_cons.mp inside with rfl | later
    · exact List.mem_cons_self
    · exact List.mem_cons_of_mem _ (ih later)

end Session

namespace Instrumented

/-! ## A step on the wrapped machine -/

section Mirrored

variable {step' : Step (σ × π) (τ × Tracked) ω α} {step : Step σ τ ω α} {n index : Nat}
  (same : step'.Mirrors Prod.fst Prod.fst step)

include same

theorem mirrors_prepared? : step'.prepared? = step.prepared? := by
  unfold Step.prepared?
  rw [same.command, same.outcome.result_eq]

theorem mirrors_asksToBind (asked : step'.AsksToBind n index) : step.AsksToBind n index := by
  unfold Step.AsksToBind at asked
  rwa [same.command] at asked

theorem mirrors_asksToRun (asked : step'.AsksToRun n) : step.AsksToRun n := by
  unfold Step.AsksToRun at asked
  rwa [same.command] at asked

theorem mirrors_ends {result : Result} (ends : step'.Ends result) : step.Ends result := by
  have answer := same.outcome.result_eq
  cases ends with
  | affected done => exact .affected (answer ▸ done)
  | rows done =>
    rw [same.outcome.rows]
    exact .rows (answer ▸ done)
  | failed failed told => exact .failed (answer ▸ failed) told

theorem mirrors_span (now : σ → Nat) : step'.span (fun s => now s.1) = step.span now := by
  unfold Step.span
  rw [← same.before, ← same.outcome.state]
  rfl

/-- A turn is a matter of what the wrapped machine does. -/
theorem Turn.of_mirrors {config : MonitorConfig} {now : σ → Nat} {known known' : List Tracked}
    {es : List Event} (turn : Turn config (fun s => now s.1) step' known es known') :
    Turn config now step known es known' := by
  have answer := same.outcome.result_eq
  cases turn with
  | prepared prepared => exact .prepared (mirrors_prepared? same ▸ prepared)
  | unprepared asked refused =>
    rw [mirrors_span same]
    exact .unprepared (same.command ▸ asked) (answer ▸ refused)
  | bound binds opened =>
    exact .bound ⟨mirrors_asksToBind same binds.asked, answer ▸ binds.done⟩ opened
  | unbound asked refused => exact .unbound (mirrors_asksToBind same asked) (answer ▸ refused)
  | unknown asked unopened => exact .unknown (mirrors_asksToRun same asked) unopened
  | ran asked opened ends =>
    rw [mirrors_span same]
    exact .ran (mirrors_asksToRun same asked) opened (mirrors_ends same ends)

end Mirrored

/-! ## A step under a limit -/

/-- What is known of a statement under a limit. -/
def Tracked.within (limit : Nat) (k : Tracked) : Tracked :=
  { k with sql := Utf8.cut k.sql limit }

theorem Tracked.context_within (limit : Nat) (k : Tracked) :
    (k.within limit).context = k.context.within limit :=
  Context.of_cut limit k.sql k.bound

/-- What comes after a run under a limit is what comes after it, under the limit. -/
theorem ending_within (limit : Nat) (config : MonitorConfig) (c : Context) (d : Duration)
    (r : Result) : ending (config.withMaxSqlLength limit) (c.within limit) d r =
      (ending config c d r).map (Event.within limit) := by
  have same : (config.withMaxSqlLength limit).isSlow d = config.isSlow d := rfl
  unfold ending
  rw [same, List.map_cons]
  split <;> rfl

section Steps

variable {limit : Nat} {config : MonitorConfig} {now : σ → Nat} {step : Step σ τ ω α}
  {known known' : List Tracked} {es : List Event} {n : Nat}

/-- A statement that is known under a limit is known. -/
theorem exists_of_within {k : Tracked} (opened : (known.map (Tracked.within limit))[n]? = some k) :
    ∃ whole, known[n]? = some whole ∧ whole.within limit = k := by
  rwa [List.getElem?_map, Option.map_eq_some_iff] at opened

/-- **What a step does under a limit**: it reports what is to be reported of it, and what is
remembered after it is what is known then, all under the limit. -/
theorem Turn.within (turn : Turn (config.withMaxSqlLength limit) now step
    (known.map (Tracked.within limit)) es known') :
    es = (step.report config now known).map (Event.within limit) ∧
      known' = (step.remember known).map (Tracked.within limit) := by
  cases turn with
  | prepared prepared =>
    obtain ⟨asked, answer, done⟩ := Step.exists_of_prepared? prepared
    simp only [Step.report, Step.remember, asked, done, List.map_append]
    exact ⟨rfl, rfl⟩
  | unprepared asked refused =>
    simp only [Step.report, Step.remember, asked, refused, Context.of_cut, and_true]
    rfl
  | bound binds opened =>
    obtain ⟨whole, there, rfl⟩ := exists_of_within opened
    rw [Step.report_of_asksToBind binds.asked, Step.remember_of_binds binds, Step.raise, there]
    refine ⟨rfl, ?_⟩
    rw [List.map_set]
    rfl
  | unbound asked refused =>
    rw [Step.report_of_asksToBind asked, Step.remember_of_not_bound asked refused]
    exact ⟨rfl, rfl⟩
  | @unknown n asked unopened =>
    rw [List.getElem?_map, Option.map_eq_none_iff] at unopened
    rw [Step.report_of_asksToRun asked, Step.remember_of_asksToRun asked, Step.reportRun, unopened]
    exact ⟨rfl, rfl⟩
  | ran asked opened ends =>
    obtain ⟨whole, there, rfl⟩ := exists_of_within opened
    rw [Step.report_of_asksToRun asked, Step.remember_of_asksToRun asked, Step.reportRun, there,
      Tracked.context_within, ending_within, Step.worth_of_ends ends]
    exact ⟨rfl, rfl⟩

end Steps

/-! ## Sessions under a limit -/

/-- A session as the machine itself sees it. -/
def unwrap (s : Session (σ × π) (τ × Tracked) × ω) : Session σ τ × ω :=
  Prod.map (Session.map Prod.fst Prod.fst) id s

section Sessions

variable (l : Listener π) {config : MonitorConfig} (on : config.enabled = true) (limit : Nat)
  (m : Machine σ τ) {known : List Tracked}

include on

/-- A command under a limit does what the step on the machine itself says. -/
theorem performWith_within (map : RowMap ω α) (command : Command)
    (s : Session (σ × π) (τ × Tracked) × ω)
    (tracks : s.1.statements.map Prod.snd = known.map (Tracked.within limit)) :
    let c := connectionTo l (config.withMaxSqlLength limit) m.connection
    let out := performWith c map command s
    let step : Step σ τ ω α :=
      ⟨command, unwrap s, performWith m.connection map command (unwrap s)⟩
    out.trace.events = (step.report config m.now known).map (Event.within limit) ∧
      out.state.1.statements.map Prod.snd = (step.remember known).map (Tracked.within limit) ∧
      unwrap out.state = step.outcome.state := by
  intro c out step
  obtain ⟨es, turn, told, -⟩ :=
    takesTurn_performWith l (config.withMaxSqlLength limit) m map command s.1 s.2
  have outcome := performWith_mirrors (connectionTo_mirrors l (config.withMaxSqlLength limit) m)
    map command s
  have mirrored : Turn _ m.now step _ es _ := turn.of_mirrors ⟨rfl, rfl, outcome⟩
  simp only [tracks] at mirrored
  obtain ⟨block, memory⟩ := mirrored.within
  have all : (config.withMaxSqlLength limit).told es = es := if_pos on
  exact ⟨(told.trans all).trans block, memory, outcome.state⟩

/-- **A session under a limit** reports what is to be reported, under the limit. -/
theorem performAll_within (commands : List (Command × RowMap ω α))
    (s : Session (σ × π) (τ × Tracked) × ω)
    (tracks : s.1.statements.map Prod.snd = known.map (Tracked.within limit)) :
    (performAll (connectionTo l (config.withMaxSqlLength limit) m.connection) commands
        s).flatMap (·.outcome.trace.events) =
      (reported config m.now (performAll m.connection commands (unwrap s)) known).map
        (Event.within limit) := by
  induction commands generalizing s known with
  | nil => rfl
  | cons first rest ih =>
    obtain ⟨block, memory, left⟩ := performWith_within l on limit m first.2 first.1 s tracks
    rw [performAll, List.flatMap_cons, block, ih _ memory, left, ← List.map_append]
    rfl

end Sessions

/-- The events of a session that starts with no statements, under a limit. -/
def eventsWithin (l : Listener π) (config : MonitorConfig) (m : Machine σ τ)
    (commands : List (Command × RowMap ω α)) (x : σ) (p : π) (w : ω) (limit : Nat) : List Event :=
  (performAll (connectionTo l (config.withMaxSqlLength limit) m.connection) commands
    (⟨(x, p), []⟩, w)).flatMap (·.outcome.trace.events)

/-- **What a limit changes.**  Under every limit monitors are told the same events, each about a
text that was prepared, with this text cut and the kind as it shows.  The kinds are those of the
whole texts just when the limit spares their first words.  Under two limits the events differ in
texts at most just when the same kinds show, and then the statistics differ in the text of the
slowest statement at most. -/
theorem sameButText_iff_within (l : Listener π) {config : MonitorConfig}
    (on : config.enabled = true) (m : Machine σ τ) (commands : List (Command × RowMap ω α)) (x : σ)
    (p : π) (w : ω) :
    let whole := reported config m.now (performAll m.connection commands (⟨x, []⟩, w)) []
    let told := eventsWithin l config m commands x p w
    (∀ e ∈ whole, ∃ sql count, e.context = .of sql count ∧ .prepare sql ∈ commands.map Prod.fst) ∧
    (∀ limit, told limit = whole.map (Event.within limit)) ∧
    (∀ limit, (told limit).map (·.context.kind) = whole.map (·.context.kind) ↔
      ∀ e ∈ whole, Kind.SparesWord limit e.context.sql) ∧
    (∀ a b, SameButText (told a) (told b) ↔
      ∀ e ∈ whole, Kind.within a e.context.sql = Kind.within b e.context.sql) ∧
    ∀ a b, SameButText (told a) (told b) → ∀ t : Tally,
      ((told a).foldl Tally.receive t).withoutText =
        ((told b).foldl Tally.receive t).withoutText := by
  intro whole told
  have texts : ∀ e ∈ whole, ∃ sql count, e.context = .of sql count ∧
      .prepare sql ∈ commands.map Prod.fst := by
    intro e inside
    obtain ⟨sql, count, context, ⟨step, among, asked⟩ | none⟩ := context_of_mem_reported inside
    · exact ⟨sql, count, context, asked ▸ command_of_mem_performAll among⟩
    · cases none
  have blocks (limit : Nat) : told limit = whole.map (Event.within limit) :=
    performAll_within l on limit m commands (⟨(x, p), []⟩, w) rfl
  have ofText : ∀ e ∈ whole, e.context.kind = Kind.ofSql e.context.sql := by
    intro e inside
    obtain ⟨sql, count, context, -⟩ := texts e inside
    rw [context]
    rfl
  refine ⟨texts, blocks, fun limit => ?_, fun a b => ?_, fun a b same t => ?_⟩
  · rw [blocks]
    exact kinds_map_within_iff ofText limit
  · rw [blocks, blocks]
    exact sameButText_map_within_iff whole a b
  · exact Tally.withoutText_foldl same rfl

/-- A limit right at the end of the first word, after a comment, and with a slow run. -/
theorem sameButText_iff_within_comment :
    let config : MonitorConfig := { enabled := true, slowThreshold? := some ⟨3⟩ }
    let commands : List (Command × RowMap Unit Unit) :=
      [.prepare "-- é\ndelete from t", .bind 0 2 (.int 7), .update 0].map
        fun command => (command, .ofFun fun _ => .ok ())
    let told := eventsWithin (fun (heard : Nat) _ => (heard + 1, [])) config
      (Script.machine { delay := 3 }) commands 0 0 ()
    let counted := fun limit => ((told limit).foldl Tally.receive .zero).withoutText
    config.enabled = true ∧ SameButText (told 12) (told 1024) ∧ counted 12 = counted 1024 ∧
      (told 12).map (·.context) = List.replicate 3 ⟨"-- é\ndelete", 2, .delete, none⟩ := by
  intro config commands told counted
  have on : config.enabled = true := rfl
  obtain ⟨-, -, -, same, counts⟩ := sameButText_iff_within (fun (heard : Nat) _ => (heard + 1, []))
    on (Script.machine { delay := 3 }) commands 0 0 ()
  have alike : SameButText (told 12) (told 1024) := (same 12 1024).mpr (by decide)
  exact ⟨on, alike, counts 12 1024 alike .zero, by decide⟩

/-- **A limit inside the first word** hides the kind of the statement: it is counted no more. -/
theorem kind_hidden_by_limit :
    let config := MonitorConfig.default.enable
    let commands : List (Command × RowMap Unit Unit) :=
      [.prepare "DELETE FROM T", .update 0].map fun command => (command, .ofFun fun _ => .ok ())
    let told := eventsWithin (fun t e => (Tally.receive t e, [])) config (Script.machine {})
      commands 0 .zero ()
    Kind.ofSql "DELETE FROM T" = .delete ∧
      (told 3).map (·.context.kind) = [.other, .other] ∧
      (told config.maxSqlLength).map (·.context.kind) = [.delete, .delete] ∧
      ¬ SameButText (told 3) (told config.maxSqlLength) ∧
      ((told 3).foldl Tally.receive .zero).stats.deletes = 0 ∧
      ((told config.maxSqlLength).foldl Tally.receive .zero).stats.deletes = 1 := by
  unfold SameButText
  decide

end Instrumented

end BoundSql
