import BoundSql.Proofs.Chain
import Mathlib.Data.List.Nodup

/-!
# The language of statements

Which clauses may follow each other, and what they say, can be written down without stages.  A
`Form` is a row of places, each for one clause that must or may stand there, and its sentences take
every mandatory clause and any of the optional ones, in order.  A clause is written as lines: a
keyword, its items with a margin of four blanks, and a comma at the end of every item but the last.

`Statement.build_iff_begins` ties the two descriptions together: clauses are accepted exactly when
they begin a sentence of one of the four forms and none lists nothing, and the text of what is
built is the lines of its clauses, one clause after the other.

A stage knows where it stands in its form: `Stage.ahead` is what may still follow, and every
transition moves on in it (`Stage.after?_ahead`).  Since no form names a clause twice, moving on to
the first place of a clause loses nothing (`Form.begins_cons`).
-/

namespace BoundSql

/-! ## Forms and their sentences -/

/-- A place in a form: the clause that stands there, and whether it must. -/
structure Slot where
  verb : Clause.Verb
  mandatory : Bool
  deriving DecidableEq, Repr

/-- The places of a statement, in order. -/
abbrev Form := List Slot

namespace Form

/-- SELECT FROM [WHERE] [GROUP BY] [ORDER BY]. -/
def select : Form :=
  [⟨.select, true⟩, ⟨.fromTables, true⟩, ⟨.filtered, false⟩, ⟨.groupBy, false⟩, ⟨.orderBy, false⟩]

/-- INSERT INTO VALUES. -/
def insert : Form :=
  [⟨.insert, true⟩, ⟨.into, true⟩, ⟨.values, true⟩]

/-- UPDATE SET [WHERE]. -/
def update : Form :=
  [⟨.update, true⟩, ⟨.assign, true⟩, ⟨.filtered, false⟩]

/-- DELETE FROM [WHERE]. -/
def delete : Form :=
  [⟨.delete, true⟩, ⟨.fromTable, true⟩, ⟨.filtered, false⟩]

/-- The four forms. -/
def all : List Form :=
  [select, insert, update, delete]

/-- The sentences of a form: all mandatory verbs and any of the optional ones, in order. -/
def sentences : Form → List (List Clause.Verb)
  | [] => [[]]
  | p :: rest =>
    (sentences rest).map (p.verb :: ·) ++ if p.mandatory then [] else sentences rest

/-- Whether verbs are the beginning of a sentence. -/
def Begins (f : Form) (vs : List Clause.Verb) : Prop :=
  ∃ w ∈ f.sentences, vs <+: w

/-- Whether no mandatory verb is missing. -/
def Complete (f : Form) (vs : List Clause.Verb) : Prop :=
  ∀ p ∈ f, p.mandatory = true → p.verb ∈ vs

instance (f : Form) (vs : List Clause.Verb) : Decidable (f.Begins vs) :=
  inferInstanceAs (Decidable (∃ w ∈ f.sentences, vs <+: w))

instance (f : Form) (vs : List Clause.Verb) : Decidable (f.Complete vs) :=
  inferInstanceAs (Decidable (∀ p ∈ f, p.mandatory = true → p.verb ∈ vs))

/-- Optional verbs may be left out, but not moved. -/
example : select.Begins [.select, .fromTables, .orderBy] ∧
    ¬ select.Begins [.select, .fromTables, .orderBy, .filtered] := by decide

/-- A form names no clause twice. -/
def Distinct (f : Form) : Prop :=
  (f.map Slot.verb).Nodup

/-- What is left of a form after the place of a verb; only optional places may be passed over. -/
def after? : Form → Clause.Verb → Option Form
  | [], _ => none
  | p :: rest, v =>
    if p.verb = v then some rest else if p.mandatory then none else after? rest v

variable {f g : Form} {v : Clause.Verb} {vs : List Clause.Verb}

/-- What moving on passes over is optional. -/
theorem after?_eq_some (h : f.after? v = some g) :
    ∃ passed p, f = passed ++ p :: g ∧ p.verb = v ∧ ∀ q ∈ passed, q.mandatory = false := by
  induction f with
  | nil => cases h
  | cons p rest ih =>
    rw [after?] at h
    split at h
    · next here =>
      cases h
      exact ⟨[], p, rfl, here, by simp⟩
    · split at h
      · cases h
      · next optional =>
        obtain ⟨passed, q, rfl, found, free⟩ := ih h
        refine ⟨p :: passed, q, rfl, found, fun r hr => ?_⟩
        rcases List.mem_cons.mp hr with rfl | later
        · simpa using optional
        · exact free r later

/-- Nothing begins every sentence. -/
theorem begins_nil (f : Form) : f.Begins [] := by
  have some : f.sentences ≠ [] := by
    induction f with
    | nil => simp [sentences]
    | cons p rest ih => simp [sentences, ih]
  obtain ⟨w, hw⟩ := List.exists_mem_of_ne_nil _ some
  exact ⟨w, hw, List.nil_prefix⟩

/-- Verbs of a sentence are verbs of its form. -/
theorem mem_of_mem_sentences {w : List Clause.Verb} (hw : w ∈ f.sentences) (hv : v ∈ w) :
    v ∈ f.map Slot.verb := by
  induction f generalizing w with
  | nil =>
    rw [sentences, List.mem_singleton] at hw
    subst hw
    cases hv
  | cons p rest ih =>
    rw [sentences, List.mem_append, List.mem_map] at hw
    rw [List.map_cons, List.mem_cons]
    rcases hw with ⟨u, hu, rfl⟩ | skipped
    · rcases List.mem_cons.mp hv with here | later
      · exact .inl here
      · exact .inr (ih hu later)
    · split at skipped
      · cases skipped
      · exact .inr (ih skipped hv)

/-- **A form is read from left to right.**  Verbs begin a sentence when the first of them has a
place that can be moved on to, and the others begin a sentence of what is left. -/
theorem begins_cons (distinct : f.Distinct) :
    f.Begins (v :: vs) ↔ ∃ g, f.after? v = some g ∧ g.Begins vs := by
  induction f with
  | nil => simp [Begins, sentences, after?]
  | cons p rest ih =>
    rw [Distinct, List.map_cons, List.nodup_cons] at distinct
    obtain ⟨fresh, distinct⟩ := distinct
    have here : (∃ w ∈ sentences rest, v :: vs <+: p.verb :: w) ↔ p.verb = v ∧ Begins rest vs := by
      simp only [List.cons_prefix_cons, Begins]
      exact ⟨fun ⟨w, hw, same, begins⟩ => ⟨same.symm, w, hw, begins⟩,
        fun ⟨same, w, hw, begins⟩ => ⟨w, hw, same.symm, begins⟩⟩
    have both : Begins (p :: rest) (v :: vs) ↔
        (p.verb = v ∧ Begins rest vs) ∨ (p.mandatory = false ∧ Begins rest (v :: vs)) := by
      rw [← here, Begins, sentences]
      cases p.mandatory <;> simp [or_and_right, exists_or, Begins]
    rw [both, after?]
    by_cases same : p.verb = v
    · -- passing over the place would need a second one for the same verb
      have absent : ¬ Begins rest (v :: vs) := by
        rintro ⟨w, hw, begins⟩
        exact fresh (same ▸ mem_of_mem_sentences hw (begins.subset List.mem_cons_self))
      simp [same, absent]
    · cases p.mandatory <;> simp [same, ih distinct]

/-- What is mandatory from here on is what is mandatory and not yet there. -/
theorem complete_cons (distinct : f.Distinct) (h : f.after? v = some g) :
    f.Complete (v :: vs) ↔ g.Complete vs := by
  obtain ⟨passed, p, rfl, rfl, free⟩ := after?_eq_some h
  rw [Distinct, List.map_append, List.map_cons] at distinct
  have fresh := (List.nodup_cons.mp (List.nodup_append.mp distinct).2.1).1
  constructor
  · intro complete q hq must
    have there := complete q (by simp [hq]) must
    rcases List.mem_cons.mp there with same | later
    · exact absurd (same ▸ List.mem_map_of_mem hq) fresh
    · exact later
  · intro complete q hq must
    rw [List.mem_append, List.mem_cons] at hq
    rcases hq with skipped | rfl | ahead
    · rw [free q skipped] at must
      cases must
    · exact List.mem_cons_self
    · exact List.mem_cons_of_mem _ (complete q ahead must)

end Form

/-! ## Stages stand in forms -/

namespace Stage

/-- What may still follow. -/
def ahead : Stage → Form
  | .selectQuery => Form.select.drop 1
  | .selectFrom => Form.select.drop 2
  | .selectWhere => Form.select.drop 3
  | .selectGroupBy => Form.select.drop 4
  | .insertQuery => Form.insert.drop 1
  | .insertInto => Form.insert.drop 2
  | .updateQuery => Form.update.drop 1
  | .updateSet => Form.update.drop 2
  | .deleteQuery => Form.delete.drop 1
  | .deleteFrom => Form.delete.drop 2
  | .selectOrderBy | .insertValues | .updateWhere | .deleteWhere => []

theorem distinct_ahead (stage : Stage) : stage.ahead.Distinct := by
  cases stage <;> (rw [Form.Distinct]; decide)

/-- **A stage offers what its form has ahead**, and a transition moves on in the form. -/
theorem after?_ahead (stage : Stage) (v : Clause.Verb) :
    stage.ahead.after? v = (stage.next? v).map ahead := by
  cases stage <;> cases v <;> rfl

/-- First clauses open the forms. -/
theorem exists_after?_all (v : Clause.Verb) (g : Form) :
    (∃ f ∈ Form.all, f.after? v = some g) ↔ ∃ stage, first? v = some stage ∧ stage.ahead = g := by
  cases v <;> simp [Form.all, Form.select, Form.insert, Form.update, Form.delete, Form.after?,
    first?, ahead]

/-- A stage is executable when nothing mandatory is ahead. -/
theorem executable_iff (stage : Stage) :
    stage.executable = true ↔ stage.ahead.Complete [] := by
  cases stage <;> decide

end Stage

/-! ## Clauses as lines -/

/-- Lines, each with its end. -/
def lines (ls : List String) : String :=
  String.join (ls.map (· ++ "\n"))

theorem lines_append (ks ls : List String) : lines (ks ++ ls) = lines ks ++ lines ls := by
  rw [lines, List.map_append, String.join_append, lines, lines]

theorem lines_cons (l : String) (ls : List String) : lines (l :: ls) = l ++ "\n" ++ lines ls := by
  rw [lines, List.map_cons, String.join_cons, lines]

@[simp] theorem lines_nil : lines [] = "" := rfl

namespace Clause

/-- Items under a keyword, with a margin of four blanks and a comma after each but the last. -/
def body : List String → List String
  | [] => []
  | [last] => ["    " ++ last]
  | item :: next :: rest => ("    " ++ item ++ ",") :: body (next :: rest)

/-- Items on one line, in parentheses and with commas between them. -/
def listed : List String → String
  | [] => "()"
  | first :: rest => "(" ++ first ++ String.join (rest.map (", " ++ ·)) ++ ")"

/-- A name under the alias that follows AS. -/
def named (name : String) : Option String → String
  | some a => name ++ " AS " ++ a
  | none => name

/-- A name and the direction in which it sorts. -/
def sorted (name : String) : Option Order → String
  | some .ascending => name ++ " ASC"
  | some .descending => name ++ " DESC"
  | none => name

/-- The lines of a clause. -/
def documented : Clause → List String
  | .select columns => "SELECT" :: body (columns.map fun c => named c.name c.alias?)
  | .fromTables tables => "FROM" :: body (tables.map fun t => named t.name t.alias?)
  | .filtered f => ["WHERE", "    " ++ f.condition]
  | .groupBy columns => "GROUP BY" :: body (columns.map Column.name)
  | .orderBy columns => "ORDER BY" :: body (columns.map fun c => sorted c.name c.order?)
  | .insert => ["INSERT"]
  | .into t => ["INTO", "    " ++ t.name]
  | .values items =>
    ["    " ++ listed (items.map ColumnValue.name), "VALUES",
      "    " ++ listed (List.replicate items.length "?")]
  | .update t => ["UPDATE", "    " ++ t.name]
  | .assign items => "SET" :: body (items.map fun cv => cv.name ++ " = ?")
  | .delete => ["DELETE"]
  | .fromTable t => ["FROM", "    " ++ t.name]

/-- What a clause has bound: the values of its filter, or what it writes, with a null in the type of
its column where there is no value. -/
def bound : Clause → List Param
  | .filtered f => f.params.map .value
  | .values items | .assign items => items.map fun cv => cv.value?.elim (.null cv.type) .value
  | _ => []

/-- A clause that takes a list has something in it. -/
def HasItems : Clause → Prop
  | .select columns | .groupBy columns | .orderBy columns => columns ≠ []
  | .fromTables tables => tables ≠ []
  | .values items | .assign items => items ≠ []
  | _ => True

/-- A clause is refused for want of items and for nothing else. -/
theorem fault?_eq_none_iff (c : Clause) : c.fault? = none ↔ c.HasItems := by
  cases c <;> simp [fault?, requireItems, HasItems]

theorem params_eq_bound (c : Clause) : c.params = c.bound := by
  have same : ColumnValue.param = fun cv => cv.value?.elim (.null cv.type) .value := by
    funext cv
    rw [ColumnValue.param]
    cases cv.value? <;> rfl
  cases c <;> simp [params, bound, same]

theorem itemLines_append_eq_lines {items : List String} (h : items ≠ []) :
    itemLines items ++ "\n" = lines (body items) := by
  induction items with
  | nil => exact absurd rfl h
  | cons item rest ih =>
    cases rest with
    | nil =>
      rw [itemLines, String.intercalate_singleton, body, lines_cons, lines_nil,
        String.append_empty]
      rfl
    | cons next rest =>
      have later := ih (List.cons_ne_nil next rest)
      rw [body, lines_cons, ← later, itemLines, itemLines, String.intercalate_cons_cons]
      simp only [indent, String.append_assoc]
      rfl

/-- A block is its keyword line and the lines of its items. -/
theorem block_eq_lines {α : Type} (keyword : String) (render : α → String) {items : List α}
    (h : items ≠ []) :
    block keyword (items.map render) = lines (keyword :: body (items.map render)) := by
  have some : items.map render ≠ [] := by simpa using h
  rw [lines_cons, ← itemLines_append_eq_lines some, block]
  simp only [String.append_assoc]

theorem inParentheses_eq_listed (items : List String) : inParentheses items = listed items := by
  cases items with
  | nil => rfl
  | cons first rest =>
    have tail (first : String) :
        String.intercalate ", " (first :: rest) =
          first ++ String.join (rest.map (", " ++ ·)) := by
      induction rest generalizing first with
      | nil => simp
      | cons next rest ih =>
        rw [String.intercalate_cons_cons, ih, List.map_cons, String.join_cons]
        simp only [String.append_assoc]
    rw [inParentheses, tail, listed]
    simp only [String.append_assoc]

theorem orderItem_eq_sorted (c : Column) : c.orderItem = sorted c.name c.order? := by
  rw [Column.orderItem]
  rcases c.order? with _ | _ | _ <;> simp [Order.keyword, sorted, String.append_assoc]

/-- **A clause is written as its lines.** -/
theorem text_eq_lines {c : Clause} (h : c.HasItems) : c.text = lines c.documented := by
  have alone (keyword line : String) : block keyword [line] = lines [keyword, "    " ++ line] :=
    by simpa only [List.map_id, body] using block_eq_lines keyword id (List.cons_ne_nil line [])
  cases c with
  | select columns => exact block_eq_lines _ _ h
  | fromTables tables => exact block_eq_lines _ _ h
  | filtered f => exact alone _ _
  | groupBy columns => exact block_eq_lines _ _ h
  | orderBy columns =>
    rw [text, block_eq_lines _ _ h, funext orderItem_eq_sorted, documented]
  | insert => rfl
  | into t => exact alone _ _
  | values items =>
    have slots : (items.map fun _ => "?") = List.replicate items.length "?" := by
      simp [List.map_const']
    rw [text, alone, inParentheses_eq_listed, inParentheses_eq_listed, slots, documented,
      lines_cons ("    " ++ _)]
    rfl
  | update t => exact alone _ _
  | assign items => exact block_eq_lines _ _ h
  | delete => rfl
  | fromTable t => exact alone _ _

end Clause

/-! ## What is accepted, and what is built -/

namespace Statement

/-- The forms that a statement may still go on with. -/
def ahead : Option Statement → List Form
  | none => Form.all
  | some s => [s.stage.ahead]

theorem distinct_ahead {s : Option Statement} {f : Form} (hf : f ∈ ahead s) : f.Distinct := by
  cases s with
  | none =>
    simp only [ahead, Form.all, List.mem_cons, List.not_mem_nil, or_false] at hf
    rcases hf with rfl | rfl | rfl | rfl <;> (rw [Form.Distinct]; decide)
  | some s =>
    rw [ahead, List.mem_singleton] at hf
    exact hf ▸ s.stage.distinct_ahead

theorem exists_after?_ahead (s : Option Statement) (v : Clause.Verb) (g : Form) :
    (∃ f ∈ ahead s, f.after? v = some g) ↔
      ∃ stage, reach? s v = some stage ∧ stage.ahead = g := by
  cases s with
  | none => exact Stage.exists_after?_all v g
  | some s => simp [ahead, Stage.after?_ahead, reach?]

theorem add_eq_ok_iff {s : Option Statement} {c : Clause} {t : Statement} :
    add s c = .ok t ↔ ∃ stage, reach? s c.verb = some stage ∧ c.HasItems ∧
      t = ⟨stage, (sofar s).1 ++ c.text, (sofar s).2 ++ c.params⟩ := by
  constructor
  · intro h
    obtain ⟨stage, reached, accepted, rfl⟩ := add_eq_ok h
    exact ⟨stage, reached, c.fault?_eq_none_iff.mp accepted, rfl⟩
  · rintro ⟨stage, reached, items, rfl⟩
    rw [add, reached, c.fault?_eq_none_iff.mpr items]

theorem addAll_cons_eq_ok_iff {s r : Option Statement} {c : Clause} {cs : List Clause} :
    addAll s (c :: cs) = .ok r ↔ ∃ t, add s c = .ok t ∧ addAll (some t) cs = .ok r := by
  refine ⟨addAll_cons_eq_ok, ?_⟩
  rintro ⟨t, added, rest⟩
  rw [addAll, added]
  exact rest

/-- **What is accepted.**  Clauses can be added when they begin a sentence of what is ahead, and
when none lists nothing. -/
theorem addAll_isOk_iff (s : Option Statement) (cs : List Clause) :
    (∃ r, addAll s cs = .ok r) ↔
      (∃ f ∈ ahead s, f.Begins (cs.map Clause.verb)) ∧ ∀ c ∈ cs, c.HasItems := by
  induction cs generalizing s with
  | nil =>
    have some : ∃ f, f ∈ ahead s := by cases s <;> simp [ahead, Form.all]
    obtain ⟨f, hf⟩ := some
    simpa [addAll] using ⟨f, hf, f.begins_nil⟩
  | cons c cs ih =>
    have step : (∃ f ∈ ahead s, f.Begins (c.verb :: cs.map Clause.verb)) ↔
        ∃ stage, reach? s c.verb = some stage ∧ stage.ahead.Begins (cs.map Clause.verb) := by
      constructor
      · rintro ⟨f, hf, begins⟩
        obtain ⟨g, moved, rest⟩ := (Form.begins_cons (distinct_ahead hf)).mp begins
        obtain ⟨stage, reached, rfl⟩ := (exists_after?_ahead s c.verb g).mp ⟨f, hf, moved⟩
        exact ⟨stage, reached, rest⟩
      · rintro ⟨stage, reached, rest⟩
        obtain ⟨f, hf, moved⟩ := (exists_after?_ahead s c.verb _).mpr ⟨stage, reached, rfl⟩
        exact ⟨f, hf, (Form.begins_cons (distinct_ahead hf)).mpr ⟨_, moved, rest⟩⟩
    rw [List.map_cons, step, List.forall_mem_cons]
    constructor
    · rintro ⟨r, h⟩
      obtain ⟨t, added, rest⟩ := addAll_cons_eq_ok_iff.mp h
      obtain ⟨stage, reached, items, rfl⟩ := add_eq_ok_iff.mp added
      obtain ⟨⟨f, hf, begins⟩, later⟩ := (ih _).mp ⟨r, rest⟩
      rw [ahead, List.mem_singleton] at hf
      exact ⟨⟨stage, reached, hf ▸ begins⟩, items, later⟩
    · rintro ⟨⟨stage, reached, begins⟩, items, later⟩
      have added := add_eq_ok_iff.mpr ⟨stage, reached, items, rfl⟩
      obtain ⟨r, rest⟩ :=
        (ih (some ⟨stage, _, _⟩)).mpr ⟨⟨_, List.mem_singleton_self _, begins⟩, later⟩
      exact ⟨r, addAll_cons_eq_ok_iff.mpr ⟨_, added, rest⟩⟩

/-- **When a statement is executable**: when no mandatory clause of its form is missing. -/
theorem executable_of_addAll {s : Option Statement} {cs : List Clause} {t : Statement}
    (h : addAll s cs = .ok (some t)) :
    ∃ f ∈ ahead s, f.Begins (cs.map Clause.verb) ∧
      (t.stage.executable = true ↔ f.Complete (cs.map Clause.verb)) := by
  induction cs generalizing s with
  | nil =>
    cases h
    exact ⟨_, List.mem_singleton_self _, Form.begins_nil _, t.stage.executable_iff⟩
  | cons c cs ih =>
    obtain ⟨u, added, rest⟩ := addAll_cons_eq_ok_iff.mp h
    obtain ⟨stage, reached, -, rfl⟩ := add_eq_ok_iff.mp added
    obtain ⟨g, hg, begins, complete⟩ := ih rest
    rw [ahead, List.mem_singleton] at hg
    subst hg
    obtain ⟨f, hf, moved⟩ := (exists_after?_ahead s c.verb _).mpr ⟨stage, reached, rfl⟩
    have distinct := distinct_ahead hf
    refine ⟨f, hf, (Form.begins_cons distinct).mpr ⟨_, moved, begins⟩, ?_⟩
    rw [complete, List.map_cons, Form.complete_cons distinct moved]

/-- A chain is a first part and then the rest. -/
theorem addAll_append_eq_ok {s r : Option Statement} {earlier later : List Clause}
    (h : addAll s (earlier ++ later) = .ok r) :
    ∃ t, addAll s earlier = .ok t ∧ addAll t later = .ok r := by
  induction earlier generalizing s with
  | nil => exact ⟨s, rfl, h⟩
  | cons c earlier ih =>
    obtain ⟨u, added, rest⟩ := addAll_cons_eq_ok_iff.mp h
    obtain ⟨t, first, last⟩ := ih rest
    exact ⟨t, addAll_cons_eq_ok_iff.mpr ⟨u, added, first⟩, last⟩

/-- A chain of at least one clause leaves a statement. -/
theorem exists_of_addAll {s r : Option Statement} {cs : List Clause} (h : addAll s cs = .ok r)
    (some : cs ≠ []) : ∃ t, r = Option.some t := by
  induction cs generalizing s with
  | nil => exact absurd rfl some
  | cons c cs ih =>
    obtain ⟨t, -, rest⟩ := addAll_cons_eq_ok_iff.mp h
    cases cs with
    | nil =>
      cases rest
      exact ⟨t, rfl⟩
    | cons d cs => exact ih rest (List.cons_ne_nil d cs)

/-- What a chain of clauses adds to what stood before, as lines and as bound parameters. -/
theorem sofar_eq_lines {s r : Option Statement} {cs : List Clause} (h : addAll s cs = .ok r) :
    sofar r = ((sofar s).1 ++ lines (cs.flatMap Clause.documented),
      (sofar s).2 ++ cs.flatMap Clause.bound) := by
  have items := ((addAll_isOk_iff s cs).mp ⟨r, h⟩).2
  have text : String.join (cs.map Clause.text) = lines (cs.flatMap Clause.documented) := by
    clear h
    induction cs with
    | nil => rfl
    | cons c cs ih =>
      rw [List.map_cons, String.join_cons, List.flatMap_cons, lines_append,
        Clause.text_eq_lines (items c List.mem_cons_self),
        ih fun d hd => items d (List.mem_cons_of_mem c hd)]
  rw [sofar_addAll h, text, funext Clause.params_eq_bound]

/-- **The language of statements.**  Clauses are accepted exactly when their verbs begin a sentence
of one of the four forms and none of them lists nothing.  The statement that they make is executable
exactly when no mandatory clause of its form is missing; its text is the lines of its clauses and
its parameters are what they have bound; and every earlier stage of it had the beginning of this
text and of these parameters. -/
theorem build_iff_begins (cs : List Clause) :
    ((∃ r, build cs = .ok r) ↔
      (∃ f ∈ Form.all, f.Begins (cs.map Clause.verb)) ∧ ∀ c ∈ cs, c.HasItems) ∧
    ∀ s, build cs = .ok (some s) →
      (∃ f ∈ Form.all, f.Begins (cs.map Clause.verb) ∧
        (s.stage.executable = true ↔ f.Complete (cs.map Clause.verb))) ∧
      s.sql = lines (cs.flatMap Clause.documented) ∧
      s.params = cs.flatMap Clause.bound ∧
      ∀ earlier later, cs = earlier ++ later → earlier ≠ [] →
        ∃ t, build earlier = .ok (some t) ∧
          s.sql = t.sql ++ lines (later.flatMap Clause.documented) ∧
          s.params = t.params ++ later.flatMap Clause.bound := by
  refine ⟨addAll_isOk_iff none cs, fun s built => ?_⟩
  have whole : (s.sql, s.params) = ("" ++ lines _, [] ++ _) := sofar_eq_lines built
  rw [String.empty_append, List.nil_append, Prod.mk.injEq] at whole
  refine ⟨executable_of_addAll built, whole.1, whole.2, ?_⟩
  rintro earlier later rfl some
  obtain ⟨r, first, rest⟩ := addAll_append_eq_ok built
  obtain ⟨t, rfl⟩ := exists_of_addAll first some
  have extended : (s.sql, s.params) = (t.sql ++ lines _, t.params ++ _) := sofar_eq_lines rest
  rw [Prod.mk.injEq] at extended
  exact ⟨t, first, extended.1, extended.2⟩

/-- A SELECT that leaves out GROUP BY, with an alias and two sorted columns. -/
theorem build_iff_begins_select :
    let column : Column := { name := "A" }
    let cs : List Clause :=
      [.select [{ column with alias? := some "X" }, column], .fromTables [{ name := "T" }],
        .filtered (.leaf "A > ?" [.int 1]), .orderBy [column.withOrder .descending, column]]
    ∃ s, build cs = .ok (some s) ∧ s.stage.executable = true ∧
      s.sql = "SELECT\n    A AS X,\n    A\nFROM\n    T\nWHERE\n    A > ?\n" ++
        "ORDER BY\n    A DESC,\n    A\n" ∧
      s.params = [.value (.int 1)] := by
  intro column cs
  have built : build cs = .ok (some ⟨.selectOrderBy, _, _⟩) := rfl
  obtain ⟨-, text, params, -⟩ := (build_iff_begins cs).2 _ built
  refine ⟨_, built, rfl, text.trans ?_, params⟩
  decide

end Statement

end BoundSql
