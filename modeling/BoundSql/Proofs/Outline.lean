import BoundSql.Proofs.Lines
import Mathlib.Data.List.Infix
import Mathlib.Data.List.SplitBy

/-!
# Reading the clauses of a statement

A statement text shows its clauses: a line that does not start with a blank is a keyword, and the
lines under it are the items of its clause.  `Outline.read` goes by this rule and knows two
exceptions.  The columns of an INSERT stand under INTO, so the second line there belongs to VALUES;
and under WHERE stands one condition, which may have several lines.

When no name, alias or template has a line end, and no column of an INSERT has a comma, the reader
recovers the clauses of every statement with their rendered items (`Statement.read_sql`).  Names that
look like keywords or end in a comma do not confuse it: what a caller gives is always indented, and
only one comma is taken off an item.

The keywords of the clauses tell which clauses they are.  FROM is written for SELECT and for DELETE,
but at no stage are both on offer (`Stage.verb_of_keyword`), so two statements with the same text
have the same clauses and are of the same kind (`Statement.sql_unambiguous`).
-/

namespace BoundSql

/-- A clause on paper: its keyword and its items. -/
structure Entry where
  keyword : String
  items : List String
  deriving DecidableEq, Repr

namespace Clause

/-- The keyword that opens a clause of a verb. -/
def Verb.keyword : Verb → String
  | .select => "SELECT"
  | .fromTables | .fromTable => "FROM"
  | .filtered => "WHERE"
  | .groupBy => "GROUP BY"
  | .orderBy => "ORDER BY"
  | .insert => "INSERT"
  | .into => "INTO"
  | .values => "VALUES"
  | .update => "UPDATE"
  | .assign => "SET"
  | .delete => "DELETE"

/-- The items of a clause as they are rendered; of VALUES these are the columns, one for each
value. -/
def items : Clause → List String
  | .select columns => columns.map Column.selectItem
  | .fromTables tables => tables.map Table.item
  | .filtered f => [f.condition]
  | .groupBy columns => columns.map Column.name
  | .orderBy columns => columns.map Column.orderItem
  | .insert | .delete => []
  | .into t | .update t | .fromTable t => [t.name]
  | .values items => items.map ColumnValue.name
  | .assign items => items.map fun cv => cv.name ++ " = ?"

/-- What a clause says on paper. -/
def entry (c : Clause) : Entry :=
  ⟨c.verb.keyword, c.items⟩

end Clause

/-! ## The reader -/

namespace Outline

/-- Lines in sections, each a keyword line and the indented lines under it. -/
def sections (ls : List String) : List (List String) :=
  ls.splitBy fun _ l => isIndented l

/-- A line without its margin. -/
def item (l : String) : String :=
  String.ofList (l.toList.drop 4)

/-- The items of a list, one on each line and with a comma after each but the last. -/
def items : List String → List String
  | [] => []
  | [last] => [item last]
  | l :: next :: rest => item (String.ofList l.toList.dropLast) :: items (next :: rest)

/-- The items of a list that stands in parentheses on one line. -/
def listed (l : String) : List String :=
  ((' ' :: (l.toList.drop 5).dropLast).splitOn ',').map fun cs => String.ofList cs.tail

/-- The clauses that a section shows. -/
def entries : List String → List Entry
  | [] => []
  | keyword :: body =>
    match keyword, body with
    | "WHERE", body => [⟨"WHERE", [item (String.intercalate "\n" body)]⟩]
    | "INTO", table :: columns =>
      ⟨"INTO", [item table]⟩ :: columns.map fun l => ⟨"VALUES", listed l⟩
    | "VALUES", _ => []
    | keyword, body => [⟨keyword, items body⟩]

/-- **The clauses that a statement text shows.** -/
def read (s : String) : List Entry :=
  (sections (rows s)).flatMap entries

/-! ## Sections -/

/-- A keyword line and indented lines under it. -/
def IsSection : List String → Prop
  | [] => False
  | keyword :: body => isIndented keyword = false ∧ ∀ l ∈ body, isIndented l = true

theorem sections_of_isSection {ls : List String} (h : IsSection ls) : sections ls = [ls] := by
  cases ls with
  | nil => exact h.elim
  | cons keyword body =>
    refine List.splitBy_of_isChain (List.cons_ne_nil _ _) ?_
    have chain : ∀ (first : String) (rest : List String), (∀ l ∈ rest, isIndented l = true) →
        (first :: rest).IsChain fun _ l => isIndented l = true := by
      intro first rest
      induction rest generalizing first with
      | nil => exact fun _ => .singleton first
      | cons next rest ih =>
        intro indented
        obtain ⟨here, later⟩ := List.forall_mem_cons.mp indented
        exact .cons_cons here (ih next later)
    exact chain keyword body h.2

/-- **Sections in a row are told apart.** -/
theorem sections_flatten {ss : List (List String)} (h : ∀ ls ∈ ss, IsSection ls) :
    sections ss.flatten = ss := by
  induction ss with
  | nil => rfl
  | cons ls ss ih =>
    obtain ⟨first, later⟩ := List.forall_mem_cons.mp h
    have boundary : ∀ x ∈ ls.getLast?, ∀ y ∈ ss.flatten.head?, isIndented y = false := by
      intro x _ y hy
      cases ss with
      | nil => cases hy
      | cons next ss =>
        cases next with
        | nil => exact (later [] List.mem_cons_self).elim
        | cons keyword body =>
          cases hy
          exact (later _ List.mem_cons_self).1
    have both : sections (ls ++ ss.flatten) = sections ls ++ sections ss.flatten :=
      List.splitBy_append boundary
    rw [List.flatten_cons, both, sections_of_isSection first, ih later, List.singleton_append]

/-! ## Items -/

theorem toList_margin (s : String) : ("    " ++ s).toList = ' ' :: ' ' :: ' ' :: ' ' :: s.toList := by
  have margin : "    ".toList = [' ', ' ', ' ', ' '] := by decide
  rw [String.toList_append, margin]
  rfl

/-- What stands behind the margin is indented. -/
theorem isIndented_margin (s : String) : isIndented ("    " ++ s) = true := by
  rw [isIndented, toList_margin]
  rfl

/-- The margin is taken off. -/
theorem item_margin (s : String) : item ("    " ++ s) = s := by
  rw [item, toList_margin]
  exact String.ofList_toList

/-- A comma behind an item is taken off. -/
theorem item_dropLast (s : String) :
    item (String.ofList ("    " ++ s ++ ",").toList.dropLast) = s := by
  have comma : ",".toList = [','] := by decide
  rw [String.toList_append, comma, List.dropLast_concat, String.ofList_toList, item_margin]

/-- **A list of items is read back**, whatever the items are. -/
theorem items_body (names : List String) : items (Clause.body names) = names := by
  induction names with
  | nil => rfl
  | cons name names ih =>
    cases names with
    | nil => rw [Clause.body, items, item_margin]
    | cons next names =>
      obtain ⟨l, ls, written⟩ : ∃ l ls, Clause.body (next :: names) = l :: ls := by
        cases names <;> exact ⟨_, _, rfl⟩
      rw [Clause.body, written, items, item_dropLast, ← written, ih]

/-- Commas and blanks between items, and a blank before the first, are commas between items with a
blank before each. -/
theorem intercalate_blank {names : List (List Char)} (some : names ≠ []) :
    ' ' :: [',', ' '].intercalate names = [','].intercalate (names.map (' ' :: ·)) := by
  induction names with
  | nil => exact absurd rfl some
  | cons name names ih =>
    cases names with
    | nil => simp
    | cons next names =>
      have later := ih (List.cons_ne_nil next names)
      rw [List.map_cons] at later ⊢
      rw [List.intercalate_cons_cons, List.map_cons, List.intercalate_cons_cons, ← later]
      simp

/-- **Items in parentheses are read back** when none of them has a comma. -/
theorem listed_listed {names : List String} (some : names ≠ [])
    (separate : ∀ n ∈ names, ',' ∉ n.toList) : listed ("    " ++ Clause.listed names) = names := by
  have marks : "(".toList = ['('] ∧ ")".toList = [')'] ∧ ", ".toList = [',', ' '] := by decide
  have inside : (("    " ++ Clause.listed names).toList.drop 5).dropLast =
      [',', ' '].intercalate (names.map String.toList) := by
    rw [← Clause.inParentheses_eq_listed, Clause.inParentheses, toList_margin]
    simp [String.toList_append, marks]
  have blanks : ∀ cs ∈ (names.map String.toList).map (' ' :: ·), ',' ∉ cs := by
    intro cs hcs
    simp only [List.map_map, List.mem_map] at hcs
    obtain ⟨n, hn, rfl⟩ := hcs
    simpa using separate n hn
  rw [listed, inside, intercalate_blank (by simpa using some),
    List.splitOn_intercalate ',' blanks (by simpa using some)]
  simp [Function.comp_def]

/-- Most keywords stand over a list of items. -/
theorem entries_keyword {v : Clause.Verb} (noFilter : v ≠ .filtered) (noTable : v ≠ .into)
    (noValues : v ≠ .values) (body : List String) :
    entries (v.keyword :: body) = [⟨v.keyword, items body⟩] := by
  cases v with
  | filtered => exact absurd rfl noFilter
  | into => exact absurd rfl noTable
  | values => exact absurd rfl noValues
  | _ => rfl

end Outline

/-! ## Clauses as a reader sees them -/

namespace Clause

open Outline

/-- A clause whose texts keep to the layout: its items have one line each, the lines of its condition
are indented, and the columns of VALUES have no comma. -/
def Legible : Clause → Prop
  | .filtered f => Hanging f.condition
  | .values items => ∀ cv ∈ items, OneLine cv.name ∧ ',' ∉ cv.name.toList
  | c => ∀ s ∈ c.items, OneLine s

/-- The lines of a clause, where a condition may have several. -/
def sheet (c : Clause) : List String :=
  c.documented.flatMap splitLines

theorem flatMap_splitLines {ls : List String} (h : ∀ l ∈ ls, OneLine l) :
    ls.flatMap splitLines = ls := by
  induction ls with
  | nil => rfl
  | cons l ls ih =>
    obtain ⟨first, later⟩ := List.forall_mem_cons.mp h
    rw [List.flatMap_cons, first.splitLines_eq, ih later, List.singleton_append]

/-- A line under a keyword is an item with its margin, and perhaps a comma. -/
theorem eq_of_mem_body {names : List String} {l : String} (h : l ∈ body names) :
    ∃ n ∈ names, l = "    " ++ n ∨ l = "    " ++ (n ++ ",") := by
  induction names with
  | nil => cases h
  | cons name names ih =>
    cases names with
    | nil =>
      rw [body, List.mem_singleton] at h
      exact ⟨name, List.mem_cons_self, .inl h⟩
    | cons next names =>
      rw [body, List.mem_cons] at h
      rcases h with rfl | later
      · exact ⟨name, List.mem_cons_self, .inr (String.append_assoc ..)⟩
      · obtain ⟨n, inside, shape⟩ := ih later
        exact ⟨n, List.mem_cons_of_mem _ inside, shape⟩

theorem oneLine_of_mem_body {names : List String} (h : ∀ n ∈ names, OneLine n) :
    ∀ l ∈ body names, OneLine l := by
  intro l hl
  have margin : OneLine "    " := by decide
  have comma : OneLine "," := by decide
  obtain ⟨n, inside, rfl | rfl⟩ := eq_of_mem_body hl
  · exact margin.append (h n inside)
  · exact margin.append ((h n inside).append comma)

theorem isIndented_of_mem_body {names : List String} :
    ∀ l ∈ body names, isIndented l = true := by
  intro l hl
  obtain ⟨n, -, rfl | rfl⟩ := eq_of_mem_body hl
  · exact isIndented_margin n
  · exact isIndented_margin (n ++ ",")

/-- No keyword is indented, and none has a line end. -/
theorem keyword_shape (v : Verb) : isIndented v.keyword = false ∧ OneLine v.keyword := by
  cases v <;> decide

/-- A clause other than WHERE and VALUES is its keyword and its list of items. -/
theorem documented_eq {c : Clause} (noFilter : c.verb ≠ .filtered) (noValues : c.verb ≠ .values) :
    c.documented = c.verb.keyword :: body c.items := by
  cases c with
  | filtered f => exact absurd rfl noFilter
  | values items => exact absurd rfl noValues
  | orderBy columns =>
    rw [documented, items, funext orderItem_eq_sorted]
    rfl
  | _ => rfl

/-- The lines of such a clause are its keyword and its list of items. -/
theorem sheet_eq {c : Clause} (legible : c.Legible) (noFilter : c.verb ≠ .filtered)
    (noValues : c.verb ≠ .values) : c.sheet = c.verb.keyword :: body c.items := by
  have oneLine : ∀ s ∈ c.items, OneLine s := by
    cases c with
    | filtered f => exact absurd rfl noFilter
    | values items => exact absurd rfl noValues
    | _ => exact legible
  rw [sheet, documented_eq noFilter noValues]
  exact flatMap_splitLines
    (List.forall_mem_cons.mpr ⟨(keyword_shape c.verb).2, oneLine_of_mem_body oneLine⟩)

/-- **A clause other than VALUES is a section, and shows itself.** -/
theorem entries_sheet {c : Clause} (legible : c.Legible) (noValues : c.verb ≠ .values) :
    IsSection c.sheet ∧ entries c.sheet = [c.entry] := by
  by_cases filtered : c.verb = .filtered
  · obtain ⟨f, rfl⟩ : ∃ f, c = .filtered f := by
      cases c with
      | filtered f => exact ⟨f, rfl⟩
      | _ => cases filtered
    -- the condition is one indented text, whatever lines it has
    have keyword : OneLine "WHERE" := by decide
    have margin : Hanging "    " := by decide
    have sheet : (Clause.filtered f).sheet = "WHERE" :: splitLines ("    " ++ f.condition) := by
      rw [Clause.sheet, documented, List.flatMap_cons, keyword.splitLines_eq, List.flatMap_cons,
        List.flatMap_nil, List.append_nil, List.singleton_append]
    have indented := (margin.append legible).isIndented_of_mem (isIndented_margin f.condition)
    refine ⟨sheet ▸ ⟨by decide, indented⟩, ?_⟩
    have whole : entries ("WHERE" :: splitLines ("    " ++ f.condition)) =
        [⟨"WHERE", [item (String.intercalate "\n" (splitLines ("    " ++ f.condition)))]⟩] := rfl
    rw [sheet, whole, intercalate_splitLines, item_margin]
    rfl
  · have sheet := sheet_eq legible filtered noValues
    refine ⟨sheet ▸ ⟨(keyword_shape c.verb).1, isIndented_of_mem_body⟩, ?_⟩
    by_cases table : c.verb = .into
    · obtain ⟨t, rfl⟩ : ∃ t, c = .into t := by
        cases c with
        | into t => exact ⟨t, rfl⟩
        | _ => cases table
      have whole : entries ["INTO", "    " ++ t.name] = [⟨"INTO", [item ("    " ++ t.name)]⟩] := rfl
      rw [sheet]
      exact whole.trans (by rw [item_margin]; rfl)
    · rw [sheet, entries_keyword filtered table noValues, items_body, entry]

/-- The lines of VALUES: the columns belong to the section before, and the placeholders are a section
of their own. -/
theorem sheet_values {items : List ColumnValue} (legible : (Clause.values items).Legible) :
    (Clause.values items).sheet =
      ["    " ++ listed (items.map ColumnValue.name), "VALUES",
        "    " ++ listed (List.replicate items.length "?")] := by
  have margin : OneLine "    " := by decide
  have marks : OneLine "(" ∧ OneLine ")" ∧ OneLine ", " ∧ OneLine "" := by decide
  have parentheses : ∀ names : List String, (∀ n ∈ names, OneLine n) →
      OneLine ("    " ++ listed names) := by
    intro names oneLine
    have inner := Placeholder.intercalate_of_append marks.2.2.2
      (fun ha hb => OneLine.append ha hb) marks.2.2.1 oneLine
    rw [← inParentheses_eq_listed]
    exact margin.append ((marks.1.append inner).append marks.2.1)
  have oneLine : ∀ l ∈ (Clause.values items).documented, OneLine l := by
    simp only [documented, List.mem_cons, List.not_mem_nil, or_false, forall_eq_or_imp, forall_eq]
    refine ⟨parentheses _ fun n hn => ?_, by decide, parentheses _ fun n hn => ?_⟩
    · obtain ⟨cv, hcv, rfl⟩ := List.mem_map.mp hn
      exact (legible cv hcv).1
    · rw [List.eq_of_mem_replicate hn]
      decide
  exact flatMap_splitLines oneLine

end Clause

/-! ## Whole statements -/

namespace Stage

/-- At no stage are two clauses with the same keyword on offer. -/
theorem verb_of_keyword {stage next other : Stage} {v w : Clause.Verb}
    (hv : stage.next? v = some next) (hw : stage.next? w = some other)
    (same : v.keyword = w.keyword) : v = w := by
  cases stage <;> cases v <;> cases hv <;> cases w <;> cases hw <;>
    first | rfl | exact absurd same (by decide)

/-- Nor are there at the start. -/
theorem verb_of_first_keyword {next other : Stage} {v w : Clause.Verb} (hv : first? v = some next)
    (hw : first? w = some other) (same : v.keyword = w.keyword) : v = w := by
  cases v <;> cases hv <;> cases w <;> cases hw <;>
    first | rfl | exact absurd same (by decide)

end Stage

namespace Statement

open Outline

/-- What a clause reaches depends on the stage only. -/
theorem reach?_congr {s t : Option Statement} (together : s.map stage = t.map stage) :
    reach? s = reach? t := by
  funext v
  cases s with
  | none =>
    cases t with
    | none => rfl
    | some t => cases together
  | some s =>
    cases t with
    | none => cases together
    | some t => rw [reach?, reach?, Option.some.inj together]

/-- One keyword leads from one stage to one stage, by one clause. -/
theorem verb_of_keyword {s : Option Statement} {v w : Clause.Verb} {next other : Stage}
    (hv : reach? s v = some next) (hw : reach? s w = some other) (same : v.keyword = w.keyword) :
    v = w ∧ next = other := by
  have verb : v = w := by
    cases s with
    | none => exact Stage.verb_of_first_keyword hv hw same
    | some s => exact Stage.verb_of_keyword hv hw same
  subst verb
  exact ⟨rfl, Option.some.inj (hv.symm.trans hw)⟩

/-- **The keywords of its clauses tell what a statement is.** -/
theorem verbs_of_keywords {s t r u : Option Statement} {cs ds : List Clause}
    (together : s.map stage = t.map stage) (hc : addAll s cs = .ok r) (hd : addAll t ds = .ok u)
    (same : cs.map (·.verb.keyword) = ds.map (·.verb.keyword)) :
    cs.map Clause.verb = ds.map Clause.verb ∧ r.map stage = u.map stage := by
  induction cs generalizing s t ds with
  | nil =>
    rw [List.map_nil, List.nil_eq, List.map_eq_nil_iff] at same
    subst same
    cases hc
    cases hd
    exact ⟨rfl, together⟩
  | cons c cs ih =>
    cases ds with
    | nil => cases same
    | cons d ds =>
      obtain ⟨first, later⟩ := List.cons.inj same
      obtain ⟨s', added, rest⟩ := addAll_cons_eq_ok_iff.mp hc
      obtain ⟨t', added', rest'⟩ := addAll_cons_eq_ok_iff.mp hd
      obtain ⟨stage, reached, -, rfl⟩ := add_eq_ok_iff.mp added
      obtain ⟨stage', reached', -, rfl⟩ := add_eq_ok_iff.mp added'
      rw [← reach?_congr together] at reached'
      obtain ⟨verb, rfl⟩ := verb_of_keyword reached reached' first
      obtain ⟨verbs, stages⟩ := ih (by rfl) rest rest' later
      exact ⟨by rw [List.map_cons, List.map_cons, verb, verbs], stages⟩

/-- Values are only listed in an INSERT, which ends with them. -/
theorem eq_of_values_mem {cs : List Clause} {r : Option Statement} (h : build cs = .ok r)
    (values : .values ∈ cs.map Clause.verb) :
    ∃ t items, cs = [.insert, .into t, .values items] := by
  have only : ∀ f ∈ Form.all, ∀ w ∈ f.sentences, ∀ vs ∈ w.inits, Clause.Verb.values ∈ vs →
      vs = [.insert, .into, .values] := by decide
  obtain ⟨⟨f, hf, w, hw, begins⟩, -⟩ := (addAll_isOk_iff none cs).mp ⟨r, h⟩
  have verbs := only f hf w hw _ ((List.mem_inits _ _).mpr begins) values
  obtain ⟨c, cs, rfl, first, verbs⟩ := List.map_eq_cons_iff.mp verbs
  obtain ⟨d, cs, rfl, second, verbs⟩ := List.map_eq_cons_iff.mp verbs
  obtain ⟨e, cs, rfl, third, verbs⟩ := List.map_eq_cons_iff.mp verbs
  rw [List.map_eq_nil_iff] at verbs
  subst verbs
  cases c <;> cases first
  cases d <;> cases second
  cases e <;> cases third
  exact ⟨_, _, rfl⟩

/-- The lines of a statement are those of its clauses. -/
theorem rows_sql {cs : List Clause} {s : Statement} (built : build cs = .ok (some s)) :
    rows s.sql = cs.flatMap Clause.sheet := by
  have whole : (s.sql, s.params) = ("" ++ lines (cs.flatMap Clause.documented), [] ++ _) :=
    sofar_eq_lines built
  rw [String.empty_append, Prod.mk.injEq] at whole
  rw [whole.1, rows_lines, List.flatMap_assoc]
  rfl

/-- The clauses of an INSERT are recovered: the second line under INTO is the first of VALUES. -/
theorem entries_insert {t : Table} {items : List ColumnValue} (opening : Clause.insert.Legible)
    (table : (Clause.into t).Legible) (columns : (Clause.values items).Legible)
    (some : items ≠ []) :
    (sections ([.insert, .into t, .values items].flatMap Clause.sheet)).flatMap entries =
      [Clause.insert.entry, (Clause.into t).entry, (Clause.values items).entry] := by
  let names := "    " ++ Clause.listed (items.map ColumnValue.name)
  let slots := "    " ++ Clause.listed (List.replicate items.length "?")
  have rows : [Clause.insert, .into t, .values items].flatMap Clause.sheet =
      [["INSERT"], ["INTO", "    " ++ t.name, names], ["VALUES", slots]].flatten := by
    simp only [List.flatMap_cons, List.flatMap_nil, Clause.sheet_values columns,
      Clause.sheet_eq opening nofun nofun, Clause.sheet_eq table nofun nofun]
    rfl
  have indented := isIndented_margin
  have sectioned : ∀ ls ∈ [["INSERT"], ["INTO", "    " ++ t.name, names], ["VALUES", slots]],
      IsSection ls := by
    simp only [List.forall_mem_cons]
    refine ⟨⟨by decide, nofun⟩, ⟨by decide, ?_⟩, ⟨by decide, ?_⟩, nofun⟩
    · simp [names, indented]
    · simp [slots, indented]
  have separate : ∀ n ∈ items.map ColumnValue.name, ',' ∉ n.toList := by
    intro n hn
    obtain ⟨cv, hcv, rfl⟩ := List.mem_map.mp hn
    exact (columns cv hcv).2
  have columns : Outline.listed names = items.map ColumnValue.name :=
    listed_listed (by simpa using some) separate
  have shown : [["INSERT"], ["INTO", "    " ++ t.name, names], ["VALUES", slots]].flatMap entries =
      [⟨"INSERT", []⟩, ⟨"INTO", [item ("    " ++ t.name)]⟩, ⟨"VALUES", Outline.listed names⟩] := rfl
  rw [rows, sections_flatten sectioned, shown, columns, item_margin]
  rfl

/-- **The reader recovers the clauses of a statement.** -/
theorem read_sql {cs : List Clause} {s : Statement} (built : build cs = .ok (some s))
    (legible : ∀ c ∈ cs, c.Legible) : Outline.read s.sql = cs.map Clause.entry := by
  have lists := ((addAll_isOk_iff none cs).mp ⟨_, built⟩).2
  rw [Outline.read, rows_sql built]
  by_cases values : .values ∈ cs.map Clause.verb
  · obtain ⟨t, items, rfl⟩ := eq_of_values_mem built values
    simp only [List.forall_mem_cons] at legible lists
    obtain ⟨opening, table, columns, -⟩ := legible
    exact entries_insert opening table columns lists.2.2.1
  · have shown : ∀ c ∈ cs, IsSection c.sheet ∧ entries c.sheet = [c.entry] := fun c hc =>
      Clause.entries_sheet (legible c hc) fun same => values (same ▸ List.mem_map_of_mem hc)
    have each : ∀ ls ∈ cs.map Clause.sheet, IsSection ls := by
      intro ls hls
      obtain ⟨c, hc, rfl⟩ := List.mem_map.mp hls
      exact (shown c hc).1
    have sectioned := sections_flatten each
    rw [← List.flatMap_def] at sectioned
    rw [sectioned, List.flatMap_map, List.map_eq_flatMap]
    exact List.flatMap_congr fun c hc => (shown c hc).2

/-- A statement built of clauses whose names, aliases and templates have no line end, and whose
columns of an INSERT have no comma. -/
structure LaidOut (cs : List Clause) (s : Statement) : Prop where
  built : build cs = .ok (some s)
  oneLine : ∃ p, ∀ c ∈ cs, c.In .oneLineTexts p
  separate : ∀ items, .values items ∈ cs → ∀ cv ∈ items, ',' ∉ cv.name.toList

/-- The clauses of such a statement keep to the layout. -/
theorem LaidOut.legible {cs : List Clause} {s : Statement} (h : LaidOut cs s) :
    ∀ c ∈ cs, c.Legible := by
  intro c hc
  obtain ⟨p, made⟩ := h.oneLine
  have hc' := made c hc
  have hV := Vocabulary.satisfies_oneLineTexts
  have hP := compositional_oneLine
  have suffix : OneLine " = ?" := by decide
  have written {items : List ColumnValue} (h : ∀ cv ∈ items, ∃ (c : Column) (v : Option Value),
      c.Named .oneLineTexts ∧ cv = ColumnValue.of c v) : ∀ cv ∈ items, OneLine cv.name := by
    intro cv hcv
    obtain ⟨c, v, named, rfl⟩ := h cv hcv
    exact named.satisfies_name hP hV
  cases c with
  | select columns =>
    exact List.forall_mem_map.mpr fun c hc => (hc' c hc).satisfies_selectItem hP hV
  | fromTables tables => exact List.forall_mem_map.mpr fun t ht => (hc' t ht).satisfies_item hP hV
  | filtered f =>
    obtain ⟨rfl, leaves⟩ := hc'
    exact Condition.hanging_filter fun f hf => (leaves f hf).oneLine
  | groupBy columns =>
    exact List.forall_mem_map.mpr fun c hc => (hc' c hc).satisfies_name hP hV
  | orderBy columns =>
    exact List.forall_mem_map.mpr fun c hc => (hc' c hc).satisfies_orderItem hP hV
  | insert | delete => exact nofun
  | into t | update t | fromTable t =>
    exact List.forall_mem_singleton.mpr (hc'.satisfies_name hV)
  | values items => exact fun cv hcv => ⟨written hc' cv hcv, h.separate items hc cv hcv⟩
  | assign items =>
    exact List.forall_mem_map.mpr fun cv hcv => (written hc' cv hcv).append suffix

/-- **Statement text is unambiguous.**

The statements are built of any clauses over names, aliases and templates without line ends; names of
columns that an INSERT writes have no comma.  A reader that takes every line without a margin for a
keyword recovers the clauses of a statement from its text, each with its items as they are rendered:
selected columns, tables, group and order items, assignments, the columns of an INSERT, one for each
value, and the condition of WHERE.  Two statements with the same text are of the same kind and have
the same clauses in the same order, with the same items. -/
theorem sql_unambiguous {cs ds : List Clause} {s t : Statement} (hs : LaidOut cs s)
    (ht : LaidOut ds t) :
    Outline.read s.sql = cs.map Clause.entry ∧
      (s.sql = t.sql → s.kind = t.kind ∧ cs.map Clause.verb = ds.map Clause.verb ∧
        cs.map Clause.items = ds.map Clause.items) := by
  have first := read_sql hs.built hs.legible
  have second := read_sql ht.built ht.legible
  refine ⟨first, fun same => ?_⟩
  have entries : cs.map Clause.entry = ds.map Clause.entry := by
    rw [← first, ← second, same]
  have keywords : cs.map (·.verb.keyword) = ds.map (·.verb.keyword) := by
    have kept := congrArg (List.map Entry.keyword) entries
    rw [List.map_map, List.map_map] at kept
    exact kept
  have items : cs.map Clause.items = ds.map Clause.items := by
    have kept := congrArg (List.map Entry.items) entries
    rw [List.map_map, List.map_map] at kept
    exact kept
  obtain ⟨verbs, stages⟩ := verbs_of_keywords rfl hs.built ht.built keywords
  exact ⟨congrArg Stage.kind (Option.some.inj stages), verbs, items⟩

/-- A column whose name ends in a comma, a table that is called like a keyword, and a condition of
three lines; the two statements differ in what they compare with. -/
theorem sql_unambiguous_commas_keywords :
    let column : Column := { name := "A," }
    let chain (n : Int64) : List Clause :=
      let f : Filter := .leaf "A, = ?" [.int n]
      [.select [column, column], .fromTables [{ name := "FROM" }],
        .filtered (Condition.and (.leaf f) (.or (.leaf f) (.leaf f))).filter]
    ∃ s t : Statement, LaidOut (chain 1) s ∧ LaidOut (chain 2) t ∧ s.sql = t.sql ∧
      Outline.read s.sql = [⟨"SELECT", ["A,", "A,"]⟩, ⟨"FROM", ["FROM"]⟩,
        ⟨"WHERE", ["A, = ?\n    AND (A, = ?\n     OR A, = ?)"]⟩] ∧
      s.kind = t.kind := by
  intro column chain
  have oneLine : OneLine "A," ∧ OneLine "FROM" := by decide
  have named : column.Named .oneLineTexts := .ofName oneLine.1 rfl
  have table : Table.Named .oneLineTexts { name := "FROM" } := .ofName oneLine.2 rfl
  have made (n : Int64) : ∃ p, ∀ c ∈ chain n, c.In .oneLineTexts p := by
    let f : Filter := .leaf "A, = ?" [.int n]
    refine ⟨.and (.leaf f) (.or (.leaf f) (.leaf f)), fun c hc => ?_⟩
    simp only [chain, List.mem_cons, List.not_mem_nil, or_false] at hc
    rcases hc with rfl | rfl | rfl
    · intro c hc
      have same : c = column := by simpa using hc
      exact same ▸ ⟨named, nofun⟩
    · intro t ht
      rw [List.mem_singleton.mp ht]
      exact ⟨table, nofun⟩
    · refine ⟨rfl, fun l hl => ?_⟩
      have same : l = f := by simpa [Condition.leaves] using hl
      exact same ▸ .comparison (k := .relation .equal (.int n)) named trivial rfl
  have separate (n : Int64) : ∀ items, .values items ∈ chain n →
      ∀ cv ∈ items, ',' ∉ cv.name.toList := by
    intro items inside
    simp [chain] at inside
  have first : LaidOut (chain 1) ⟨.selectWhere, _, _⟩ := ⟨rfl, made 1, separate 1⟩
  have second : LaidOut (chain 2) ⟨.selectWhere, _, _⟩ := ⟨rfl, made 2, separate 2⟩
  obtain ⟨shown, same⟩ := sql_unambiguous first second
  exact ⟨_, _, first, second, rfl, shown.trans (by decide), (same rfl).1⟩

/-- The columns of an INSERT run together when their names have commas. -/
example :
    let chain (names : List String) : List Clause :=
      [.insert, .into { name := "T" }, .values (names.map fun n => .of { name := n } none)]
    String.join ((chain ["A, B", "C"]).map Clause.text) =
      String.join ((chain ["A", "B, C"]).map Clause.text) := by decide

end Statement

end BoundSql
