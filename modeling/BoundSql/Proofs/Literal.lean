import BoundSql.Proofs.Encoding
import BoundSql.Proofs.Quoting
import BoundSql.Value.Basic

/-!
# Text literals

A text value is shown between single quotes, with its own single quotes doubled.  Where this stands
in SQL text it is one literal, and it says which text it shows.

* **Reading.**  A reader of literals goes on to the first quote that is not doubled
  (`Quoted.readQuoted?`).  It stops right behind the closing quote and has found the text, whatever
  follows, unless this is one more quote (`Quoted.readQuoted?_quote`).
* **Other values.**  No value of another kind is shown with a single quote in front
  (`Value.head?_display_eq_iff`).  Numbers, calendar texts and UUIDs hold none at all, which is
  followed from the digits up through everything that writes them; JSON text may hold some in its
  strings, but never in front.
-/

namespace BoundSql

/-! ## Reading a literal -/

namespace Quoted

/-- Doubling replaces every quote by two. -/
theorem double_eq_flatMap (q : Char) (cs : List Char) :
    double q cs = cs.flatMap fun c => if c = q then [q, q] else [c] := by
  induction cs with
  | nil => rfl
  | cons c cs ih =>
    rw [double, List.flatMap_cons, ih]
    split <;> rfl

/-- Read quoted text after its opening quote, up to the first quote that is not doubled: what it
quotes, and what follows. -/
def readInside? (q : Char) : List Char → Option (List Char × List Char)
  | [] => none
  | [c] => if c = q then some ([], []) else none
  | c :: d :: rest =>
    if c = q then
      if d = q then (readInside? q rest).map fun (t, after) => (q :: t, after)
      else some ([], d :: rest)
    else (readInside? q (d :: rest)).map fun (t, after) => (c :: t, after)

/-- Read quoted text at the front. -/
def readQuoted? (q : Char) : List Char → Option (List Char × List Char)
  | [] => none
  | c :: rest => if c = q then readInside? q rest else none

theorem readInside?_cons_of_ne {q c : Char} (h : c ≠ q) (cs : List Char) :
    readInside? q (c :: cs) = (readInside? q cs).map fun (t, after) => (c :: t, after) := by
  cases cs with
  | nil => simp [readInside?, h]
  | cons d cs => simp [readInside?, h]

/-- A single quote ends the text. -/
theorem readInside?_quote {q : Char} {rest : List Char} (ends : rest.head? ≠ some q) :
    readInside? q (q :: rest) = some ([], rest) := by
  cases rest with
  | nil => simp [readInside?]
  | cons d rest =>
    have single : d ≠ q := fun same => ends (congrArg some same)
    simp [readInside?, single]

theorem readInside?_double {q : Char} (cs : List Char) {rest : List Char}
    (ends : rest.head? ≠ some q) :
    readInside? q (double q cs ++ q :: rest) = some (cs, rest) := by
  induction cs with
  | nil => exact readInside?_quote ends
  | cons c cs ih =>
    rw [double]
    split
    · next quote =>
      subst quote
      simp [readInside?, ih]
    · next other =>
      rw [List.cons_append, readInside?_cons_of_ne other, ih]
      rfl

theorem head?_quote (q : Char) (s : String) : (quote q s).toList.head? = some q := by
  rw [quote, String.toList_ofList]
  rfl

/-- **A quoted text is read to its end**, whatever it quotes. -/
theorem readQuoted?_quote {q : Char} (s : String) {rest : List Char}
    (ends : rest.head? ≠ some q) :
    readQuoted? q ((quote q s).toList ++ rest) = some (s.toList, rest) := by
  rw [quote, String.toList_ofList, List.cons_append, List.append_assoc, readQuoted?, if_pos rfl]
  exact readInside?_double s.toList ends

end Quoted

/-! ## Texts without a single quote -/

namespace Decimal

@[simp]
theorem quote_not_mem_digits (n : Nat) : '\'' ∉ digits n := by
  intro inside
  have digit := isDigit_of_mem_digits inside
  cases digit

@[simp]
theorem quote_not_mem_paddedDigits (width n : Nat) : '\'' ∉ paddedDigits width n := by
  intro inside
  have digit := isDigit_of_mem_paddedDigits inside
  cases digit

@[simp]
theorem quote_not_mem_natural (n : Nat) : '\'' ∉ (natural n).toList := by
  simp [natural]

@[simp]
theorem quote_not_mem_integer (i : Int) : '\'' ∉ (integer i).toList := by
  unfold integer
  split <;> simp

/-- The trimmed digits are among the digits. -/
theorem quote_not_mem_trimmedDigits (n : Nat) : '\'' ∉ trimmedDigits n := by
  intro inside
  rw [trimmedDigits, List.mem_reverse] at inside
  have kept := (List.dropWhile_sublist _).mem inside
  exact quote_not_mem_digits n (List.mem_reverse.mp kept)

/-- A positional text holds its digits, zeros and a point. -/
theorem quote_not_mem_positionalText (pointed : Bool) {ds : List Char} (plain : '\'' ∉ ds)
    (e : Int) : '\'' ∉ positionalText pointed ds e := by
  unfold positionalText
  split
  · simp [plain]
  · have front : '\'' ∉ ds.take (e.toNat + 1) := fun inside => plain (List.mem_of_mem_take inside)
    have back : '\'' ∉ ds.drop (e.toNat + 1) := fun inside => plain (List.mem_of_mem_drop inside)
    dsimp only
    split
    · split <;> simp [front]
    · simp [front, back]

section Layout

variable {l : Layout} (exponents : ∀ e, '\'' ∉ (l.exponentText e).toList)
include exponents

theorem Layout.quote_not_mem_arrange {ds : List Char} (plain : '\'' ∉ ds) (e : Int) :
    '\'' ∉ (l.arrange ds e).toList := by
  unfold Layout.arrange
  split
  · simp [quote_not_mem_positionalText l.pointed plain e]
  · match ds, plain with
    | [], _ => simp [exponents e]
    | [d], plain => cases l.pointedMantissa <;> simpa [exponents e] using plain
    | d :: _ :: _, plain => simpa [exponents e] using plain

/-- A layout writes single quotes only in its exponents. -/
theorem Layout.quote_not_mem_finite (x : Double) : '\'' ∉ (l.finite x).toList := by
  have unsigned : '\'' ∉ (l.unsigned x).toList := by
    unfold Layout.unsigned
    split
    · split <;> decide
    · exact Layout.quote_not_mem_arrange exponents (quote_not_mem_trimmedDigits _) _
  unfold Layout.finite
  split <;> simp [unsigned]

end Layout

end Decimal

namespace Calendar

@[simp]
theorem quote_not_mem_yearText (year : Int) : '\'' ∉ yearText year := by
  unfold yearText
  split
  · simp
  · split <;> simp

@[simp]
theorem quote_not_mem_fractionText (nano : Nat) : '\'' ∉ fractionText nano := by
  unfold fractionText
  repeat' split
  all_goals simp

theorem Part.quote_not_mem_write (r : Reading) {part : Part} (other : part ≠ .mark '\'') :
    '\'' ∉ part.write r := by
  cases part with
  | mark c =>
    intro inside
    exact other (congrArg Part.mark (List.mem_singleton.mp inside).symm)
  | _ => simp [Part.write]

/-- A pattern writes single quotes only as marks. -/
theorem Pattern.quote_not_mem_write {p : Pattern} (plain : .mark '\'' ∉ p) (r : Reading) :
    '\'' ∉ (p.write r).toList := by
  intro inside
  rw [Pattern.write, String.toList_ofList] at inside
  obtain ⟨part, among, inside⟩ := List.mem_flatMap.mp inside
  have other : part ≠ .mark '\'' := by
    rintro rfl
    exact plain among
  exact part.quote_not_mem_write r other inside

end Calendar

namespace Uuid

@[simp]
theorem quote_not_mem_hexDigits (bytes : List UInt8) : '\'' ∉ hexDigits bytes := by
  have other {n : Nat} (small : n < 16) : Json.hexDigit n ≠ '\'' := by
    intro same
    have value := Json.hexValue?_hexDigit small
    rw [same] at value
    cases value
  intro inside
  obtain ⟨b, -, digit⟩ := List.mem_flatMap.mp inside
  have bound := b.toNat_lt
  rcases List.mem_cons.mp digit with first | last
  · exact other (by omega) first.symm
  · exact other (by omega) (List.mem_singleton.mp last).symm

theorem quote_not_mem_text (u : Uuid) : '\'' ∉ u.text.toList := by
  simp [text, hyphenated]

end Uuid

/-! ## First characters -/

/-- JSON text starts with no single quote, though its strings may hold some. -/
theorem Json.head?_render_ne (v : Json) : (render v).head? ≠ some '\'' := by
  cases v with
  | null => decide
  | bool b => cases b <;> decide
  | integer i =>
    intro first
    exact Decimal.quote_not_mem_integer i.val (List.mem_of_head? first)
  | double x =>
    have exponents (e : Int) : '\'' ∉ (Decimal.Layout.data.exponentText e).toList := by
      simp only [Decimal.Layout.data]
      split <;> simp
    intro first
    exact Decimal.Layout.quote_not_mem_finite exponents x (List.mem_of_head? first)
  | text s => nofun
  | array items => nofun
  | object members => nofun

namespace Value

open Quoted

theorem quote_not_mem_realText (x : Double) : '\'' ∉ (realText x).toList := by
  unfold realText
  split
  · decide
  split
  · split <;> decide
  · exact Decimal.Layout.quote_not_mem_finite Decimal.quote_not_mem_integer x

/-- **Only text is shown with a single quote in front.** -/
theorem head?_display_eq_iff {v : Value} :
    v.display.toList.head? = some '\'' ↔ ∃ s, v = .text s := by
  have other {cs : List Char} (plain : '\'' ∉ cs) : cs.head? ≠ some '\'' :=
    fun first => plain (List.mem_of_head? first)
  cases v with
  | text s => exact iff_of_true (head?_quote '\'' s) ⟨s, rfl⟩
  | bool b => exact iff_of_false (by cases b <;> decide) nofun
  | int i => exact iff_of_false (other (Decimal.quote_not_mem_integer i.toInt)) nofun
  | real x => exact iff_of_false (other (quote_not_mem_realText x)) nofun
  | blob bytes => exact iff_of_false (other (by simp [display])) nofun
  | date d => exact iff_of_false (other (Calendar.Pattern.quote_not_mem_write (by decide) _)) nofun
  | time t => exact iff_of_false (other (Calendar.Pattern.quote_not_mem_write (by decide) _)) nofun
  | timestamp t =>
    exact iff_of_false (other (Calendar.Pattern.quote_not_mem_write (by decide) _)) nofun
  | uuid u => exact iff_of_false (other u.quote_not_mem_text) nofun
  | json j =>
    refine iff_of_false ?_ nofun
    rw [display, Json.compact, String.toList_ofList]
    exact j.head?_render_ne

/-- **A value is shown like a text only if it is that text.** -/
theorem display_eq_quote_iff {v : Value} {s : String} :
    v.display = quote '\'' s ↔ v = .text s := by
  constructor
  · intro same
    have first : v.display.toList.head? = some '\'' := by
      rw [same]
      exact head?_quote '\'' s
    obtain ⟨t, rfl⟩ := head?_display_eq_iff.mp first
    have read : unquote? '\'' (quote '\'' t) = some s := unquote?_eq_some_iff.mpr same
    rw [unquote?_eq_some_iff.mpr rfl] at read
    exact congrArg Value.text (Option.some.inj read)
  · rintro rfl
    rfl

/-- **A text value is shown as one literal.**  Between two single quotes stands the text with every
single quote of its own doubled, and undoing this gives the text back.  There is no placeholder in
it and no quote is left open, whatever the text holds.  A reader of literals takes all of it and
nothing of what follows, unless this is one more quote.  A value of any kind is shown alike only if
it is the same text. -/
theorem display_text_literal (s : String) :
    (∃ inner, (Value.text s).display.toList = '\'' :: (inner ++ ['\'']) ∧
      inner = s.toList.flatMap (fun c => if c = '\'' then ['\'', '\''] else [c]) ∧
      undouble? '\'' inner = some s.toList) ∧
    (Placeholder.count (Value.text s).display = 0 ∧
      Placeholder.Balanced (Value.text s).display) ∧
    (∀ rest : List Char, rest.head? ≠ some '\'' →
      readQuoted? '\'' ((Value.text s).display.toList ++ rest) = some (s.toList, rest)) ∧
    ∀ v : Value, v.display = (Value.text s).display ↔ v = .text s := by
  have neutral : Placeholder.Neutral (quote '\'' s) := Known.neutral_quote (.inl rfl) s
  refine ⟨⟨double '\'' s.toList, ?_, double_eq_flatMap '\'' s.toList, undouble?_double s.toList⟩,
    ⟨neutral.count, neutral.balanced⟩, fun rest ends => readQuoted?_quote s ends,
    fun v => display_eq_quote_iff⟩
  rw [display, quote, String.toList_ofList]

/-- Quotes of both kinds, a placeholder between them, and more of a statement behind the literal. -/
theorem display_text_literal_quotes :
    let v := Value.text "it's \"?\""
    v.display = "'it''s \"?\"'" ∧ Placeholder.count v.display = 0 ∧
      readQuoted? '\'' (v.display.toList ++ ", ?".toList) =
        some ("it's \"?\"".toList, ", ?".toList) ∧
      (Value.text "it''s \"?\"").display ≠ v.display := by
  intro v
  obtain ⟨-, ⟨count, -⟩, read, alike⟩ := display_text_literal "it's \"?\""
  refine ⟨by decide, count, read _ (by decide), fun same => ?_⟩
  exact absurd (Value.text.inj ((alike _).mp same)) (by decide)

end Value

end BoundSql
