import BoundSql.Proofs.Encoding
import BoundSql.Proofs.Placeholder
import Mathlib.Tactic.SplitIfs

/-!
# Scanning bytes

Placeholders can be counted on the bytes of a text without reading them as characters
(`Placeholder.scan`), with the open quote as a byte and a running count.

* **A scan goes on.**  What the next bytes add to the count depends on the open quote alone
  (`Scan.foldl_next`).  So a text is scanned part by part, each part from the quote that the ones
  before have left open (`scanFrom_append`).  The induction needs every quote and every count to
  start from.
* **Bytes and characters.**  Quotes and `?` take one byte, and all bytes of a character that takes
  more are at least `0x80` (`Utf8.high_of_mem_encodeChar`), so none of them is taken for a quote or
  a `?`.  Bytes and characters are scanned alike, from every quote that a scan can have open
  (`scanFrom_eq`).  The bytes are those of the core library (`Utf8.encode_eq`).
* **Marks.**  What a scan finds depends on the quotes and the `?` of a text and on their order
  (`scan_congr`).
-/

namespace BoundSql

/-! ## Bytes -/

namespace Utf8

/-- The bytes of a character are those of the core library. -/
theorem encodeChar_eq (c : Char) : encodeChar c = String.utf8EncodeChar c := by
  have valid : c.toNat < 0xD800 ∨ 0xDFFF < c.toNat ∧ c.toNat < 0x110000 := c.valid
  have value : c.val.toNat = c.toNat := rfl
  have same {m n : Nat} (h : m = n) : byte m = UInt8.ofNat n := congrArg UInt8.ofNat h
  -- One case for each number of bytes; the core library takes a remainder for the first byte.
  rw [encodeChar, String.utf8EncodeChar, value]
  split
  · rw [if_pos (by omega), same rfl]
  split
  · rw [if_neg (by omega), if_pos (by omega)]
    simp only [List.cons.injEq, and_true]
    exact ⟨same (by omega), same (by omega)⟩
  split
  · rw [if_neg (by omega), if_neg (by omega), if_pos (by omega)]
    simp only [List.cons.injEq, and_true]
    exact ⟨same (by omega), same (by omega), same (by omega)⟩
  · rw [if_neg (by omega), if_neg (by omega), if_neg (by omega)]
    simp only [List.cons.injEq, and_true]
    exact ⟨same (by omega), same (by omega), same (by omega), same (by omega)⟩

/-- The bytes of a text are those of the core library. -/
theorem encode_eq (s : String) : encode s = s.toUTF8.data.toList := by
  rw [String.toUTF8_eq_toByteArray, ← String.utf8Encode_toList, List.utf8Encode,
    List.toList_data_toByteArray, encode, funext encodeChar_eq]

/-- A character below `0x80` is its own byte. -/
theorem encodeChar_of_low {c : Char} (low : c.toNat < 0x80) : encodeChar c = [byte c.toNat] :=
  if_pos low

/-- The bytes of any other character are at least `0x80`. -/
theorem high_of_mem_encodeChar {c : Char} (high : 0x80 ≤ c.toNat) {b : UInt8}
    (inside : b ∈ encodeChar c) : 0x80 ≤ b.toNat := by
  have valid : c.toNat < 0xD800 ∨ 0xDFFF < c.toNat ∧ c.toNat < 0x110000 := c.valid
  have above {n : Nat} (least : 0x80 ≤ n) (small : n < 256) : 0x80 ≤ (byte n).toNat := by
    rwa [toNat_byte small]
  rw [encodeChar, if_neg (Nat.not_lt.mpr high)] at inside
  split at inside
  · simp only [List.mem_cons, List.not_mem_nil, or_false] at inside
    rcases inside with rfl | rfl <;> exact above (by omega) (by omega)
  split at inside
  · simp only [List.mem_cons, List.not_mem_nil, or_false] at inside
    rcases inside with rfl | rfl | rfl <;> exact above (by omega) (by omega)
  · simp only [List.mem_cons, List.not_mem_nil, or_false] at inside
    rcases inside with rfl | rfl | rfl | rfl <;> exact above (by omega) (by omega)

/-- ASCII characters are told apart by their bytes. -/
theorem byte_toNat_eq_iff {c : Char} (hc : c.toNat < 0x80) (d : Char) (hd : d.toNat < 0x80) :
    byte c.toNat = byte d.toNat ↔ c = d := by
  rw [← UInt8.toNat_inj, toNat_byte (Nat.lt_trans hc (by decide)),
    toNat_byte (Nat.lt_trans hd (by decide)), Char.toNat_inj]

end Utf8

namespace Placeholder

open Utf8

/-! ## A scan goes on -/

namespace Scan

/-- What one more byte adds does not depend on the count. -/
theorem next_eq (quote : UInt8) (n : Nat) (b : UInt8) :
    next ⟨quote, n⟩ b = ⟨(next ⟨quote, 0⟩ b).quote, n + (next ⟨quote, 0⟩ b).count⟩ := by
  unfold next
  split_ifs <;> rfl

/-- What more bytes add does not depend on the count. -/
theorem foldl_next (quote : UInt8) (n : Nat) (bytes : List UInt8) :
    bytes.foldl next ⟨quote, n⟩ =
      ⟨(bytes.foldl next ⟨quote, 0⟩).quote, n + (bytes.foldl next ⟨quote, 0⟩).count⟩ := by
  induction bytes generalizing quote n with
  | nil => rfl
  | cons b bytes ih =>
    rw [List.foldl_cons, List.foldl_cons, next_eq]
    generalize next ⟨quote, 0⟩ b = after
    obtain ⟨left, found⟩ := after
    rw [ih left (n + found), ih left found, Nat.add_assoc]

end Scan

/-- **Parts are scanned in turn**, each from the quote that the ones before have left open. -/
theorem scanFrom_append (quote : UInt8) (a b : String) :
    scanFrom quote (a ++ b) =
      ⟨(scanFrom (scanFrom quote a).quote b).quote,
        (scanFrom quote a).count + (scanFrom (scanFrom quote a).quote b).count⟩ := by
  have bytes : (a ++ b).toUTF8.data.toList = a.toUTF8.data.toList ++ b.toUTF8.data.toList := by
    simp [String.toUTF8_eq_toByteArray, ByteArray.data_append]
  rw [scanFrom, bytes, List.foldl_append, ← scanFrom, Scan.foldl_next]
  rfl

/-! ## Bytes and characters -/

/-- The byte that stands for the open quote; zero when there is none. -/
def quoteByte : Option Char → UInt8
  | none => 0
  | some q => byte q.toNat

/-- An open quote is an ASCII character other than NUL. -/
theorem Reached.ascii {q : Char} (h : Reached (some q)) :
    q.toNat < 0x80 ∧ (quoteByte (some q)).toNat < 0x80 ∧ quoteByte (some q) ≠ 0 := by
  rcases h q rfl with rfl | rfl <;> decide

/-- Zero is the byte of no quote. -/
theorem quoteByte_eq_zero_iff {state : Option Char} (h : Reached state) :
    quoteByte state = 0 ↔ state = none := by
  cases state with
  | none => exact iff_of_true rfl rfl
  | some q => exact iff_of_false h.ascii.2.2 nofun

namespace Scan

theorem next_outside (n : Nat) (b : UInt8) :
    next ⟨quoteByte none, n⟩ b =
      if b = 0x27 ∨ b = 0x22 then ⟨b, n⟩ else if b = 0x3F then ⟨0, n + 1⟩ else ⟨0, n⟩ :=
  if_neg (not_not_intro rfl)

theorem next_inside {q : Char} (h : Reached (some q)) (n : Nat) (b : UInt8) :
    next ⟨quoteByte (some q), n⟩ b =
      if b = quoteByte (some q) then ⟨0, n⟩ else ⟨quoteByte (some q), n⟩ :=
  if_pos h.ascii.2.2

/-- A byte of at least `0x80` changes no scan. -/
theorem next_of_high {state : Option Char} (h : Reached state) (n : Nat) {b : UInt8}
    (high : 0x80 ≤ b.toNat) : next ⟨quoteByte state, n⟩ b = ⟨quoteByte state, n⟩ := by
  have other {m : UInt8} (low : m.toNat < 0x80) : b ≠ m := by
    rintro rfl
    exact Nat.not_lt.mpr high low
  cases state with
  | none =>
    have noQuote : ¬ (b = 0x27 ∨ b = 0x22) := by
      rintro (single | double)
      · exact other (by decide) single
      · exact other (by decide) double
    rw [next_outside, if_neg noQuote, if_neg (other (by decide))]
    rfl
  | some q => rw [next_inside h, if_neg (other h.ascii.2.1)]

theorem foldl_next_of_high {state : Option Char} (h : Reached state) (n : Nat) {bytes : List UInt8}
    (high : ∀ b ∈ bytes, 0x80 ≤ b.toNat) :
    bytes.foldl next ⟨quoteByte state, n⟩ = ⟨quoteByte state, n⟩ := by
  induction bytes with
  | nil => rfl
  | cons b bytes ih =>
    rw [List.foldl_cons, next_of_high h n (high b List.mem_cons_self)]
    exact ih fun c hc => high c (List.mem_cons_of_mem b hc)

/-- The byte of an ASCII character does what the character does. -/
theorem next_of_low {state : Option Char} (h : Reached state) (n : Nat) {c : Char}
    (low : c.toNat < 0x80) :
    next ⟨quoteByte state, n⟩ (byte c.toNat) =
      ⟨quoteByte (step state c), n + if state = none ∧ c = '?' then 1 else 0⟩ := by
  cases state with
  | none =>
    have single : byte c.toNat = 0x27 ↔ c = '\'' := byte_toNat_eq_iff low '\'' (by decide)
    have double : byte c.toNat = 0x22 ↔ c = '"' := byte_toNat_eq_iff low '"' (by decide)
    have slot : byte c.toNat = 0x3F ↔ c = '?' := byte_toNat_eq_iff low '?' (by decide)
    simp only [next_outside, step, single, double, slot]
    split_ifs <;> grind [quoteByte]
  | some q =>
    have same : byte c.toNat = quoteByte (some q) ↔ c = q :=
      byte_toNat_eq_iff low q h.ascii.1
    simp only [next_inside h, step, same]
    split_ifs <;> grind [quoteByte]

/-- **One character** does to a scan by its bytes what it does to the state and to the count. -/
theorem foldl_next_encodeChar {state : Option Char} (h : Reached state) (n : Nat) (c : Char) :
    (encodeChar c).foldl next ⟨quoteByte state, n⟩ =
      ⟨quoteByte (step state c), n + if state = none ∧ c = '?' then 1 else 0⟩ := by
  by_cases low : c.toNat < 0x80
  · rw [encodeChar_of_low low]
    exact next_of_low h n low
  · have high : 0x80 ≤ c.toNat := Nat.le_of_not_lt low
    have noQuote : c ≠ '\'' ∧ c ≠ '"' := by
      constructor <;> (rintro rfl; exact low (by decide))
    have noSlot : ¬ (state = none ∧ c = '?') := by
      rintro ⟨-, rfl⟩
      exact low (by decide)
    rw [step_of_not_quote h noQuote, if_neg noSlot]
    exact foldl_next_of_high h n fun b inside => high_of_mem_encodeChar high inside

theorem foldl_next_flatMap {state : Option Char} (h : Reached state) (n : Nat) (cs : List Char) :
    (cs.flatMap encodeChar).foldl next ⟨quoteByte state, n⟩ =
      ⟨quoteByte (stateAfter state cs), n + countFrom state cs⟩ := by
  induction cs generalizing state n with
  | nil => rfl
  | cons c cs ih =>
    rw [List.flatMap_cons, List.foldl_append, foldl_next_encodeChar h, ih (reached_step h c),
      countFrom, Nat.add_assoc]
    rfl

end Scan

/-- **Bytes and characters are scanned alike**, from every quote that can be open. -/
theorem scanFrom_eq {state : Option Char} (h : Reached state) (s : String) :
    scanFrom (quoteByte state) s =
      ⟨quoteByte (stateAfter state s.toList), countFrom state s.toList⟩ := by
  rw [scanFrom, ← encode_eq, encode, Scan.foldl_next_flatMap h, Nat.zero_add]

theorem scan_eq (s : String) : scan s = ⟨quoteByte (stateAfter none s.toList), count s⟩ :=
  scanFrom_eq reached_none s

theorem quote_scan_eq_zero_iff (s : String) : (scan s).quote = 0 ↔ Balanced s := by
  rw [scan_eq]
  exact quoteByte_eq_zero_iff (reached_stateAfter reached_none s.toList)

theorem Aligned.scan_eq {s : String} {n : Nat} (h : Aligned s n) : scan s = ⟨0, n⟩ := by
  have closed : stateAfter none s.toList = none := h.balanced
  rw [Placeholder.scan_eq, closed, h.count]
  rfl

/-! ## Marks -/

/-- Whether a character is a quote or a `?`. -/
def isMark (c : Char) : Bool :=
  c == '?' || c == '\'' || c == '"'

/-- The quotes and the `?` of a text, in order. -/
def marks (s : String) : List Char :=
  s.toList.filter isMark

/-- The state after a text, and its count, are those of its marks. -/
theorem stateAfter_filter {state : Option Char} (h : Reached state) (cs : List Char) :
    stateAfter state (cs.filter isMark) = stateAfter state cs ∧
      countFrom state (cs.filter isMark) = countFrom state cs := by
  induction cs generalizing state with
  | nil => exact ⟨rfl, rfl⟩
  | cons c cs ih =>
    obtain ⟨same, found⟩ := ih (reached_step h c)
    cases mark : isMark c with
    | true =>
      rw [List.filter_cons_of_pos mark]
      refine ⟨same, ?_⟩
      rw [countFrom, countFrom, found]
    | false =>
      have dropped : (c :: cs).filter isMark = cs.filter isMark :=
        List.filter_cons_of_neg (by simp [mark])
      simp only [isMark, Bool.or_eq_false_iff, beq_eq_false_iff_ne] at mark
      obtain ⟨⟨noSlot, noSingle⟩, noDouble⟩ := mark
      have unchanged : step state c = state := step_of_not_quote h ⟨noSingle, noDouble⟩
      rw [unchanged] at same found
      rw [dropped]
      constructor
      · rw [same, stateAfter, stateAfter, List.foldl_cons, unchanged]
      · rw [found, countFrom, unchanged, if_neg fun slot => noSlot slot.2, Nat.zero_add]

/-- **A scan sees nothing but marks.** -/
theorem scan_congr {s t : String} (same : marks s = marks t) : scan s = scan t := by
  have found (u : String) :
      scan u = ⟨quoteByte (stateAfter none (marks u)), countFrom none (marks u)⟩ := by
    obtain ⟨state, number⟩ := stateAfter_filter reached_none u.toList
    rw [scan_eq, marks, state, number, count]
  rw [found, found, same]

/-- A text without marks may be put in anywhere. -/
theorem marks_insert {a more b : String} (plain : marks more = []) :
    marks (a ++ more ++ b) = marks (a ++ b) := by
  simp only [marks, String.toList_append, List.filter_append] at plain ⊢
  rw [plain, List.append_nil]

/-! ## Balanced texts -/

/-- Balanced texts in a row are balanced, and their placeholders add up. -/
theorem scan_join {texts : List String} (balanced : ∀ t ∈ texts, (scan t).quote = 0) :
    scan (String.join texts) = ⟨0, (texts.map fun t => (scan t).count).sum⟩ := by
  induction texts with
  | nil => rfl
  | cons t texts ih =>
    have first : (scanFrom 0 t).quote = 0 := balanced t List.mem_cons_self
    have others := ih fun u hu => balanced u (List.mem_cons_of_mem t hu)
    rw [scan] at others
    rw [String.join_cons, scan, scanFrom_append, first, others, List.map_cons, List.sum_cons]
    rfl

/-- **The scan of bytes is compositional.**  A text in two parts is scanned as the first part and
then, from the quote that this leaves open, the second; so behind a balanced text counts add up, and
balanced texts in a row are balanced.  Bytes and characters are scanned alike, from every quote that
can be open: the same one is open in the end, and there are as many placeholders.  As many `?` as
wanted, with commas between them, are as many placeholders.  Other characters than quotes and `?`
may be put in anywhere, and any two texts with the same quotes and `?` in the same order have the
same scan. -/
theorem scan_composes (a b : String) :
    (∀ quote, scanFrom quote (a ++ b) =
      ⟨(scanFrom (scanFrom quote a).quote b).quote,
        (scanFrom quote a).count + (scanFrom (scanFrom quote a).quote b).count⟩) ∧
    ((scan a).quote = 0 → (scan (a ++ b)).count = (scan a).count + (scan b).count) ∧
    (∀ texts : List String, (∀ t ∈ texts, (scan t).quote = 0) →
      scan (String.join texts) = ⟨0, (texts.map fun t => (scan t).count).sum⟩) ∧
    ((scan a).count = count a ∧ ((scan a).quote = 0 ↔ Balanced a) ∧
      ∀ state, Reached state → scanFrom (quoteByte state) a =
        ⟨quoteByte (stateAfter state a.toList), countFrom state a.toList⟩) ∧
    (∀ n, scan (String.intercalate ", " (List.replicate n "?")) = ⟨0, n⟩) ∧
    (∀ more : String, (∀ c ∈ more.toList, c ≠ '?' ∧ c ≠ '\'' ∧ c ≠ '"') →
      scan (a ++ more ++ b) = scan (a ++ b)) ∧
    ∀ other, marks other = marks a → scan other = scan a := by
  refine ⟨fun quote => scanFrom_append quote a b, fun balanced => ?_, fun texts => scan_join,
    ⟨congrArg Scan.count (scan_eq a), quote_scan_eq_zero_iff a, fun state h => scanFrom_eq h a⟩,
    fun n => (aligned_replicate n).scan_eq, fun more plain => scan_congr (marks_insert ?_),
    fun other => scan_congr⟩
  · rw [scan] at balanced
    rw [scan, scanFrom_append, balanced]
    rfl
  · rw [marks, List.filter_eq_nil_iff]
    intro c inside
    simpa [isMark, and_assoc] using plain c inside

/-- A placeholder inside quotes; scanned from inside quotes, it is the only one outside. -/
theorem scan_composes_quoted :
    let a := "A = '?' AND B = ?"
    let b := " OR C = ?"
    scan a = ⟨0, 1⟩ ∧ (scan (a ++ b)).count = (scan a).count + (scan b).count ∧
      scan (String.join [a, b, "''"]) = ⟨0, 2⟩ ∧
      scanFrom 0x27 a = ⟨quoteByte (some '\''), 1⟩ ∧
      scan (a ++ " AND É = 1" ++ b) = scan (a ++ b) ∧ scan "É'?'?" = scan a := by
  intro a b
  have balanced : ∀ t ∈ [a, b, "''"], (scan t).quote = 0 := by decide
  have single : Reached (some '\'') := by
    rintro q ⟨⟩
    exact .inl rfl
  obtain ⟨-, sum, join, ⟨-, -, alike⟩, -, insert, marks⟩ := scan_composes a b
  refine ⟨by decide, sum (by decide), (join _ balanced).trans (by decide), ?_,
    insert _ (by simp), marks _ (by decide)⟩
  exact (alike _ single).trans (by decide)

/-- An accented letter is two bytes, and neither of them is a quote. -/
example : scan "É = ? AND \"É'?\" = ?" = ⟨0, 2⟩ := by decide

end Placeholder

end BoundSql
