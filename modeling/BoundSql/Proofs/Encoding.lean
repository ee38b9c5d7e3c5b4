import BoundSql.Uuid
import Mathlib.Algebra.GroupWithZero.Nat

/-!
# Texts that are read back

What is written in bytes or digits is read back from them: characters from UTF-8
(`Utf8.decode_encode`), natural numbers from their decimal digits (`Decimal.ofDigits_digits`), also
with zeros in front (`Decimal.ofDigits_paddedDigits`), bytes from pairs of hexadecimal digits
(`Uuid.bytesOfHex?_hexDigits`), and UUIDs from their hyphenated form (`Uuid.read_text`).

A reader takes as many characters of a kind as there are, so what it finds also depends on how the
text goes on.  `Text.Avoids` says that a text does not go on with a character of a kind; this is
what the readers of calendar text and of JSON need to know of the rest.
-/

namespace BoundSql.Text

/-! ## How a text goes on -/

/-- A text does not start with a character of a kind. -/
def Avoids (kind : Char → Bool) (cs : List Char) : Prop :=
  ∀ c ∈ cs.head?, kind c = false

theorem avoids_cons {kind : Char → Bool} {c : Char} {cs : List Char} (other : kind c = false) :
    Avoids kind (c :: cs) := by
  intro d first
  cases first
  exact other

theorem avoids_nil {kind : Char → Bool} : Avoids kind [] :=
  fun _ => nofun

theorem dropWhile_of_avoids {kind : Char → Bool} {cs : List Char} (avoids : Avoids kind cs) :
    cs.dropWhile kind = cs := by
  cases cs with
  | nil => rfl
  | cons c cs => rw [List.dropWhile_cons, avoids c rfl]; rfl

theorem takeWhile_of_avoids {kind : Char → Bool} {cs : List Char} (avoids : Avoids kind cs) :
    cs.takeWhile kind = [] := by
  cases cs with
  | nil => rfl
  | cons c cs => rw [List.takeWhile_cons, avoids c rfl]; rfl

theorem takeWhile_append_of_avoids {kind : Char → Bool} {ds rest : List Char}
    (all : ∀ c ∈ ds, kind c = true) (avoids : Avoids kind rest) :
    (ds ++ rest).takeWhile kind = ds := by
  rw [List.takeWhile_append_of_pos all, takeWhile_of_avoids avoids, List.append_nil]

theorem dropWhile_append_of_avoids {kind : Char → Bool} {ds rest : List Char}
    (all : ∀ c ∈ ds, kind c = true) (avoids : Avoids kind rest) :
    (ds ++ rest).dropWhile kind = rest := by
  rw [List.dropWhile_append_of_pos all, dropWhile_of_avoids avoids]

theorem Avoids.take {kind : Char → Bool} {cs : List Char} (avoids : Avoids kind cs) (n : Nat) :
    Avoids kind (cs.take n) := by
  intro c first
  refine avoids c ?_
  cases n with
  | zero => cases first
  | succ n => cases cs <;> exact first

/-- A run of characters of a kind is found among the first characters of a text that holds it. -/
theorem takeWhile_take {kind : Char → Bool} {ds rest : List Char} {width : Nat}
    (all : ∀ c ∈ ds, kind c = true) (fits : ds.length ≤ width)
    (avoids : Avoids kind (rest.take (width - ds.length))) :
    ((ds ++ rest).take width).takeWhile kind = ds := by
  rw [List.take_append, List.take_of_length_le fits]
  exact takeWhile_append_of_avoids all avoids

end BoundSql.Text

namespace BoundSql.Utf8

/-! ## Bytes -/

theorem toNat_byte {n : Nat} (small : n < 256) : (byte n).toNat = n :=
  UInt8.toNat_ofNat_of_lt' small

/-- The lead byte of a character of one byte; then of two, three and four. -/
theorem lead?_one {n : Nat} (small : n < 0x80) : lead? (byte n) = some ⟨0, 0x80, 0xBF, n⟩ := by
  rw [lead?, toNat_byte (by omega)]
  exact if_pos small

theorem lead?_two {n : Nat} (low : 2 ≤ n) (high : n < 32) :
    lead? (byte (0xC0 + n)) = some ⟨1, 0x80, 0xBF, n⟩ := by
  rw [lead?, toNat_byte (by omega)]
  grind

theorem lead?_three {n : Nat} (high : n < 16) :
    lead? (byte (0xE0 + n)) =
      some ⟨2, if n = 0 then 0xA0 else 0x80, if n = 0x0D then 0x9F else 0xBF, n⟩ := by
  rw [lead?, toNat_byte (by omega)]
  grind

theorem lead?_four {n : Nat} (high : n ≤ 4) :
    lead? (byte (0xF0 + n)) =
      some ⟨3, if n = 0 then 0x90 else 0x80, if n = 4 then 0x8F else 0xBF, n⟩ := by
  rw [lead?, toNat_byte (by omega)]
  grind

/-- A continuation byte that is not the last of its character. -/
theorem decodeFrom_more (index : Nat) {u : Unfinished} {n : Nat} (rest : List UInt8)
    (small : n < 64) (low : u.low ≤ 0x80 + n) (high : 0x80 + n ≤ u.high) (more : u.owed ≠ 1) :
    decodeFrom index (some u) (byte (0x80 + n) :: rest) =
      decodeFrom (index + 1)
        (some ⟨u.start, u.seen + 1, u.owed - 1, 0x80, 0xBF, u.code * 64 + n⟩) rest := by
  have value : (0x80 + n) % 64 = n := by omega
  rw [decodeFrom, toNat_byte (by omega), if_pos ⟨low, high⟩, value]
  exact if_neg more

/-- The last byte of a character. -/
theorem decodeFrom_last (index : Nat) {u : Unfinished} {n : Nat} (rest : List UInt8)
    (small : n < 64) (low : u.low ≤ 0x80 + n) (high : 0x80 + n ≤ u.high) (last : u.owed = 1) :
    decodeFrom index (some u) (byte (0x80 + n) :: rest) =
      (decodeFrom (index + 1) none rest).map (Char.ofNat (u.code * 64 + n) :: ·) := by
  have value : (0x80 + n) % 64 = n := by omega
  rw [decodeFrom, toNat_byte (by omega), if_pos ⟨low, high⟩, value]
  exact if_pos last

/-- The first byte of a character of more than one. -/
theorem decodeFrom_first (index : Nat) {b : UInt8} {l : Lead} (rest : List UInt8)
    (lead : lead? b = some l) (more : l.owed ≠ 0) :
    decodeFrom index none (b :: rest) =
      decodeFrom (index + 1) (some ⟨index, 1, l.owed, l.low, l.high, l.bits⟩) rest := by
  rw [decodeFrom, lead]
  exact if_neg more

/-- **One character** is read back from its bytes. -/
theorem decodeFrom_encodeChar (index : Nat) (c : Char) (rest : List UInt8) :
    decodeFrom index none (encodeChar c ++ rest) =
      (decodeFrom (index + (encodeChar c).length) none rest).map (c :: ·) := by
  have valid : c.toNat < 0xD800 ∨ 0xDFFF < c.toNat ∧ c.toNat < 0x110000 := c.valid
  have char : Char.ofNat c.toNat = c := Char.ofNat_toNat c
  rw [encodeChar]
  generalize c.toNat = n at valid char
  subst char
  -- One case for each number of bytes.  Only three and four have first continuation bytes with
  -- bounds of their own, which surrogates and numbers past the last character would break.
  by_cases one : n < 0x80
  · simp only [one, if_true]
    rw [List.singleton_append, decodeFrom, lead?_one one]
    rfl
  by_cases two : n < 0x800
  · simp only [one, two, if_true, if_false]
    rw [List.cons_append, List.singleton_append,
      decodeFrom_first _ _ (lead?_two (by omega) (by omega)) (by simp),
      decodeFrom_last _ _ (by omega) (by simp) (by simp; omega) rfl]
    have code : n / 64 * 64 + n % 64 = n := by omega
    rw [code]
    rfl
  by_cases three : n < 0x10000
  · simp only [one, two, three, if_true, if_false]
    rw [List.cons_append, List.cons_append, List.singleton_append,
      decodeFrom_first _ _ (lead?_three (by omega)) (by simp),
      decodeFrom_more _ _ (by omega) (by grind) (by grind) (by simp),
      decodeFrom_last _ _ (by omega) (by simp) (by simp; omega) rfl]
    have code : (n / 4096 * 64 + n / 64 % 64) * 64 + n % 64 = n := by omega
    rw [code]
    rfl
  · simp only [one, two, three, if_false]
    rw [List.cons_append, List.cons_append, List.cons_append, List.singleton_append,
      decodeFrom_first _ _ (lead?_four (by omega)) (by simp),
      decodeFrom_more _ _ (by omega) (by grind) (by grind) (by simp),
      decodeFrom_more _ _ (by omega) (by simp) (by simp; omega) (by simp),
      decodeFrom_last _ _ (by omega) (by simp) (by simp; omega) rfl]
    have code : ((n / 262144 * 64 + n / 4096 % 64) * 64 + n / 64 % 64) * 64 + n % 64 = n := by
      omega
    rw [code]
    rfl

/-- Characters are read back from their bytes, wherever these begin. -/
theorem decodeFrom_encode (index : Nat) (cs : List Char) :
    decodeFrom index none (cs.flatMap encodeChar) = .ok cs := by
  induction cs generalizing index with
  | nil => rfl
  | cons c cs ih =>
    rw [List.flatMap_cons, decodeFrom_encodeChar, ih]
    rfl

/-- **A text is read back from its bytes.** -/
theorem decode_encode (s : String) : decode (encode s) = .ok s := by
  rw [decode, encode, decodeFrom_encode]
  exact congrArg Except.ok String.ofList_toList

end BoundSql.Utf8

namespace BoundSql.Decimal

/-! ## Digits -/

/-- Digits are worth what the library says. -/
theorem ofDigitsFrom_eq (acc : Nat) (cs : List Char) :
    ofDigitsFrom acc cs = Nat.ofDigitChars 10 cs acc := by
  rw [ofDigitsFrom, Nat.ofDigitChars_eq_foldl]
  simp only [digitValue, Nat.mul_comm]

theorem ofDigits_digits (n : Nat) : ofDigits (digits n) = n := by
  rw [ofDigits, ofDigitsFrom_eq]
  exact Nat.ofDigitChars_ten_toDigits

theorem isDigit_of_mem_digits {n : Nat} {c : Char} (inside : c ∈ digits n) : isDigit c = true :=
  Nat.isDigit_of_mem_toDigits (by decide) (by decide) inside

theorem ofDigits_paddedDigits (width n : Nat) : ofDigits (paddedDigits width n) = n := by
  rw [paddedDigits, ofDigits, ofDigitsFrom_append, ofDigitsFrom_eq 0,
    Nat.ofDigitChars_replicate_zero, Nat.mul_zero]
  exact ofDigits_digits n

theorem isDigit_of_mem_paddedDigits {width n : Nat} {c : Char} (inside : c ∈ paddedDigits width n) :
    isDigit c = true := by
  rcases List.mem_append.mp inside with zero | digit
  · rw [List.eq_of_mem_replicate zero]
    rfl
  · exact isDigit_of_mem_digits digit

theorem digits_ne_nil (n : Nat) : digits n ≠ [] :=
  Nat.toDigits_ne_nil

/-- Digits start with a digit. -/
theorem exists_digits_cons (n : Nat) : ∃ d ds, digits n = d :: ds ∧ isDigit d = true := by
  obtain ⟨d, ds, written⟩ := List.exists_cons_of_ne_nil (digits_ne_nil n)
  exact ⟨d, ds, written, isDigit_of_mem_digits (written ▸ List.mem_cons_self)⟩

/-- **A natural number is read back** from its text. -/
theorem natural?_natural (n : Nat) : natural? (natural n) = some n := by
  have written : digits n ≠ [] ∧ (digits n).all isDigit :=
    ⟨digits_ne_nil n, List.all_eq_true.mpr fun _ inside => isDigit_of_mem_digits inside⟩
  rw [natural?, natural, String.toList_ofList, if_pos written, ofDigits_digits]

theorem toList_integer_of_neg {i : Int} (negative : i < 0) :
    (integer i).toList = '-' :: digits i.natAbs := by
  rw [integer, if_pos negative, String.toList_append, natural]
  exact congrArg ('-' :: ·) String.toList_ofList

theorem toList_integer_of_not_neg {i : Int} (positive : ¬ i < 0) :
    (integer i).toList = digits i.natAbs := by
  rw [integer, if_neg positive, natural, String.toList_ofList]

theorem paddedDigits_ne_nil (width n : Nat) : paddedDigits width n ≠ [] :=
  List.append_ne_nil_of_right_ne_nil _ (digits_ne_nil n)

theorem exists_paddedDigits_cons (width n : Nat) :
    ∃ d ds, paddedDigits width n = d :: ds ∧ isDigit d = true := by
  obtain ⟨d, ds, written⟩ := List.exists_cons_of_ne_nil (paddedDigits_ne_nil width n)
  exact ⟨d, ds, written, isDigit_of_mem_paddedDigits (written ▸ List.mem_cons_self)⟩

theorem length_paddedDigits {width n : Nat} (wide : 0 < width) (small : n < 10 ^ width) :
    (paddedDigits width n).length = width := by
  have fits : (digits n).length ≤ width := (Nat.length_toDigits_le_iff (by decide) wide).mpr small
  simp [paddedDigits, fits]

end BoundSql.Decimal

namespace BoundSql

/-! ## Hexadecimal digits -/

theorem Json.hexValue?_hexDigit {n : Nat} (small : n < 16) : hexValue? (hexDigit n) = some n := by
  have all : ∀ n < 16, hexValue? (hexDigit n) = some n := by decide
  exact all n small

theorem Json.utf8Size_hexDigit {n : Nat} (small : n < 16) : (hexDigit n).utf8Size = 1 := by
  have all : ∀ n < 16, (hexDigit n).utf8Size = 1 := by decide
  exact all n small

/-- Characters of one byte each take as many bytes as there are. -/
theorem Utf8.length_eq_length {cs : List Char} (single : ∀ c ∈ cs, c.utf8Size = 1) :
    Utf8.length cs = cs.length := by
  induction cs with
  | nil => rfl
  | cons c cs ih =>
    rw [Utf8.length, single c List.mem_cons_self, List.length_cons,
      ih fun d inside => single d (List.mem_cons_of_mem c inside), Nat.add_comm]

namespace Uuid

open Json

/-- Bytes are read back from their digits. -/
theorem bytesOfHex?_hexDigits (bytes : List UInt8) :
    bytesOfHex? (hexDigits bytes) = some bytes := by
  induction bytes with
  | nil => rfl
  | cons b bytes ih =>
    have bound := b.toNat_lt
    have pair : hexDigits (b :: bytes) =
        hexDigit (b.toNat / 16) :: hexDigit (b.toNat % 16) :: hexDigits bytes := rfl
    have byte : UInt8.ofNat (b.toNat / 16 * 16 + b.toNat % 16) = b := by
      rw [Nat.div_add_mod']
      exact UInt8.ofNat_toNat
    rw [pair, bytesOfHex?, hexValue?_hexDigit (by omega), hexValue?_hexDigit (by omega), ih]
    exact congrArg (fun b => some (b :: bytes)) byte

/-- A UUID written out. -/
theorem exists_bytes (u : Uuid) : ∃ a b c d e f g h i j k l m n o p,
    u.bytes = [a, b, c, d, e, f, g, h, i, j, k, l, m, n, o, p] := by
  obtain ⟨bytes, length⟩ := u
  match bytes, length with
  | [a, b, c, d, e, f, g, h, i, j, k, l, m, n, o, p], _ =>
    exact ⟨a, b, c, d, e, f, g, h, i, j, k, l, m, n, o, p, rfl⟩

/-- The hyphens of the hyphenated form are taken out again. -/
theorem withoutHyphens?_hyphenated (u : Uuid) :
    withoutHyphens? u.hyphenated = some (hexDigits u.bytes) := by
  obtain ⟨a, b, c, d, e, f, g, h, i, j, k, l, m, n, o, p, bytes⟩ := u.exists_bytes
  rw [hyphenated, bytes]
  exact if_pos ⟨rfl, rfl⟩

theorem utf8Size_of_mem_hexDigits {bytes : List UInt8} {c : Char} (inside : c ∈ hexDigits bytes) :
    c.utf8Size = 1 := by
  obtain ⟨b, -, digit⟩ := List.mem_flatMap.mp inside
  have bound := b.toNat_lt
  rcases List.mem_cons.mp digit with rfl | last
  · exact utf8Size_hexDigit (by omega)
  · rw [List.mem_singleton.mp last]
    exact utf8Size_hexDigit (by omega)

theorem utf8_length_hyphenated (u : Uuid) : Utf8.length u.hyphenated = 36 := by
  have single : ∀ c ∈ u.hyphenated, c.utf8Size = 1 := by
    intro c inside
    simp only [hyphenated, List.mem_append, List.mem_cons] at inside
    rcases inside with digit | rfl | digit | rfl | digit | rfl | digit | rfl | digit
    all_goals first | exact utf8Size_of_mem_hexDigits digit | rfl
  rw [Utf8.length_eq_length single]
  obtain ⟨a, b, c, d, e, f, g, h, i, j, k, l, m, n, o, p, bytes⟩ := u.exists_bytes
  rw [hyphenated, bytes]
  rfl

/-- **A UUID is read back from its text.** -/
theorem read_text (u : Uuid) : read u.text = .ok u := by
  have digits : ofDigits? (hexDigits u.bytes) = some u := by
    rw [ofDigits?, bytesOfHex?_hexDigits]
    exact dif_pos u.length_eq
  have whole : ofHyphenated? u.hyphenated = some u := by
    rw [ofHyphenated?, withoutHyphens?_hyphenated]
    exact digits
  have part : hyphenatedPart? u.hyphenated = some u.hyphenated := by
    rw [hyphenatedPart?, utf8_length_hyphenated]
    rfl
  rw [read, text, String.toList_ofList, part]
  simp only [whole]

end Uuid

end BoundSql
