import BoundSql.Proofs.Encoding

/-!
# The order of texts

Bytes are compared one after the other, and a text that is the start of another comes first.  Three
ways of writing keep an order under this comparison.

* UTF-8 keeps the order of texts by their characters (`Utf8.compare_encode`).
* Digits keep the order of numbers when there are equally many (`Decimal.compare_paddedDigits`).
* A list of numbers may be written without the zeros at its end, if a shorter list is understood to
  go on with zeros (`compare_trimmed`).  This is how a fraction is written with the fewest digits.

Everything is put together by two laws, which turn a comparison of what stands side by side into
comparisons of the sides: `compare_append` for lists and `compare_mul_add` for numbers.
-/

namespace BoundSql

/-! ## Sides -/

/-- Of lists with starts of equal length, the starts are compared first. -/
theorem compare_append {α : Type*} [Ord α] {a b : List α} (same : a.length = b.length)
    (x y : List α) : compare (a ++ x) (b ++ y) = (compare a b).then (compare x y) := by
  induction a generalizing b with
  | nil =>
    cases b with
    | nil => rfl
    | cons d b => cases same
  | cons c a ih =>
    cases b with
    | nil => cases same
    | cons d b =>
      rw [List.cons_append, List.cons_append, List.compare_cons_cons, List.compare_cons_cons,
        ih (Nat.succ.inj same), Ordering.then_assoc]

theorem compare_add_left (k m n : Nat) : compare (k + m) (k + n) = compare m n := by
  rw [Nat.compare_eq_ite_lt, Nat.compare_eq_ite_lt]
  simp only [Nat.add_lt_add_iff_left]

/-- Numbers that two comparisons in turn settle. -/
theorem then_compare_eq {m n c d k l : Nat} (less : m < n → k < l) (more : n < m → l < k)
    (same : m = n → compare c d = compare k l) :
    (compare m n).then (compare c d) = compare k l := by
  rcases Nat.lt_trichotomy m n with h | h | h
  · rw [Nat.compare_eq_lt.mpr h, Nat.compare_eq_lt.mpr (less h)]
    rfl
  · rw [h, Std.ReflOrd.compare_self, Ordering.eq_then, same h]
  · rw [Nat.compare_eq_gt.mpr h, Nat.compare_eq_gt.mpr (more h)]
    rfl

/-- In a place after another, a greater number outweighs every digit of the base. -/
theorem mul_add_lt {base m n c : Nat} (hc : c < base) (less : m < n) (d : Nat) :
    m * base + c < n * base + d := by
  have gap : (m + 1) * base ≤ n * base := Nat.mul_le_mul_right base less
  rw [Nat.add_mul, Nat.one_mul] at gap
  omega

/-- Of numbers in two places, the high places are compared first. -/
theorem compare_mul_add {base m n c d : Nat} (hc : c < base) (hd : d < base) :
    compare (m * base + c) (n * base + d) = (compare m n).then (compare c d) := by
  refine (then_compare_eq (fun less => mul_add_lt hc less d) (fun more => mul_add_lt hd more c)
    fun same => ?_).symm
  rw [same, compare_add_left]

/-- A list with a mark in front, unless there is nothing to mark. -/
def marked {α : Type*} (mark : α) : List α → List α
  | [] => []
  | x :: xs => mark :: x :: xs

theorem marked_of_ne_nil {α : Type*} (mark : α) {xs : List α} (h : xs ≠ []) :
    marked mark xs = mark :: xs := by
  cases xs with
  | nil => exact absurd rfl h
  | cons x xs => rfl

/-- A mark makes no difference. -/
theorem compare_marked {α : Type*} [Ord α] [Std.ReflOrd α] (mark : α) (xs ys : List α) :
    compare (marked mark xs) (marked mark ys) = compare xs ys := by
  cases xs with
  | nil => cases ys <;> rfl
  | cons x xs =>
    cases ys with
    | nil => rfl
    | cons y ys =>
      rw [marked, marked, List.compare_cons_cons, Std.ReflOrd.compare_self, Ordering.eq_then]

/-- A list without the zeros at its end. -/
def trimmed : List Nat → List Nat
  | [] => []
  | n :: ns => if n = 0 ∧ trimmed ns = [] then [] else n :: trimmed ns

theorem trimmed_isPrefix (ns : List Nat) : trimmed ns <+: ns := by
  induction ns with
  | nil => exact List.prefix_rfl
  | cons n ns ih =>
    rw [trimmed]
    split
    · exact List.nil_prefix
    · exact List.cons_prefix_cons.mpr ⟨rfl, ih⟩

/-- What does not vanish comes after what vanishes. -/
theorem compare_of_trimmed {n : Nat} {a b : List Nat} (kept : ¬ (n = 0 ∧ trimmed b = []))
    (none : trimmed a = []) (rest : compare (trimmed a) (trimmed b) = compare a b) :
    (compare 0 n).then (compare a b) = .lt := by
  rcases Nat.eq_zero_or_pos n with rfl | pos
  · rw [← rest, none]
    cases shown : trimmed b with
    | nil => exact absurd ⟨rfl, shown⟩ kept
    | cons => rfl
  · rw [Nat.compare_eq_lt.mpr pos]
    rfl

/-- **Zeros at the end make no difference** between lists of equal length. -/
theorem compare_trimmed {a b : List Nat} (same : a.length = b.length) :
    compare (trimmed a) (trimmed b) = compare a b := by
  induction a generalizing b with
  | nil =>
    cases b with
    | nil => rfl
    | cons n b => cases same
  | cons m a ih =>
    cases b with
    | nil => cases same
    | cons n b =>
      have rest := ih (Nat.succ.inj same)
      rw [trimmed, trimmed, List.compare_cons_cons]
      by_cases left : m = 0 ∧ trimmed a = []
      · obtain ⟨rfl, none⟩ := left
        rw [if_pos ⟨rfl, none⟩]
        by_cases right : n = 0 ∧ trimmed b = []
        · obtain ⟨rfl, nothing⟩ := right
          rw [if_pos ⟨rfl, nothing⟩, ← rest, none, nothing]
          rfl
        · rw [if_neg right, compare_of_trimmed right none rest]
          rfl
      · rw [if_neg left]
        by_cases right : n = 0 ∧ trimmed b = []
        · obtain ⟨rfl, nothing⟩ := right
          have turned : compare (trimmed b) (trimmed a) = compare b a := by
            rw [Std.OrientedOrd.eq_swap, rest, ← Std.OrientedOrd.eq_swap]
          rw [if_pos ⟨rfl, nothing⟩, Std.OrientedOrd.eq_swap (a := m),
            Std.OrientedOrd.eq_swap (a := a), ← Ordering.swap_then,
            compare_of_trimmed left nothing turned]
          rfl
        · rw [if_neg right, List.compare_cons_cons, rest]

/-! ## UTF-8 -/

namespace Utf8

/-- Bytes are compared as numbers. -/
theorem compare_byte_cons {m n : Nat} (hm : m < 256) (hn : n < 256) (x y : List UInt8) :
    compare (byte m :: x) (byte n :: y) = (compare m n).then (compare x y) := by
  have bytes : compare (byte m) (byte n) = compare m n := by
    show compareOfLessAndEq _ _ = compareOfLessAndEq _ _
    simp only [compareOfLessAndEq, UInt8.lt_iff_toNat_lt, ← UInt8.toNat_inj, toNat_byte hm,
      toNat_byte hn]
  rw [List.compare_cons_cons, bytes]

/-- Characters are compared by their code points. -/
theorem compare_char (c d : Char) : compare c d = compare c.toNat d.toNat := by
  show compareOfLessAndEq _ _ = compareOfLessAndEq _ _
  simp only [compareOfLessAndEq, Char.lt_def, UInt32.lt_iff_toNat_lt, ← Char.toNat_inj]
  rfl

/-- When a text that starts with a byte comes before another one. -/
theorem compare_byte_eq_lt_iff {m n : Nat} (hm : m < 256) (hn : n < 256) (x y : List UInt8) :
    compare (byte m :: x) (byte n :: y) = .lt ↔ m < n ∨ m = n ∧ compare x y = .lt := by
  rw [compare_byte_cons hm hn, Ordering.then_eq_lt, Nat.compare_eq_lt, Nat.compare_eq_eq]

/-- What starts with a character comes before what starts with a later one. -/
theorem compare_encodeChar_of_lt {c d : Char} (less : c.toNat < d.toNat) (x y : List UInt8) :
    compare (encodeChar c ++ x) (encodeChar d ++ y) = .lt := by
  have most : d.toNat < 0x110000 := by
    have valid : d.toNat < 0xD800 ∨ 0xDFFF < d.toNat ∧ d.toNat < 0x110000 := d.valid
    omega
  rw [encodeChar, encodeChar]
  generalize c.toNat = m at less
  generalize d.toNat = n at less most
  -- One case for every two numbers of bytes.  Characters of different length differ in their first
  -- bytes; those of equal length have the digits of their code points in one base after the other.
  repeat' split
  all_goals
    simp (disch := omega) only [List.cons_append, List.nil_append, compare_byte_eq_lt_iff]
    omega

/-- **Bytes keep the order of characters.** -/
theorem compare_encodeChar_append (c d : Char) (x y : List UInt8) :
    compare (encodeChar c ++ x) (encodeChar d ++ y) = (compare c d).then (compare x y) := by
  rw [compare_char]
  rcases Nat.lt_trichotomy c.toNat d.toNat with less | same | more
  · rw [compare_encodeChar_of_lt less, Nat.compare_eq_lt.mpr less]
    rfl
  · rw [Char.toNat_inj.mp same, compare_append rfl, Nat.compare_eq_eq.mpr rfl,
      Std.ReflOrd.compare_self]
  · rw [Std.OrientedOrd.eq_swap, compare_encodeChar_of_lt more, Nat.compare_eq_gt.mpr more]
    rfl

theorem encodeChar_ne_nil (c : Char) : encodeChar c ≠ [] := by
  rw [encodeChar]
  split
  · exact List.cons_ne_nil _ _
  split
  · exact List.cons_ne_nil _ _
  split
  · exact List.cons_ne_nil _ _
  · exact List.cons_ne_nil _ _

/-- **Bytes keep the order of texts.** -/
theorem compare_encode (s t : String) :
    compare (encode s) (encode t) = compare s.toList t.toList := by
  rw [encode, encode]
  generalize s.toList = a
  generalize t.toList = b
  induction a generalizing b with
  | nil =>
    cases b with
    | nil => rfl
    | cons d b =>
      obtain ⟨first, more, bytes⟩ := List.exists_cons_of_ne_nil (encodeChar_ne_nil d)
      rw [List.flatMap_cons, bytes]
      rfl
  | cons c a ih =>
    cases b with
    | nil =>
      obtain ⟨first, more, bytes⟩ := List.exists_cons_of_ne_nil (encodeChar_ne_nil c)
      rw [List.flatMap_cons, bytes]
      rfl
    | cons d b =>
      rw [List.flatMap_cons, List.flatMap_cons, compare_encodeChar_append, ih,
        List.compare_cons_cons]

end Utf8

/-! ## Digits -/

namespace Decimal

/-- Digits are compared by their values. -/
theorem compare_digit {c d : Char} (hc : isDigit c = true) (hd : isDigit d = true) :
    compare c d = compare (digitValue c) (digitValue d) := by
  have least : ∀ {e : Char}, isDigit e = true → '0'.toNat ≤ e.toNat := by
    intro e digit
    rw [isDigit, Bool.and_eq_true, decide_eq_true_eq] at digit
    exact UInt32.le_iff_toNat_le.mp digit.1
  have hc := least hc
  have hd := least hd
  rw [Utf8.compare_char, digitValue, digitValue, Nat.compare_eq_ite_lt, Nat.compare_eq_ite_lt]
  grind

theorem digitValue_lt {c : Char} (digit : isDigit c = true) : digitValue c < 10 := by
  rw [isDigit, Bool.and_eq_true, decide_eq_true_eq, decide_eq_true_eq] at digit
  have most : c.toNat ≤ 57 := UInt32.le_iff_toNat_le.mp digit.2
  have zero : '0'.toNat = 48 := rfl
  rw [digitValue]
  omega

/-- Equally many digits after two numbers leave the numbers to be compared first. -/
theorem compare_ofDigitsFrom {a b : List Char} (same : a.length = b.length)
    (ha : ∀ c ∈ a, isDigit c = true) (hb : ∀ c ∈ b, isDigit c = true) (m n : Nat) :
    compare (ofDigitsFrom m a) (ofDigitsFrom n b) = (compare m n).then (compare a b) := by
  induction a generalizing b m n with
  | nil =>
    cases b with
    | nil => exact Ordering.then_eq.symm
    | cons d b => cases same
  | cons c a ih =>
    cases b with
    | nil => cases same
    | cons d b =>
      have hc := ha c List.mem_cons_self
      have hd := hb d List.mem_cons_self
      rw [ofDigitsFrom, ofDigitsFrom, List.foldl_cons, List.foldl_cons, ← ofDigitsFrom,
        ← ofDigitsFrom, ih (Nat.succ.inj same) (fun e there => ha e (List.mem_cons_of_mem c there))
          (fun e there => hb e (List.mem_cons_of_mem d there)),
        compare_mul_add (digitValue_lt hc) (digitValue_lt hd), Ordering.then_assoc,
        ← compare_digit hc hd, ← List.compare_cons_cons]

/-- **Equally many digits are compared as numbers.** -/
theorem compare_ofDigits {a b : List Char} (same : a.length = b.length)
    (ha : ∀ c ∈ a, isDigit c = true) (hb : ∀ c ∈ b, isDigit c = true) :
    compare (ofDigits a) (ofDigits b) = compare a b := by
  rw [ofDigits, ofDigits, compare_ofDigitsFrom same ha hb, Nat.compare_eq_eq.mpr rfl,
    Ordering.eq_then]

theorem ofDigits_append (a b : List Char) :
    ofDigits (a ++ b) = 10 ^ b.length * ofDigits a + ofDigits b := by
  rw [ofDigits, ofDigitsFrom_append, ofDigitsFrom_eq, Nat.ofDigitChars_eq_ofDigitChars_zero,
    ← ofDigitsFrom_eq 0 b]
  rfl

section Padded

variable {width m n : Nat} (wide : 0 < width)
include wide

/-- **Padded numbers are compared as numbers**, and what follows them is compared after them. -/
theorem compare_paddedDigits (hm : m < 10 ^ width) (hn : n < 10 ^ width) (x y : List Char) :
    compare (paddedDigits width m ++ x) (paddedDigits width n ++ y) =
      (compare m n).then (compare x y) := by
  have same : (paddedDigits width m).length = (paddedDigits width n).length := by
    rw [length_paddedDigits wide hm, length_paddedDigits wide hn]
  rw [compare_append same, ← compare_ofDigits same (fun c => isDigit_of_mem_paddedDigits)
    (fun c => isDigit_of_mem_paddedDigits), ofDigits_paddedDigits, ofDigits_paddedDigits]

/-- **Lists of padded numbers are compared as lists of numbers.** -/
theorem compare_flatMap_paddedDigits {a b : List Nat} (ha : ∀ n ∈ a, n < 10 ^ width)
    (hb : ∀ n ∈ b, n < 10 ^ width) :
    compare (a.flatMap (paddedDigits width)) (b.flatMap (paddedDigits width)) = compare a b := by
  induction a generalizing b with
  | nil =>
    cases b with
    | nil => rfl
    | cons n b =>
      obtain ⟨d, ds, written, -⟩ := exists_paddedDigits_cons width n
      rw [List.flatMap_cons, written]
      rfl
  | cons m a ih =>
    cases b with
    | nil =>
      obtain ⟨d, ds, written, -⟩ := exists_paddedDigits_cons width m
      rw [List.flatMap_cons, written]
      rfl
    | cons n b =>
      rw [List.flatMap_cons, List.flatMap_cons, compare_paddedDigits wide
          (ha m List.mem_cons_self) (hb n List.mem_cons_self), List.compare_cons_cons,
        ih (fun k there => ha k (List.mem_cons_of_mem m there))
          (fun k there => hb k (List.mem_cons_of_mem n there))]

/-- A padded number is written in two parts. -/
theorem paddedDigits_append {more : Nat} (long : 0 < more) (hn : n < 10 ^ (width + more)) :
    paddedDigits width (n / 10 ^ more) ++ paddedDigits more (n % 10 ^ more) =
      paddedDigits (width + more) n := by
  have high : n / 10 ^ more < 10 ^ width := by
    rw [Nat.div_lt_iff_lt_mul (Nat.pow_pos (by decide)), ← Nat.pow_add]
    exact hn
  have low : n % 10 ^ more < 10 ^ more := Nat.mod_lt n (Nat.pow_pos (by decide))
  have same : (paddedDigits width (n / 10 ^ more) ++ paddedDigits more (n % 10 ^ more)).length =
      (paddedDigits (width + more) n).length := by
    rw [List.length_append, length_paddedDigits wide high, length_paddedDigits long low,
      length_paddedDigits (Nat.add_pos_left wide more) hn]
  have digits : ∀ c ∈ paddedDigits width (n / 10 ^ more) ++ paddedDigits more (n % 10 ^ more),
      isDigit c = true := by
    intro c there
    rcases List.mem_append.mp there with there | there
    · exact isDigit_of_mem_paddedDigits there
    · exact isDigit_of_mem_paddedDigits there
  refine Std.LawfulEqOrd.eq_of_compare ?_
  rw [← compare_ofDigits same digits (fun c => isDigit_of_mem_paddedDigits), ofDigits_append,
    ofDigits_paddedDigits, ofDigits_paddedDigits, ofDigits_paddedDigits,
    length_paddedDigits long low, Nat.mul_comm, Nat.div_add_mod']
  exact Nat.compare_eq_eq.mpr rfl

end Padded

end Decimal

end BoundSql
