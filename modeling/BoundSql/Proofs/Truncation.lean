import BoundSql.Text.Utf8

/-!
# Cutting a text

`Utf8.cut` gives the longest beginning of a text that takes at most a number of bytes
(`Utf8.isCut_cut`).  Beginnings are lists of characters, so no character is ever split.  The bytes
are those of the core library: `Utf8.length` only counts them character by character
(`Utf8.length_eq_utf8ByteSize`).

The induction is on the characters, with the budget that the ones before have left.  There is only
one longest beginning (`Utf8.IsCut.unique`), so what follows from its being the longest needs no
further induction: that a text that fits is its own cut, and that a cut of a cut is a cut to the
smaller limit (`Utf8.cut_cut`).  Dots go behind a text only if it has been cut (`Utf8.IsDotted`).
-/

namespace BoundSql.Utf8

theorem length_eq_utf8ByteSize (cs : List Char) :
    length cs = (String.ofList cs).utf8ByteSize := by
  induction cs with
  | nil => rfl
  | cons c cs ih =>
    rw [length, ih, String.ofList_cons, String.utf8ByteSize_append, String.utf8ByteSize_singleton]

theorem length_append (cs ds : List Char) : length (cs ++ ds) = length cs + length ds := by
  simp only [length_eq_utf8ByteSize, String.ofList_append, String.utf8ByteSize_append]

/-- Every character takes a byte. -/
theorem length_le_length (cs : List Char) : cs.length ≤ length cs := by
  induction cs with
  | nil => exact Nat.le_refl 0
  | cons c cs ih =>
    rw [List.length_cons, length, Nat.add_comm]
    exact Nat.add_le_add c.utf8Size_pos ih

/-- What fits is taken whole, and the rest of the budget goes to what follows. -/
theorem take_append_of_length_le {budget : Nat} {cs : List Char} (fits : length cs ≤ budget)
    (ds : List Char) : take budget (cs ++ ds) = cs ++ take (budget - length cs) ds := by
  induction cs generalizing budget with
  | nil => rfl
  | cons c cs ih =>
    rw [length] at fits
    rw [List.cons_append, take, if_pos (Nat.le_trans (Nat.le_add_right _ _) fits),
      ih (Nat.le_sub_of_add_le' fits), length, Nat.sub_sub, List.cons_append]

/-- A text is the longest beginning of another that takes at most `limit` bytes. -/
structure IsCut (limit : Nat) (text shown : String) : Prop where
  begins : shown.toList <+: text.toList
  fits : shown.utf8ByteSize ≤ limit
  longest : ∀ other : String, other.toList <+: text.toList → other.utf8ByteSize ≤ limit →
    other.toList <+: shown.toList

/-- A beginning that fits in a budget is a beginning of what is taken. -/
theorem isPrefix_take {budget : Nat} {cs ds : List Char} (begins : ds <+: cs)
    (fits : length ds ≤ budget) : ds <+: take budget cs := by
  induction cs generalizing budget ds with
  | nil => exact begins
  | cons c cs ih =>
    cases ds with
    | nil => exact List.nil_prefix
    | cons d ds =>
      obtain ⟨rfl, later⟩ := List.cons_prefix_cons.mp begins
      rw [length] at fits
      rw [take, if_pos (Nat.le_trans (Nat.le_add_right _ _) fits)]
      exact List.cons_prefix_cons.mpr ⟨rfl, ih later (Nat.le_sub_of_add_le' fits)⟩

/-- **What a cut is.** -/
theorem isCut_cut (limit : Nat) (text : String) : IsCut limit text (cut text limit) where
  begins := by
    rw [cut, String.toList_ofList]
    exact take_append_drop limit text.toList
  fits := by
    rw [cut, ← length_eq_utf8ByteSize]
    exact length_take_le limit text.toList
  longest other begins fits := by
    rw [cut, String.toList_ofList]
    refine isPrefix_take begins ?_
    rw [length_eq_utf8ByteSize, String.ofList_toList]
    exact fits

/-- **There is one cut.** -/
theorem IsCut.unique {limit : Nat} {text shown other : String} (one : IsCut limit text shown)
    (two : IsCut limit text other) : shown = other := by
  have there := two.longest shown one.begins one.fits
  have back := one.longest other two.begins two.fits
  exact String.toList_inj.mp
    (there.eq_of_length (Nat.le_antisymm there.length_le back.length_le))

theorem isCut_iff {limit : Nat} {text shown : String} :
    IsCut limit text shown ↔ shown = cut text limit := by
  constructor
  · intro h
    exact h.unique (isCut_cut limit text)
  · rintro rfl
    exact isCut_cut limit text

theorem size_eq_utf8ByteSize (s : String) : size s = s.utf8ByteSize := by
  rw [size, length_eq_utf8ByteSize, String.ofList_toList]

theorem utf8ByteSize_le_of_isPrefix {a b : String} (begins : a.toList <+: b.toList) :
    a.utf8ByteSize ≤ b.utf8ByteSize := by
  obtain ⟨rest, split⟩ := begins
  rw [← size_eq_utf8ByteSize a, ← size_eq_utf8ByteSize b, size, size, ← split, length_append]
  exact Nat.le_add_right _ _

/-- A cut of a cut is a cut to the smaller limit. -/
theorem IsCut.trans {a b : Nat} {text middle shown : String} (first : IsCut a text middle)
    (second : IsCut b middle shown) : IsCut (min a b) text shown where
  begins := second.begins.trans first.begins
  fits := Nat.le_min.mpr
    ⟨Nat.le_trans (utf8ByteSize_le_of_isPrefix second.begins) first.fits, second.fits⟩
  longest other begins fits := by
    obtain ⟨fitsFirst, fitsSecond⟩ := Nat.le_min.mp fits
    exact second.longest other (first.longest other begins fitsFirst) fitsSecond

theorem cut_cut (s : String) (a b : Nat) : cut (cut s a) b = cut s (min a b) :=
  ((isCut_cut a s).trans (isCut_cut b (cut s a))).unique (isCut_cut (min a b) s)

/-- Only a text that fits is left as it is. -/
theorem cut_eq_self_iff {s : String} {limit : Nat} :
    cut s limit = s ↔ s.utf8ByteSize ≤ limit := by
  constructor
  · intro same
    have fits := (isCut_cut limit s).fits
    rwa [same] at fits
  · intro fits
    rw [← size_eq_utf8ByteSize] at fits
    rw [cut, take_eq_self fits, String.ofList_toList]

/-- A text that is too long goes on, after what is taken, with a character that does not fit. -/
theorem exists_take_append {budget : Nat} {cs : List Char} (long : budget < length cs) :
    ∃ d ds, cs = take budget cs ++ d :: ds ∧ budget < length (take budget cs) + d.utf8Size := by
  induction cs generalizing budget with
  | nil => cases long
  | cons c cs ih =>
    rw [length] at long
    by_cases fits : c.utf8Size ≤ budget
    · have later : budget - c.utf8Size < length cs := by omega
      obtain ⟨d, ds, split, more⟩ := ih later
      refine ⟨d, ds, ?_, ?_⟩
      · rw [take, if_pos fits, List.cons_append, ← split]
      · rw [take, if_pos fits, length]
        omega
    · refine ⟨c, cs, ?_, ?_⟩
      · rw [take, if_neg fits, List.nil_append]
      · rw [take, if_neg fits, length]
        omega

/-- A cut leaves fewer than four bytes of the limit free, unless the text ends before. -/
theorem lt_utf8ByteSize_cut {s : String} {limit : Nat} (long : limit < s.utf8ByteSize) :
    limit < (cut s limit).utf8ByteSize + 4 := by
  rw [← size_eq_utf8ByteSize, size] at long
  obtain ⟨d, ds, -, exceeds⟩ := exists_take_append long
  have wide := d.utf8Size_le_four
  rw [cut, ← length_eq_utf8ByteSize]
  omega

theorem cutWithDots_of_le {s : String} {limit : Nat} (fits : s.utf8ByteSize ≤ limit) :
    cutWithDots s limit = s := by
  rw [cutWithDots, size_eq_utf8ByteSize]
  exact if_pos fits

theorem cutWithDots_of_lt {s : String} {limit : Nat} (long : limit < s.utf8ByteSize) :
    cutWithDots s limit = cut s limit ++ "..." := by
  rw [cutWithDots, size_eq_utf8ByteSize]
  exact if_neg (Nat.not_le.mpr long)

/-- A text is another one as it stands when this takes at most `limit` bytes, and otherwise the
longest beginning of it that does, with three dots behind. -/
inductive IsDotted (limit : Nat) (text : String) : String → Prop
  | whole (fits : text.utf8ByteSize ≤ limit) : IsDotted limit text text
  | dotted {kept : String} (long : limit < text.utf8ByteSize) (cut : IsCut limit text kept) :
      IsDotted limit text (kept ++ "...")

theorem isDotted_iff {limit : Nat} {text shown : String} :
    IsDotted limit text shown ↔ shown = cutWithDots text limit := by
  constructor
  · rintro (fits | ⟨long, cut⟩)
    · exact (cutWithDots_of_le fits).symm
    · rw [cutWithDots_of_lt long, isCut_iff.mp cut]
  · rintro rfl
    rcases Nat.lt_or_ge limit text.utf8ByteSize with long | fits
    · rw [cutWithDots_of_lt long]
      exact .dotted long (isCut_cut limit text)
    · rw [cutWithDots_of_le fits]
      exact .whole fits

/-- Dots take three bytes more than the limit allows at most. -/
theorem utf8ByteSize_cutWithDots_le (s : String) (limit : Nat) :
    (cutWithDots s limit).utf8ByteSize ≤ limit + 3 := by
  rcases Nat.lt_or_ge limit s.utf8ByteSize with long | fits
  · rw [cutWithDots_of_lt long, String.utf8ByteSize_append]
    exact Nat.add_le_add_right (isCut_cut limit s).fits 3
  · rw [cutWithDots_of_le fits]
    exact Nat.le_add_right_of_le fits

/-- A character of two bytes is left out when only one of them fits. -/
example : cut "né" 2 = "n" ∧ cut "né" 3 = "né" := by decide

end BoundSql.Utf8
