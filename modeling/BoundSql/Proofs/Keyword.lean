import BoundSql.Proofs.Encoding
import BoundSql.Proofs.Truncation
import BoundSql.Statement.Kind
import Mathlib.Tactic.ByContra

/-!
# The kind of a statement that is cut

The kind of a statement is read off its first word, so a text that is cut may show another kind.
`Kind.ofSql_cut` says which (`Kind.within`), for every text and every limit: all that matters is
where the first six characters after the blanks and comments end (`Kind.wordEnd`).

* A limit before this end shows no kind.
* A limit right at this end shows what the six characters spell, also when they only begin a longer
  word.
* A limit beyond it shows the kind of the whole text.

So a limit shows the kind of the text just when it spares its first word (`Kind.within_eq_iff`).

Behind this stands one law of skipping, `Kind.skipFrom_append`, an induction along the skipping
itself: a beginning of a text has come to the body of the text, or it ends before the body.  From it
the body of a cut text is the cut of the body (`Kind.body_take`).  The rest is about the six
characters, which take a byte each when they spell a word.
-/

namespace BoundSql.Kind

/-! ## Skipping -/

/-- What is left is the end of the text. -/
theorem skipFrom_isSuffix (place : Place) (cs : List Char) : skipFrom place cs <:+ cs := by
  fun_induction skipFrom place cs with
  | case1 place => exact List.suffix_rfl
  | case2 rest ih => exact ih.trans (List.suffix_append ['-', '-'] rest)
  | case3 rest ih => exact ih.trans (List.suffix_append ['/', '*'] rest)
  | case4 c rest _ _ blank ih => exact ih.trans (List.suffix_cons c rest)
  | case5 c rest => exact List.suffix_rfl
  | case6 rest ih => exact ih.trans (List.suffix_cons '\n' rest)
  | case7 c rest _ ih => exact ih.trans (List.suffix_cons c rest)
  | case8 rest ih => exact ih.trans (List.suffix_append ['*', '/'] rest)
  | case9 c rest _ ih => exact ih.trans (List.suffix_cons c rest)

/-- What opens no comment is skipped when it is blank, and is the start of the body when not. -/
theorem skipFrom_cons {c : Char} {rest : List Char}
    (line : ∀ more, c = '-' → rest ≠ '-' :: more) (block : ∀ more, c = '/' → rest ≠ '*' :: more) :
    skipFrom .statement (c :: rest) =
      if Text.isBlank c then skipFrom .statement rest else c :: rest := by
  conv => lhs; unfold skipFrom
  split <;> simp_all

theorem skipFrom_blank {c : Char} {rest : List Char} (blank : Text.isBlank c = true) :
    skipFrom .statement (c :: rest) = skipFrom .statement rest := by
  rw [skipFrom_cons, if_pos blank]
  · rintro more rfl -
    exact absurd blank (by decide)
  · rintro more rfl -
    exact absurd blank (by decide)

/-- What does not end a line comment is skipped. -/
theorem skipFrom_line {c : Char} {rest : List Char} (inside : c ≠ '\n') :
    skipFrom .line (c :: rest) = skipFrom .line rest := by
  conv => lhs; unfold skipFrom
  split <;> simp_all

/-- What does not close a block comment is skipped. -/
theorem skipFrom_block {c : Char} {rest : List Char}
    (inside : ∀ more, c = '*' → rest ≠ '/' :: more) :
    skipFrom .block (c :: rest) = skipFrom .block rest := by
  conv => lhs; unfold skipFrom
  split <;> simp_all

/-- What starts a body goes on doing so, unless it is one character that opens a comment together
with what follows. -/
theorem skipFrom_start_append {c : Char} {cs : List Char}
    (line : ∀ more, c = '-' → cs ≠ '-' :: more) (block : ∀ more, c = '/' → cs ≠ '*' :: more)
    (solid : ¬ Text.isBlank c = true) (rest : List Char) :
    skipFrom .statement (c :: (cs ++ rest)) = c :: (cs ++ rest) ∨
      cs = [] ∧ skipFrom .statement (c :: (cs ++ rest)) <:+ rest := by
  cases cs with
  | nil =>
    rw [List.nil_append]
    by_cases line : c = '-' ∧ ∃ more, rest = '-' :: more
    · obtain ⟨rfl, more, rfl⟩ := line
      exact .inr ⟨rfl, (skipFrom_isSuffix .line more).trans (List.suffix_cons '-' more)⟩
    by_cases block : c = '/' ∧ ∃ more, rest = '*' :: more
    · obtain ⟨rfl, more, rfl⟩ := block
      exact .inr ⟨rfl, (skipFrom_isSuffix .block more).trans (List.suffix_cons '*' more)⟩
    rw [skipFrom_cons, if_neg solid]
    · exact .inl rfl
    · exact fun more dash next => line ⟨dash, more, next⟩
    · exact fun more slash next => block ⟨slash, more, next⟩
  | cons d cs =>
    rw [skipFrom_cons, if_neg solid]
    · exact .inl rfl
    · exact fun more dash next => line cs dash (congrArg (· :: cs) (List.cons.inj next).1)
    · exact fun more slash next => block cs slash (congrArg (· :: cs) (List.cons.inj next).1)

/-- What does not close a comment is skipped, unless it is a star that closes the comment together
with what follows. -/
theorem skipFrom_block_append {c : Char} {cs : List Char}
    (inside : ∀ more, c = '*' → cs ≠ '/' :: more) (rest : List Char) :
    skipFrom .block (c :: (cs ++ rest)) = skipFrom .block (cs ++ rest) ∨
      cs = [] ∧ skipFrom .block (c :: (cs ++ rest)) <:+ rest := by
  by_cases closed : c = '*' ∧ ∃ more, cs ++ rest = '/' :: more
  · obtain ⟨rfl, more, next⟩ := closed
    cases cs with
    | nil =>
      rw [List.nil_append] at next
      subst next
      exact .inr ⟨rfl, (skipFrom_isSuffix .statement more).trans (List.suffix_cons '/' more)⟩
    | cons d cs => exact absurd (congrArg (· :: cs) (List.cons.inj next).1) (inside cs rfl)
  · exact .inl (skipFrom_block fun more star next => closed ⟨star, more, next⟩)

/-- **A text that goes on** leaves what it left, and what it goes on with; or nothing was left but
the first character of a comment sign, and then all that is left is from what it goes on with. -/
theorem skipFrom_append (place : Place) (cs rest : List Char) :
    skipFrom place (cs ++ rest) = skipFrom place cs ++ rest ∨
      (skipFrom place cs).length ≤ 1 ∧ skipFrom place (cs ++ rest) <:+ rest := by
  fun_induction skipFrom place cs with
  | case1 place => exact .inr ⟨Nat.zero_le 1, skipFrom_isSuffix place rest⟩
  | case2 cs ih => exact ih
  | case3 cs ih => exact ih
  | case4 c cs _ _ blank ih =>
    rw [List.cons_append, skipFrom_blank blank]
    exact ih
  | case5 c cs line block solid =>
    rcases skipFrom_start_append line block solid rest with same | ⟨rfl, later⟩
    · exact .inl same
    · exact .inr ⟨Nat.le_refl 1, later⟩
  | case6 cs ih => exact ih
  | case7 c cs other ih =>
    rw [List.cons_append, skipFrom_line other]
    exact ih
  | case8 cs ih => exact ih
  | case9 c cs inside ih =>
    rcases skipFrom_block_append inside rest with same | ⟨rfl, later⟩
    · rw [List.cons_append, same]
      exact ih
    · exact .inr ⟨Nat.zero_le 1, later⟩

/-! ## The first word -/

/-- The kind that the first word of a body shows. -/
def ofBody (cs : List Char) : Kind :=
  if startsWith "SELECT".toList cs then .select
  else if startsWith "INSERT".toList cs then .insert
  else if startsWith "UPDATE".toList cs then .update
  else if startsWith "DELETE".toList cs then .delete
  else .other

theorem startsWith_iff (word cs : List Char) :
    startsWith word cs = true ↔ (cs.take word.length).map Char.toUpper = word ∧
      Text.Avoids continuesWord (cs.drop word.length) := by
  simp only [startsWith, Bool.and_eq_true, beq_iff_eq]
  refine and_congr_right fun _ => ?_
  cases cs.drop word.length with
  | nil => exact ⟨fun _ _ => nofun, fun _ => rfl⟩
  | cons c rest => simp [Text.Avoids]

theorem length_text {k : Kind} (named : k ≠ .other) : k.text.toList.length = 6 := by
  cases k with
  | other => exact absurd rfl named
  | select | insert | update | delete => rfl

/-- A body starts with the word of the kind that it shows. -/
theorem startsWith_ofBody {cs : List Char} (shown : ofBody cs ≠ .other) :
    startsWith (ofBody cs).text.toList cs = true := by
  revert shown
  unfold ofBody
  split
  · next starts => exact fun _ => starts
  split
  · next starts => exact fun _ => starts
  split
  · next starts => exact fun _ => starts
  split
  · next starts => exact fun _ => starts
  · exact fun shown => absurd rfl shown

/-- A body that shows a kind starts with its word, and every word has six letters. -/
theorem startsWith_of_ofBody {cs : List Char} (shown : ofBody cs ≠ .other) :
    ∃ k : Kind, k.text.toList.length = 6 ∧ startsWith k.text.toList cs = true :=
  ⟨ofBody cs, length_text shown, startsWith_ofBody shown⟩

theorem ofBody_congr {cs ds : List Char}
    (same : ∀ word : List Char, word.length = 6 → startsWith word cs = startsWith word ds) :
    ofBody cs = ofBody ds := by
  simp only [ofBody, same "SELECT".toList rfl, same "INSERT".toList rfl, same "UPDATE".toList rfl,
    same "DELETE".toList rfl]

/-- A body of fewer than six characters shows no kind. -/
theorem ofBody_of_length_lt {cs : List Char} (short : cs.length < 6) : ofBody cs = .other := by
  by_contra shown
  obtain ⟨k, six, starts⟩ := startsWith_of_ofBody shown
  obtain ⟨spells, -⟩ := (startsWith_iff _ _).mp starts
  have taken := congrArg List.length spells
  rw [List.length_map, List.length_take, six] at taken
  omega

/-- The seventh character is the last that matters. -/
theorem ofBody_append {cs : List Char} (long : 6 < cs.length) (rest : List Char) :
    ofBody (cs ++ rest) = ofBody cs := by
  refine ofBody_congr fun word six => ?_
  have enough : 6 ≤ cs.length := Nat.le_of_lt long
  rw [Bool.eq_iff_iff, startsWith_iff, startsWith_iff, six, List.take_append_of_le_length enough,
    List.drop_append_of_le_length enough]
  have next : (cs.drop 6 ++ rest).head? = (cs.drop 6).head? := by
    obtain ⟨c, more, split⟩ := List.exists_cons_of_length_pos
      (List.length_drop ▸ Nat.sub_pos_of_lt long : 0 < (cs.drop 6).length)
    rw [split]
    rfl
  rw [Text.Avoids, Text.Avoids, next]

/-- The first six characters show the kind of the body, unless they begin a longer word. -/
theorem ofBody_firstSix {cs : List Char} (ends : Text.Avoids continuesWord (cs.drop 6)) :
    ofBody (cs.take 6) = ofBody cs := by
  refine ofBody_congr fun word six => ?_
  rw [Bool.eq_iff_iff, startsWith_iff, startsWith_iff, six, List.take_take, Nat.min_self,
    List.drop_take_self]
  exact and_congr_right fun _ => iff_of_true (fun _ => nofun) ends

theorem avoids_of_ofBody {cs : List Char} (shown : ofBody cs ≠ .other) :
    Text.Avoids continuesWord (cs.drop 6) := by
  obtain ⟨k, six, starts⟩ := startsWith_of_ofBody shown
  rw [← six]
  exact ((startsWith_iff _ _).mp starts).2

/-- What shows no kind in its first six characters shows none. -/
theorem ofBody_eq_other {cs : List Char} (none : ofBody (cs.take 6) = .other) :
    ofBody cs = .other := by
  by_contra shown
  exact shown ((ofBody_firstSix (avoids_of_ofBody shown)).symm.trans none)

/-! ## Bytes of the first word -/

theorem utf8Size_of_toUpper {c : Char} (single : c.toUpper.utf8Size = 1) : c.utf8Size = 1 := by
  unfold Char.toUpper at single
  split at single
  · next lower =>
    rw [Char.utf8Size_eq_one_iff]
    exact UInt32.le_trans lower.2 (by decide)
  · exact single

theorem utf8Size_of_continuesWord {c : Char} (continues : continuesWord c = true) :
    c.utf8Size = 1 := by
  have kinds : (((c.isUpper || c.isLower) || c.isDigit) || c == '_') = true := continues
  rw [Bool.or_eq_true, Bool.or_eq_true, Bool.or_eq_true, beq_iff_eq] at kinds
  rw [Char.utf8Size_eq_one_iff]
  rcases kinds with ((upper | lower) | digit) | rfl
  · exact UInt32.le_trans (of_decide_eq_true upper).2 (by decide)
  · obtain ⟨-, most⟩ := Bool.and_eq_true_iff.mp lower
    exact UInt32.le_trans (of_decide_eq_true most) (by decide)
  · obtain ⟨-, most⟩ := Bool.and_eq_true_iff.mp digit
    exact UInt32.le_trans (of_decide_eq_true most) (by decide)
  · decide

theorem length_of_spelled {cs : List Char} (spelled : ofBody (cs.take 6) ≠ .other) :
    (cs.take 6).length = 6 := by
  by_contra other
  refine spelled (ofBody_of_length_lt ?_)
  have most := List.length_take_le 6 cs
  omega

theorem utf8Size_of_mem_text (k : Kind) {c : Char} (inside : c ∈ k.text.toList) :
    c.utf8Size = 1 := by
  have single : (k.text.toList.all fun c => c.utf8Size == 1) = true := by
    cases k <;> rfl
  exact beq_iff_eq.mp (List.all_eq_true.mp single c inside)

/-- Characters that spell a word, in any case, take one byte each. -/
theorem utf8Size_of_spelled {k : Kind} {word : List Char}
    (spelled : word.map Char.toUpper = k.text.toList) : ∀ c ∈ word, c.utf8Size = 1 := by
  intro c inside
  have letter : c.toUpper ∈ k.text.toList := spelled ▸ List.mem_map_of_mem inside
  exact utf8Size_of_toUpper (utf8Size_of_mem_text k letter)

/-- Six characters that spell a word take six bytes. -/
theorem length_of_ofBody {cs : List Char} (spelled : ofBody (cs.take 6) ≠ .other) :
    Utf8.length (cs.take 6) = 6 := by
  obtain ⟨k, six, starts⟩ := startsWith_of_ofBody spelled
  obtain ⟨spells, -⟩ := (startsWith_iff _ _).mp starts
  rw [six, List.take_take, Nat.min_self] at spells
  rw [Utf8.length_eq_length (utf8Size_of_spelled spells), length_of_spelled spelled]

/-- A beginning of a body shows no kind when the first six characters of the body show none. -/
theorem ofBody_of_isPrefix {cs ds : List Char} (begins : ds <+: cs)
    (none : ofBody (cs.take 6) = .other) : ofBody ds = .other := by
  rcases Nat.lt_or_ge ds.length 6 with short | long
  · exact ofBody_of_length_lt short
  · refine ofBody_eq_other ?_
    obtain ⟨rest, rfl⟩ := begins
    rwa [List.take_append_of_le_length long] at none

/-- A limit of more than six bytes shows whether the word ends after six letters. -/
theorem ofBody_take_of_lt {limit : Nat} {cs : List Char} (more : 6 < limit)
    (spelled : ofBody (cs.take 6) ≠ .other) : ofBody (Utf8.take limit cs) = ofBody cs := by
  obtain ⟨rest, split⟩ := Utf8.take_append_drop limit cs
  have bytes := length_of_ofBody spelled
  have six : (cs.take 6).length = 6 := length_of_spelled spelled
  have word : cs.take 6 <+: Utf8.take limit cs :=
    Utf8.isPrefix_take (List.take_prefix 6 cs) (by omega)
  by_cases long : 6 < (Utf8.take limit cs).length
  · conv => rhs; rw [← split, ofBody_append long]
  · have only : cs.take 6 = Utf8.take limit cs := word.eq_of_length_le (by omega)
    rw [← only]
    refine ofBody_firstSix fun c next => ?_
    -- A seventh character that continues the word takes one byte, so it would have been taken too.
    by_contra continues
    have single := utf8Size_of_continuesWord (Bool.not_eq_false _ ▸ continues)
    have longer : cs.take 6 ++ [c] <+: cs := by
      obtain ⟨later, tail⟩ := List.head?_eq_some_iff.mp next
      refine ⟨later, ?_⟩
      rw [List.append_assoc, List.singleton_append, ← tail, List.take_append_drop]
    have taken : cs.take 6 ++ [c] <+: Utf8.take limit cs := by
      refine Utf8.isPrefix_take longer ?_
      rw [Utf8.length_append, bytes, Utf8.length, single, Utf8.length]
      exact more
    have count := taken.length_le
    rw [List.length_append, six, List.length_singleton] at count
    exact long count

/-- **What is shown of a body** when it is cut. -/
theorem ofBody_take (limit : Nat) (cs : List Char) :
    ofBody (Utf8.take limit cs) =
      if limit < 6 then .other else if limit = 6 then ofBody (cs.take 6) else ofBody cs := by
  have begins : Utf8.take limit cs <+: cs := Utf8.take_append_drop limit cs
  have fits := Utf8.length_take_le limit cs
  have count := Utf8.length_le_length (Utf8.take limit cs)
  by_cases none : ofBody (cs.take 6) = .other
  · rw [ofBody_of_isPrefix begins none, none, ofBody_eq_other none, ite_self, ite_self]
  · rcases Nat.lt_trichotomy limit 6 with less | rfl | more
    · rw [if_pos less]
      exact ofBody_of_length_lt (by omega)
    · have six := length_of_spelled none
      have word : cs.take 6 <+: Utf8.take 6 cs :=
        Utf8.isPrefix_take (List.take_prefix 6 cs) (Nat.le_of_eq (length_of_ofBody none))
      rw [if_neg (Nat.lt_irrefl 6), if_pos rfl, word.eq_of_length_le (by omega)]
    · rw [if_neg (Nat.lt_asymm more), if_neg (Nat.ne_of_gt more), ofBody_take_of_lt more none]

/-! ## Where a text is cut -/

/-- The number of bytes of the blanks and comments that a text starts with. -/
def leadSize (cs : List Char) : Nat :=
  Utf8.length cs - Utf8.length (body cs)

theorem exists_lead (cs : List Char) :
    ∃ lead, lead ++ body cs = cs ∧ Utf8.length lead = leadSize cs := by
  obtain ⟨lead, split⟩ := skipFrom_isSuffix .statement cs
  refine ⟨lead, split, ?_⟩
  have bytes := congrArg Utf8.length split
  rw [Utf8.length_append] at bytes
  unfold leadSize body
  omega

/-- **The body of a cut text** is the body, cut to what the blanks and comments leave of the limit;
when they leave nothing, it may be the first character of a comment sign. -/
theorem body_take (limit : Nat) (cs : List Char) :
    let left := Utf8.take (limit - leadSize cs) (body cs)
    body (Utf8.take limit cs) = left ∨ (body (Utf8.take limit cs)).length ≤ 1 ∧ left = [] := by
  intro left
  obtain ⟨lead, whole, bytes⟩ := exists_lead cs
  obtain ⟨rest, split⟩ := Utf8.take_append_drop limit cs
  have cut := skipFrom_append .statement (Utf8.take limit cs) rest
  rw [split] at cut
  by_cases fits : leadSize cs ≤ limit
  · have taken : Utf8.take limit cs = lead ++ left := by
      conv => lhs; rw [← whole]
      rw [Utf8.take_append_of_length_le (bytes ▸ fits), bytes]
    have rejoined : body cs = left ++ rest := by
      rw [taken, List.append_assoc] at split
      exact List.append_cancel_left (whole.trans split.symm)
    rcases cut with reached | ⟨short, later⟩
    · exact .inl (List.append_cancel_right (reached.symm.trans rejoined))
    · refine .inr ⟨short, ?_⟩
      have none := later.length_le
      rw [show skipFrom .statement cs = left ++ rest from rejoined, List.length_append] at none
      exact List.eq_nil_of_length_eq_zero (by omega)
  · have nothing : left = [] := by
      have none := Nat.le_trans (Utf8.length_le_length left) (Utf8.length_take_le _ _)
      exact List.eq_nil_of_length_eq_zero (by omega)
    rcases cut with reached | ⟨short, -⟩
    · -- Whoever has come to the body has all of the blanks and comments.
      have all := congrArg Utf8.length (whole.trans split.symm)
      have few := Utf8.length_take_le limit cs
      rw [show body cs = _ from reached, Utf8.length_append, Utf8.length_append,
        Utf8.length_append] at all
      omega
    · exact .inr ⟨short, nothing⟩

/-- Where the first six characters of the body end, when they take a byte each. -/
def wordEnd (sql : String) : Nat :=
  leadSize sql.toList + 6

/-- The kind that a text shows within a limit. -/
def within (limit : Nat) (sql : String) : Kind :=
  if limit < wordEnd sql then .other
  else if limit = wordEnd sql then ofBody ((body sql.toList).take 6)
  else ofSql sql

/-- **The kind of a cut text**, for every text and every limit. -/
theorem ofSql_cut (sql : String) (limit : Nat) : ofSql (Utf8.cut sql limit) = within limit sql := by
  have kind : ofSql (Utf8.cut sql limit) = ofBody (body (Utf8.take limit sql.toList)) := by
    unfold Utf8.cut ofSql
    rw [String.toList_ofList]
    rfl
  have shown : ofBody (body (Utf8.take limit sql.toList)) =
      ofBody (Utf8.take (limit - leadSize sql.toList) (body sql.toList)) := by
    rcases body_take limit sql.toList with same | ⟨short, nothing⟩
    · rw [same]
    · rw [nothing, ofBody_of_length_lt (Nat.lt_of_le_of_lt short (by decide))]
      rfl
  have before : limit - leadSize sql.toList < 6 ↔ limit < wordEnd sql := by
    unfold wordEnd
    omega
  have exactly : limit - leadSize sql.toList = 6 ↔ limit = wordEnd sql := by
    unfold wordEnd
    omega
  rw [kind, shown, ofBody_take]
  simp only [before, exactly]
  rfl

/-- A limit spares the first word of a text: it is beyond the six letters of a word that shows a
kind, or at their end, and not right after six letters that only begin a longer word. -/
structure SparesWord (limit : Nat) (sql : String) : Prop where
  whole : ofSql sql ≠ .other → wordEnd sql ≤ limit
  alone : limit = wordEnd sql → ofBody ((body sql.toList).take 6) = ofSql sql

/-- **A limit shows the kind of the text** just when it spares the first word. -/
theorem within_eq_iff (limit : Nat) (sql : String) :
    within limit sql = ofSql sql ↔ SparesWord limit sql := by
  unfold within
  rcases Nat.lt_trichotomy limit (wordEnd sql) with less | same | more
  · rw [if_pos less]
    refine ⟨fun none => ⟨fun shown => absurd none.symm shown, fun same => ?_⟩, fun spares => ?_⟩
    · exact absurd less (same ▸ Nat.lt_irrefl _)
    · by_contra shown
      exact Nat.not_le.mpr less (spares.whole (Ne.symm shown))
  · rw [if_neg (same ▸ Nat.lt_irrefl _), if_pos same]
    exact ⟨fun alone => ⟨fun _ => Nat.le_of_eq same.symm, fun _ => alone⟩,
      fun spares => spares.alone same⟩
  · rw [if_neg (Nat.lt_asymm more), if_neg (Nat.ne_of_gt more)]
    exact iff_of_true rfl
      ⟨fun _ => Nat.le_of_lt more, fun same => absurd same (Nat.ne_of_gt more)⟩

/-- A limit inside a comment, inside the word, at the end of its six letters, and beyond it. -/
example : [3, 14, 15, 16].map (within · "/* é */ delete from t") =
    [.other, .other, .delete, .delete] ∧ within 6 "SELECTED" = .select := by decide

end BoundSql.Kind
