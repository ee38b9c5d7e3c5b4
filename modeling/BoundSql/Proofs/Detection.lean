import BoundSql.Proofs.Keyword
import Mathlib.Data.List.TakeWhile

/-!
# The texts that show a kind

`Kind.ofSql` skips what stands before the first word and looks at six letters.  This module says
which texts show which kind, as a grammar, and proves that the reader accepts exactly that grammar
(`ofSql_iff_shows`).

* `Lead` — blanks, finished line comments and finished block comments, in any order and number.  A
  comment is cut at its first end, so the grammar leaves no choice where a lead is divided.
* `Shows` — a lead, the word of the kind in any case, and a rest that does not continue the word.
* `Unfinished` — a comment that has no end.

The way in is one statement about skipping, by induction along the skipping itself: either nothing
is left, or what was skipped is a lead (`exists_skipped`).  The way out is that a lead is skipped in
front of every text (`skipFrom_lead`), by induction on the lead.

The reader by rounds and bytes, `detect?`, gives a kind for every text, and the same one
(`detect?_eq`): a round leaves the body as it is (`skipRounds_eq`), and a word of ASCII letters is
never cut off inside a character (`startsAt?_eq`).
-/

namespace BoundSql

/-! ## Cutting at a byte -/

namespace Utf8

/-- **There is one way to cut at a byte**, if there is any. -/
theorem partAt?_eq_some_iff {n : Nat} {cs a b : List Char} :
    partAt? n cs = some (a, b) ↔ a ++ b = cs ∧ length a = n := by
  induction cs generalizing n a with
  | nil =>
    cases n with
    | zero => cases a <;> cases b <;> simp [partAt?, length]
    | succ n =>
      constructor
      · intro h
        cases h
      · rintro ⟨split, size⟩
        obtain ⟨rfl, rfl⟩ := List.append_eq_nil_iff.mp split
        cases size
  | cons c cs ih =>
    have wide := c.utf8Size_pos
    cases n with
    | zero =>
      constructor
      · intro h
        cases h
        exact ⟨rfl, rfl⟩
      · rintro ⟨split, size⟩
        have count := length_le_length a
        obtain rfl : a = [] := List.eq_nil_of_length_eq_zero (by omega)
        rw [List.nil_append] at split
        rw [partAt?, split]
    | succ n =>
      rw [partAt?]
      split
      · next fits =>
        constructor
        · intro h
          obtain ⟨⟨x, y⟩, found, same⟩ := Option.map_eq_some_iff.mp h
          cases same
          obtain ⟨split, size⟩ := ih.mp found
          refine ⟨by rw [List.cons_append, split], ?_⟩
          rw [length, size]
          omega
        · rintro ⟨split, size⟩
          cases a with
          | nil => cases size
          | cons d a =>
            obtain ⟨rfl, tail⟩ := List.cons.inj split
            rw [length] at size
            have found := ih.mpr ⟨tail, show length a = n + 1 - d.utf8Size by omega⟩
            rw [found]
            rfl
      · next tooWide =>
        constructor
        · intro h
          cases h
        · rintro ⟨split, size⟩
          cases a with
          | nil => cases size
          | cons d a =>
            obtain ⟨rfl, -⟩ := List.cons.inj split
            rw [length] at size
            omega

end Utf8

namespace Kind

/-! ## What may stand before the first word -/

/-- Blanks and finished comments.  A line comment goes up to its first newline, and a block comment
up to the first `*/` after its opener. -/
inductive Lead : List Char → Prop where
  | nil : Lead []
  | blank {c more} (blank : c.toNat ∈ Text.whiteSpace) (rest : Lead more) : Lead (c :: more)
  | line {inside more} (open_ : '\n' ∉ inside) (rest : Lead more) :
      Lead ('-' :: '-' :: (inside ++ '\n' :: more))
  | block {inside more} (open_ : ¬ ['*', '/'] <:+: inside) (rest : Lead more) :
      Lead ('/' :: '*' :: (inside ++ '*' :: '/' :: more))

/-- A comment that the text ends in. -/
inductive Unfinished : List Char → Prop where
  | line {inside} (open_ : '\n' ∉ inside) : Unfinished ('-' :: '-' :: inside)
  | block {inside} (open_ : ¬ ['*', '/'] <:+: inside) : Unfinished ('/' :: '*' :: inside)

/-- A text shows a kind: after a lead comes the word of the kind, in any case, and what follows does
not go on with a letter, a digit or an underscore. -/
def Shows (k : Kind) (cs : List Char) : Prop :=
  ∃ lead word rest, lead ++ (word ++ rest) = cs ∧ Lead lead ∧
    word.map Char.toUpper = k.text.toList ∧ ∀ c ∈ rest.head?, c.isAlphanum = false ∧ c ≠ '_'

theorem avoids_continuesWord_iff {rest : List Char} :
    Text.Avoids continuesWord rest ↔ ∀ c ∈ rest.head?, c.isAlphanum = false ∧ c ≠ '_' := by
  simp only [Text.Avoids, continuesWord, Bool.or_eq_false_iff, beq_eq_false_iff_ne]

/-! ## Comments -/

theorem skipFrom_nil (place : Place) : skipFrom place [] = [] := by
  cases place <;> rfl

/-- A line comment is skipped up to its first newline. -/
theorem skipFrom_line_eq (cs : List Char) :
    skipFrom .line cs = skipFrom .statement (afterLine cs) := by
  induction cs with
  | nil => rfl
  | cons c cs ih =>
    by_cases newline : c = '\n'
    · subst newline
      rfl
    · have more : afterLine (c :: cs) = afterLine cs := by simp [afterLine, newline]
      rw [skipFrom_line newline, more, ih]

/-- A block comment is skipped up to its first end. -/
theorem skipFrom_block_eq (cs : List Char) :
    skipFrom .block cs = skipFrom .statement (afterBlock cs) := by
  fun_induction afterBlock cs with
  | case1 => rfl
  | case2 rest => rfl
  | case3 c rest inside ih =>
    rw [skipFrom_block, ih]
    rintro more rfl rfl
    exact inside more rfl rfl

theorem afterLine_append {inside : List Char} (open_ : '\n' ∉ inside) (more : List Char) :
    afterLine (inside ++ '\n' :: more) = more := by
  have all : ∀ c ∈ inside, (c != '\n') = true := by
    intro c there
    exact bne_iff_ne.mpr fun same => open_ (same ▸ there)
  rw [afterLine, List.dropWhile_append_of_pos all]
  rfl

theorem afterLine_of_open {inside : List Char} (open_ : '\n' ∉ inside) :
    afterLine inside = [] := by
  rw [afterLine, List.drop_eq_nil_iff]
  have none : inside.dropWhile (· != '\n') = [] := by
    refine List.dropWhile_eq_nil_iff.mpr ?_
    intro c there
    exact bne_iff_ne.mpr fun same => open_ (same ▸ there)
  rw [none]
  exact Nat.zero_le 1

/-- A first character that closes nothing together with the next one. -/
theorem not_closing_of_open {c : Char} {inside : List Char}
    (open_ : ¬ ['*', '/'] <:+: c :: inside) :
    ¬ ['*', '/'] <:+: inside ∧ ∀ more, c = '*' → inside ≠ '/' :: more := by
  refine ⟨fun later => open_ (List.infix_cons later), ?_⟩
  rintro more rfl rfl
  exact open_ ⟨[], more, rfl⟩

theorem afterBlock_cons {c : Char} {cs : List Char} (h : ∀ more, c = '*' → cs ≠ '/' :: more) :
    afterBlock (c :: cs) = afterBlock cs := by
  conv => lhs; unfold afterBlock
  split <;> simp_all

theorem afterBlock_append {inside : List Char} (open_ : ¬ ['*', '/'] <:+: inside)
    (more : List Char) : afterBlock (inside ++ '*' :: '/' :: more) = more := by
  induction inside with
  | nil => rfl
  | cons c inside ih =>
    obtain ⟨later, apart⟩ := not_closing_of_open open_
    rw [List.cons_append, afterBlock_cons, ih later]
    rintro tail star slash
    cases inside with
    | nil => cases slash
    | cons d inside => exact apart inside star (congrArg (· :: inside) (List.cons.inj slash).1)

theorem afterBlock_of_open {inside : List Char} (open_ : ¬ ['*', '/'] <:+: inside) :
    afterBlock inside = [] := by
  induction inside with
  | nil => rfl
  | cons c inside ih =>
    obtain ⟨later, apart⟩ := not_closing_of_open open_
    rw [afterBlock_cons apart, ih later]

/-! ## Leads are skipped, and nothing else is -/

/-- **A lead is skipped in front of every text.** -/
theorem skipFrom_lead {lead : List Char} (h : Lead lead) (cs : List Char) :
    skipFrom .statement (lead ++ cs) = skipFrom .statement cs := by
  induction h with
  | nil => rfl
  | blank blank _ ih => rw [List.cons_append, skipFrom_blank (Text.isBlank_iff.mpr blank), ih]
  | @line inside more open_ _ ih =>
    show skipFrom .line (inside ++ '\n' :: more ++ cs) = _
    rw [List.append_assoc, List.cons_append, skipFrom_line_eq, afterLine_append open_, ih]
  | @block inside more open_ _ ih =>
    show skipFrom .block (inside ++ '*' :: '/' :: more ++ cs) = _
    rw [List.append_assoc, List.cons_append, List.cons_append, skipFrom_block_eq,
      afterBlock_append open_, ih]

/-- After an unfinished comment nothing is left. -/
theorem skipFrom_unfinished {cs : List Char} (h : Unfinished cs) : skipFrom .statement cs = [] := by
  cases h with
  | @line inside open_ =>
    show skipFrom .line inside = []
    rw [skipFrom_line_eq, afterLine_of_open open_, skipFrom_nil]
  | @block inside open_ =>
    show skipFrom .block inside = []
    rw [skipFrom_block_eq, afterBlock_of_open open_, skipFrom_nil]

/-- What is skipped from a place on: the end of the comment, if one is open there, and a lead. -/
def Skipped : Place → List Char → Prop
  | .statement, cs => Lead cs
  | .line, cs => ∃ inside more, '\n' ∉ inside ∧ Lead more ∧ cs = inside ++ '\n' :: more
  | .block, cs => ∃ inside more, ¬ ['*', '/'] <:+: inside ∧ Lead more ∧
      cs = inside ++ '*' :: '/' :: more

/-- One more character inside a line comment. -/
theorem Skipped.line_cons {c : Char} {cs : List Char} (h : Skipped .line cs) (other : c ≠ '\n') :
    Skipped .line (c :: cs) := by
  obtain ⟨inside, more, open_, lead, rfl⟩ := h
  refine ⟨c :: inside, more, ?_, lead, rfl⟩
  intro there
  rcases List.mem_cons.mp there with same | there
  · exact other same.symm
  · exact open_ there

/-- One more character inside a block comment, if it does not close the comment. -/
theorem Skipped.block_cons {c : Char} {cs : List Char} (h : Skipped .block cs) (rest : List Char)
    (apart : ∀ more, c = '*' → cs ++ rest ≠ '/' :: more) : Skipped .block (c :: cs) := by
  obtain ⟨inside, more, open_, lead, rfl⟩ := h
  refine ⟨c :: inside, more, ?_, lead, rfl⟩
  intro there
  rcases List.infix_cons_iff.mp there with begins | later
  · -- the two characters are the new one and the first of the comment so far
    obtain ⟨same, begins⟩ := List.cons_prefix_cons.mp begins
    obtain ⟨tail, rfl⟩ := begins
    exact apart _ same.symm rfl
  · exact open_ later

/-- **What is skipped**: either everything, or the end of an open comment and a lead. -/
theorem exists_skipped (place : Place) (cs : List Char) :
    skipFrom place cs = [] ∨ ∃ p, Skipped place p ∧ p ++ skipFrom place cs = cs := by
  fun_induction skipFrom place cs with
  | case1 place => exact .inl rfl
  | case2 rest ih =>
    rcases ih with none | ⟨p, ⟨inside, more, open_, lead, rfl⟩, split⟩
    · exact .inl none
    · refine .inr ⟨_, Lead.line open_ lead, ?_⟩
      rw [List.cons_append, List.cons_append, split]
  | case3 rest ih =>
    rcases ih with none | ⟨p, ⟨inside, more, open_, lead, rfl⟩, split⟩
    · exact .inl none
    · refine .inr ⟨_, Lead.block open_ lead, ?_⟩
      rw [List.cons_append, List.cons_append, split]
  | case4 c rest _ _ blank ih =>
    rcases ih with none | ⟨p, lead, split⟩
    · exact .inl none
    · refine .inr ⟨c :: p, Lead.blank (Text.isBlank_iff.mp blank) lead, ?_⟩
      rw [List.cons_append, split]
  | case5 c rest => exact .inr ⟨[], Lead.nil, rfl⟩
  | case6 rest ih =>
    rcases ih with none | ⟨p, lead, split⟩
    · exact .inl none
    · refine .inr ⟨'\n' :: p, ⟨[], p, List.not_mem_nil, lead, rfl⟩, ?_⟩
      rw [List.cons_append, split]
  | case7 c rest other ih =>
    rcases ih with none | ⟨p, skipped, split⟩
    · exact .inl none
    · refine .inr ⟨c :: p, skipped.line_cons other, ?_⟩
      rw [List.cons_append, split]
  | case8 rest ih =>
    rcases ih with none | ⟨p, lead, split⟩
    · exact .inl none
    · refine .inr ⟨'*' :: '/' :: p, ⟨[], p, ?_, lead, rfl⟩, ?_⟩
      · intro there
        exact absurd there.length_le (by decide)
      · rw [List.cons_append, List.cons_append, split]
  | case9 c rest inside ih =>
    rcases ih with none | ⟨p, skipped, split⟩
    · exact .inl none
    · refine .inr ⟨c :: p, skipped.block_cons (skipFrom .block rest) ?_, ?_⟩
      · rw [split]
        exact fun more star => inside more star
      · rw [List.cons_append, split]

/-! ## The word of a kind -/

/-- What a letter is not. -/
theorem solid_of_toUpper {c : Char} (letter : c.toUpper.isUpper = true) :
    Text.isBlank c = false ∧ c ≠ '-' ∧ c ≠ '/' := by
  refine ⟨?_, ?_, ?_⟩
  · unfold Char.toUpper at letter
    split at letter
    · next lower =>
      have bounds : 97 ≤ c.toNat ∧ c.toNat ≤ 122 :=
        ⟨UInt32.le_iff_toNat_le.mp lower.1, UInt32.le_iff_toNat_le.mp lower.2⟩
      grind [Text.isBlank]
    · have upper := of_decide_eq_true letter
      have bounds : 65 ≤ c.toNat ∧ c.toNat ≤ 90 :=
        ⟨UInt32.le_iff_toNat_le.mp upper.1, UInt32.le_iff_toNat_le.mp upper.2⟩
      grind [Text.isBlank]
  · rintro rfl
    exact absurd letter (by decide)
  · rintro rfl
    exact absurd letter (by decide)

/-- The words are letters. -/
theorem exists_text_cons (k : Kind) : ∃ c cs, k.text.toList = c :: cs ∧ c.isUpper = true := by
  cases k <;> exact ⟨_, _, rfl, rfl⟩

/-- A word in any case is the start of a body. -/
theorem skipFrom_word {k : Kind} {word : List Char}
    (spelled : word.map Char.toUpper = k.text.toList) (rest : List Char) :
    skipFrom .statement (word ++ rest) = word ++ rest := by
  obtain ⟨first, letters, text, upper⟩ := exists_text_cons k
  cases word with
  | nil =>
    rw [text] at spelled
    cases spelled
  | cons c word =>
    rw [text, List.map_cons] at spelled
    obtain ⟨solid, noDash, noSlash⟩ := solid_of_toUpper ((List.cons.inj spelled).1 ▸ upper)
    rw [List.cons_append, skipFrom_cons, solid]
    · rfl
    · exact fun more dash => absurd dash noDash
    · exact fun more slash => absurd slash noSlash

theorem text_injective {j k : Kind} (same : j.text = k.text) : j = k := by
  revert same
  cases j <;> cases k <;> decide

/-- A body starts with one word at most, because all words have six letters. -/
theorem startsWith_unique {j k : Kind} {cs : List Char} (hj : j ≠ .other) (hk : k ≠ .other)
    (first : startsWith j.text.toList cs = true) (second : startsWith k.text.toList cs = true) :
    j = k := by
  obtain ⟨spellsFirst, -⟩ := (startsWith_iff _ _).mp first
  obtain ⟨spellsSecond, -⟩ := (startsWith_iff _ _).mp second
  rw [length_text hj] at spellsFirst
  rw [length_text hk] at spellsSecond
  exact text_injective (String.toList_inj.mp (spellsFirst.symm.trans spellsSecond))

/-- A body that starts with a word shows some kind. -/
theorem ofBody_ne_other {k : Kind} {cs : List Char} (named : k ≠ .other)
    (starts : startsWith k.text.toList cs = true) : ofBody cs ≠ .other := by
  unfold ofBody
  split
  · decide
  split
  · decide
  split
  · decide
  split
  · decide
  · next noSelect noInsert noUpdate noDelete =>
    cases k with
    | select => exact absurd starts noSelect
    | insert => exact absurd starts noInsert
    | update => exact absurd starts noUpdate
    | delete => exact absurd starts noDelete
    | other => exact absurd rfl named

/-- **A body shows a kind just when it starts with its word.** -/
theorem ofBody_eq_iff {k : Kind} (named : k ≠ .other) (cs : List Char) :
    ofBody cs = k ↔ startsWith k.text.toList cs = true := by
  constructor
  · rintro rfl
    exact startsWith_ofBody named
  · intro starts
    have shown := ofBody_ne_other named starts
    exact startsWith_unique shown named (startsWith_ofBody shown) starts

/-- **The body starts with the word of a kind just when the text shows the kind.** -/
theorem startsWith_body_iff (k : Kind) (cs : List Char) :
    startsWith k.text.toList (body cs) = true ↔ Shows k cs := by
  constructor
  · intro starts
    obtain ⟨spelled, ends⟩ := (startsWith_iff _ _).mp starts
    rcases exists_skipped .statement cs with none | ⟨lead, skipped, split⟩
    · obtain ⟨first, letters, text, -⟩ := exists_text_cons k
      rw [show body cs = [] from none, text] at spelled
      cases spelled
    · refine ⟨lead, (body cs).take k.text.toList.length, (body cs).drop k.text.toList.length, ?_,
        skipped, spelled, avoids_continuesWord_iff.mp ends⟩
      rw [List.take_append_drop]
      exact split
  · rintro ⟨lead, word, rest, rfl, skipped, spelled, ends⟩
    have found : body (lead ++ (word ++ rest)) = word ++ rest := by
      rw [body, skipFrom_lead skipped, skipFrom_word spelled]
    have long : k.text.toList.length = word.length := by
      rw [← spelled, List.length_map]
    rw [found, startsWith_iff, long, List.take_left, List.drop_left]
    exact ⟨spelled, avoids_continuesWord_iff.mpr ends⟩

/-! ## Rounds and bytes -/

theorem body_dropBlanks (cs : List Char) : body (Text.dropBlanks cs) = body cs := by
  induction cs with
  | nil => rfl
  | cons c cs ih =>
    rw [Text.dropBlanks, List.dropWhile_cons]
    split
    · next blank =>
      rw [body, body, skipFrom_blank blank]
      exact ih
    · rfl

/-- A comment that a text starts with is not part of its body. -/
theorem body_of_afterComment? {cs rest : List Char} (h : afterComment? cs = some rest) :
    body cs = body rest := by
  unfold afterComment? at h
  split at h
  · next inside =>
    cases h
    exact skipFrom_line_eq inside
  · next inside =>
    cases h
    exact skipFrom_block_eq inside
  · cases h

/-- A text that starts with neither a blank nor a comment is its own body. -/
theorem body_of_none {cs : List Char} (h : afterComment? (Text.dropBlanks cs) = none) :
    body (Text.dropBlanks cs) = Text.dropBlanks cs := by
  cases shape : Text.dropBlanks cs with
  | nil => rfl
  | cons c rest =>
    rw [shape] at h
    have solid : ¬ Text.isBlank c = true := by
      have first := List.head?_dropWhile_not Text.isBlank cs
      rw [← Text.dropBlanks, shape] at first
      exact Bool.eq_false_iff.mp first
    rw [body, skipFrom_cons, if_neg solid]
    · rintro more rfl rfl
      cases h
    · rintro more rfl rfl
      cases h

/-- **Rounds leave the body.** -/
theorem skipRounds_eq (cs : List Char) : skipRounds cs = body cs := by
  fun_induction skipRounds cs with
  | case1 cs rest comment ih => rw [ih, ← body_of_afterComment? comment, body_dropBlanks]
  | case2 cs none => rw [← body_of_none none, body_dropBlanks]

/-- The word of a kind takes as many bytes in every case. -/
theorem partAt?_of_spelled {k : Kind} {word : List Char}
    (spelled : word.map Char.toUpper = k.text.toList) (rest : List Char) :
    Utf8.partAt? (Utf8.length k.text.toList) (word ++ rest) = some (word, rest) := by
  refine Utf8.partAt?_eq_some_iff.mpr ⟨rfl, ?_⟩
  rw [Utf8.length_eq_length (utf8Size_of_spelled spelled),
    Utf8.length_eq_length fun c => utf8Size_of_mem_text k, ← spelled, List.length_map]

/-- **Bytes and characters find the same word**, and the question always has an answer. -/
theorem startsAt?_eq (k : Kind) (cs : List Char) :
    startsAt? k.text.toList cs = some (startsWith k.text.toList cs) := by
  by_cases spelled : (cs.take k.text.toList.length).map Char.toUpper = k.text.toList
  · have found := partAt?_of_spelled spelled (cs.drop k.text.toList.length)
    rw [List.take_append_drop] at found
    have same : (List.map Char.toUpper (cs.take k.text.toList.length) == k.text.toList) = true :=
      beq_iff_eq.mpr spelled
    rw [startsAt?, startsWith, found, same, Bool.true_and]
    exact if_pos spelled
  · have unlike : (List.map Char.toUpper (cs.take k.text.toList.length) == k.text.toList) = false :=
      beq_eq_false_iff_ne.mpr spelled
    rw [startsAt?, startsWith, unlike, Bool.false_and]
    split
    · rfl
    · next first found =>
      -- what the bytes spell, the characters spell too
      refine if_neg fun spells => spelled ?_
      obtain ⟨⟨a, b⟩, cut, rfl⟩ := Option.map_eq_some_iff.mp found
      obtain ⟨rfl, -⟩ := Utf8.partAt?_eq_some_iff.mp cut
      have long : k.text.toList.length = a.length := by rw [← spells, List.length_map]
      rw [long, List.take_left]
      exact spells

/-- **The reader by rounds and bytes gives a kind for every text**, and the same one. -/
theorem detect?_eq (sql : String) : detect? sql = some (ofSql sql) := by
  have words : ofSql sql =
      if startsWith Kind.select.text.toList (body sql.toList) then .select
      else if startsWith Kind.insert.text.toList (body sql.toList) then .insert
      else if startsWith Kind.update.text.toList (body sql.toList) then .update
      else if startsWith Kind.delete.text.toList (body sql.toList) then .delete
      else .other := rfl
  rw [words, detect?]
  simp only [skipRounds_eq, startsAt?_eq, Option.bind_eq_bind, Option.bind_some, Option.pure_def]
  split
  · rfl
  split
  · rfl
  split
  · rfl
  split
  · rfl
  · rfl

/-! ## The kind of a text -/

/-- **Kinds by grammar.**  Every text has a kind, which is found without a cut inside a character.
The kind is one of the four just when the text shows it, and `other` just when the text shows none.
A lead in front changes nothing, and an unfinished comment, with or without a lead before it, shows
no kind. -/
theorem ofSql_iff_shows (sql : String) :
    detect? sql = some (ofSql sql) ∧
      (∀ k, k ≠ .other → (ofSql sql = k ↔ Shows k sql.toList)) ∧
      (ofSql sql = .other ↔ ∀ k, k ≠ .other → ¬ Shows k sql.toList) ∧
      (∀ lead : String, Lead lead.toList → ofSql (lead ++ sql) = ofSql sql) ∧
      (∀ lead : String, Lead lead.toList → Unfinished sql.toList →
        ofSql (lead ++ sql) = .other) := by
  have shows_iff : ∀ k, k ≠ .other → (ofSql sql = k ↔ Shows k sql.toList) := by
    intro k named
    exact (ofBody_eq_iff named _).trans (startsWith_body_iff k _)
  have skip : ∀ lead : String, Lead lead.toList → ofSql (lead ++ sql) = ofSql sql := by
    intro lead h
    show ofBody (body (lead ++ sql).toList) = ofBody (body sql.toList)
    rw [String.toList_append, body, skipFrom_lead h, body]
  refine ⟨detect?_eq sql, shows_iff, ?_, skip, ?_⟩
  · constructor
    · intro other k named shown
      exact named (((shows_iff k named).mpr shown).symm.trans other)
    · intro none
      by_contra shown
      exact none _ shown ((shows_iff _ shown).mp rfl)
  · intro lead h unfinished
    show ofBody (body (lead ++ sql).toList) = .other
    rw [String.toList_append, body, skipFrom_lead h, skipFrom_unfinished unfinished]
    rfl

/-- The star of an opener does not close the comment. -/
theorem ofSql_iff_shows_slashInComment :
    Lead "/*/ a */-- b\n".toList ∧ Unfinished "/*/ *".toList ∧
      ofSql ("/*/ a */-- b\n" ++ "select*") = .select ∧
      ofSql ("/*/ a */-- b\n" ++ "/*/ *") = .other := by
  have line : Lead "-- b\n".toList :=
    @Lead.line [' ', 'b'] [] (by decide) Lead.nil
  have lead : Lead "/*/ a */-- b\n".toList :=
    @Lead.block ['/', ' ', 'a', ' '] _ (by decide) line
  have unfinished : Unfinished "/*/ *".toList :=
    @Unfinished.block ['/', ' ', '*'] (by decide)
  obtain ⟨-, -, -, skip, -⟩ := ofSql_iff_shows "select*"
  obtain ⟨-, -, -, -, open_⟩ := ofSql_iff_shows "/*/ *"
  exact ⟨lead, unfinished, (skip _ lead).trans (by decide), open_ _ lead unfinished⟩

end Kind

end BoundSql
