import BoundSql.Name
import BoundSql.Proofs.Placeholder

/-!
# Quoted text and aliases

An alias with a blank in it is stored in double quotes, with its own double quotes doubled.  Three
scans look at such a text, and none of them knows of the others.

* `Quoted.isQuoted` removes pairs of quotes from left to right and asks whether a quote remains.
* `Quoted.unquote?` takes the quotes off and undoes the doubling.
* The placeholder scanner toggles at each quote and has no notion of doubling at all.

The first two say the same (`isQuoted_eq_isSome`), because a quote remains exactly when some quote
stands alone; hence the quoted texts are those that `quote` writes (`isQuoted_iff`).  The third sees
a doubled quote as an end and a new beginning with nothing between, so it never leaves the quotes
(`Known.neutral_quote`), whatever the text holds.

Aliases are settled by these (`Name.checkAlias_quotes`): what is accepted, what is stored, and that
storing again changes nothing.
-/

namespace BoundSql

namespace Quoted

variable {q : Char}

/-! ## Doubling is undone -/

/-- A character other than the quote stands for itself. -/
theorem undouble?_cons_of_ne {c : Char} (h : c ≠ q) (cs : List Char) :
    undouble? q (c :: cs) = (undouble? q cs).map (c :: ·) := by
  cases cs with
  | nil => simp [undouble?, h]
  | cons d cs => simp [undouble?, h]

/-- **Doubled quotes are read back.** -/
theorem undouble?_double (cs : List Char) : undouble? q (double q cs) = some cs := by
  induction cs with
  | nil => rfl
  | cons c cs ih =>
    by_cases h : c = q
    · subst h
      simp [double, undouble?, ih]
    · rw [double, if_neg h, undouble?_cons_of_ne h, ih]
      rfl

/-- Only doubled quotes are read. -/
theorem eq_double_of_undouble? {cs t : List Char} (h : undouble? q cs = some t) :
    cs = double q t := by
  fun_induction undouble? q cs generalizing t with
  | case1 => cases h; rfl
  | case2 => cases h
  | case3 c other => cases h; simp [double, other]
  | case4 rest ih =>
    obtain ⟨u, read, rfl⟩ := Option.map_eq_some_iff.mp h
    rw [double, if_pos rfl, ih read]
  | case5 => cases h
  | case6 c d rest other ih =>
    obtain ⟨u, read, rfl⟩ := Option.map_eq_some_iff.mp h
    rw [double, if_neg other, ih read]

/-- A quote remains when pairs are removed just when some quote stands alone. -/
theorem mem_dropPairs_iff {cs : List Char} : q ∈ dropPairs q cs ↔ undouble? q cs = none := by
  fun_induction undouble? q cs with
  | case1 => simp [dropPairs]
  | case2 => simp [dropPairs]
  | case3 c other => simp [dropPairs, Ne.symm other]
  | case4 rest ih => simpa [dropPairs] using ih
  | case5 d rest alone => simp [dropPairs, alone]
  | case6 c d rest other ih => simpa [dropPairs, other, Ne.symm other] using ih

/-! ## Quotes are taken off -/

/-- The text that stands in quotes, its doubled quotes written once; `none` when the text is not
quoted. -/
def unquote? (q : Char) (s : String) : Option String :=
  ((inside? q s.toList).bind (undouble? q)).map String.ofList

theorem inside?_eq_some_iff {cs inner : List Char} :
    inside? q cs = some inner ↔ cs = q :: (inner ++ [q]) := by
  constructor
  · intro h
    cases cs with
    | nil => cases h
    | cons c rest =>
      rw [inside?] at h
      split at h
      · next ends =>
        obtain ⟨rfl, last⟩ := ends
        obtain ⟨before, rfl⟩ := List.getLast?_eq_some_iff.mp last
        cases h
        rw [List.dropLast_concat]
      · cases h
  · rintro rfl
    simp [inside?]

/-- **What is in quotes is what was quoted.** -/
theorem unquote?_eq_some_iff {s t : String} : unquote? q s = some t ↔ s = quote q t := by
  unfold unquote?
  constructor
  · intro h
    obtain ⟨cs, read, rfl⟩ := Option.map_eq_some_iff.mp h
    obtain ⟨inner, found, undoubled⟩ := Option.bind_eq_some_iff.mp read
    rw [← String.toList_inj, quote, String.toList_ofList, String.toList_ofList,
      inside?_eq_some_iff.mp found, eq_double_of_undouble? undoubled]
  · rintro rfl
    have found : inside? q (quote q t).toList = some (double q t.toList) := by
      rw [inside?_eq_some_iff, quote, String.toList_ofList]
    rw [found, Option.bind_some, undouble?_double, Option.map_some, String.ofList_toList]

theorem isQuoted_eq_isSome (s : String) : isQuoted q s = (unquote? q s).isSome := by
  unfold isQuoted unquote?
  cases inside? q s.toList with
  | none => rfl
  | some inner =>
    cases read : undouble? q inner with
    | none => simp [mem_dropPairs_iff, read]
    | some t => simp [mem_dropPairs_iff, read]

/-- **The quoted texts are the texts between quotes with every quote of their own doubled.** -/
theorem isQuoted_iff {s : String} : isQuoted q s = true ↔ ∃ t, s = quote q t := by
  rw [isQuoted_eq_isSome, Option.isSome_iff_exists]
  exact exists_congr fun t => unquote?_eq_some_iff

theorem isQuoted_quote (s : String) : isQuoted q (quote q s) = true :=
  isQuoted_iff.mpr ⟨s, rfl⟩

/-- A quoted text holds the characters of the text, and quotes. -/
theorem mem_quote {c : Char} {s : String} (h : c ∈ (quote q s).toList) :
    c = q ∨ c ∈ s.toList := by
  have doubled : ∀ cs : List Char, c ∈ double q cs → c = q ∨ c ∈ cs := by
    intro cs
    induction cs with
    | nil => intro h; cases h
    | cons d cs ih =>
      intro h
      rw [double] at h
      split at h <;> grind
  rw [quote, String.toList_ofList] at h
  rcases List.mem_cons.mp h with first | h
  · exact .inl first
  rcases List.mem_append.mp h with inner | last
  · exact doubled s.toList inner
  · exact .inl (List.mem_singleton.mp last)

/-! ## The placeholder scanner stays in quotes -/

section Scanner

open Placeholder

/-- The scanner knows the quote. -/
def Known (q : Char) : Prop :=
  q = '\'' ∨ q = '"'

/-- Outside quotes, a known quote opens quotes and is no placeholder. -/
theorem Known.opens (h : Known q) : step none q = some q ∧ q ≠ '?' := by
  rcases h with rfl | rfl
  · exact ⟨rfl, by decide⟩
  · exact ⟨rfl, by decide⟩

/-- Inside quotes, a text with doubled quotes has no placeholder and leaves the quotes open. -/
theorem Known.scan_double (h : Known q) (cs : List Char) :
    stateAfter (some q) (double q cs) = some q ∧ countFrom (some q) (double q cs) = 0 := by
  have closes : step (some q) q = none := if_pos rfl
  obtain ⟨opens, notSlot⟩ := h.opens
  induction cs with
  | nil => exact ⟨rfl, rfl⟩
  | cons c cs ih =>
    by_cases same : c = q
    · subst same
      unfold stateAfter at ih ⊢
      simpa [double, countFrom, closes, opens, notSlot] using ih
    · have inside : step (some q) c = some q := if_neg same
      unfold stateAfter at ih ⊢
      simpa [double, same, countFrom, inside] using ih

/-- **A quoted text is neutral**, whatever it quotes. -/
theorem Known.neutral_quote (h : Known q) (s : String) : Neutral (quote q s) := by
  obtain ⟨opens, notSlot⟩ := h.opens
  obtain ⟨inside, none⟩ := h.scan_double s.toList
  have closes : step (some q) q = .none := if_pos rfl
  constructor
  · rw [Placeholder.Balanced, quote, String.toList_ofList, stateAfter, List.foldl_cons, opens,
      ← stateAfter, stateAfter_append, inside]
    exact closes
  · rw [count, quote, String.toList_ofList, countFrom, opens, countFrom_append, inside, none]
    simp [countFrom, notSlot]

end Scanner

end Quoted

/-! ## Aliases -/

namespace Name

open Quoted

/-- The quote of aliases. -/
theorem known_aliasQuote : Known '"' :=
  .inr rfl

/-- The stored form of an alias. -/
theorem quotedAlias_eq (given : String) :
    (quotedAlias given = given ∧ (Text.hasBlank given = false ∨ isQuoted '"' given = true)) ∨
      quotedAlias given = quote '"' given ∧ Text.hasBlank given = true ∧
        isQuoted '"' given = false := by
  unfold quotedAlias
  cases isQuoted '"' given <;> cases Text.hasBlank given <;> simp

/-- The stored form is stored as it is. -/
theorem quotedAlias_quotedAlias (given : String) :
    quotedAlias (quotedAlias given) = quotedAlias given := by
  rcases quotedAlias_eq given with ⟨kept, -⟩ | ⟨quoted, -, -⟩
  · rw [kept, kept]
  · rw [quoted, quotedAlias, isQuoted_quote]
    rfl

/-- The stored form has a placeholder only when the alias has one and is kept unquoted. -/
theorem count_quotedAlias_eq_zero_iff (given : String) :
    Placeholder.count (quotedAlias given) = 0 ↔
      Text.hasBlank given = true ∨ isQuoted '"' given = true ∨ Placeholder.count given = 0 := by
  rcases quotedAlias_eq given with ⟨kept, plain | quoted⟩ | ⟨stored, blank, -⟩
  · rw [kept, plain]
    constructor
    · intro none
      exact .inr (.inr none)
    · rintro (blank | quoted | none)
      · cases blank
      · obtain ⟨t, rfl⟩ := isQuoted_iff.mp quoted
        exact (known_aliasQuote.neutral_quote t).count
      · exact none
  · obtain ⟨t, same⟩ := isQuoted_iff.mp quoted
    rw [kept, same]
    exact iff_of_true (known_aliasQuote.neutral_quote t).count (.inr (.inl (isQuoted_quote t)))
  · rw [stored]
    exact iff_of_true (known_aliasQuote.neutral_quote given).count (.inl blank)

/-- The stored form of an alias that is not blank is not blank. -/
theorem allBlank_quotedAlias {given : String} (h : Text.allBlank given = false) :
    Text.allBlank (quotedAlias given) = false := by
  rcases quotedAlias_eq given with ⟨kept, -⟩ | ⟨stored, -, -⟩
  · rwa [kept]
  · -- the quote in front is no blank
    have first : Text.isBlank '"' = false := by decide
    rw [stored, Text.allBlank, quote, String.toList_ofList, List.all_cons, first, Bool.false_and]

/-- The stored form holds no NUL that the alias does not hold. -/
theorem nul_not_mem_quotedAlias {given : String} (h : '\x00' ∉ given.toList) :
    '\x00' ∉ (quotedAlias given).toList := by
  rcases quotedAlias_eq given with ⟨kept, -⟩ | ⟨stored, -, -⟩
  · rwa [kept]
  · rw [stored]
    intro inside
    rcases mem_quote inside with nul | there
    · exact absurd nul (by decide)
    · exact h there

/-- When an alias is accepted, and as what. -/
theorem checkAlias_eq_ok_iff {given stored : String} :
    checkAlias given = .ok stored ↔
      (Text.allBlank given = false ∧ '\x00' ∉ given.toList ∧
        Placeholder.count (quotedAlias given) = 0) ∧ quotedAlias given = stored := by
  unfold checkAlias
  cases blank : Text.allBlank given <;> grind

/-- **Quoting of aliases.**  An alias is accepted just when it is not blank, holds no NUL, and holds
a blank, is quoted already, or has no placeholder.  The quoted texts are those between quotes with
their own quotes doubled.  An accepted alias is stored in quotes when it holds a blank and is not
quoted already, and taking the quotes off gives it back; otherwise it is stored as it is.  What is
stored in quotes has no placeholder and leaves no quote open, and what is stored is accepted again
as it is. -/
theorem checkAlias_quotes (given : String) :
    ((∃ stored, checkAlias given = .ok stored) ↔
      (∃ c ∈ given.toList, c.toNat ∉ Text.whiteSpace) ∧ '\x00' ∉ given.toList ∧
        ((∃ c ∈ given.toList, c.toNat ∈ Text.whiteSpace) ∨ isQuoted '"' given = true ∨
          Placeholder.count given = 0)) ∧
      (isQuoted '"' given = true ↔ ∃ t, given = quote '"' t) ∧
      ∀ stored, checkAlias given = .ok stored →
        ((∃ c ∈ given.toList, c.toNat ∈ Text.whiteSpace) → isQuoted '"' given = false →
          stored = quote '"' given ∧ unquote? '"' stored = some given) ∧
        ((∀ c ∈ given.toList, c.toNat ∉ Text.whiteSpace) ∨ isQuoted '"' given = true →
          stored = given) ∧
        (isQuoted '"' stored = true →
          Placeholder.count stored = 0 ∧ Placeholder.Balanced stored) ∧
        checkAlias stored = .ok stored := by
  rw [← Text.allBlank_eq_false_iff, ← Text.hasBlank_iff]
  refine ⟨?_, isQuoted_iff, ?_⟩
  · rw [← count_quotedAlias_eq_zero_iff]
    constructor
    · rintro ⟨stored, accepted⟩
      exact (checkAlias_eq_ok_iff.mp accepted).1
    · intro accepted
      exact ⟨quotedAlias given, checkAlias_eq_ok_iff.mpr ⟨accepted, rfl⟩⟩
  · intro stored accepted
    obtain ⟨⟨notBlank, noNul, none⟩, rfl⟩ := checkAlias_eq_ok_iff.mp accepted
    refine ⟨fun blank unquoted => ?_, fun plain => ?_, ?_, ?_⟩
    · rcases quotedAlias_eq given with ⟨-, none | quoted⟩ | ⟨quoted, -, -⟩
      · exact absurd (none.symm.trans blank) nofun
      · exact absurd (unquoted.symm.trans quoted) nofun
      · exact ⟨quoted, unquote?_eq_some_iff.mpr quoted⟩
    · rcases quotedAlias_eq given with ⟨kept, -⟩ | ⟨-, blank, unquoted⟩
      · exact kept
      · rcases plain with none | quoted
        · obtain ⟨c, inside, white⟩ := Text.hasBlank_iff.mp blank
          exact absurd white (none c inside)
        · exact absurd (unquoted.symm.trans quoted) nofun
    · intro quoted
      obtain ⟨t, same⟩ := isQuoted_iff.mp quoted
      rw [same]
      exact ⟨(known_aliasQuote.neutral_quote t).count, (known_aliasQuote.neutral_quote t).balanced⟩
    · rw [checkAlias_eq_ok_iff, quotedAlias_quotedAlias]
      exact ⟨⟨allBlank_quotedAlias notBlank, nul_not_mem_quotedAlias noNul, none⟩, rfl⟩

/-- A `?` is no reason to refuse an alias that is put in quotes, and quotes in it are doubled. -/
theorem checkAlias_quotes_doubled :
    checkAlias "\"A\" or ?" = .ok "\"\"\"A\"\" or ?\"" ∧
      unquote? '"' "\"\"\"A\"\" or ?\"" = some "\"A\" or ?" ∧
      Placeholder.count "\"\"\"A\"\" or ?\"" = 0 ∧
      checkAlias "\"\"\"A\"\" or ?\"" = .ok "\"\"\"A\"\" or ?\"" := by
  have accepted : checkAlias "\"A\" or ?" = .ok "\"\"\"A\"\" or ?\"" := rfl
  obtain ⟨-, -, known⟩ := checkAlias_quotes "\"A\" or ?"
  obtain ⟨form, -, neutral, again⟩ := known _ accepted
  exact ⟨accepted, (form ⟨' ', by decide, by decide⟩ (by decide)).2, (neutral (by decide)).1, again⟩

end Name

end BoundSql
