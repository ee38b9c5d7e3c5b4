import BoundSql.Proofs.Encoding

/-!
# JSON is read back

A value whose numbers are integers and whose objects have their members in order (`Json.Exact`) is
read back from its compact text, unless it nests too deep (`Json.Exact.parse?_compact`).  Doubles
are left out because two roundings take place when they are read.

`Json.Exact.restores` is the induction, on how a value is made up, for any depth that the reader
still goes and for any text that does not go on with a number.  The characters of a string are read
back one by one as they stand there (`readString?_escape`), an integer is read back from its digits
(`readNumber?_integer`), and arrays and objects item by item and member by member when the reader
restores each of them.  Members in order stay so when they are put into place one by one
(`ofMembers_of_ordered`).
-/

namespace BoundSql.Json

open Decimal Text

/-! ## Strings -/

/-- What is read after one character. -/
def withChar (c : Char) (found : Option (List Char × List Char)) : Option (List Char × List Char) :=
  found.map fun (tail, after) => (c :: tail, after)

/-- A character that is escaped by a letter. -/
theorem readString?_letter {letter c : Char} (stands : unescape? letter = some c) (fuel : Nat)
    (more : List Char) :
    readString? (fuel + 1) ('\\' :: letter :: more) = withChar c (readString? fuel more) := by
  have noUnit : letter ≠ 'u' := by
    rintro rfl
    cases stands
  rw [readString?, stands]
  · cases readString? fuel more <;> rfl
  · exact fun _ _ _ _ _ unit => absurd unit noUnit

/-- A character that is escaped by its number. -/
theorem readString?_control {c : Char} (control : c.toNat < 0x20) (fuel : Nat)
    (more : List Char) :
    readString? (fuel + 1)
      ('\\' :: 'u' :: '0' :: '0' :: hexDigit (c.toNat / 16) :: hexDigit (c.toNat % 16) :: more) =
      withChar c (readString? fuel more) := by
  have unit : hexWord? '0' '0' (hexDigit (c.toNat / 16)) (hexDigit (c.toNat % 16)) =
      some c.toNat := by
    have zero : hexValue? '0' = some 0 := by decide
    have value : (0 * 16 + 0) * 16 + c.toNat / 16 = c.toNat / 16 := by omega
    rw [hexWord?, zero, hexValue?_hexDigit (by omega), hexValue?_hexDigit (by omega)]
    exact congrArg some (by omega)
  have noLead : ¬(0xD800 ≤ c.toNat ∧ c.toNat < 0xDC00) := by omega
  have noTrail : ¬(0xDC00 ≤ c.toNat ∧ c.toNat < 0xE000) := by omega
  rw [readString?, unit]
  simp only [Option.bind_eq_bind, Option.bind_some, noLead, noTrail, if_false, Char.ofNat_toNat]
  cases readString? fuel more <;> rfl

/-- A character that stands for itself. -/
theorem readString?_literal {c : Char} (quote : c ≠ '"') (backslash : c ≠ '\\')
    (printed : ¬ c.toNat < 0x20) (fuel : Nat) (more : List Char) :
    readString? (fuel + 1) (c :: more) = withChar c (readString? fuel more) := by
  rw [readString?]
  · rw [if_neg (not_or.mpr ⟨backslash, printed⟩)]
    cases readString? fuel more <;> rfl
  · exact quote
  · exact fun _ _ _ _ _ first => absurd first backslash
  · exact fun _ _ first => absurd first backslash

/-- How a character stands in a string: by a letter, by its number, or for itself. -/
theorem escape_cases (c : Char) :
    (∃ letter, escape c = ['\\', letter] ∧ unescape? letter = some c) ∨
    (c.toNat < 0x20 ∧
      escape c = ['\\', 'u', '0', '0', hexDigit (c.toNat / 16), hexDigit (c.toNat % 16)]) ∨
    (c ≠ '"' ∧ c ≠ '\\' ∧ ¬ c.toNat < 0x20 ∧ escape c = [c]) := by
  by_cases lettered : c ∈ ['"', '\\', '\n', '\t', '\r', '\x08', '\x0c']
  · simp only [List.mem_cons, List.not_mem_nil, or_false] at lettered
    rcases lettered with rfl | rfl | rfl | rfl | rfl | rfl | rfl <;> exact .inl ⟨_, rfl, rfl⟩
  · simp only [List.mem_cons, List.not_mem_nil, or_false, not_or] at lettered
    obtain ⟨quote, backslash, newline, tab, ret, back, feed⟩ := lettered
    by_cases control : c.toNat < 0x20 <;>
      simp [escape, quote, backslash, newline, tab, ret, back, feed, control]

/-- **One character** is read back as it stands in a string. -/
theorem readString?_escape (c : Char) (fuel : Nat) (more : List Char) :
    readString? (fuel + 1) (escape c ++ more) = withChar c (readString? fuel more) := by
  rcases escape_cases c with
    ⟨letter, escaped, stands⟩ | ⟨control, escaped⟩ | ⟨quote, backslash, printed, escaped⟩ <;>
    rw [escaped]
  · exact readString?_letter stands fuel more
  · exact readString?_control control fuel more
  · exact readString?_literal quote backslash printed fuel more

/-- Characters are read back up to the closing quote. -/
theorem readString?_escapes (cs : List Char) {fuel : Nat} (enough : cs.length < fuel)
    (rest : List Char) :
    readString? fuel (cs.flatMap escape ++ '"' :: rest) = some (cs, rest) := by
  induction cs generalizing fuel with
  | nil =>
    obtain ⟨fuel, rfl⟩ := Nat.exists_eq_succ_of_ne_zero (Nat.ne_of_gt enough)
    rfl
  | cons c cs ih =>
    obtain ⟨fuel, rfl⟩ := Nat.exists_eq_succ_of_ne_zero (Nat.ne_of_gt (Nat.zero_lt_of_lt enough))
    rw [List.flatMap_cons, List.append_assoc, readString?_escape,
      ih (Nat.lt_of_succ_lt_succ enough)]
    rfl

theorem length_le_flatMap_escape (cs : List Char) : cs.length ≤ (cs.flatMap escape).length := by
  induction cs with
  | nil => exact Nat.le_refl _
  | cons c cs ih =>
    have one : 1 ≤ (escape c).length := by
      rcases escape_cases c with ⟨letter, escaped, -⟩ | ⟨-, escaped⟩ | ⟨-, -, -, escaped⟩ <;>
        simp [escaped]
    rw [List.flatMap_cons, List.length_append, List.length_cons]
    omega

/-- **A string is read back** after its opening quote. -/
theorem readString?_renderString (s : String) (rest : List Char) :
    readString? ((s.toList.flatMap escape ++ ['"'] ++ rest).length + 1)
      (s.toList.flatMap escape ++ ['"'] ++ rest) = some (s.toList, rest) := by
  have enough := length_le_flatMap_escape s.toList
  rw [List.append_assoc]
  refine readString?_escapes s.toList ?_ rest
  rw [List.length_append]
  omega

/-! ## Numbers -/

/-- Digits do not start with a zero unless they write it. -/
theorem head?_digits {n : Nat} (nonzero : n ≠ 0) : (digits n).head? ≠ some '0' := by
  induction n using Nat.strongRecOn with
  | ind n ih =>
    rcases Nat.lt_or_ge n 10 with small | large
    · have all : ∀ n < 10, n ≠ 0 → (digits n).head? ≠ some '0' := by decide
      exact all n small nonzero
    · have first : (digits n).head? = (digits (n / 10)).head? := by
        obtain ⟨d, ds, written⟩ := List.exists_cons_of_ne_nil (digits_ne_nil (n / 10))
        rw [written, digits, Nat.toDigits_of_base_le (by decide) large, ← digits, written]
        rfl
      rw [first]
      exact ih (n / 10) (by omega) (by omega)

theorem le_ofDigitsFrom (acc : Nat) (cs : List Char) : acc ≤ ofDigitsFrom acc cs := by
  induction cs generalizing acc with
  | nil => exact Nat.le_refl _
  | cons c cs ih =>
    have later := ih (acc * 10 + digitValue c)
    rw [ofDigitsFrom, List.foldl_cons, ← ofDigitsFrom]
    omega

/-- All digits are taken when the number they write fits. -/
theorem absorb_eq {acc : Nat} {cs : List Char} (fits : ofDigitsFrom acc cs < UInt64.size) :
    absorb acc cs = (ofDigitsFrom acc cs, cs.length) := by
  induction cs generalizing acc with
  | nil => rfl
  | cons c cs ih =>
    have later : ofDigitsFrom (acc * 10 + digitValue c) cs < UInt64.size := fits
    rw [absorb, if_pos (Nat.lt_of_le_of_lt (le_ofDigitsFrom _ cs) later), ih later]
    rfl

/-- Whether a character goes on with a number. -/
def continues (c : Char) : Bool :=
  isDigit c || c == '.' || c == 'e' || c == 'E'

/-- A fraction is only read after a point. -/
theorem fraction?_of_avoids {rest : List Char} (ends : Avoids continues rest) :
    fraction? rest = some (none, rest) := by
  rw [fraction?]
  rintro more rfl
  exact absurd (ends '.' rfl) (by decide)

/-- An exponent is only read after its letter. -/
theorem exponent?_of_avoids {rest : List Char} (ends : Avoids continues rest) :
    exponent? rest = some (none, rest) := by
  cases rest with
  | nil => rfl
  | cons c rest =>
    have noLetter : ¬(c = 'e' ∨ c = 'E') := by
      rintro (rfl | rfl) <;> exact absurd (ends _ rfl) (by decide)
    exact if_neg noLetter

/-- Digits that fit are read as a whole number when the number does not go on. -/
theorem readUnsigned?_digits (negative : Bool) {n : Nat} (fits : n < UInt64.size) {rest : List Char}
    (ends : Avoids continues rest) :
    readUnsigned? negative (digits n ++ rest) = (whole? negative n).map fun v => (v, rest) := by
  have noDigit : Avoids isDigit rest := by
    intro c first
    have other := ends c first
    simp only [continues, Bool.or_eq_false_iff] at other
    exact other.1.1.1
  have span : spanDigits (digits n ++ rest) = (digits n, rest) := by
    rw [spanDigits, takeWhile_append_of_avoids (fun _ => isDigit_of_mem_digits) noDigit,
      dropWhile_append_of_avoids (fun _ => isDigit_of_mem_digits) noDigit]
  have plain : ¬(digits n = [] ∨ ((digits n).head? = some '0' ∧ (digits n).length ≠ 1)) := by
    rintro (none | ⟨zero, long⟩)
    · exact digits_ne_nil n none
    · by_cases nothing : n = 0
      · subst nothing
        exact long rfl
      · exact head?_digits nothing zero
  have number : number? negative (digits n) none none = whole? negative n := by
    have value : ofDigitsFrom 0 (digits n) = n := ofDigits_digits n
    have taken : absorb 0 (digits n) = (n, (digits n).length) := by
      rw [absorb_eq (by rwa [value]), value]
    simp only [number?, taken, Nat.sub_self, if_true]
  rw [readUnsigned?, span]
  simp only [plain, if_false, fraction?_of_avoids ends, exponent?_of_avoids ends,
    Option.bind_eq_bind, Option.bind_some, number]
  cases whole? negative n <;> rfl

/-- The number that writes an integer is that integer. -/
theorem whole?_natAbs (i : WideInt) :
    whole? (decide (i.val < 0)) i.val.natAbs = some (.integer i) := by
  have lower := i.lower
  have upper := i.upper
  have self : WideInt.ofInt? i.val = some i := by
    rw [WideInt.ofInt?]
    exact dif_pos ⟨lower, upper⟩
  rw [whole?]
  by_cases negative : i.val < 0
  · have value : -(i.val.natAbs : Int) = i.val := by omega
    have nonzero : i.val.natAbs ≠ 0 := by omega
    simp only [negative, decide_true, if_true, nonzero, if_false, value, self]
  · have value : (i.val.natAbs : Int) = i.val := by omega
    simp only [negative, decide_false, Bool.false_eq_true, if_false, value, self]

/-- Digits are no sign of a number. -/
theorem readNumber?_digits (n : Nat) (rest : List Char) :
    readNumber? (digits n ++ rest) = readUnsigned? false (digits n ++ rest) := by
  obtain ⟨d, ds, written, digit⟩ := exists_digits_cons n
  rw [written, List.cons_append, readNumber?]
  rintro more minus
  cases minus
  exact absurd digit (by decide)

/-- **An integer is read back** when the number does not go on. -/
theorem readNumber?_integer (i : WideInt) {rest : List Char} (ends : Avoids continues rest) :
    readNumber? ((Decimal.integer i.val).toList ++ rest) = some (.integer i, rest) := by
  have fits : i.val.natAbs < UInt64.size := by
    have lower : -9223372036854775808 ≤ i.val := i.lower
    have upper : i.val < 18446744073709551616 := i.upper
    simp only [UInt64.size]
    omega
  have whole := whole?_natAbs i
  by_cases negative : i.val < 0
  · simp only [negative, decide_true] at whole
    rw [toList_integer_of_neg negative, List.cons_append, readNumber?,
      readUnsigned?_digits true fits ends, whole]
    rfl
  · simp only [negative, decide_false] at whole
    rw [toList_integer_of_not_neg negative, readNumber?_digits,
      readUnsigned?_digits false fits ends, whole]
    rfl

/-! ## Members in order -/

/-- Members stand in the order of their names, and no two of them share one. -/
def Ordered (members : List (String × Json)) : Prop :=
  members.Pairwise fun m n => nameBefore m.1 n.1 = true

/-- A member whose name stands after all others comes last. -/
theorem insert_last {name : String} {value : Json} {members : List (String × Json)}
    (last : ∀ m ∈ members, nameBefore m.1 name = true) :
    insert name value members = members ++ [(name, value)] := by
  induction members with
  | nil => rfl
  | cons m members ih =>
    have before : m.1.toList < name.toList := of_decide_eq_true (last m List.mem_cons_self)
    have other : name ≠ m.1 := by
      rintro rfl
      exact List.lt_irrefl _ before
    have after : ¬ nameBefore name m.1 = true := by
      rw [nameBefore, decide_eq_true_eq]
      exact List.lt_asymm before
    rw [insert, if_neg other, if_neg after,
      ih fun n inside => last n (List.mem_cons_of_mem m inside)]
    rfl

/-- Members that stand in order already are put in one by one. -/
theorem foldl_insert {sorted members : List (String × Json)}
    (ordered : Ordered (sorted ++ members)) :
    members.foldl (fun sorted m => insert m.1 m.2 sorted) sorted = sorted ++ members := by
  induction members generalizing sorted with
  | nil => exact (List.append_nil sorted).symm
  | cons m members ih =>
    have last : ∀ n ∈ sorted, nameBefore n.1 m.1 = true := fun n inside =>
      (List.pairwise_append.mp ordered).2.2 n inside m List.mem_cons_self
    have moved : sorted ++ m :: members = sorted ++ [m] ++ members := List.append_cons _ _ _
    rw [moved] at ordered ⊢
    rw [List.foldl_cons, insert_last last]
    exact ih ordered

theorem ofMembers_of_ordered {members : List (String × Json)} (ordered : Ordered members) :
    ofMembers members = .object members :=
  congrArg Json.object (foldl_insert (List.nil_append members ▸ ordered))

/-! ## Values -/

/-- Values whose numbers are integers and whose objects have their members in order. -/
inductive Exact : Json → Prop
  | null : Exact .null
  | bool (b : Bool) : Exact (.bool b)
  | integer (i : WideInt) : Exact (.integer i)
  | text (s : String) : Exact (.text s)
  | array {items : List Json} (all : ∀ v ∈ items, Exact v) : Exact (.array items)
  | object {members : List (String × Json)} (ordered : Ordered members)
      (all : ∀ m ∈ members, Exact m.2) : Exact (.object members)

/-- An integer starts with a minus sign or a digit. -/
theorem exists_integer_cons (i : Int) :
    ∃ c cs, (Decimal.integer i).toList = c :: cs ∧ (c = '-' ∨ isDigit c = true) := by
  by_cases negative : i < 0
  · exact ⟨_, _, toList_integer_of_neg negative, .inl rfl⟩
  · obtain ⟨d, ds, written, digit⟩ := exists_digits_cons i.natAbs
    exact ⟨d, ds, (toList_integer_of_not_neg negative).trans written, .inr digit⟩

/-- A character that no integer starts with. -/
theorem ne_of_starts_integer {c d : Char} (starts : c = '-' ∨ isDigit c = true)
    (minus : d ≠ '-') (noDigit : isDigit d = false) : c ≠ d := by
  rintro rfl
  rcases starts with rfl | digit
  · exact minus rfl
  · rw [noDigit] at digit
    cases digit

/-- A value starts with a character that is neither a blank nor the end of an array. -/
theorem Exact.exists_render_cons {v : Json} (exact : v.Exact) :
    ∃ c cs, render v = c :: cs ∧ isJsonBlank c = false ∧ c ≠ ']' := by
  cases exact with
  | null => exact ⟨_, _, rfl, rfl, by decide⟩
  | bool b => cases b <;> exact ⟨_, _, rfl, rfl, by decide⟩
  | integer i =>
    obtain ⟨c, cs, written, starts⟩ := exists_integer_cons i.val
    have other : ∀ d, d ≠ '-' → isDigit d = false → c ≠ d := fun d => ne_of_starts_integer starts
    refine ⟨c, cs, written, ?_, other ']' (by decide) rfl⟩
    simp only [isJsonBlank, Bool.or_eq_false_iff, beq_eq_false_iff_ne]
    exact ⟨⟨⟨other ' ' (by decide) rfl, other '\t' (by decide) rfl⟩, other '\n' (by decide) rfl⟩,
      other '\r' (by decide) rfl⟩
  | text s => exact ⟨_, _, rfl, rfl, by decide⟩
  | array all => exact ⟨_, _, rfl, rfl, by decide⟩
  | object ordered all => exact ⟨_, _, rfl, rfl, by decide⟩

/-- Only a number starts like an integer. -/
theorem readScalar?_integer (i : WideInt) {rest : List Char} (ends : Avoids continues rest) :
    readScalar? (render (.integer i) ++ rest) = some (.integer i, rest) := by
  obtain ⟨c, cs, written, starts⟩ := exists_integer_cons i.val
  have number := readNumber?_integer i ends
  rw [render]
  rw [written] at number ⊢
  have other : ∀ d, d ≠ '-' → isDigit d = false → c ≠ d := fun d => ne_of_starts_integer starts
  rw [List.cons_append, readScalar?, ← List.cons_append, number]
  all_goals exact fun _ same => other _ (by decide) rfl (List.head_eq_of_cons_eq same)

/-- A string is read back as a value. -/
theorem readScalar?_text (s : String) (rest : List Char) :
    readScalar? (render (.text s) ++ rest) = some (.text s, rest) := by
  rw [render, renderString, List.cons_append, readScalar?, readString?_renderString s rest]
  exact congrArg (fun s => some (Json.text s, rest)) String.ofList_toList

/-- What starts neither an array nor an object is no array and no object. -/
theorem readValue?_scalar (depth : Nat) {c : Char} (cs : List Char) (noArray : c ≠ '[')
    (noObject : c ≠ '\x7b') : readValue? depth (c :: cs) = readScalar? (c :: cs) := by
  cases depth with
  | zero =>
    rw [readValue?]
    · exact fun _ same => noArray (List.head_eq_of_cons_eq same)
    · exact fun _ same => noObject (List.head_eq_of_cons_eq same)
  | succ depth =>
    rw [readValue?]
    · exact fun _ same => noArray (List.head_eq_of_cons_eq same)
    · exact fun _ same => noObject (List.head_eq_of_cons_eq same)

/-- A reader restores a value from its text, when no number goes on after it. -/
def Restores (value : Reader) (v : Json) : Prop :=
  ∀ rest, Avoids continues rest → value (render v ++ rest) = some (v, rest)

theorem Exact.skip_render {v : Json} (exact : v.Exact) (rest : List Char) :
    skip (render v ++ rest) = render v ++ rest := by
  obtain ⟨c, cs, written, noBlank, -⟩ := exact.exists_render_cons
  rw [written]
  exact dropWhile_of_avoids (avoids_cons noBlank)

/-- Items are read back up to the closing bracket. -/
theorem readItems?_items {value : Reader} {v : Json} {items : List Json}
    (exact : ∀ w ∈ v :: items, w.Exact) (restores : ∀ w ∈ v :: items, Restores value w)
    {fuel : Nat} (enough : items.length < fuel) (rest : List Char) :
    readItems? value fuel (render v ++ (renderMoreItems items ++ ']' :: rest)) =
      some (v :: items, rest) := by
  induction items generalizing v fuel with
  | nil =>
    obtain ⟨fuel, rfl⟩ := Nat.exists_eq_succ_of_ne_zero (Nat.ne_of_gt enough)
    have read := restores v List.mem_cons_self (']' :: rest) (avoids_cons rfl)
    rw [readItems?, (exact v List.mem_cons_self).skip_render, renderMoreItems, List.nil_append,
      read]
    rfl
  | cons w items ih =>
    obtain ⟨fuel, rfl⟩ := Nat.exists_eq_succ_of_ne_zero (Nat.ne_of_gt (Nat.zero_lt_of_lt enough))
    have read := restores v List.mem_cons_self
      (',' :: (render w ++ renderMoreItems items) ++ ']' :: rest) (avoids_cons rfl)
    have later := ih (fun u inside => exact u (List.mem_cons_of_mem v inside))
      (fun u inside => restores u (List.mem_cons_of_mem v inside)) (Nat.lt_of_succ_lt_succ enough)
    rw [readItems?, (exact v List.mem_cons_self).skip_render, renderMoreItems, read]
    rw [← List.append_assoc] at later
    have comma : skip (',' :: (render w ++ renderMoreItems items) ++ ']' :: rest) =
      ',' :: ((render w ++ renderMoreItems items) ++ ']' :: rest) := rfl
    simp only [Option.bind_eq_bind, Option.bind_some, comma, later]
    rfl

/-- A member is read back. -/
theorem readMember?_member {value : Reader} {name : String} {v : Json} (exact : v.Exact)
    (restores : Restores value v) {rest : List Char} (ends : Avoids continues rest) :
    readMember? value (renderString name ++ ':' :: (render v ++ rest)) =
      some ((name, v), rest) := by
  have quote : skip (renderString name ++ ':' :: (render v ++ rest)) =
      renderString name ++ ':' :: (render v ++ rest) := rfl
  have colon : skip (':' :: (render v ++ rest)) = ':' :: (render v ++ rest) := rfl
  rw [readMember?, quote, renderString, List.cons_append]
  simp only [readString?_renderString, Option.bind_eq_bind,
    Option.bind_some, colon, exact.skip_render, restores rest ends]
  exact congrArg (fun name => some ((name, v), rest)) String.ofList_toList

/-- Members are read back up to the closing brace. -/
theorem readMembers?_members {value : Reader} {m : String × Json} {members : List (String × Json)}
    (exact : ∀ n ∈ m :: members, n.2.Exact) (restores : ∀ n ∈ m :: members, Restores value n.2)
    {fuel : Nat} (enough : members.length < fuel) (rest : List Char) :
    readMembers? value fuel (renderString m.1 ++
      ':' :: (render m.2 ++ (renderMoreMembers members ++ '\x7d' :: rest))) =
        some (m :: members, rest) := by
  induction members generalizing m fuel with
  | nil =>
    obtain ⟨fuel, rfl⟩ := Nat.exists_eq_succ_of_ne_zero (Nat.ne_of_gt enough)
    rw [readMembers?, renderMoreMembers, List.nil_append,
      readMember?_member (exact m List.mem_cons_self) (restores m List.mem_cons_self)
        (avoids_cons rfl)]
    rfl
  | cons n members ih =>
    obtain ⟨fuel, rfl⟩ := Nat.exists_eq_succ_of_ne_zero (Nat.ne_of_gt (Nat.zero_lt_of_lt enough))
    have later := ih (fun o inside => exact o (List.mem_cons_of_mem m inside))
      (fun o inside => restores o (List.mem_cons_of_mem m inside)) (Nat.lt_of_succ_lt_succ enough)
    have text : renderMoreMembers (n :: members) ++ '\x7d' :: rest =
        ',' :: (renderString n.1 ++ ':' :: (render n.2 ++ (renderMoreMembers members ++
          '\x7d' :: rest))) := by
      simp [renderMoreMembers]
    have comma : ∀ cs, skip (',' :: cs) = ',' :: cs := fun _ => rfl
    rw [readMembers?, text, readMember?_member (exact m List.mem_cons_self)
      (restores m List.mem_cons_self) (avoids_cons rfl)]
    simp only [Option.bind_eq_bind, Option.bind_some, comma, later]
    rfl

theorem length_le_renderMoreItems (items : List Json) :
    items.length ≤ (renderMoreItems items).length := by
  induction items with
  | nil => exact Nat.le_refl _
  | cons v items ih =>
    rw [renderMoreItems, List.length_cons, List.length_cons, List.length_append]
    omega

theorem length_le_renderMoreMembers (members : List (String × Json)) :
    members.length ≤ (renderMoreMembers members).length := by
  induction members with
  | nil => exact Nat.le_refl _
  | cons m members ih =>
    rw [renderMoreMembers, List.length_cons, List.length_cons, List.length_append, List.length_cons,
      List.length_append]
    omega

theorem depth_le_depthItems {v : Json} {items : List Json} (inside : v ∈ items) :
    v.depth ≤ depthItems items := by
  induction items with
  | nil => cases inside
  | cons w items ih =>
    rw [depthItems]
    rcases List.mem_cons.mp inside with rfl | later
    · exact Nat.le_max_left _ _
    · exact Nat.le_trans (ih later) (Nat.le_max_right _ _)

theorem depth_le_depthMembers {m : String × Json} {members : List (String × Json)}
    (inside : m ∈ members) : m.2.depth ≤ depthMembers members := by
  induction members with
  | nil => cases inside
  | cons n members ih =>
    rw [depthMembers]
    rcases List.mem_cons.mp inside with rfl | later
    · exact Nat.le_max_left _ _
    · exact Nat.le_trans (ih later) (Nat.le_max_right _ _)

/-- An array is read back when its items are. -/
theorem readValue?_array {depth : Nat} {items : List Json} (exact : ∀ v ∈ items, v.Exact)
    (restores : ∀ v ∈ items, Restores (readValue? depth) v) (rest : List Char) :
    readValue? (depth + 1) (render (.array items) ++ rest) = some (.array items, rest) := by
  cases items with
  | nil => rfl
  | cons v items =>
    obtain ⟨more, whole⟩ : ∃ more, render v ++ (renderMoreItems items ++ ']' :: rest) = more :=
      ⟨_, rfl⟩
    have text : render (.array (v :: items)) ++ rest = '[' :: more := by
      simp [render, renderItems, ← whole]
    have skipped : skip more = more := whole ▸ (exact v List.mem_cons_self).skip_render _
    have enough : items.length < more.length + 1 := by
      have least := length_le_renderMoreItems items
      simp only [← whole, List.length_append]
      omega
    have read := readItems?_items exact restores enough rest
    rw [whole] at read
    rw [text, readValue?, skipped]
    split
    -- The array would be empty if its first item started with the closing bracket.
    · obtain ⟨c, cs, written, -, noEnd⟩ := (exact v List.mem_cons_self).exists_render_cons
      rw [written] at whole
      exact absurd (List.head_eq_of_cons_eq whole) noEnd
    · rw [read]
      rfl

/-- Members of an object that is not empty are read back as they stand there. -/
theorem readObject?_object {value : Reader} {m : String × Json} {members : List (String × Json)}
    (exact : ∀ n ∈ m :: members, n.2.Exact) (restores : ∀ n ∈ m :: members, Restores value n.2)
    (rest : List Char) :
    readObject? value (render (.object (m :: members)) ++ rest) = some (m :: members, rest) := by
  let more := renderString m.1 ++
    ':' :: (render m.2 ++ (renderMoreMembers members ++ '\x7d' :: rest))
  have text : render (.object (m :: members)) ++ rest = '\x7b' :: more := by
    simp [render, renderMembers, more]
  have enough : members.length < more.length + 1 := by
    have least := length_le_renderMoreMembers members
    simp only [more, List.length_append, List.length_cons]
    omega
  rw [text]
  exact readMembers?_members exact restores enough rest

/-- An object is read back when its members are. -/
theorem readValue?_object {depth : Nat} {members : List (String × Json)}
    (ordered : Ordered members) (exact : ∀ m ∈ members, m.2.Exact)
    (restores : ∀ m ∈ members, Restores (readValue? depth) m.2) (rest : List Char) :
    readValue? (depth + 1) (render (.object members) ++ rest) = some (.object members, rest) := by
  cases members with
  | nil => rfl
  | cons m members =>
    have object := readObject?_object exact restores rest
    rw [render, List.cons_append] at object ⊢
    rw [readValue?, object]
    exact congrArg (fun v => some (v, rest)) (ofMembers_of_ordered ordered)

/-- **A value is read back** from its text by a reader that goes deep enough. -/
theorem Exact.restores {v : Json} (exact : v.Exact) {depth : Nat} (shallow : v.depth ≤ depth) :
    Restores (readValue? depth) v := by
  -- Items and members are read by a reader that goes one level less deep.
  induction exact generalizing depth with
  | null => exact fun rest _ => readValue?_scalar depth _ (by decide) (by decide)
  | bool b => cases b <;> exact fun rest _ => readValue?_scalar depth _ (by decide) (by decide)
  | integer i =>
    intro rest ends
    obtain ⟨c, cs, written, starts⟩ := exists_integer_cons i.val
    have read := readScalar?_integer i ends
    rw [render, written] at read ⊢
    exact (readValue?_scalar depth _ (ne_of_starts_integer starts (by decide) rfl)
      (ne_of_starts_integer starts (by decide) rfl)).trans read
  | text s =>
    exact fun rest _ =>
      (readValue?_scalar depth _ (by decide) (by decide)).trans (readScalar?_text s rest)
  | @array items all ih =>
    rw [Json.depth] at shallow
    obtain ⟨depth, rfl⟩ := Nat.exists_eq_succ_of_ne_zero (Nat.ne_of_gt (Nat.zero_lt_of_lt shallow))
    have restores : ∀ v ∈ items, Restores (readValue? depth) v := fun v inside =>
      ih v inside (Nat.le_trans (depth_le_depthItems inside) (Nat.le_of_succ_le_succ shallow))
    exact fun rest _ => readValue?_array all restores rest
  | @object members ordered all ih =>
    rw [Json.depth] at shallow
    obtain ⟨depth, rfl⟩ := Nat.exists_eq_succ_of_ne_zero (Nat.ne_of_gt (Nat.zero_lt_of_lt shallow))
    have restores : ∀ m ∈ members, Restores (readValue? depth) m.2 := fun m inside =>
      ih m inside (Nat.le_trans (depth_le_depthMembers inside) (Nat.le_of_succ_le_succ shallow))
    exact fun rest _ => readValue?_object ordered all restores rest

/-- **JSON is read back from its compact text**, when its numbers are integers, its members are in
order and it does not nest too deep. -/
theorem Exact.parse?_compact {v : Json} (exact : v.Exact) (shallow : v.depth ≤ depthLimit) :
    parse? v.compact = some v := by
  have skipped := exact.skip_render []
  have read := exact.restores shallow [] avoids_nil
  rw [List.append_nil] at skipped read
  rw [parse?, compact, String.toList_ofList, skipped, read]
  rfl

end BoundSql.Json
