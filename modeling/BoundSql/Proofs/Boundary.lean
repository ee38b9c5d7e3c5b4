import BoundSql.Monitor.Logging
import BoundSql.Proofs.Encoding
import BoundSql.Proofs.Truncation

/-!
# Cutting at a byte

`Utf8.cut` takes characters as long as they fit, and `Utf8.cutBytes?` steps back on the bytes of a
text until it stands between characters.  They give the same, and so stepping back never ends inside
a character, where there is no answer (`Utf8.cutBytes?_encode`).

What an index stands at is decided by one byte.  The first byte of a character is told from the
others (`Utf8.exists_encodeChar_cons`), so the indices between characters are those where a part of
the text ends (`Utf8.isBoundary_append`, `Utf8.isBoundary_inside`), and stepping back needs no other
fact about UTF-8.

Error messages and logged texts are cut with dots behind them.
-/

namespace BoundSql

namespace Utf8

/-! ## The bytes of a text -/

theorem continues_byte {n : Nat} (small : n < 256) :
    continues (byte n) = (decide (0x80 ≤ n) && decide (n < 0xC0)) := by
  rw [continues, toNat_byte small]

/-- **The bytes of a character**: as many as the core library counts, of which all but the first go
on with it. -/
theorem exists_encodeChar_cons (c : Char) :
    ∃ first more, encodeChar c = first :: more ∧ continues first = false ∧
      (∀ b ∈ more, continues b = true) ∧ more.length + 1 = c.utf8Size := by
  have valid : c.toNat < 0xD800 ∨ 0xDFFF < c.toNat ∧ c.toNat < 0x110000 := c.valid
  have size : c.utf8Size = if c.toNat < 0x80 then 1 else if c.toNat < 0x800 then 2
      else if c.toNat < 0x10000 then 3 else 4 := by
    simp only [Char.utf8Size, UInt32.le_iff_toNat_le, Char.toNat]
    grind
  have starts {n : Nat} (small : n < 256) (lead : n < 0x80 ∨ 0xC0 ≤ n) :
      continues (byte n) = false := by
    rw [continues_byte small]
    grind
  have goesOn (n : Nat) : continues (byte (0x80 + n % 64)) = true := by
    rw [continues_byte (by omega)]
    grind
  rw [encodeChar, size]
  split
  · exact ⟨_, _, rfl, starts (by omega) (by omega), List.forall_mem_nil _, rfl⟩
  split
  · exact ⟨_, _, rfl, starts (by omega) (by omega), by simp [goesOn], rfl⟩
  split
  · exact ⟨_, _, rfl, starts (by omega) (by omega), by simp [goesOn], rfl⟩
  · exact ⟨_, _, rfl, starts (by omega) (by omega), by simp [goesOn], rfl⟩

theorem length_flatMap_encodeChar (cs : List Char) :
    (cs.flatMap encodeChar).length = length cs := by
  induction cs with
  | nil => rfl
  | cons c cs ih =>
    obtain ⟨first, more, bytes, -, -, size⟩ := exists_encodeChar_cons c
    rw [List.flatMap_cons, List.length_append, ih, bytes, List.length_cons, size, length]

/-- An index between two parts of a text stands between characters. -/
theorem isBoundary_append (cs ds : List Char) :
    isBoundary ((cs ++ ds).flatMap encodeChar) (length cs) = true := by
  rw [isBoundary, List.flatMap_append, ← length_flatMap_encodeChar cs]
  cases ds with
  | nil => simp
  | cons d ds =>
    obtain ⟨first, more, bytes, starts, -⟩ := exists_encodeChar_cons d
    simp [List.flatMap_cons, bytes, starts]

/-- An index inside a character does not. -/
theorem isBoundary_inside (cs : List Char) (d : Char) (ds : List Char) {index : Nat}
    (after : length cs < index) (before : index < length cs + d.utf8Size) :
    isBoundary ((cs ++ d :: ds).flatMap encodeChar) index = false := by
  obtain ⟨first, more, bytes, -, goOn, size⟩ := exists_encodeChar_cons d
  obtain ⟨k, rfl⟩ : ∃ k, index = length cs + (k + 1) := ⟨index - length cs - 1, by omega⟩
  have short : k < more.length := by omega
  have there : ((cs ++ d :: ds).flatMap encodeChar)[length cs + (k + 1)]? = some more[k] := by
    rw [List.flatMap_append, ← length_flatMap_encodeChar cs,
      List.getElem?_append_right (Nat.le_add_right _ _), Nat.add_sub_cancel_left,
      List.flatMap_cons, bytes, List.cons_append, List.getElem?_cons_succ,
      List.getElem?_append_left short, List.getElem?_eq_getElem short]
  rw [isBoundary, there]
  simp [goOn]

/-- Stepping back ends at a boundary with none after it. -/
theorem stepBack_eq {bytes : List UInt8} {start limit : Nat} (le : start ≤ limit)
    (boundary : isBoundary bytes start = true)
    (none : ∀ index, start < index → index ≤ limit → isBoundary bytes index = false) :
    stepBack bytes limit = start := by
  induction limit with
  | zero => exact (Nat.le_zero.mp le).symm
  | succ limit ih =>
    rw [stepBack]
    rcases Nat.eq_or_lt_of_le le with rfl | less
    · rw [if_pos boundary]
    · rw [none (limit + 1) less (Nat.le_refl _)]
      exact ih (Nat.le_of_lt_succ less) fun index after before =>
        none index after (Nat.le_succ_of_le before)

/-- **Bytes and characters are cut alike**, and the bytes never inside a character. -/
theorem cutBytes?_encode (s : String) (limit : Nat) :
    cutBytes? (encode s) limit = some (encode (cut s limit)) := by
  have size : (encode s).length = length s.toList := length_flatMap_encodeChar s.toList
  rw [cutBytes?, size]
  split
  · next fits => rw [cut, take_eq_self fits, String.ofList_toList]
  · next long =>
    obtain ⟨d, ds, split, exceeds⟩ := exists_take_append (Nat.lt_of_not_le long)
    generalize taken : take limit s.toList = kept at split exceeds
    have fits : length kept ≤ limit := taken ▸ length_take_le limit s.toList
    have bytes : encode s = (kept ++ d :: ds).flatMap encodeChar := by rw [encode, split]
    have boundary : isBoundary (encode s) (length kept) = true := by
      rw [bytes]
      exact isBoundary_append kept (d :: ds)
    have stop : stepBack (encode s) limit = length kept := by
      refine stepBack_eq fits boundary fun index after before => ?_
      rw [bytes]
      exact isBoundary_inside kept d ds after (Nat.lt_of_le_of_lt before exceeds)
    rw [stop, slice?, if_pos boundary, bytes, List.flatMap_append,
      ← length_flatMap_encodeChar kept, List.take_left, encode, cut, taken, String.toList_ofList]

/-- Most of three bytes have to be stepped over. -/
example : stepBack (encode "n😀") 4 = 1 ∧ cutBytes? (encode "n😀") 4 = some (encode "n") := by
  decide

end Utf8

/-! ## Texts that are cut -/

open Monitor

/-- **Cutting a text.**  Stepping back on its bytes finds a place between characters, and the bytes
in front of it are those of the cut.  The cut is the one longest beginning within the limit, the
text itself just when this fits, and otherwise leaves fewer than four bytes of the limit free.  A
cut of a cut is a cut to the smaller limit.  So an error message of at most 512 bytes is kept whole,
a longer one is its cut to 512 bytes and three dots, and a logging monitor writes at most three
bytes more than its limit. -/
theorem Utf8.cut_longest_within (s : String) (limit : Nat) :
    (∃ bytes, cutBytes? (encode s) limit = some bytes ∧ decode bytes = .ok (cut s limit)) ∧
    (∀ shown, IsCut limit s shown ↔ shown = cut s limit) ∧
    (cut s limit = s ↔ s.utf8ByteSize ≤ limit) ∧
    (limit < s.utf8ByteSize → limit < (cut s limit).utf8ByteSize + 4) ∧
    (∀ other, cut (cut s limit) other = cut s (min limit other)) ∧
    (s.utf8ByteSize ≤ 512 → Result.ofError s = .error s) ∧
    (512 < s.utf8ByteSize →
      ∃ kept, IsCut 512 s kept ∧ Result.ofError s = .error (kept ++ "...")) ∧
    ∀ l : Logging, l.maxSqlLength? = some limit → (l.shown s).utf8ByteSize ≤ limit + 3 := by
  refine ⟨⟨_, cutBytes?_encode s limit, decode_encode _⟩, fun shown => isCut_iff,
    cut_eq_self_iff, lt_utf8ByteSize_cut, cut_cut s limit, fun short => ?_, fun long => ?_,
    fun l most => ?_⟩
  · exact congrArg Result.error (cutWithDots_of_le short)
  · exact ⟨cut s 512, isCut_cut 512 s, congrArg Result.error (cutWithDots_of_lt long)⟩
  · rw [Logging.shown, most]
    exact utf8ByteSize_cutWithDots_le s limit

/-- A character of two bytes is left out when only one of them fits, and of an error message of 601
bytes the beginning is kept. -/
theorem Utf8.cut_longest_within_accents :
    let long := String.ofList ('x' :: List.replicate 300 'é')
    let l : Logging := { maxSqlLength? := some 2 }
    (∃ bytes, cutBytes? (encode "né") 2 = some bytes ∧ decode bytes = .ok (cut "né" 2)) ∧
      cut "né" 2 = "n" ∧ 2 < (cut "né" 2).utf8ByteSize + 4 ∧ Result.ofError "né" = .error "né" ∧
      (∃ kept, IsCut 512 long kept ∧ Result.ofError long = .error (kept ++ "...")) ∧
      (l.shown "né").utf8ByteSize ≤ 5 := by
  intro long l
  have tooLong : 512 < long.utf8ByteSize := by
    rw [← length_eq_utf8ByteSize]
    decide +kernel
  obtain ⟨bytes, -, -, free, -, whole, -, most⟩ := cut_longest_within "né" 2
  obtain ⟨-, -, -, -, -, -, dotted, -⟩ := cut_longest_within long 512
  exact ⟨bytes, by decide, free (by decide), whole (by decide), dotted tooLong, most l rfl⟩

end BoundSql
