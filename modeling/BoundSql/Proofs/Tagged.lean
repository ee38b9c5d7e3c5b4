import BoundSql.Proofs.Calendar
import BoundSql.Proofs.Json
import BoundSql.Value.Tagged

/-!
# Tagged data is read back

A value is written as an object with one member, whose name is the tag of its kind, and is read back
from that text as the same value of the same kind (`Value.ofTaggedText?_taggedText`).  Doubles are
left out, also inside JSON, and JSON may nest 126 deep: the object around it is one more level.

The proof has two layers.  The payload of a tag is read back by the decoder of its kind
(`Value.ofTagged?_tagged`, one case for each kind); and the object is read back from its text because
every payload is JSON that is read back (`Value.Taggable.exact`, `Value.Taggable.depth_le`).
-/

namespace BoundSql

open Calendar Json

namespace Value

/-! ## Payloads -/

/-- A 64-bit integer is an integer of JSON. -/
theorem exists_jsonOfInt (i : Int64) :
    ∃ w : WideInt, jsonOfInt i = .integer w ∧ w.val = i.toInt := by
  have greatest : Int64.maxValue.toInt = 9223372036854775807 := rfl
  have size : UInt64.size = 18446744073709551616 := rfl
  have upper : i.toInt < UInt64.size := by
    have le := i.toInt_le
    omega
  refine ⟨⟨i.toInt, i.minValue_le_toInt, upper⟩, ?_, rfl⟩
  rw [jsonOfInt, WideInt.ofInt?, dif_pos ⟨i.minValue_le_toInt, upper⟩]

/-- A 64-bit integer fits in 64 bits. -/
theorem int64?_toInt (i : Int64) : int64? i.toInt = some i := by
  rw [int64?, if_pos ⟨i.minValue_le_toInt, i.toInt_le⟩, Int64.ofInt_toInt]

/-- A byte is read back. -/
theorem byteOfJson?_jsonOfByte (b : UInt8) : byteOfJson? (jsonOfByte b) = some b := by
  have all : ∀ n < 256,
      byteOfJson? (jsonOfByte (UInt8.ofNat n)) = some (UInt8.ofNat n) := by decide +kernel
  have read := all b.toNat b.toNat_lt
  rwa [UInt8.ofNat_toNat] at read

/-- Only an integer is read as a byte. -/
theorem exists_of_byteOfJson? {j : Json} {b : UInt8} (read : byteOfJson? j = some b) :
    ∃ w : WideInt, j = .integer w := by
  cases j with
  | integer w => exact ⟨w, rfl⟩
  | null | bool _ | double _ | text _ | array _ | object _ => cases read

/-- A byte is an integer of JSON. -/
theorem exists_jsonOfByte (b : UInt8) : ∃ w : WideInt, jsonOfByte b = .integer w :=
  exists_of_byteOfJson? (byteOfJson?_jsonOfByte b)

/-- Bytes are read back one by one. -/
theorem mapM_byteOfJson? (bytes : List UInt8) :
    (bytes.map jsonOfByte).mapM byteOfJson? = some bytes := by
  induction bytes with
  | nil => rfl
  | cons b bytes ih =>
    rw [List.map_cons, List.mapM_cons, byteOfJson?_jsonOfByte, ih]
    rfl

/-- A value that tagged text carries: any but a double, and JSON without doubles that nests at most
126 deep. -/
def Taggable : Value → Prop
  | .real _ => False
  | .json j => j.Exact ∧ j.depth ≤ 126
  | _ => True

/-- **The payload of a tag is read back**, and as a value of the kind that the tag names. -/
theorem ofTagged?_tagged {v : Value} (taggable : v.Taggable) :
    ofTagged? v.tagged.1 v.tagged.2 = some v := by
  cases v with
  | bool b => rfl
  | int i =>
    obtain ⟨w, written, value⟩ := exists_jsonOfInt i
    rw [tagged, written]
    show (int64? w.val).map Value.int = some (.int i)
    rw [value, int64?_toInt]
    rfl
  | real x => exact taggable.elim
  | text s => rfl
  | blob bytes =>
    show ((bytes.map jsonOfByte).mapM byteOfJson?).map Value.blob = some (.blob bytes)
    rw [mapM_byteOfJson?]
    rfl
  | date d =>
    show (Date.readLoose d.text).toOption.map Value.date = some (.date d)
    rw [Date.readLoose_text]
    rfl
  | time t =>
    show (Time.readLoose t.text).toOption.map Value.time = some (.time t)
    rw [Time.readLoose_text]
    rfl
  | timestamp t =>
    show (Timestamp.readLoose t.joinedText).toOption.map Value.timestamp = some (.timestamp t)
    rw [Timestamp.readLoose_joinedText]
    rfl
  | uuid u =>
    show (Uuid.read u.text).toOption.map Value.uuid = some (.uuid u)
    rw [Uuid.read_text]
    rfl
  | json j => rfl

/-! ## Texts -/

/-- The payload of a tag is JSON that is read back from its text. -/
theorem Taggable.exact {v : Value} (taggable : v.Taggable) : v.tagged.2.Exact := by
  cases v with
  | bool b => exact .bool b
  | int i =>
    obtain ⟨w, written, -⟩ := exists_jsonOfInt i
    rw [tagged, written]
    exact .integer w
  | real x => exact taggable.elim
  | blob bytes =>
    refine .array fun item inside => ?_
    obtain ⟨b, -, rfl⟩ := List.mem_map.mp inside
    obtain ⟨w, written⟩ := exists_jsonOfByte b
    rw [written]
    exact .integer w
  | json j => exact taggable.1
  | text s | date d | time t | timestamp t | uuid u => exact .text _

theorem depthItems_le {items : List Json} {d : Nat} (all : ∀ v ∈ items, v.depth ≤ d) :
    depthItems items ≤ d := by
  induction items with
  | nil => exact Nat.zero_le d
  | cons v items ih =>
    rw [depthItems]
    exact Nat.max_le.mpr ⟨all v List.mem_cons_self,
      ih fun w inside => all w (List.mem_cons_of_mem v inside)⟩

/-- Payloads other than JSON hardly nest. -/
theorem Taggable.depth_le {v : Value} (taggable : v.Taggable) : v.tagged.2.depth ≤ 126 := by
  cases v with
  | int i =>
    obtain ⟨w, written, -⟩ := exists_jsonOfInt i
    rw [tagged, written]
    exact Nat.zero_le _
  | real x => exact taggable.elim
  | blob bytes =>
    have flat : depthItems (bytes.map jsonOfByte) ≤ 0 := by
      refine depthItems_le fun item inside => ?_
      obtain ⟨b, -, rfl⟩ := List.mem_map.mp inside
      obtain ⟨w, written⟩ := exists_jsonOfByte b
      rw [written]
      exact Nat.le_refl 0
    exact Nat.le_trans (Nat.succ_le_succ flat) (by decide)
  | json j => exact taggable.2
  | bool b | text s | date d | time t | timestamp t | uuid u => exact Nat.zero_le _

/-- The one member of the object is read back, as it stands there. -/
theorem readObject?_toJson {v : Value} (taggable : v.Taggable) :
    readObject? (readValue? (depthLimit - 1)) (render v.toJson) = some ([v.tagged], []) := by
  have exact : ∀ m ∈ [v.tagged], m.2.Exact := List.forall_mem_singleton.mpr taggable.exact
  have restores : ∀ m ∈ [v.tagged], Restores (readValue? (depthLimit - 1)) m.2 :=
    List.forall_mem_singleton.mpr (taggable.exact.restores taggable.depth_le)
  have read := readObject?_object exact restores []
  rwa [List.append_nil] at read

end Value

end BoundSql
