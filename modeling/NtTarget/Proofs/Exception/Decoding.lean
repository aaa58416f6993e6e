import NtTarget.Exception.Record

/-!
# What a stored exception record decodes to

Behind the code and the flags a stored record is a row of eighteen slots of its
pointer size: the chained record, the address, the parameter count and the
parameters.  Decoding never fails, and each value is read from its own slot.
-/

namespace NtTarget

theorem PointerWidth.recordSize_eq (width : PointerWidth) :
    width.recordSize = 8 + 18 * width.bytes := by
  cases width <;> rfl

namespace RawRecord

/-- The slot with a given index behind the code and the flags. -/
def slot (record : RawRecord) (index : Nat) : Bytes :=
  (record.bytes.drop (8 + index * record.width.bytes)).take record.width.bytes

def storedCode (record : RawRecord) : UInt32 :=
  Word.ofBytes (record.bytes.take 4)

def storedFlags (record : RawRecord) : UInt32 :=
  Word.ofBytes ((record.bytes.drop 4).take 4)

/-- The parameter count, in the first four bytes of its slot. -/
def storedCount (record : RawRecord) : UInt32 :=
  Word.ofBytes ((record.slot 2).take 4)

/-- The pointer in the slot with a given index. -/
def pointer (record : RawRecord) (index : Nat) : UInt64 :=
  PointerWidth.addressOf (record.slot index)

/-- The values of a stored record, each from its own slot. -/
def values (record : RawRecord) : ExceptionRecord where
  code := record.storedCode
  flags := ⟨record.storedFlags⟩
  record := record.pointer 0
  address := record.pointer 1
  parameterCount := record.storedCount
  parameters := (List.range (min record.storedCount.toNat ExceptionRecord.maxParameters)).map
    fun index => record.pointer (3 + index)

theorem length_bytes_eq (record : RawRecord) :
    record.bytes.length = 8 + 18 * record.width.bytes := by
  rw [record.length_bytes, record.width.recordSize_eq]

theorem length_front (record : RawRecord) : (record.bytes.take 8).length = 8 := by
  rw [List.length_take, length_bytes_eq]
  omega

/-- The bytes of the eighteen slots. -/
theorem length_slots (record : RawRecord) :
    (record.bytes.drop 8).length = record.width.bytes * 18 := by
  rw [List.length_drop, length_bytes_eq]
  omega

theorem length_slot {record : RawRecord} {index : Nat} (inside : index < 18) :
    (record.slot index).length = record.width.bytes := by
  have within : (index + 1) * record.width.bytes ≤ 18 * record.width.bytes :=
    Nat.mul_le_mul_right _ inside
  rw [Nat.succ_mul] at within
  unfold slot
  rw [List.length_take, List.length_drop, length_bytes_eq]
  omega

/-- Decoding a stored record always succeeds and takes every value from its own slot. -/
theorem decode_eq_values (record : RawRecord) : record.decode = .ok record.values := by
  have size := record.length_bytes_eq
  have four := record.width.four_le_bytes
  have capped : min record.storedCount.toNat ExceptionRecord.maxParameters ≤ 15 :=
    Nat.min_le_right _ _
  have within := Nat.mul_le_mul_right record.width.bytes capped
  have word : ∀ {position : Nat}, position + 4 ≤ record.bytes.length →
      (Reader.word UInt32).runOn ⟨record.bytes, position⟩ =
        (.ok (Word.ofBytes ((record.bytes.drop position).take 4)), ⟨record.bytes, position + 4⟩) :=
    Reader.runOn_word_at UInt32
  have count : Word.ofBytes ((record.bytes.drop
      (0 + 4 + 4 + record.width.bytes + record.width.bytes)).take 4) = record.storedCount := by
    unfold storedCount slot
    rw [List.take_take, Nat.min_eq_left four]
    exact congrArg (fun place => Word.ofBytes ((record.bytes.drop place).take 4)) (by omega)
  have first : 0 + 4 + 4 = 8 + 0 * record.width.bytes := by omega
  have second : 0 + 4 + 4 + record.width.bytes = 8 + 1 * record.width.bytes := by omega
  have later : ∀ index, 0 + 4 + 4 + record.width.bytes + record.width.bytes + 4 +
      (record.width.bytes - 4) + index * record.width.bytes =
        8 + (3 + index) * record.width.bytes := by
    intro index
    rw [Nat.add_mul]
    omega
  -- Each step is read at its own position; the positions are those of the slots.
  unfold decode Reader.outcome reader
  change (Reader.runOn _ ⟨record.bytes, 0⟩).1 = _
  rw [Reader.runOn_bind, word (by omega)]
  dsimp only
  rw [Reader.runOn_bind, word (by omega)]
  dsimp only
  rw [Reader.runOn_bind, Reader.runOn_pointer_at (by omega)]
  dsimp only
  rw [Reader.runOn_bind, Reader.runOn_pointer_at (by omega)]
  dsimp only
  rw [Reader.runOn_bind, word (by omega)]
  dsimp only
  rw [Reader.runOn_bind, Reader.runOn_advance_at (by omega)]
  dsimp only
  rw [count, Reader.runOn_bind, Reader.runOn_pointers_at (by omega)]
  dsimp only
  rw [Reader.runOn_pure]
  simp only [later]
  rw [second, first]
  rfl

end RawRecord

end NtTarget
