import Mathlib.Algebra.Group.Nat.Defs
import NtTarget.Proofs.Exception.Decoding

/-!
# Narrowing commutes with decoding

Narrowing keeps the code, the flags and the low half of every slot.  A slot of
the narrow record is therefore the low half of the same slot of the wide one,
and what it decodes to is reduced modulo `2 ^ 32`.  Narrowing forgets the high
halves and nothing else: any narrow record is reached from its zero extension.
-/

namespace NtTarget

/-- A pointer that is read from the first four bytes is the whole one modulo `2 ^ 32`. -/
theorem PointerWidth.toNat_addressOf_take {stored : Bytes} (size : stored.length = 8) :
    (addressOf (stored.take 4)).toNat = (addressOf stored).toNat % 2 ^ 32 := by
  have small := LittleEndian.value_lt stored
  rw [size] at small
  have whole := UInt64.toNat_ofNat_of_lt' small
  have low : LittleEndian.value (stored.take 4) = LittleEndian.value stored % 2 ^ 32 :=
    LittleEndian.value_take 4 stored
  unfold addressOf
  rw [whole, low, UInt64.toNat_ofNat']
  omega

namespace RawRecord

/-! ## Halves of slots -/

theorem lowHalves_append {slot : Bytes} (size : slot.length = 8) (rest : Bytes) :
    lowHalves (slot ++ rest) = slot.take 4 ++ lowHalves rest := by
  match slot, size with
  | [_, _, _, _, _, _, _, _], _ => rfl

/-- A byte string of at least one slot starts with that slot. -/
theorem lowHalves_eq_append (data : Bytes) (some_slot : 8 ≤ data.length) :
    lowHalves data = data.take 4 ++ lowHalves (data.drop 8) := by
  have size : (data.take 8).length = 8 := List.length_take_of_le some_slot
  have halves := lowHalves_append size (data.drop 8)
  rw [List.take_append_drop, List.take_take] at halves
  exact halves

theorem take_drop_lowHalves {data : Bytes} {index : Nat} (inside : 8 * index + 8 ≤ data.length) :
    ((lowHalves data).drop (4 * index)).take 4 = (data.drop (8 * index)).take 4 := by
  have size : (data.take 4).length = 4 := List.length_take_of_le (by omega)
  induction index generalizing data with
  | zero =>
      rw [lowHalves_eq_append data (by omega)]
      exact List.take_left' size
  | succ index ih =>
      have deeper : 8 * index + 8 ≤ (data.drop 8).length := by
        rw [List.length_drop]
        omega
      have skipped := ih deeper (List.length_take_of_le (by omega))
      rw [List.drop_drop] at skipped
      rw [lowHalves_eq_append data (by omega), Nat.mul_succ, Nat.mul_succ, Nat.add_comm _ 4,
        Nat.add_comm _ 8, ← List.drop_drop, List.drop_left' size, skipped]

/-- The low halves are the same exactly when every slot has the same one. -/
theorem lowHalves_eq_iff {count : Nat} {left right : Bytes} (leftSize : left.length = 8 * count)
    (rightSize : right.length = 8 * count) :
    lowHalves left = lowHalves right ↔
      ∀ index < count, (left.drop (8 * index)).take 4 = (right.drop (8 * index)).take 4 := by
  constructor
  · intro same index inside
    rw [← take_drop_lowHalves (by omega), ← take_drop_lowHalves (by omega), same]
  · intro same
    induction count generalizing left right with
    | zero => rw [List.length_eq_zero_iff.1 leftSize, List.length_eq_zero_iff.1 rightSize]
    | succ count ih =>
        have first := same 0 (Nat.succ_pos count)
        have later : lowHalves (left.drop 8) = lowHalves (right.drop 8) := by
          refine ih ?_ ?_ ?_
          · rw [List.length_drop]
            omega
          · rw [List.length_drop]
            omega
          · intro index inside
            have next := same (index + 1) (Nat.succ_lt_succ inside)
            rw [Nat.mul_succ, Nat.add_comm] at next
            rw [List.drop_drop, List.drop_drop]
            exact next
        rw [lowHalves_eq_append left (by omega), lowHalves_eq_append right (by omega), later]
        exact congrArg (· ++ lowHalves (right.drop 8)) first

/-! ## Zero extension -/

/-- Every whole 4-byte word, followed by four zero bytes. -/
def zeroExtended : Bytes → Bytes
  | a :: b :: c :: d :: rest => a :: b :: c :: d :: 0 :: 0 :: 0 :: 0 :: zeroExtended rest
  | _ => []

theorem zeroExtended_append {word : Bytes} (size : word.length = 4) (rest : Bytes) :
    zeroExtended (word ++ rest) = word ++ [0, 0, 0, 0] ++ zeroExtended rest := by
  match word, size with
  | [_, _, _, _], _ => rfl

theorem length_zeroExtended {count : Nat} {words : Bytes} (size : words.length = 4 * count) :
    (zeroExtended words).length = 8 * count := by
  induction count generalizing words with
  | zero => rw [List.length_eq_zero_iff.1 size]; rfl
  | succ count ih =>
      have first : (words.take 4).length = 4 := List.length_take_of_le (by omega)
      have later : (words.drop 4).length = 4 * count := by
        rw [List.length_drop]
        omega
      rw [← List.take_append_drop 4 words, zeroExtended_append first, List.length_append,
        List.length_append, first, ih later]
      simp only [List.length_cons, List.length_nil]
      omega

/-- The low halves of extended words are the words. -/
theorem lowHalves_zeroExtended {count : Nat} {words : Bytes} (size : words.length = 4 * count) :
    lowHalves (zeroExtended words) = words := by
  induction count generalizing words with
  | zero => rw [List.length_eq_zero_iff.1 size]; rfl
  | succ count ih =>
      have first : (words.take 4).length = 4 := List.length_take_of_le (by omega)
      have later : (words.drop 4).length = 4 * count := by
        rw [List.length_drop]
        omega
      have whole : (words.take 4 ++ [0, 0, 0, 0]).length = 8 := by
        rw [List.length_append, first]
        rfl
      calc
        lowHalves (zeroExtended words)
          = lowHalves (zeroExtended (words.take 4 ++ words.drop 4)) := by
            rw [List.take_append_drop]
        _ = words.take 4 ++ lowHalves (zeroExtended (words.drop 4)) := by
            rw [zeroExtended_append first, lowHalves_append whole, List.take_left' first]
        _ = words := by rw [ih later, List.take_append_drop]

/-- The code and flags of a narrow record, then every later word with a zero high half. -/
def wideBytes (narrow : Bytes) : Bytes :=
  narrow.take 8 ++ zeroExtended (narrow.drop 8)

theorem length_wideBytes {narrow : Bytes} (size : narrow.length = 80) :
    (wideBytes narrow).length = 152 := by
  have words : (narrow.drop 8).length = 4 * 18 := by
    rw [List.length_drop, size]
  rw [wideBytes, List.length_append, length_zeroExtended words, List.length_take, size]
  rfl

/-- A record as a wide target stores it, zero extended; a wide one is left as it is. -/
def widened (record : RawRecord) : RawRecord :=
  match record with
  | ⟨.bits32, bytes, size⟩ => ⟨.bits64, wideBytes bytes, length_wideBytes size⟩
  | ⟨.bits64, bytes, size⟩ => ⟨.bits64, bytes, size⟩

theorem narrowed_widened {record : RawRecord} (narrow : record.width = .bits32) :
    record.widened.narrowed = record := by
  obtain ⟨width, bytes, size⟩ := record
  cases narrow
  have front := length_front ⟨.bits32, bytes, size⟩
  have words : (bytes.drop 8).length = 4 * 18 := length_slots ⟨.bits32, bytes, size⟩
  have same : narrowBytes (wideBytes bytes) = bytes := by
    rw [narrowBytes, wideBytes, List.take_left' front, List.drop_left' front,
      lowHalves_zeroExtended words, List.take_append_drop]
  unfold widened narrowed
  simp only [same]

/-! ## Narrow records -/

theorem slot_narrowed {record : RawRecord} (wide : record.width = .bits64) {index : Nat}
    (inside : index < 18) : record.narrowed.slot index = (record.slot index).take 4 := by
  obtain ⟨width, bytes, size⟩ := record
  cases wide
  have front := length_front ⟨.bits64, bytes, size⟩
  have slots : (bytes.drop 8).length = 8 * 18 := length_slots ⟨.bits64, bytes, size⟩
  change ((narrowBytes bytes).drop (8 + index * 4)).take 4 =
    ((bytes.drop (8 + index * 8)).take 8).take 4
  rw [narrowBytes, ← List.drop_drop, List.drop_left' front, Nat.mul_comm index 4,
    take_drop_lowHalves (by omega), List.drop_drop, List.take_take, Nat.mul_comm index 8]
  rfl

theorem take_narrowed {record : RawRecord} (wide : record.width = .bits64) :
    record.narrowed.bytes.take 8 = record.bytes.take 8 := by
  obtain ⟨width, bytes, size⟩ := record
  cases wide
  exact List.take_left' (length_front ⟨.bits64, bytes, size⟩)

theorem width_narrowed (record : RawRecord) : record.narrowed.width = .bits32 := by
  obtain ⟨width, bytes, size⟩ := record
  cases width <;> rfl

/-- Two wide records narrow to the same one exactly when no kept byte tells them apart. -/
theorem narrowed_eq_iff {left right : RawRecord} (leftWide : left.width = .bits64)
    (rightWide : right.width = .bits64) :
    left.narrowed = right.narrowed ↔
      left.bytes.take 8 = right.bytes.take 8 ∧
        ∀ slot < 19, 1 ≤ slot →
          (left.bytes.drop (8 * slot)).take 4 = (right.bytes.drop (8 * slot)).take 4 := by
  obtain ⟨leftWidth, leftBytes, leftSize⟩ := left
  obtain ⟨rightWidth, rightBytes, rightSize⟩ := right
  cases leftWide
  cases rightWide
  have fronts : (leftBytes.take 8).length = (rightBytes.take 8).length :=
    (length_front ⟨.bits64, leftBytes, leftSize⟩).trans
      (length_front ⟨.bits64, rightBytes, rightSize⟩).symm
  have leftSlots : (leftBytes.drop 8).length = 8 * 18 := length_slots ⟨.bits64, leftBytes, leftSize⟩
  have rightSlots : (rightBytes.drop 8).length = 8 * 18 :=
    length_slots ⟨.bits64, rightBytes, rightSize⟩
  have kept : (⟨.bits64, leftBytes, leftSize⟩ : RawRecord).narrowed =
      (⟨.bits64, rightBytes, rightSize⟩ : RawRecord).narrowed ↔
        narrowBytes leftBytes = narrowBytes rightBytes := by
    refine ⟨congrArg RawRecord.bytes, ?_⟩
    intro same
    unfold narrowed
    simp only [same]
  have behind : ∀ (bytes : Bytes) (index : Nat),
      (bytes.drop 8).drop (8 * index) = bytes.drop (8 * (index + 1)) := by
    intro bytes index
    rw [List.drop_drop, Nat.mul_succ, Nat.add_comm]
  rw [kept, narrowBytes, narrowBytes, List.append_eq_append_iff_of_size_eq_left fronts,
    lowHalves_eq_iff leftSlots rightSlots]
  refine and_congr_right fun _ => ?_
  constructor
  · intro same slot inside later
    obtain ⟨index, rfl⟩ := Nat.exists_eq_add_of_le' later
    have low := same index (by omega)
    rw [behind, behind] at low
    exact low
  · intro same index inside
    rw [behind, behind]
    exact same (index + 1) (Nat.succ_lt_succ inside) (Nat.le_add_left 1 index)

end RawRecord

namespace ExceptionRecord

/-- The address that the low half of a pointer names. -/
def lowHalf (pointer : UInt64) : UInt64 :=
  pointer.toUInt32.toUInt64

/-- A record with every pointer cut to its low half. -/
def narrowed (record : ExceptionRecord) : ExceptionRecord :=
  { record with
    record := lowHalf record.record
    address := lowHalf record.address
    parameters := record.parameters.map lowHalf }

theorem toNat_lowHalf (pointer : UInt64) : (lowHalf pointer).toNat = pointer.toNat % 2 ^ 32 := by
  rw [lowHalf, UInt32.toNat_toUInt64, UInt64.toNat_toUInt32]

theorem lowHalf_eq_self {pointer : UInt64} (small : pointer.toNat < 2 ^ 32) :
    lowHalf pointer = pointer := by
  rw [← UInt64.toNat_inj, toNat_lowHalf, Nat.mod_eq_of_lt small]

/-- A violation is the same while the access kind and the data address fit. -/
theorem violation?_narrowed {record : ExceptionRecord}
    (small : ∀ parameter ∈ record.parameters.take 2, parameter.toNat < 2 ^ 32) :
    record.narrowed.violation? = record.violation? := by
  have kind : record.narrowed.kind? = record.kind? := rfl
  unfold violation?
  rw [kind]
  split
  · unfold narrowed
    dsimp only
    cases known : record.parameters with
    | nil => rfl
    | cons access rest =>
        cases rest with
        | nil => rfl
        | cons address others =>
            rw [known] at small
            obtain ⟨accessSmall, addressSmall⟩ := List.forall_mem_cons.1 small
            have addressSmall := List.forall_mem_singleton.1 addressSmall
            rw [List.map_cons, List.map_cons, lowHalf_eq_self accessSmall,
              lowHalf_eq_self addressSmall]
  · rfl

end ExceptionRecord

namespace RawRecord

theorem pointer_narrowed {record : RawRecord} (wide : record.width = .bits64) {index : Nat}
    (inside : index < 18) :
    record.narrowed.pointer index = ExceptionRecord.lowHalf (record.pointer index) := by
  have size : (record.slot index).length = 8 := by
    rw [length_slot inside, wide]
    rfl
  unfold pointer
  rw [slot_narrowed wide inside, ← UInt64.toNat_inj, ExceptionRecord.toNat_lowHalf]
  exact PointerWidth.toNat_addressOf_take size

/-- The values of a narrow record are those of the wide one, its pointers cut. -/
theorem values_narrowed {record : RawRecord} (wide : record.width = .bits64) :
    record.narrowed.values = record.values.narrowed := by
  have front := take_narrowed wide
  have code : record.narrowed.storedCode = record.storedCode := by
    have both := congrArg (List.take 4) front
    rw [List.take_take, List.take_take] at both
    exact congrArg Word.ofBytes both
  have flags : record.narrowed.storedFlags = record.storedFlags := by
    have both := congrArg (List.drop 4) front
    rw [List.drop_take, List.drop_take] at both
    exact congrArg Word.ofBytes both
  have count : record.narrowed.storedCount = record.storedCount := by
    unfold storedCount
    rw [slot_narrowed wide (by decide), List.take_take]
    rfl
  unfold values ExceptionRecord.narrowed
  rw [code, flags, count, pointer_narrowed wide (by decide), pointer_narrowed wide (by decide)]
  dsimp only
  rw [List.map_map]
  congr 1
  refine List.map_congr_left fun index inside => ?_
  have few := List.mem_range.1 inside
  have capped : min record.storedCount.toNat ExceptionRecord.maxParameters ≤ 15 :=
    Nat.min_le_right _ _
  exact pointer_narrowed wide (by omega)

/--
Narrowing commutes with decoding: a wide record and its narrow form both decode,
to the same code, flags, count and kind, with every pointer of the narrow one
reduced modulo `2 ^ 32`, and to the same violation while that one fits.  Every
narrow record comes from its zero extension, and two wide ones narrow to the
same record exactly when their first 8 bytes and the low halves of all later
slots agree.
-/
theorem narrowing_commutes_with_decoding :
    (∀ raw : RawRecord, raw.width = .bits64 →
      raw.narrowed.width = .bits32 ∧
      ∃ wide narrow, raw.decode = .ok wide ∧ raw.narrowed.decode = .ok narrow ∧
        narrow.code = wide.code ∧ narrow.flags = wide.flags ∧
        narrow.parameterCount = wide.parameterCount ∧
        narrow.parameters.length = wide.parameters.length ∧ narrow.kind? = wide.kind? ∧
        narrow.record.toNat = wide.record.toNat % 2 ^ 32 ∧
        narrow.address.toNat = wide.address.toNat % 2 ^ 32 ∧
        narrow.parameters.map UInt64.toNat =
          wide.parameters.map (fun parameter => parameter.toNat % 2 ^ 32) ∧
        ((∀ parameter ∈ wide.parameters.take 2, parameter.toNat < 2 ^ 32) →
          narrow.violation? = wide.violation?)) ∧
    (∀ raw : RawRecord, raw.width = .bits32 →
      raw.widened.width = .bits64 ∧ raw.widened.narrowed = raw) ∧
    ∀ left right : RawRecord, left.width = .bits64 → right.width = .bits64 →
      (left.narrowed = right.narrowed ↔
        left.bytes.take 8 = right.bytes.take 8 ∧
          ∀ slot < 19, 1 ≤ slot →
            (left.bytes.drop (8 * slot)).take 4 = (right.bytes.drop (8 * slot)).take 4) := by
  refine ⟨?_, ?_, ?_⟩
  · intro raw wide
    refine ⟨raw.width_narrowed, raw.values, raw.values.narrowed, raw.decode_eq_values, ?_,
      rfl, rfl, rfl, List.length_map _, rfl, ExceptionRecord.toNat_lowHalf _,
      ExceptionRecord.toNat_lowHalf _, ?_, ExceptionRecord.violation?_narrowed⟩
    · rw [decode_eq_values, values_narrowed wide]
    · unfold ExceptionRecord.narrowed
      rw [List.map_map]
      exact List.map_congr_left fun parameter _ => ExceptionRecord.toNat_lowHalf parameter
  · intro raw narrow
    refine ⟨?_, narrowed_widened narrow⟩
    obtain ⟨width, bytes, size⟩ := raw
    cases narrow
    rfl
  · intro left right
    exact narrowed_eq_iff

/-- A failed write, with high halves in the slots that a narrow target does not keep. -/
def failedWrite (high : Nat) : RawRecord where
  width := .bits64
  bytes :=
    ([0x1C0000005, high * 2 ^ 32 + 0x8000, high * 2 ^ 32 + 0x401234, high * 2 ^ 32 + 2, 1,
      0xDEAD0000] ++ List.replicate 13 (high * 2 ^ 32)).flatMap (LittleEndian.encode 8)
  length_bytes := by
    simp [PointerWidth.recordSize]

/-- The narrow form reports the same write, at the low half of the address. -/
theorem failedWrite_narrowed :
    (failedWrite 0xA5A5).width = .bits64 ∧
      (∃ narrow, (failedWrite 0xA5A5).narrowed.decode = .ok narrow ∧
        narrow.address.toNat = 0x401234 ∧ narrow.violation? = some (.write, 0xDEAD0000)) ∧
      (failedWrite 0xA5A5).narrowed.widened.narrowed = (failedWrite 0xA5A5).narrowed ∧
      (failedWrite 0xA5A5).narrowed = (failedWrite 0).narrowed := by
  have known : (failedWrite 0xA5A5).decode = .ok
      ⟨0xC0000005, ⟨1⟩, 0xA5A500008000, 0xA5A500401234, 2, [1, 0xDEAD0000]⟩ := by
    rw [decode_eq_values]
    exact congrArg Except.ok (by decide +kernel)
  obtain ⟨decoding, widening, deciding⟩ := narrowing_commutes_with_decoding
  obtain ⟨narrowWidth, wide, narrow, decoded, narrowDecoded, -, -, -, -, -, -, address, -,
    violation⟩ := decoding (failedWrite 0xA5A5) rfl
  cases known.symm.trans decoded
  have small : ∀ parameter ∈ [1, 0xDEAD0000], UInt64.toNat parameter < 2 ^ 32 :=
    List.forall_mem_cons.2 ⟨by decide, List.forall_mem_singleton.2 (by decide)⟩
  refine ⟨rfl, ⟨narrow, narrowDecoded, address, ?_⟩, (widening _ narrowWidth).2, ?_⟩
  · rw [violation small]
    decide
  · exact (deciding (failedWrite 0xA5A5) (failedWrite 0) rfl rfl).2
      ⟨by decide +kernel, by decide +kernel⟩

end RawRecord

end NtTarget
