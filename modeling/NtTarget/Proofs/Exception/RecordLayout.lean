import Mathlib.Data.List.Basic
import NtTarget.Proofs.Bytes.Ranges
import NtTarget.Proofs.Exception.Decoding

/-!
# The layout of exception records

A record is stored as its values in a row, with a gap behind the parameter
count on wide targets and with unused slots behind the parameters.  The stored
values and the bytes of the gap and of the unused slots make up the whole
record, and whatever those bytes are, the values read back.
-/

namespace NtTarget

namespace ExceptionRecord

/-- A record that can be stored for a pointer width: its count tells how many parameters it has. -/
structure IsStorable (record : ExceptionRecord) (width : PointerWidth) : Prop where
  chained : width.Fits record.record
  address : width.Fits record.address
  parameters : ∀ parameter ∈ record.parameters, width.Fits parameter
  counted : record.parameters.length = min record.parameterCount.toNat 15

/-- The bytes that a stored record has besides its values: the gap, and the unused slots. -/
structure Blanks where
  gap : Bytes
  unused : Bytes
  deriving DecidableEq

/-- The blanks around the values of a record have the sizes that the width leaves them. -/
structure Blanks.Fit (blanks : Blanks) (width : PointerWidth) (record : ExceptionRecord) :
    Prop where
  gap : blanks.gap.length = width.bytes - 4
  unused : blanks.unused.length = (15 - record.parameters.length) * width.bytes

/-- The bytes of a record, with the given bytes in the gap and in the unused slots. -/
def encode (record : ExceptionRecord) (width : PointerWidth) (blanks : Blanks) : Bytes :=
  Word.toBytes record.code ++ (Word.toBytes record.flags.bits ++
    (width.pointerBytes record.record ++ (width.pointerBytes record.address ++
      (Word.toBytes record.parameterCount ++ (blanks.gap ++
        (record.parameters.flatMap width.pointerBytes ++ blanks.unused))))))

variable {record : ExceptionRecord} {width : PointerWidth} {blanks : Blanks}

theorem length_parameterBytes (parameters : List UInt64) :
    (parameters.flatMap width.pointerBytes).length = parameters.length * width.bytes := by
  induction parameters with
  | nil => exact (Nat.zero_mul _).symm
  | cons parameter rest ih =>
      rw [List.flatMap_cons, List.length_append, width.length_pointerBytes, ih, List.length_cons,
        Nat.succ_mul, Nat.add_comm]

/-- The parameters and the unused slots are fifteen slots. -/
theorem IsStorable.slots_eq (storable : record.IsStorable width) :
    record.parameters.length * width.bytes + (15 - record.parameters.length) * width.bytes =
      15 * width.bytes := by
  have few : record.parameters.length ≤ 15 :=
    Nat.le_trans (Nat.le_of_eq storable.counted) (Nat.min_le_right _ _)
  rw [← Nat.add_mul, Nat.add_sub_cancel' few]

/-- The values and the blanks fill a record of the width. -/
theorem length_encode (storable : record.IsStorable width) (fit : blanks.Fit width record) :
    (record.encode width blanks).length = width.recordSize := by
  have words : ∀ word : UInt32, (Word.toBytes word).length = 4 := Word.length_toBytes
  unfold encode
  simp only [List.length_append, words, PointerWidth.length_pointerBytes, length_parameterBytes,
    fit.gap, fit.unused, storable.slots_eq]
  cases width <;> rfl

end ExceptionRecord

namespace RawRecord

/-- Whatever the blanks hold, a record reads back from its bytes. -/
theorem outcome_reader_encode {record : ExceptionRecord} {width : PointerWidth}
    {blanks : ExceptionRecord.Blanks} (storable : record.IsStorable width)
    (gap : blanks.gap.length = width.bytes - 4) :
    (reader width).outcome (record.encode width blanks) = .ok record := by
  have start : Cursor.start (record.encode width blanks) =
      .between [] (record.encode width blanks) := rfl
  unfold Reader.outcome reader
  rw [start, ← gap]
  unfold ExceptionRecord.encode
  simp only [Reader.runOn_bind, Reader.runOn_word_between, Reader.runOn_pointer_between,
    Reader.runOn_advance_between, ExceptionRecord.maxParameters, ← storable.counted,
    Reader.runOn_pointers_between _ storable.parameters, Reader.runOn_pure,
    PointerWidth.addressOf_pointerBytes storable.chained,
    PointerWidth.addressOf_pointerBytes storable.address]

/-- A stored record is made of a byte string exactly by keeping it. -/
theorem ofBytes_eq_ok_iff {data : Bytes} {raw : RawRecord} :
    ofBytes data = .ok raw ↔ raw.bytes = data := by
  unfold ofBytes
  constructor
  · intro found
    split at found
    · cases found
      rfl
    · split at found <;> cases found
      rfl
  · rintro rfl
    obtain ⟨width, bytes, size⟩ := raw
    cases width with
    | bits32 => exact (dif_neg (by rw [size]; decide)).trans (dif_pos size)
    | bits64 => exact dif_pos size

theorem exists_ofBytes_iff {data : Bytes} :
    (∃ raw, ofBytes data = .ok raw) ↔ data.length = 80 ∨ data.length = 152 := by
  constructor
  · rintro ⟨⟨width, bytes, size⟩, found⟩
    rw [← ofBytes_eq_ok_iff.1 found]
    cases width with
    | bits32 => exact .inl size
    | bits64 => exact .inr size
  · rintro (narrow | wide)
    · exact ⟨⟨.bits32, data, narrow⟩, ofBytes_eq_ok_iff.2 rfl⟩
    · exact ⟨⟨.bits64, data, wide⟩, ofBytes_eq_ok_iff.2 rfl⟩

/-! ## A stored record is its values and its blanks -/

section Stored

variable (raw : RawRecord)

/-- The index of a parameter is one of fifteen. -/
theorem index_lt_of_mem {index : Nat} (member : index ∈ List.range
    (min raw.storedCount.toNat ExceptionRecord.maxParameters)) : index < 15 :=
  Nat.lt_of_lt_of_le (List.mem_range.1 member) (Nat.min_le_right _ _)

theorem length_parameters_values :
    raw.values.parameters.length = min raw.values.parameterCount.toNat 15 := by
  unfold values
  rw [List.length_map, List.length_range]
  rfl

theorem isStorable_values : raw.values.IsStorable raw.width where
  chained := PointerWidth.fits_addressOf (length_slot (by decide))
  address := PointerWidth.fits_addressOf (length_slot (by decide))
  parameters := by
    intro parameter inside
    obtain ⟨index, member, rfl⟩ := List.mem_map.1 inside
    have few := raw.index_lt_of_mem member
    exact PointerWidth.fits_addressOf (length_slot (by omega))
  counted := raw.length_parameters_values

/-- The bytes of a stored record that belong to no value of it. -/
def blanks : ExceptionRecord.Blanks where
  gap := raw.bytes.range (8 + 2 * raw.width.bytes + 4) (raw.width.bytes - 4)
  unused := raw.bytes.range
    (8 + 3 * raw.width.bytes + raw.values.parameters.length * raw.width.bytes)
    ((15 - raw.values.parameters.length) * raw.width.bytes)

/-- The sizes of the parts of a stored record add up. -/
theorem length_bytes_eq_parts : raw.bytes.length =
    4 + (4 + (raw.width.bytes + (raw.width.bytes + (4 + ((raw.width.bytes - 4) +
      (raw.values.parameters.length * raw.width.bytes +
        (15 - raw.values.parameters.length) * raw.width.bytes)))))) := by
  have size := raw.length_bytes_eq
  have room := raw.width.four_le_bytes
  have slots := raw.isStorable_values.slots_eq
  omega

theorem fit_blanks : raw.blanks.Fit raw.width raw.values where
  gap := by
    have size := raw.length_bytes_eq_parts
    exact Bytes.length_range (by omega)
  unused := by
    have size := raw.length_bytes_eq_parts
    exact Bytes.length_range (by omega)

theorem pointerBytes_pointer {index : Nat} (inside : index < 18) :
    raw.width.pointerBytes (raw.pointer index) =
      raw.bytes.range (8 + index * raw.width.bytes) raw.width.bytes := by
  rw [Bytes.range_eq_take_drop]
  exact PointerWidth.pointerBytes_addressOf (length_slot inside)

theorem toBytes_stored {offset : Nat} (fits : offset + 4 ≤ raw.bytes.length) :
    Word.toBytes (Word.ofBytes ((raw.bytes.drop offset).take 4) : UInt32) =
      raw.bytes.range offset 4 := by
  rw [← Bytes.range_eq_take_drop]
  exact Word.toBytes_ofBytes _ (Bytes.length_range fits)

theorem toBytes_storedCount :
    Word.toBytes raw.storedCount = raw.bytes.range (8 + 2 * raw.width.bytes) 4 := by
  have size := raw.length_bytes_eq_parts
  have room := raw.width.four_le_bytes
  unfold storedCount slot
  rw [List.take_take, Nat.min_eq_left room]
  exact raw.toBytes_stored (by omega)

/-- The parameters are the slots behind the one of the count. -/
theorem flatMap_parameters : raw.values.parameters.flatMap raw.width.pointerBytes =
    raw.bytes.range (8 + 3 * raw.width.bytes)
      (raw.values.parameters.length * raw.width.bytes) := by
  rw [Bytes.range_mul, raw.length_parameters_values]
  unfold values
  rw [List.flatMap_map]
  refine List.flatMap_congr fun index member => ?_
  have few := raw.index_lt_of_mem member
  have place : 8 + 3 * raw.width.bytes + index * raw.width.bytes =
      8 + (3 + index) * raw.width.bytes := by
    rw [Nat.add_mul, Nat.add_assoc]
  rw [place]
  exact raw.pointerBytes_pointer (by omega)

/-- A stored record is its values in a row, with its blanks between and behind them. -/
theorem bytes_eq_encode : raw.bytes = raw.values.encode raw.width raw.blanks := by
  have size := raw.length_bytes_eq_parts
  have room := raw.width.four_le_bytes
  have code : Word.toBytes raw.values.code = raw.bytes.range 0 4 :=
    @toBytes_stored raw 0 (by omega)
  have flags : Word.toBytes raw.values.flags.bits = raw.bytes.range (0 + 4) 4 :=
    raw.toBytes_stored (by omega)
  have chained : raw.width.pointerBytes raw.values.record = _ :=
    raw.pointerBytes_pointer (by decide)
  have address : raw.width.pointerBytes raw.values.address = _ :=
    raw.pointerBytes_pointer (by decide)
  have count : Word.toBytes raw.values.parameterCount = _ := raw.toBytes_storedCount
  -- Each part starts where the one in front of it ends.
  have first : 8 + 0 * raw.width.bytes = 0 + 4 + 4 := by omega
  have second : 8 + 1 * raw.width.bytes = 0 + 4 + 4 + raw.width.bytes := by omega
  have third : 8 + 2 * raw.width.bytes = 0 + 4 + 4 + raw.width.bytes + raw.width.bytes := by omega
  have later : 8 + 3 * raw.width.bytes =
      0 + 4 + 4 + raw.width.bytes + raw.width.bytes + 4 + (raw.width.bytes - 4) := by omega
  have whole := raw.bytes.range_zero_length
  rw [size] at whole
  simp only [Bytes.range_add] at whole
  unfold ExceptionRecord.encode blanks
  rw [code, flags, chained, address, count, raw.flatMap_parameters, first, second, third, later]
  exact whole.symm

end Stored

/--
A byte string is taken as a stored record exactly when it has the size of one,
and it is kept as it is.  Every stored record decodes, to as many parameters as
it counts and at most fifteen, and the values that it decodes to make up its
bytes together with some gap and some unused slots.  Conversely any values that
a width can store, laid out around any gap and any unused slots, decode to these
values.
-/
theorem decode_reads_stored_values :
    (∀ data, (∃ raw, ofBytes data = .ok raw) ↔ data.length = 80 ∨ data.length = 152) ∧
    (∀ data raw, ofBytes data = .ok raw → raw.bytes = data) ∧
    (∀ data, data.length ≠ 80 → data.length ≠ 152 →
      ofBytes data = .error (.malformed (.recordSize data.length))) ∧
    (∀ raw : RawRecord, ∃ record blanks, raw.decode = .ok record ∧
      record.parameters.length = min record.parameterCount.toNat 15 ∧
      record.IsStorable raw.width ∧ ExceptionRecord.Blanks.Fit blanks raw.width record ∧
      raw.bytes = record.encode raw.width blanks) ∧
    ∀ width record blanks, ExceptionRecord.IsStorable record width →
      ExceptionRecord.Blanks.Fit blanks width record →
      ∃ raw, ofBytes (record.encode width blanks) = .ok raw ∧ raw.width = width ∧
        raw.decode = .ok record := by
  refine ⟨fun _ => exists_ofBytes_iff, fun _ _ => ofBytes_eq_ok_iff.1, ?_, ?_, ?_⟩
  · intro data notNarrow notWide
    exact (dif_neg notWide).trans (dif_neg notNarrow)
  · intro raw
    exact ⟨raw.values, raw.blanks, raw.decode_eq_values, raw.length_parameters_values,
      raw.isStorable_values, raw.fit_blanks, raw.bytes_eq_encode⟩
  · intro width record blanks storable fit
    have size := ExceptionRecord.length_encode storable fit
    exact ⟨⟨width, record.encode width blanks, size⟩, ofBytes_eq_ok_iff.2 rfl, rfl,
      outcome_reader_encode storable fit.gap⟩

/-- A failed write with flags that have no name, and more parameters counted than there are. -/
def overcountedWrite : ExceptionRecord where
  code := 0xC0000005
  flags := ⟨0x80000081⟩
  record := 0xFFFFFFFFFFFFFFFF
  address := 0x7FF612345678
  parameterCount := 0xFFFFFFFF
  parameters := 1 :: 0xDEAD0000 :: List.replicate 13 0x8000000000000000

/-- The write decodes to its values, whatever fills the gap behind its count. -/
theorem overcountedWrite_decodes :
    overcountedWrite.IsStorable .bits64 ∧
      ∃ raw, ofBytes (overcountedWrite.encode .bits64 ⟨[0xAA, 0xBB, 0xCC, 0xDD], []⟩) = .ok raw ∧
        raw.decode = .ok overcountedWrite := by
  have storable : overcountedWrite.IsStorable .bits64 :=
    ⟨by decide, by decide, fun parameter _ => parameter.toNat_lt, rfl⟩
  obtain ⟨-, -, -, -, decodes⟩ := decode_reads_stored_values
  obtain ⟨raw, taken, -, decoded⟩ := decodes .bits64 overcountedWrite
    ⟨[0xAA, 0xBB, 0xCC, 0xDD], []⟩ storable ⟨rfl, rfl⟩
  exact ⟨storable, raw, taken, decoded⟩

end RawRecord

end NtTarget
