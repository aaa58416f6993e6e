import NtTarget.Proofs.Bytes.StoredNumber

/-!
# Rows of numbers

A decoder reads numbers one after the other, each of a type that it knows
beforehand.  It stops at the first one that the data does not hold whole, and
then still stands in front of it.  Reading a row and listing the bytes of its
numbers undo each other.
-/

namespace NtTarget

/-- The bytes of numbers that are stored one after the other. -/
def StoredNumber.rowBytes (numbers : List StoredNumber) : Bytes :=
  numbers.flatMap StoredNumber.bytes

/-- What the reads of a row come to: the numbers up to the first fault, and the cursor behind. -/
structure RowReading where
  numbers : List StoredNumber
  fault : Option Fault
  cursor : Cursor
  deriving DecidableEq

namespace RowReading

/-- The same reading behind numbers that were read before. -/
def behind (numbers : List StoredNumber) (reading : RowReading) : RowReading :=
  { reading with numbers := numbers ++ reading.numbers }

end RowReading

namespace Cursor

/-- Read numbers of the given types one after the other, up to the first fault. -/
def readRow : Cursor → List NumberKind → RowReading
  | cursor, [] => ⟨[], none, cursor⟩
  | cursor, kind :: later =>
      match kind.reader.runOn cursor with
      | (.ok number, next) => (next.readRow later).behind [number]
      | (.error fault, next) => ⟨[], some fault, next⟩

theorem readRow_cons_of_slice? {cursor : Cursor} {kind : NumberKind} {part : Bytes}
    (found : cursor.data.slice? cursor.position kind.size = some part) (later : List NumberKind) :
    cursor.readRow (kind :: later) =
      ((cursor.moveTo (cursor.position + kind.size)).readRow later).behind [kind.ofBytes part] := by
  rw [readRow, kind.runOn_reader, found]

theorem readRow_cons_of_short {cursor : Cursor} {kind : NumberKind}
    (short : cursor.data.slice? cursor.position kind.size = none) (later : List NumberKind) :
    cursor.readRow (kind :: later) = ⟨[], some .outOfBounds, cursor⟩ := by
  rw [readRow, kind.runOn_reader, short]

/-- The bytes that a read takes stand in front of what it leaves. -/
theorem rest_eq_append {cursor : Cursor} {length : Nat} {part : Bytes}
    (found : cursor.data.slice? cursor.position length = some part) :
    cursor.rest = part ++ (cursor.moveTo (cursor.position + length)).rest := by
  obtain ⟨-, rfl⟩ := Bytes.slice?_eq_some_iff.1 found
  unfold rest moveTo
  rw [← List.drop_drop, List.take_append_drop]

end Cursor

namespace StoredNumber

/-! ## From numbers to bytes and back -/

theorem slice?_between_bytes (number : StoredNumber) (before rest : Bytes) :
    (Cursor.between before (number.bytes ++ rest)).data.slice?
      (Cursor.between before (number.bytes ++ rest)).position number.kind.size =
        some number.bytes := by
  have found := Bytes.slice?_between before number.bytes rest
  rw [number.length_bytes] at found
  exact found

/-- Numbers read back from their bytes, whatever is read behind them. -/
theorem readRow_rowBytes {numbers : List StoredNumber} (fits : ∀ number ∈ numbers, number.Fits)
    (before rest : Bytes) (later : List NumberKind) :
    (Cursor.between before (rowBytes numbers ++ rest)).readRow (numbers.map kind ++ later) =
      ((Cursor.between (before ++ rowBytes numbers) rest).readRow later).behind numbers := by
  induction numbers generalizing before with
  | nil => rw [rowBytes, List.flatMap_nil, List.append_nil]; rfl
  | cons number others ih =>
      obtain ⟨here, there⟩ := List.forall_mem_cons.1 fits
      have moved := Reader.between_append before number.bytes (rowBytes others ++ rest)
      rw [number.length_bytes] at moved
      have row : rowBytes (number :: others) = number.bytes ++ rowBytes others := rfl
      rw [row, List.append_assoc, List.map_cons, List.cons_append,
        Cursor.readRow_cons_of_slice? (number.slice?_between_bytes before _), ofBytes_bytes here]
      change ((Cursor.moveTo _ (before.length + _)).readRow _).behind _ = _
      rw [moved, ih there, List.append_assoc]
      rfl

/-- A read that what is left cannot serve fails in front of it. -/
theorem readRow_short {numbers : List StoredNumber} (fits : ∀ number ∈ numbers, number.Fits)
    {kind : NumberKind} {part : Bytes} (short : part.length < kind.size) (before : Bytes)
    (later : List NumberKind) :
    (Cursor.between before (rowBytes numbers ++ part)).readRow
        (numbers.map StoredNumber.kind ++ kind :: later) =
      ⟨numbers, some .outOfBounds, .between (before ++ rowBytes numbers) part⟩ := by
  have missing : (Cursor.between (before ++ rowBytes numbers) part).data.slice?
      (Cursor.between (before ++ rowBytes numbers) part).position kind.size = none := by
    refine Bytes.slice?_eq_none_iff.2 ?_
    change (before ++ rowBytes numbers ++ part).length < (before ++ rowBytes numbers).length + _
    rw [List.length_append]
    omega
  rw [readRow_rowBytes fits, Cursor.readRow_cons_of_short missing, RowReading.behind,
    List.append_nil]

theorem rowBytes_append (left right : List StoredNumber) :
    rowBytes (left ++ right) = rowBytes left ++ rowBytes right :=
  List.flatMap_append

theorem rowBytes_cons (number : StoredNumber) (later : List StoredNumber) :
    rowBytes (number :: later) = number.bytes ++ rowBytes later := rfl

theorem rowBytes_singleton (number : StoredNumber) : rowBytes [number] = number.bytes :=
  List.append_nil _

/-- Some number of a row is the first that does not lie wholly before a cut. -/
theorem exists_cut {numbers : List StoredNumber} {cut : Nat}
    (inside : cut < (rowBytes numbers).length) :
    ∃ whole number later, numbers = whole ++ number :: later ∧
      (rowBytes whole).length ≤ cut ∧ cut < (rowBytes (whole ++ [number])).length := by
  induction numbers generalizing cut with
  | nil => cases inside
  | cons number others ih =>
      by_cases first : cut < number.bytes.length
      · refine ⟨[], number, others, rfl, Nat.zero_le _, ?_⟩
        rw [List.nil_append, rowBytes_cons, List.length_append]
        exact Nat.lt_add_right _ first
      · rw [rowBytes_cons, List.length_append] at inside
        have among : cut - number.bytes.length < (rowBytes others).length := by omega
        obtain ⟨whole, next, later, rfl, below, above⟩ := ih among
        refine ⟨number :: whole, next, later, rfl, ?_, ?_⟩
        · rw [rowBytes_cons, List.length_append]
          omega
        · rw [List.cons_append, rowBytes_cons, List.length_append]
          omega

/-- Of a row that is cut the numbers before the cut are read, and the read of the next one fails. -/
theorem readRow_cut {numbers : List StoredNumber} (fits : ∀ number ∈ numbers, number.Fits)
    (tail : Bytes) {cut : Nat} (inside : cut < (rowBytes numbers).length) :
    ∃ whole number later, numbers = whole ++ number :: later ∧
      (rowBytes whole).length ≤ cut ∧ cut < (rowBytes (whole ++ [number])).length ∧
      (Cursor.start ((rowBytes numbers ++ tail).take cut)).readRow (numbers.map kind) =
        ⟨whole, some .outOfBounds,
          ⟨(rowBytes numbers ++ tail).take cut, (rowBytes whole).length⟩⟩ := by
  obtain ⟨whole, number, later, rfl, below, above⟩ := exists_cut inside
  refine ⟨whole, number, later, rfl, below, above, ?_⟩
  have data : (rowBytes (whole ++ number :: later) ++ tail).take cut = rowBytes whole ++
      ((rowBytes (number :: later) ++ tail).take (cut - (rowBytes whole).length)) := by
    rw [rowBytes_append, List.append_assoc, List.take_append, List.take_of_length_le below]
  have short : ((rowBytes (number :: later) ++ tail).take
      (cut - (rowBytes whole).length)).length < number.kind.size := by
    rw [rowBytes_append, List.length_append, rowBytes_singleton, length_bytes] at above
    rw [List.length_take]
    omega
  rw [data, List.map_append, List.map_cons]
  exact readRow_short (fun each member => fits each (List.mem_append_left _ member)) short []
    (later.map kind)

end StoredNumber

/-! ## From bytes to numbers and back -/

namespace Cursor

/-- What a row of reads says about the data under a cursor. -/
structure Reads (cursor : Cursor) (kinds : List NumberKind) (reading : RowReading) : Prop where
  data_eq : reading.cursor.data = cursor.data
  position_eq : reading.cursor.position =
    cursor.position + (StoredNumber.rowBytes reading.numbers).length
  rest_eq : cursor.rest = StoredNumber.rowBytes reading.numbers ++ reading.cursor.rest
  fits : ∀ number ∈ reading.numbers, number.Fits
  ends : (reading.fault = none ∧ kinds = reading.numbers.map StoredNumber.kind) ∨
    (reading.fault = some .outOfBounds ∧ ∃ kind later,
      kinds = reading.numbers.map StoredNumber.kind ++ kind :: later ∧
        reading.cursor.rest.length < kind.size)

namespace Reads

variable {cursor : Cursor} {kind : NumberKind} {later : List NumberKind}

theorem short (missing : cursor.data.slice? cursor.position kind.size = none) :
    cursor.Reads (kind :: later) ⟨[], some .outOfBounds, cursor⟩ where
  data_eq := rfl
  position_eq := rfl
  rest_eq := rfl
  fits := fun _ inside => nomatch inside
  ends := by
    refine .inr ⟨rfl, kind, later, rfl, ?_⟩
    have past := Bytes.slice?_eq_none_iff.1 missing
    have positive := kind.size_pos
    change (cursor.data.drop cursor.position).length < kind.size
    rw [List.length_drop]
    omega

/-- A number that is read stands in front of the row behind it. -/
theorem cons {part : Bytes} (found : cursor.data.slice? cursor.position kind.size = some part)
    {reading : RowReading}
    (reads : (cursor.moveTo (cursor.position + kind.size)).Reads later reading) :
    cursor.Reads (kind :: later) (reading.behind [kind.ofBytes part]) := by
  obtain ⟨numbers, fault, next⟩ := reading
  have size := Bytes.length_of_slice? found
  have row : StoredNumber.rowBytes (kind.ofBytes part :: numbers) =
      part ++ StoredNumber.rowBytes numbers := by
    rw [StoredNumber.rowBytes_cons, StoredNumber.bytes_ofBytes size]
  have kinds : (kind.ofBytes part :: numbers).map StoredNumber.kind =
      kind :: numbers.map StoredNumber.kind := by
    rw [List.map_cons, StoredNumber.kind_ofBytes]
  refine ⟨reads.data_eq, ?_, ?_, ?_, ?_⟩
  · refine reads.position_eq.trans ?_
    change cursor.position + kind.size + (StoredNumber.rowBytes numbers).length =
      cursor.position + (StoredNumber.rowBytes (kind.ofBytes part :: numbers)).length
    rw [row, List.length_append, size, Nat.add_assoc]
  · change _ = StoredNumber.rowBytes (kind.ofBytes part :: numbers) ++ next.rest
    rw [rest_eq_append found, reads.rest_eq, row, List.append_assoc]
  · exact List.forall_mem_cons.2 ⟨StoredNumber.fits_ofBytes size, reads.fits⟩
  · change fault = none ∧ kind :: later = (kind.ofBytes part :: numbers).map StoredNumber.kind ∨ _
    rcases reads.ends with ⟨done, whole⟩ | ⟨failed, following, others, split, tooShort⟩
    · exact .inl ⟨done, kinds.symm ▸ congrArg (kind :: ·) whole⟩
    · exact .inr ⟨failed, following, others,
        (congrArg (kind :: ·) split).trans (congrArg (· ++ following :: others) kinds.symm),
        tooShort⟩

end Reads

/-- What was read of any data is stored there, and a read fails only where too little is left. -/
theorem readRow_reads (cursor : Cursor) (kinds : List NumberKind) :
    cursor.Reads kinds (cursor.readRow kinds) := by
  induction kinds generalizing cursor with
  | nil => exact ⟨rfl, rfl, rfl, (fun _ inside => nomatch inside), .inl ⟨rfl, rfl⟩⟩
  | cons kind later ih =>
      cases found : cursor.data.slice? cursor.position kind.size with
      | none =>
          rw [readRow_cons_of_short found]
          exact .short found
      | some part =>
          rw [readRow_cons_of_slice? found]
          exact .cons found (ih _)

end Cursor

namespace StoredNumber

/--
Numbers that fit their types read back from their bytes, and what follows them
is left unread.  Of a row that is cut, the numbers that lie wholly before the
cut are read; the read of the next one is out of bounds and leaves the cursor
in front of it.  Conversely, what is read of any data is stored there: the bytes
of the numbers are those that were passed over, and only a number of which the
data does not hold every byte fails to be read.
-/
theorem rows_read_back {numbers : List StoredNumber} (fits : ∀ number ∈ numbers, number.Fits)
    (tail : Bytes) :
    (Cursor.start (rowBytes numbers ++ tail)).readRow (numbers.map kind) =
        ⟨numbers, none, .between (rowBytes numbers) tail⟩ ∧
      (Cursor.between (rowBytes numbers) tail).rest = tail ∧
      (∀ cut < (rowBytes numbers).length, ∃ whole number later,
        numbers = whole ++ number :: later ∧
        (rowBytes whole).length ≤ cut ∧ cut < (rowBytes (whole ++ [number])).length ∧
        (Cursor.start ((rowBytes numbers ++ tail).take cut)).readRow (numbers.map kind) =
          ⟨whole, some .outOfBounds,
            ⟨(rowBytes numbers ++ tail).take cut, (rowBytes whole).length⟩⟩) ∧
      ∀ data kinds, (Cursor.start data).Reads kinds ((Cursor.start data).readRow kinds) := by
  refine ⟨?_, List.drop_left, fun cut inside => readRow_cut fits tail inside, ?_⟩
  · have read := readRow_rowBytes fits [] tail []
    rw [List.append_nil, List.nil_append] at read
    refine read.trans ?_
    rw [Cursor.readRow, RowReading.behind, List.append_nil]
  · intro data kinds
    exact Cursor.readRow_reads _ kinds

/-- A byte, a negative word, a narrow pointer and a wide one. -/
def mixedRow : List StoredNumber :=
  [.word .u8 0xFF, .word .i32 (-2), .pointer .bits32 0x401000, .pointer .bits64 0xFFFF000000401000]

/-- A cut inside the negative word leaves the byte in front of it. -/
theorem mixedRow_reads_back :
    (∀ number ∈ mixedRow, number.Fits) ∧
      (Cursor.start [0xFF, 0xFE, 0xFF, 0xFF, 0xFF, 0, 0x10, 0x40, 0, 0, 0x10, 0x40, 0, 0, 0, 0xFF,
        0xFF, 7]).readRow (mixedRow.map kind) =
          ⟨mixedRow, none, .between (rowBytes mixedRow) [7]⟩ ∧
      ∃ whole number later, mixedRow = whole ++ number :: later ∧
        (rowBytes whole).length ≤ 3 ∧ 3 < (rowBytes (whole ++ [number])).length ∧
        (Cursor.start [0xFF, 0xFE, 0xFF]).readRow (mixedRow.map kind) =
          ⟨whole, some .outOfBounds, ⟨[0xFF, 0xFE, 0xFF], (rowBytes whole).length⟩⟩ := by
  have fits : ∀ number ∈ mixedRow, number.Fits := by decide
  have stored : rowBytes mixedRow = [0xFF, 0xFE, 0xFF, 0xFF, 0xFF, 0, 0x10, 0x40, 0, 0, 0x10, 0x40,
      0, 0, 0, 0xFF, 0xFF] := by
    decide +kernel
  obtain ⟨whole, -, cut, -⟩ := rows_read_back fits [7]
  rw [stored] at whole cut
  rw [stored]
  exact ⟨fits, whole, cut 3 (by decide)⟩

end StoredNumber

end NtTarget
