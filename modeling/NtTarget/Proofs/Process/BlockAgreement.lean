import NtTarget.Proofs.Process.StoredProcess
import NtTarget.Proofs.Process.ThreadSlots

/-!
# The block of a thread and the chain through it

The block of a thread is read whole, with every slot or with the documented ones
only, and the chain to the process reads one pointer out of it.  All three are
reads of different sizes and addresses.  They find the same bytes where regions
keep apart, and the name of the pointer's slot and its offset in the layout are
the same place.
-/

namespace NtTarget

namespace ThreadBlock

variable {width : PointerWidth} {data : Bytes} {index : Nat}

/-! ## Documented slots come first -/

theorem shown?_of_documented (documented : index < 14) :
    shown? width data index = some (slotOf width data index) := by
  rw [shown?_eq_ite, if_pos (.inl documented)]

/-- The slots that are shown whatever they hold. -/
def documentedSlots (width : PointerWidth) (data : Bytes) : List ThreadSlot :=
  (List.range 14).map (slotOf width data)

theorem length_documentedSlots (width : PointerWidth) (data : Bytes) :
    (documentedSlots width data).length = 14 := by
  unfold documentedSlots
  rw [List.length_map, List.length_range]

/-- The documented slots are shown first, and all others behind them. -/
theorem slotsOf_eq_append (long : 14 * width.bytes ≤ data.length) :
    slotsOf width data = documentedSlots width data ++
      (List.range' 14 (data.length / width.bytes - 14)).filterMap (shown? width data) := by
  have enough : 14 ≤ data.length / width.bytes := (Nat.le_div_iff_mul_le width.bytes_pos).2 long
  have indices : List.range (data.length / width.bytes) =
      List.range 14 ++ List.range' 14 (data.length / width.bytes - 14) := by
    rw [List.range_eq_range', List.range_eq_range', List.range'_append_1,
      Nat.add_sub_cancel' enough]
  have documented : (List.range 14).filterMap (shown? width data) = documentedSlots width data := by
    unfold documentedSlots
    rw [← List.filterMap_eq_map]
    exact List.filterMap_congr fun index inside => shown?_of_documented (List.mem_range.1 inside)
  rw [slotsOf_eq_filterMap_range, indices, List.filterMap_append, documented]

theorem take_slotsOf (long : 14 * width.bytes ≤ data.length) :
    (slotsOf width data).take 14 = documentedSlots width data := by
  rw [slotsOf_eq_append long, List.take_left' (length_documentedSlots width data)]

/-- A slot behind the documented ones is a whole slot without a name that is not zero. -/
theorem exists_of_mem_drop_slotsOf {slot : ThreadSlot} (long : 14 * width.bytes ≤ data.length)
    (behind : slot ∈ (slotsOf width data).drop 14) :
    ∃ index, 14 ≤ index ∧ index < data.length / width.bytes ∧ valueAt width data index ≠ 0 ∧
      slot = ⟨index * width.bytes, none, valueAt width data index⟩ := by
  rw [slotsOf_eq_append long, List.drop_left' (length_documentedSlots width data),
    List.mem_filterMap] at behind
  obtain ⟨index, between, found⟩ := behind
  obtain ⟨undocumented, last⟩ := List.mem_range'_1.1 between
  have unnamed : fieldNames[index]? = none := List.getElem?_eq_none_iff.2 undocumented
  rw [shown?_eq_ite] at found
  split at found
  · rename_i isShown
    have nonzero := isShown.resolve_left (Nat.not_lt.2 undocumented)
    cases found
    refine ⟨index, undocumented, by omega, nonzero, ?_⟩
    unfold slotOf
    rw [unnamed]
  · cases found

theorem valueAt_take {size : Nat} (fits : index * width.bytes + width.bytes ≤ size) :
    valueAt width (data.take size) index = valueAt width data index := by
  have first : data.take size = data.range 0 size := by
    rw [Bytes.range_eq_take_drop, List.drop_zero]
  unfold valueAt
  rw [first, Bytes.range_range data fits, Nat.zero_add]

theorem documentedSlots_take :
    documentedSlots width (data.take (14 * width.bytes)) = documentedSlots width data := by
  refine List.map_congr_left fun index inside => ?_
  have fits : index * width.bytes + width.bytes ≤ 14 * width.bytes := by
    rw [← Nat.succ_mul]
    exact Nat.mul_le_mul_right _ (List.mem_range.1 inside)
  unfold slotOf
  rw [valueAt_take fits]

/-- The bytes of the documented slots alone show just these. -/
theorem slotsOf_take (long : 14 * width.bytes ≤ data.length) :
    slotsOf width (data.take (14 * width.bytes)) = documentedSlots width data := by
  have size : (data.take (14 * width.bytes)).length = 14 * width.bytes :=
    List.length_take_of_le long
  rw [slotsOf_eq_append (Nat.le_of_eq size.symm), size, Nat.mul_div_cancel _ width.bytes_pos,
    documentedSlots_take]
  exact List.append_nil _

end ThreadBlock

/-- The pointer to the process block has its name and its offset in the layout at one index. -/
theorem PointerWidth.processBlock_isSlot (width : PointerWidth) :
    ThreadBlock.fieldNames[12]? = some "process_environment_block" ∧
      width.controlBlock.processBlock.toNat = 12 * width.bytes := by
  cases width <;> exact ⟨rfl, rfl⟩

namespace MemoryImage

open ThreadBlock

variable {image : MemoryImage} {width : PointerWidth} {thread : UInt64} {everySlot : Bool}

/-! ## Reading a block -/

/-- Both sizes in which a block is read have room for the documented slots. -/
theorem documented_le_of_read {address : UInt64} {data : Bytes}
    (read : image.read address (readSize width everySlot) = .ok data) :
    14 * width.bytes ≤ data.length := by
  rw [(holds_of_read read).1]
  cases width <;> cases everySlot <;> decide

theorem threadBlock_eq_ok_iff {block : ThreadBlock} :
    (image.chain width).threadBlock thread everySlot = .ok block ↔
      ∃ base data, image.threadBase? thread = some base ∧
        image.read base (readSize width everySlot) = .ok data ∧
        block = ⟨base, width, slotsOf width data⟩ := by
  constructor
  · intro found
    obtain ⟨base, known, found⟩ := Fault.bind_eq_ok_iff.1 found
    obtain ⟨data, read, found⟩ := Fault.bind_eq_ok_iff.1 found
    cases (parse_eq_ok base (documented_le_of_read read)).symm.trans found
    exact ⟨base, data, threadBase_eq_ok_iff.1 known, read, rfl⟩
  · rintro ⟨base, data, known, read, rfl⟩
    exact Fault.bind_eq_ok_iff.2 ⟨base, threadBase_eq_ok_iff.2 known,
      Fault.bind_eq_ok_iff.2 ⟨data, read, parse_eq_ok base (documented_le_of_read read)⟩⟩

/-- Whatever can be read decodes, so only an unknown thread or a refused read is a failure. -/
theorem threadBlock_eq_error_iff {fault : Fault} :
    (image.chain width).threadBlock thread everySlot = .error fault ↔
      image.threadBase? thread = none ∧ fault = .notFound (.threadBase thread) ∨
      ∃ base, image.threadBase? thread = some base ∧
        image.bytesAt? base (readSize width everySlot) = none ∧
        fault = .unreadable base (readSize width everySlot) := by
  constructor
  · intro failed
    rcases Fault.bind_eq_error_iff.1 failed with unknown | ⟨base, known, failed⟩
    · exact .inl (threadBase_eq_error_iff.1 unknown)
    · rcases Fault.bind_eq_error_iff.1 failed with refused | ⟨data, read, failed⟩
      · exact .inr ⟨base, threadBase_eq_ok_iff.1 known, read_eq_error_iff.1 refused⟩
      · cases (parse_eq_ok base (documented_le_of_read read)).symm.trans failed
  · rintro (unknown | ⟨base, known, refused⟩)
    · exact Fault.bind_eq_error_iff.2 (.inl (threadBase_eq_error_iff.2 unknown))
    · exact Fault.bind_eq_error_iff.2 (.inr ⟨base, threadBase_eq_ok_iff.2 known,
        Fault.bind_eq_error_iff.2 (.inl (read_eq_error_iff.2 refused))⟩)

/-- Where every slot can be read, the documented ones can, and they are the first ones. -/
theorem threadBlock_of_full {full : ThreadBlock}
    (found : (image.chain width).threadBlock thread true = .ok full) :
    (image.chain width).threadBlock thread false =
      .ok { full with slots := full.slots.take 14 } := by
  obtain ⟨base, data, known, read, rfl⟩ := threadBlock_eq_ok_iff.1 found
  have less : documentedSize width ≤ fullSize := by cases width <;> decide
  have long := documented_le_of_read read
  refine threadBlock_eq_ok_iff.2 ⟨base, data.take (14 * width.bytes), known,
    read_take read less, ?_⟩
  rw [slotsOf_take long, take_slotsOf long]

/-- Every whole slot of what is read at an address is stored at its own offset from there. -/
theorem storesPointer_of_read {address : UInt64} {length index : Nat} {data : Bytes}
    (read : image.read address length = .ok data) (inside : index < data.length / width.bytes) :
    image.StoresPointer width (address.toNat + index * width.bytes)
      (valueAt width data index) := by
  have fits := slot_fits inside
  refine ⟨PointerWidth.fits_addressOf (Bytes.length_range fits), ?_⟩
  rw [pointerBytes_valueAt fits]
  exact (holds_of_read read).2.range fits

/-- The chain reads the pointer to the process block as the block that is read has it. -/
theorem WellPlaced.processBlock_of_threadBlock (placed : image.WellPlaced) {block : ThreadBlock}
    (found : (image.chain width).threadBlock thread everySlot = .ok block) :
    ∃ pointer, (image.chain width).processBlock thread = .ok pointer ∧
      block.get? "process_environment_block" = some pointer := by
  obtain ⟨base, data, known, read, rfl⟩ := threadBlock_eq_ok_iff.1 found
  obtain ⟨named, place⟩ := width.processBlock_isSlot
  have inside : 12 < data.length / width.bytes :=
    index_lt_of_documented (documented_le_of_read read) (by decide)
  -- The hop is another read at another address, so all it shares with the block is a region.
  have stored := storesPointer_of_read read inside
  rw [← place] at stored
  refine ⟨valueAt width data 12, ?_, get?_of_name rfl named inside⟩
  exact Fault.bind_eq_ok_iff.2
    ⟨base, threadBase_eq_ok_iff.2 known, placed.pointerAt_offset stored⟩

/--
A block is refused only for an unknown thread or a range that cannot be read.  A
block that is read in either size has the same pointer to the process block as
the chain finds.  Where the full block is read, the documented slots are read as
well, and they are its first fourteen; all others have no name, are not zero and
lie between the documented ones and the end of the page.
-/
theorem threadBlock_agrees_with_chain (placed : image.WellPlaced) (width : PointerWidth)
    (thread : UInt64) :
    (∀ everySlot fault, (image.chain width).threadBlock thread everySlot = .error fault ↔
      image.threadBase? thread = none ∧ fault = .notFound (.threadBase thread) ∨
      ∃ base, image.threadBase? thread = some base ∧
        image.bytesAt? base (readSize width everySlot) = none ∧
        fault = .unreadable base (readSize width everySlot)) ∧
    (∀ everySlot block, (image.chain width).threadBlock thread everySlot = .ok block →
      ∃ pointer, (image.chain width).processBlock thread = .ok pointer ∧
        block.get? "process_environment_block" = some pointer) ∧
    ∀ full, (image.chain width).threadBlock thread true = .ok full →
      (image.chain width).threadBlock thread false =
          .ok { full with slots := full.slots.take 14 } ∧
        (full.slots.take 14).length = 14 ∧
        ∀ slot ∈ full.slots.drop 14, slot.name = none ∧ slot.value ≠ 0 ∧
          14 * width.bytes ≤ slot.offset ∧ slot.offset + width.bytes ≤ 0x1000 := by
  refine ⟨fun _ _ => threadBlock_eq_error_iff, fun _ _ => placed.processBlock_of_threadBlock,
    fun full found => ⟨threadBlock_of_full found, ?_⟩⟩
  obtain ⟨base, data, known, read, rfl⟩ := threadBlock_eq_ok_iff.1 found
  have long := documented_le_of_read read
  have size : data.length = 0x1000 := (holds_of_read read).1
  constructor
  · rw [take_slotsOf long, length_documentedSlots]
  · intro slot behind
    obtain ⟨index, undocumented, whole, nonzero, rfl⟩ := exists_of_mem_drop_slotsOf long behind
    have fits := slot_fits whole
    rw [size] at fits
    exact ⟨rfl, nonzero, Nat.mul_le_mul_right _ undocumented, fits⟩

/-- A page with a pointer to a process block and one undocumented slot that is not zero. -/
def pageBytes : Bytes :=
  List.replicate 96 0 ++ PointerWidth.bits64.pointerBytes 0x2000 ++ List.replicate 24 0 ++
    PointerWidth.bits64.pointerBytes 5 ++ List.replicate 3960 0

/-- The page inside a region, which ends where the process block starts. -/
def pageImage : MemoryImage :=
  ((empty.map 0xF00 (List.replicate 0x100 0xCC ++ pageBytes)).map 0x2000 [1]).withThread 7 0x1000

/-- The block of the page, with every slot. -/
def pageBlock : ThreadBlock :=
  ⟨0x1000, .bits64, slotsOf .bits64 pageBytes⟩

theorem length_pageBytes : pageBytes.length = 0x1000 := by
  decide +kernel

theorem threadBlock_pageImage (apart : pageImage.Disjoint) :
    (pageImage.chain .bits64).threadBlock 7 true = .ok pageBlock := by
  have held : pageImage.Holds 0x1000 pageBytes := by
    refine ⟨⟨0xF00, List.replicate 0x100 0xCC ++ pageBytes⟩, List.mem_cons_self, by decide, ?_⟩
    have between := Bytes.slice?_between (List.replicate 0x100 0xCC) pageBytes []
    rw [List.append_nil, List.length_replicate] at between
    exact between
  have read : pageImage.read 0x1000 (readSize .bits64 true) = .ok pageBytes := by
    have found : pageImage.read 0x1000 pageBytes.length = .ok pageBytes :=
      read_of_holds apart held
    rw [length_pageBytes] at found
    exact found
  exact threadBlock_eq_ok_iff.2 ⟨0x1000, pageBytes, rfl, read, rfl⟩

/-- Both reads of the page and the chain through it agree. -/
theorem pageImage_agrees :
    pageImage.WellPlaced ∧
      (pageImage.chain .bits64).threadBlock 7 true = .ok pageBlock ∧
      (pageImage.chain .bits64).threadBlock 7 false =
        .ok { pageBlock with slots := pageBlock.slots.take 14 } ∧
      ⟨128, none, 5⟩ ∈ pageBlock.slots ∧
      (pageImage.chain .bits64).processBlock 7 = .ok 0x2000 ∧
      pageBlock.get? "process_environment_block" = some 0x2000 := by
  have placed : pageImage.WellPlaced :=
    ⟨disjoint_iff_isChain.2 (by decide +kernel), by decide +kernel⟩
  have found := threadBlock_pageImage placed.apart
  have process : (pageImage.chain .bits64).processBlock 7 = .ok 0x2000 := by decide +kernel
  have hidden : ⟨128, none, 5⟩ ∈ pageBlock.slots := by
    unfold pageBlock
    rw [mem_slotsOf_iff, length_pageBytes]
    exact ⟨16, by decide, by decide +kernel, by decide +kernel⟩
  obtain ⟨-, alike, shown⟩ := threadBlock_agrees_with_chain placed .bits64 7
  obtain ⟨pointer, chained, named⟩ := alike true _ found
  cases process.symm.trans chained
  exact ⟨placed, found, (shown _ found).1, hidden, process, named⟩

end MemoryImage

end NtTarget
