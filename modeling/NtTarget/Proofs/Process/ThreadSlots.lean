import NtTarget.Process.ThreadBlock
import NtTarget.Proofs.Bytes.Ranges

/-!
# Which slots of a thread block are shown

A block is decoded slot by slot, and an offset and an index are counted on the
way.  The offset stays the index times the size of a pointer, so the slot with a
given index stands at that many pointers from the start.  It is shown when it is
documented or not zero.  Nothing is lost by that: the shown values, written back
at their offsets over zeros, make up the block again, less a last partial slot.
-/

namespace NtTarget

/-- The bytes from an offset on replaced by others. -/
def Bytes.overwrite (bytes : Bytes) (offset : Nat) (part : Bytes) : Bytes :=
  bytes.take offset ++ (part ++ bytes.drop (offset + part.length))

theorem Bytes.overwrite_append (before : Bytes) {old part : Bytes}
    (size : old.length = part.length) (after : Bytes) :
    Bytes.overwrite (before ++ (old ++ after)) before.length part = before ++ (part ++ after) := by
  unfold overwrite
  rw [List.take_left, List.drop_length_add_append, ← size, List.drop_left]

theorem PointerWidth.pointerBytes_zero (width : PointerWidth) :
    width.pointerBytes 0 = List.replicate width.bytes 0 := by
  cases width <;> rfl

namespace ThreadBlock

variable {width : PointerWidth} {data : Bytes} {index : Nat}

/-! ## Slots by their index -/

/-- The value of the slot with a given index. -/
def valueAt (width : PointerWidth) (data : Bytes) (index : Nat) : UInt64 :=
  PointerWidth.addressOf (data.range (index * width.bytes) width.bytes)

/-- The slot with a given index of a byte string, as it would be shown. -/
def slotOf (width : PointerWidth) (data : Bytes) (index : Nat) : ThreadSlot :=
  ⟨index * width.bytes, fieldNames[index]?, valueAt width data index⟩

/-- The slot with a given index of a byte string, when it is shown. -/
def shown? (width : PointerWidth) (data : Bytes) (index : Nat) : Option ThreadSlot :=
  slotAt? (index * width.bytes) index (valueAt width data index)

theorem shown?_eq_ite (width : PointerWidth) (data : Bytes) (index : Nat) :
    shown? width data index =
      if index < 14 ∨ valueAt width data index ≠ 0 then some (slotOf width data index)
      else none := by
  unfold shown? slotAt? slotOf
  cases named : fieldNames[index]? with
  | some name =>
      have documented : index < 14 := (List.getElem?_eq_some_iff.1 named).1
      exact (if_pos (.inl documented)).symm
  | none =>
      have undocumented : ¬ index < 14 := Nat.not_lt.2 (List.getElem?_eq_none_iff.1 named)
      dsimp only
      by_cases zero : valueAt width data index = 0
      · rw [if_pos zero, if_neg (not_or.2 ⟨undocumented, fun nonzero => nonzero zero⟩)]
      · rw [if_neg zero, if_pos (Or.inr zero)]

/-- A whole slot at the place of its index is followed by those with greater indices. -/
theorem slotsFrom_of_whole {offset : Nat} (place : offset = index * width.bytes)
    (whole : offset + width.bytes ≤ data.length) :
    slotsFrom width data.length offset index (data.drop offset) =
      (shown? width data index).toList ++
        slotsFrom width data.length (offset + width.bytes) (index + 1)
          (data.drop (offset + width.bytes)) := by
  rw [slotsFrom, dif_pos whole, ← Bytes.range_eq_take_drop, List.drop_drop, place]
  rfl

/--
The offset stays the index times the size of a pointer, so the walk shows the
slots from its index to the last whole one.
-/
theorem slotsFrom_eq_filterMap_range' {offset count : Nat} (place : offset = index * width.bytes)
    (left : data.length / width.bytes = index + count) :
    slotsFrom width data.length offset index (data.drop offset) =
      (List.range' index count).filterMap (shown? width data) := by
  induction count generalizing offset index with
  | zero =>
      have short := Nat.lt_div_mul_add (a := data.length) width.bytes_pos
      rw [left, Nat.add_zero, ← place] at short
      rw [slotsFrom, dif_neg (Nat.not_le.2 short)]
      rfl
  | succ count ih =>
      have next : offset + width.bytes = (index + 1) * width.bytes := by
        rw [place, Nat.succ_mul]
      have whole : offset + width.bytes ≤ data.length := by
        rw [next]
        exact Nat.le_trans (Nat.mul_le_mul_right _ (by omega)) (Nat.div_mul_le_self _ _)
      rw [slotsFrom_of_whole place whole, ih next (by omega), List.range'_succ]
      cases found : shown? width data index <;> simp [found]

theorem slotsOf_eq_filterMap_range (width : PointerWidth) (data : Bytes) :
    slotsOf width data =
      (List.range (data.length / width.bytes)).filterMap (shown? width data) := by
  rw [List.range_eq_range']
  exact slotsFrom_eq_filterMap_range' (Nat.zero_mul _).symm (Nat.zero_add _).symm

/-- A shown slot is a whole slot that is documented or not zero. -/
theorem mem_slotsOf_iff {slot : ThreadSlot} :
    slot ∈ slotsOf width data ↔ ∃ index < data.length / width.bytes,
      (index < 14 ∨ valueAt width data index ≠ 0) ∧ slot = slotOf width data index := by
  rw [slotsOf_eq_filterMap_range, List.mem_filterMap]
  constructor
  · rintro ⟨index, member, found⟩
    rw [shown?_eq_ite] at found
    split at found
    · rename_i isShown
      cases found
      exact ⟨index, List.mem_range.1 member, isShown, rfl⟩
    · cases found
  · rintro ⟨index, inside, isShown, rfl⟩
    refine ⟨index, List.mem_range.2 inside, ?_⟩
    rw [shown?_eq_ite, if_pos isShown]

theorem offset_of_shown? {slot : ThreadSlot} (found : shown? width data index = some slot) :
    slot.offset = index * width.bytes := by
  rw [shown?_eq_ite] at found
  split at found <;> cases found
  rfl

theorem pairwise_offset_slotsOf (width : PointerWidth) (data : Bytes) :
    (slotsOf width data).Pairwise fun earlier later => earlier.offset < later.offset := by
  rw [slotsOf_eq_filterMap_range, List.pairwise_filterMap]
  refine List.pairwise_lt_range.imp ?_
  intro first second before earlier found later foundLater
  rw [offset_of_shown? found, offset_of_shown? foundLater]
  exact Nat.mul_lt_mul_of_pos_right before width.bytes_pos

/-! ## Slots by their name -/

theorem isNamed_shown?_iff {name : String} :
    (shown? width data index).any (fun slot => slot.name == some name) = true ↔
      fieldNames[index]? = some name := by
  rw [shown?_eq_ite]
  split
  · exact beq_iff_eq
  · rename_i hidden
    have undocumented : fieldNames[index]? = none :=
      List.getElem?_eq_none_iff.2 (Nat.not_lt.1 (not_or.1 hidden).1)
    rw [undocumented]
    exact ⟨nofun, nofun⟩

/-- The first shown slot with a documented name is the one at the place of the name. -/
theorem get?_of_name {block : ThreadBlock} {name : String}
    (decoded : block.slots = slotsOf width data) (named : fieldNames[index]? = some name)
    (inside : index < data.length / width.bytes) :
    block.get? name = some (valueAt width data index) := by
  have documented : index < 14 := (List.getElem?_eq_some_iff.1 named).1
  have distinct : fieldNames.Nodup := by decide
  have place : (List.range (data.length / width.bytes)).find? (fun other =>
      (shown? width data other).any fun slot => slot.name == some name) = some index := by
    rw [List.find?_range_eq_some]
    refine ⟨isNamed_shown?_iff.2 named, List.mem_range.2 inside, fun other before => ?_⟩
    rw [Bool.not_eq_true', Bool.eq_false_iff]
    intro isNamed
    -- Names are distinct, so an earlier slot with this name would be the same one.
    have same := (isNamed_shown?_iff.1 isNamed).trans named.symm
    have earlier : other < fieldNames.length := Nat.lt_trans before documented
    exact Nat.ne_of_lt before ((List.getElem?_inj earlier distinct).1 same)
  unfold get?
  rw [decoded, slotsOf_eq_filterMap_range, List.find?_filterMap, place, Option.bind_some,
    shown?_eq_ite, if_pos (.inl documented)]
  rfl

theorem get?_eq_none {block : ThreadBlock} {name : String}
    (decoded : block.slots = slotsOf width data) (unknown : name ∉ fieldNames) :
    block.get? name = none := by
  have nowhere : (List.range (data.length / width.bytes)).find? (fun index =>
      (shown? width data index).any fun slot => slot.name == some name) = none := by
    rw [List.find?_range_eq_none]
    intro index _
    rw [Bool.not_eq_true', Bool.eq_false_iff]
    intro isNamed
    exact unknown (List.mem_of_getElem? (isNamed_shown?_iff.1 isNamed))
  unfold get?
  rw [decoded, slotsOf_eq_filterMap_range, List.find?_filterMap, nowhere]
  rfl

/-! ## Writing the slots back -/

/-- Put every slot's value at the slot's offset, one slot after the other. -/
def writeSlots (width : PointerWidth) (slots : List ThreadSlot) (buffer : Bytes) : Bytes :=
  slots.foldl
    (fun bytes slot => bytes.overwrite slot.offset (width.pointerBytes slot.value)) buffer

/-- The bytes of a slot are those of its value. -/
theorem pointerBytes_valueAt (fits : index * width.bytes + width.bytes ≤ data.length) :
    width.pointerBytes (valueAt width data index) =
      data.range (index * width.bytes) width.bytes :=
  PointerWidth.pointerBytes_addressOf (Bytes.length_range fits)

/-- A slot that is shown writes its bytes, and one that is not shown has nothing but zeros. -/
theorem writeSlots_shown? {before : Bytes} (place : before.length = index * width.bytes)
    (fits : index * width.bytes + width.bytes ≤ data.length) (after : Bytes) :
    writeSlots width (shown? width data index).toList
        (before ++ (List.replicate width.bytes 0 ++ after)) =
      before ++ (data.range (index * width.bytes) width.bytes ++ after) := by
  have stored := pointerBytes_valueAt fits
  rw [shown?_eq_ite]
  split
  · change Bytes.overwrite _ (index * width.bytes)
      (width.pointerBytes (valueAt width data index)) = _
    rw [stored, ← place]
    refine Bytes.overwrite_append before ?_ after
    rw [List.length_replicate, place, Bytes.length_range fits]
  · rename_i hidden
    have zero : valueAt width data index = 0 := Decidable.not_not.1 (not_or.1 hidden).2
    rw [← stored, zero, PointerWidth.pointerBytes_zero]
    rfl

/-- The first slots, written over zeros, give back the bytes that they were decoded from. -/
theorem writeSlots_filterMap_range {count : Nat} (fits : count * width.bytes ≤ data.length) :
    writeSlots width ((List.range count).filterMap (shown? width data))
        (List.replicate data.length 0) =
      data.take (count * width.bytes) ++
        List.replicate (data.length - count * width.bytes) 0 := by
  induction count with
  | zero =>
      rw [Nat.zero_mul, List.take_zero, Nat.sub_zero]
      rfl
  | succ count ih =>
      rw [Nat.succ_mul] at fits ⊢
      have place : (data.take (count * width.bytes)).length = count * width.bytes :=
        List.length_take_of_le (by omega)
      -- The zeros behind what is written already are those of this slot and of the rest.
      have room : data.length - count * width.bytes =
          width.bytes + (data.length - (count * width.bytes + width.bytes)) := by omega
      have last : [count].filterMap (shown? width data) = (shown? width data count).toList := by
        cases found : shown? width data count <;> simp [found]
      rw [List.range_succ, List.filterMap_append, last]
      unfold writeSlots at ih ⊢
      rw [List.foldl_append, ih (by omega), room, ← List.replicate_append_replicate,
        List.take_add, List.append_assoc, ← Bytes.range_eq_take_drop]
      exact writeSlots_shown? place fits _

/-! ## A decoded block -/

theorem toNat_valueAt (fits : index * width.bytes + width.bytes ≤ data.length) :
    (valueAt width data index).toNat =
      LittleEndian.value ((data.drop (index * width.bytes)).take width.bytes) := by
  rw [← Bytes.range_eq_take_drop]
  exact PointerWidth.toNat_addressOf (Bytes.length_range fits)

/-- A whole slot ends inside its byte string. -/
theorem slot_fits (inside : index < data.length / width.bytes) :
    index * width.bytes + width.bytes ≤ data.length := by
  rw [← Nat.succ_mul]
  exact Nat.le_trans (Nat.mul_le_mul_right _ inside) (Nat.div_mul_le_self _ _)

/-- All documented slots of a long enough byte string are whole ones. -/
theorem index_lt_of_documented (long : 14 * width.bytes ≤ data.length) (documented : index < 14) :
    index < data.length / width.bytes :=
  Nat.lt_of_lt_of_le documented ((Nat.le_div_iff_mul_le width.bytes_pos).2 long)

theorem parse_eq_ok (address : UInt64) (long : 14 * width.bytes ≤ data.length) :
    parse address width data = .ok ⟨address, width, slotsOf width data⟩ :=
  if_neg (Nat.not_lt.2 long)

theorem parse_eq_error_iff {address : UInt64} {fault : Fault} :
    parse address width data = .error fault ↔
      fault = .outOfBounds ∧ data.length < 14 * width.bytes := by
  constructor
  · intro failed
    by_cases long : 14 * width.bytes ≤ data.length
    · rw [parse_eq_ok address long] at failed
      cases failed
    · have short := Nat.not_le.1 long
      cases (if_pos short).symm.trans failed
      exact ⟨rfl, short⟩
  · rintro ⟨rfl, short⟩
    exact if_pos short

/--
Decoding a block fails exactly when it is too short for the documented slots.
Otherwise the shown slots stand in the order of their offsets, and they are the
whole slots that are documented or not zero, each with its offset, its name and
its little-endian value.  Their values, written at their offsets over zeros, give
back all whole slots, and a name finds the value at its own place.
-/
theorem parse_keeps_every_slot (address : UInt64) (width : PointerWidth) (data : Bytes) :
    (∀ fault, parse address width data = .error fault ↔
      fault = .outOfBounds ∧ data.length < 14 * width.bytes) ∧
    (14 * width.bytes ≤ data.length →
      ∃ block, parse address width data = .ok block ∧
        block.address = address ∧ block.width = width ∧
        (block.slots.Pairwise fun earlier later => earlier.offset < later.offset) ∧
        (∀ slot, slot ∈ block.slots ↔ ∃ index < data.length / width.bytes,
          (index < 14 ∨ valueAt width data index ≠ 0) ∧
            slot = ⟨index * width.bytes, fieldNames[index]?, valueAt width data index⟩) ∧
        (∀ index < data.length / width.bytes, (valueAt width data index).toNat =
          LittleEndian.value ((data.drop (index * width.bytes)).take width.bytes)) ∧
        writeSlots width block.slots (List.replicate data.length 0) =
          data.take (data.length / width.bytes * width.bytes) ++
            List.replicate (data.length % width.bytes) 0 ∧
        fieldNames.length = 14 ∧
        (∀ index name, fieldNames[index]? = some name →
          block.get? name = some (valueAt width data index)) ∧
        ∀ name, name ∉ fieldNames → block.get? name = none) := by
  refine ⟨fun fault => parse_eq_error_iff, fun long => ?_⟩
  refine ⟨⟨address, width, slotsOf width data⟩, parse_eq_ok address long, rfl, rfl,
    pairwise_offset_slotsOf width data, fun slot => mem_slotsOf_iff,
    fun index inside => toNat_valueAt (slot_fits inside), ?_, rfl, ?_,
    fun name => get?_eq_none rfl⟩
  · have rest : data.length - data.length / width.bytes * width.bytes =
        data.length % width.bytes := by
      have split := Nat.div_add_mod' data.length width.bytes
      omega
    rw [slotsOf_eq_filterMap_range, ← rest]
    exact writeSlots_filterMap_range (Nat.div_mul_le_self _ _)
  · intro index name named
    have documented : index < 14 := (List.getElem?_eq_some_iff.1 named).1
    exact get?_of_name rfl named (index_lt_of_documented long documented)

end ThreadBlock

end NtTarget
