import NtTarget.Proofs.Memory.Regions

/-!
# What can be read from an image

A read looks at one region only, yet where regions keep apart it misses nothing:
a range can be read exactly when some region contains it, and what is read are
the bytes of that region.  A range is never put together from two regions, even
when they touch.  So a read divides into the reads of its parts, and a region
that is mapped beside the others takes nothing away.
-/

namespace NtTarget

namespace Region

/-- A range lies inside a region.  One of no length may stand at the region's end. -/
def Contains (region : Region) (address length : Nat) : Prop :=
  region.start.toNat ≤ address ∧ address + length ≤ region.stop

instance (region : Region) (address length : Nat) : Decidable (region.Contains address length) :=
  inferInstanceAs (Decidable (_ ∧ _))

/-- The bytes of a region at an address. -/
def part (region : Region) (address length : Nat) : Bytes :=
  region.bytes.extract (address - region.start.toNat) (address - region.start.toNat + length)

variable {region : Region} {address length : Nat} {bytes : Bytes}

/-- A region holds exactly its own bytes at a range that it contains. -/
theorem holds_iff :
    region.Holds address bytes ↔
      region.Contains address bytes.length ∧ bytes = region.part address bytes.length := by
  constructor
  · intro holds
    refine ⟨⟨holds.start_le, holds.le_stop⟩, ?_⟩
    have slice := holds.slice
    rw [Bytes.slice?_eq_extract (Bytes.slice?_eq_some_iff.1 slice).1] at slice
    exact (Option.some.inj slice).symm
  · rintro ⟨⟨above, below⟩, own⟩
    unfold stop at below
    refine ⟨above, ?_⟩
    rw [Bytes.slice?_eq_extract (by omega)]
    exact congrArg some own.symm

theorem length_part (contained : region.Contains address length) :
    (region.part address length).length = length := by
  obtain ⟨above, below⟩ := contained
  unfold stop at below
  unfold part
  rw [List.extract_eq_take_drop, List.length_take, List.length_drop]
  omega

theorem Contains.holds_part (contained : region.Contains address length) :
    region.Holds address (region.part address length) := by
  have size := length_part contained
  rw [holds_iff, size]
  exact ⟨contained, rfl⟩

end Region

namespace MemoryImage

variable {image : MemoryImage} {address : UInt64} {length : Nat} {bytes : Bytes}

/-! ## Exactly the ranges inside one region -/

theorem read_eq_ok_iff (apart : image.Disjoint) :
    image.read address length = .ok bytes ↔
      ∃ region ∈ image.regions, region.Contains address.toNat length ∧
        bytes = region.part address.toNat length := by
  constructor
  · intro found
    obtain ⟨rfl, region, inside, holds⟩ := holds_of_read found
    exact ⟨region, inside, Region.holds_iff.1 holds⟩
  · rintro ⟨region, inside, contained, rfl⟩
    have found := read_of_holds apart ⟨region, inside, contained.holds_part⟩
    rwa [Region.length_part contained] at found

/-- A range that no region contains is refused as a whole. -/
theorem read_eq_error_iff_forall (apart : image.Disjoint) {fault : Fault} :
    image.read address length = .error fault ↔
      fault = .unreadable address length ∧
        ∀ region ∈ image.regions, ¬ region.Contains address.toNat length := by
  have refused : image.bytesAt? address length = none ↔
      ∀ region ∈ image.regions, ¬ region.Contains address.toNat length := by
    rw [Option.eq_none_iff_forall_ne_some]
    constructor
    · intro nothing region inside contained
      refine nothing (region.part address.toNat length) ?_
      exact read_eq_ok_iff_bytesAt?.1 ((read_eq_ok_iff apart).2 ⟨region, inside, contained, rfl⟩)
    · intro nowhere bytes found
      obtain ⟨region, inside, contained, -⟩ :=
        (read_eq_ok_iff apart).1 (read_eq_ok_iff_bytesAt?.2 found)
      exact nowhere region inside contained
  rw [read_eq_error_iff, refused, and_comm]

/-! ## Machine words -/

/--
A read whose address, length and offsets are machine words.  The offset is a
difference, and the end of the range must not wrap.
-/
def wordRead (image : MemoryImage) (address length : UInt64) : Except Fault Bytes :=
  match (image.regionFor? address).bind fun region =>
      region.bytes.wordSlice? (address - region.start).toBitVec length.toBitVec with
  | some bytes => .ok bytes
  | none => .error (.unreadable address length.toNat)

/-- The region that is asked starts at or below the address. -/
theorem regionFor?_eq_some {region : Region} (asked : image.regionFor? address = some region) :
    region ∈ image.regions ∧ region.start ≤ address := by
  obtain ⟨inside, low⟩ := Region.mem_of_mem_takeWhile (List.mem_of_getLast? asked)
  exact ⟨inside, UInt64.le_iff_toNat_le.2 low⟩

/-- No difference or sum of a read leaves the machine words. -/
theorem wordRead_eq_read
    (measured : ∀ region ∈ image.regions, region.bytes.length < UInt64.size)
    (address length : UInt64) :
    image.wordRead address length = image.read address length.toNat := by
  have same : ((image.regionFor? address).bind fun region =>
      region.bytes.wordSlice? (address - region.start).toBitVec length.toBitVec) =
        image.bytesAt? address length.toNat := by
    unfold bytesAt?
    cases asked : image.regionFor? address with
    | none => rfl
    | some region =>
        obtain ⟨inside, low⟩ := regionFor?_eq_some asked
        rw [Option.bind_some, Option.bind_some, Bytes.wordSlice?_eq_slice? (measured region inside)]
        rw [UInt64.toNat_toBitVec, UInt64.toNat_toBitVec, UInt64.toNat_sub_of_le _ _ low]
  unfold wordRead read
  cases found : image.bytesAt? address length.toNat with
  | some bytes => rw [same, found]
  | none => rw [same, found]

/-! ## Parts of a read, and reads of more memory -/

/-- A read divides at any place inside it. -/
theorem read_divides (apart : image.Disjoint) {first second : Nat}
    (addressed : address.toNat + first < UInt64.size)
    (found : image.read address (first + second) = .ok bytes) :
    ∃ front back, image.read address first = .ok front ∧
      image.read (address + UInt64.ofNat first) second = .ok back ∧ bytes = front ++ back := by
  refine ⟨bytes.take first, bytes.drop first, read_take found (Nat.le_add_right _ _), ?_,
    (List.take_append_drop first bytes).symm⟩
  obtain ⟨size, held⟩ := holds_of_read found
  have rest : bytes.range first second = bytes.drop first := by
    rw [Bytes.range_eq_take_drop, List.take_of_length_le]
    rw [List.length_drop]
    omega
  have behind := held.range (Nat.le_of_eq size.symm)
  have place : (address + UInt64.ofNat first).toNat = address.toNat + first := by
    have small : first < UInt64.size := by omega
    rw [UInt64.toNat_add, UInt64.toNat_ofNat_of_lt' small]
    exact Nat.mod_eq_of_lt addressed
  rw [rest, ← place] at behind
  have read := read_of_holds apart behind
  rwa [List.length_drop, size, Nat.add_sub_cancel_left] at read

/-- A region that is mapped where none starts leaves what could be read. -/
theorem read_map {start : UInt64} {added : Bytes}
    (free : ∀ region ∈ image.regions, region.start ≠ start)
    (apart : (image.map start added).Disjoint) (found : image.read address length = .ok bytes) :
    (image.map start added).read address length = .ok bytes := by
  obtain ⟨rfl, region, inside, holds⟩ := holds_of_read found
  have stays : region ∈ (image.map start added).regions :=
    Region.mem_insert_of_ne inside (free region inside)
  exact read_of_holds apart ⟨region, stays, holds⟩

/--
In an image whose regions keep apart, a range can be read exactly when a region
contains it, and it reads as the bytes of that region; any other range is
refused with its address and its length.  Machine words find the same, since no
offset wraps around.  What is read is the first part of it and then the rest,
each of which can be read, and a region that is mapped where none starts, apart
from the others, changes nothing that could be read.
-/
theorem read_serves_contained_ranges (apart : image.Disjoint) :
    (∀ address length bytes, image.read address length = .ok bytes ↔
      ∃ region ∈ image.regions, region.Contains address.toNat length ∧
        bytes = region.part address.toNat length) ∧
    (∀ address length fault, image.read address length = .error fault ↔
      fault = .unreadable address length ∧
        ∀ region ∈ image.regions, ¬ region.Contains address.toNat length) ∧
    ((∀ region ∈ image.regions, region.bytes.length < UInt64.size) →
      ∀ address length : UInt64,
        image.wordRead address length = image.read address length.toNat) ∧
    (∀ address first second bytes, address.toNat + first < UInt64.size →
      image.read address (first + second) = .ok bytes →
        ∃ front back, image.read address first = .ok front ∧
          image.read (address + UInt64.ofNat first) second = .ok back ∧ bytes = front ++ back) ∧
    ∀ start added, (∀ region ∈ image.regions, region.start ≠ start) →
      (image.map start added).Disjoint → ∀ address length bytes,
        image.read address length = .ok bytes →
          (image.map start added).read address length = .ok bytes := by
  refine ⟨fun _ _ _ => read_eq_ok_iff apart, fun _ _ _ => read_eq_error_iff_forall apart,
    wordRead_eq_read, ?_, ?_⟩
  · intro address first second bytes addressed found
    exact read_divides apart addressed found
  · intro start added free keepsApart address length bytes found
    exact read_map free keepsApart found

/-- Two regions that touch, an empty one at an address of its own and nothing below. -/
def touchingImage : MemoryImage :=
  ((empty.map 0x1000 [1, 2, 3, 4]).map 0x1004 [5, 6]).map 0x1008 []

/-- Reads end where a region does, and a third region beside them takes nothing away. -/
theorem touchingImage_reads :
    touchingImage.Disjoint ∧
      touchingImage.read 0x1001 3 = .ok [2, 3, 4] ∧
      touchingImage.read 0x1001 4 = .error (.unreadable 0x1001 4) ∧
      touchingImage.read 0x1006 0 = .ok [] ∧
      touchingImage.wordRead 0x1001 0xFFFFFFFFFFFFFFFF =
        touchingImage.read 0x1001 0xFFFFFFFFFFFFFFFF ∧
      (∃ front back, touchingImage.read 0x1001 1 = .ok front ∧
        touchingImage.read 0x1002 2 = .ok back ∧ [2, 3, 4] = front ++ back) ∧
      (touchingImage.map 0x1006 [7]).read 0x1006 0 = .ok [] := by
  have apart : touchingImage.Disjoint := disjoint_iff_isChain.2 (by decide)
  obtain ⟨served, refused, words, parts, more⟩ := read_serves_contained_ranges apart
  have inside : touchingImage.read 0x1001 3 = .ok [2, 3, 4] :=
    (served _ _ _).2 ⟨⟨0x1000, [1, 2, 3, 4]⟩, by decide, by decide, by decide⟩
  have atEnd : touchingImage.read 0x1006 0 = .ok [] :=
    (served _ _ _).2 ⟨⟨0x1004, [5, 6]⟩, by decide, by decide, by decide⟩
  refine ⟨apart, inside, (refused _ _ _).2 ⟨rfl, by decide⟩, atEnd,
    words (by decide) 0x1001 0xFFFFFFFFFFFFFFFF, ?_, ?_⟩
  · exact parts 0x1001 1 2 _ (by decide) inside
  · exact more 0x1006 [7] (by decide) (by decide) _ _ _ atEnd

end MemoryImage

end NtTarget
