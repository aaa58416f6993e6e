import Mathlib.Data.List.Chain
import Mathlib.Data.List.TakeWhile
import NtTarget.Memory.Image
import NtTarget.Proofs.Bytes.Ranges

/-!
# Which region answers a read

A read is answered by the last region that starts at or below its address, and
that region must hold the whole range.  Where no region reaches past the start
of the next one, any region that holds the range answers the same bytes.
-/

namespace NtTarget

namespace Region

/-- All of some bytes lie inside a region, at an address of their own. -/
structure Holds (region : Region) (address : Nat) (bytes : Bytes) : Prop where
  start_le : region.start.toNat ≤ address
  slice : region.bytes.slice? (address - region.start.toNat) bytes.length = some bytes

instance (region : Region) (address : Nat) (bytes : Bytes) :
    Decidable (region.Holds address bytes) :=
  decidable_of_iff (region.start.toNat ≤ address ∧
      region.bytes.slice? (address - region.start.toNat) bytes.length = some bytes)
    ⟨fun both => ⟨both.1, both.2⟩, fun holds => ⟨holds.start_le, holds.slice⟩⟩

theorem Holds.le_stop {region : Region} {address : Nat} {bytes : Bytes}
    (holds : region.Holds address bytes) : address + bytes.length ≤ region.stop := by
  obtain ⟨above, slice⟩ := holds
  have fits := (Bytes.slice?_eq_some_iff.1 slice).1
  unfold stop
  omega

/-- A region that holds bytes holds every part of them, at the part's own address. -/
theorem Holds.range {region : Region} {address offset length : Nat} {bytes : Bytes}
    (holds : region.Holds address bytes) (fits : offset + length ≤ bytes.length) :
    region.Holds (address + offset) (bytes.range offset length) := by
  refine ⟨Nat.le_trans holds.start_le (Nat.le_add_right _ _), ?_⟩
  rw [Bytes.length_range fits, Nat.sub_add_comm holds.start_le]
  exact Bytes.slice?_range holds.slice fits

/-- A region that holds bytes at its end holds none there, and so does one that starts there. -/
theorem Holds.of_start_eq {region next : Region} {address : Nat} {bytes : Bytes}
    (holds : region.Holds address bytes) (apart : region.stop ≤ next.start.toNat)
    (reached : next.start.toNat ≤ address) : next.Holds address bytes := by
  have inside := holds.le_stop
  have same : address - next.start.toNat = 0 := by omega
  have nothing : bytes = [] := List.length_eq_zero_iff.1 (by omega)
  refine ⟨reached, ?_⟩
  rw [same, nothing]
  simp [Bytes.slice?]

theorem mem_of_mem_takeWhile {regions : List Region} {region : Region} {address : Nat}
    (member : region ∈ regions.takeWhile fun other => other.start.toNat ≤ address) :
    region ∈ regions ∧ region.start.toNat ≤ address := by
  have low := List.mem_takeWhile_imp member
  exact ⟨(List.takeWhile_prefix _).subset member, of_decide_eq_true low⟩

/-- Of a row of regions that keep apart, the last one that starts low enough holds the bytes. -/
theorem exists_getLast?_holds {regions : List Region} {region : Region} {address : Nat}
    {bytes : Bytes} (apart : regions.Pairwise fun left right => left.stop ≤ right.start.toNat)
    (inside : region ∈ regions) (holds : region.Holds address bytes) :
    ∃ last, (regions.takeWhile fun other => other.start.toNat ≤ address).getLast? = some last ∧
      last.Holds address bytes := by
  induction regions with
  | nil => cases inside
  | cons head rest ih =>
      obtain ⟨first, later⟩ := List.pairwise_cons.1 apart
      have low : head.start.toNat ≤ address := by
        rcases List.mem_cons.1 inside with rfl | deeper
        · exact holds.start_le
        · have before := first region deeper
          have above := holds.start_le
          unfold stop at before
          omega
      rw [List.takeWhile_cons, if_pos (decide_eq_true low)]
      rcases List.mem_cons.1 inside with rfl | deeper
      · -- A later region that starts low enough can only start where the bytes end.
        cases found : (rest.takeWhile fun other => other.start.toNat ≤ address).getLast? with
        | none =>
            rw [List.getLast?_eq_none_iff.1 found]
            exact ⟨region, rfl, holds⟩
        | some last =>
            obtain ⟨member, reached⟩ := mem_of_mem_takeWhile (List.mem_of_getLast? found)
            refine ⟨last, ?_, holds.of_start_eq (first last member) reached⟩
            rw [List.getLast?_cons, found]
            rfl
      · obtain ⟨last, found, held⟩ := ih later deeper
        refine ⟨last, ?_, held⟩
        rw [List.getLast?_cons, found]
        rfl

end Region

namespace MemoryImage

/-- Regions keep apart as soon as each one keeps apart from the next. -/
theorem disjoint_iff_isChain {image : MemoryImage} :
    image.Disjoint ↔ image.regions.IsChain fun left right => left.stop ≤ right.start.toNat := by
  have following : IsTrans Region fun left right => left.stop ≤ right.start.toNat := by
    refine ⟨fun first second third low high => ?_⟩
    unfold Region.stop at low high ⊢
    omega
  exact List.isChain_iff_pairwise.symm

/-- Some region of an image holds some bytes at an address. -/
def Holds (image : MemoryImage) (address : Nat) (bytes : Bytes) : Prop :=
  ∃ region ∈ image.regions, region.Holds address bytes

instance (image : MemoryImage) (address : Nat) (bytes : Bytes) :
    Decidable (image.Holds address bytes) :=
  inferInstanceAs (Decidable (∃ region ∈ image.regions, region.Holds address bytes))

theorem Holds.range {image : MemoryImage} {address offset length : Nat} {bytes : Bytes}
    (held : image.Holds address bytes) (fits : offset + length ≤ bytes.length) :
    image.Holds (address + offset) (bytes.range offset length) := by
  obtain ⟨region, inside, holds⟩ := held
  exact ⟨region, inside, holds.range fits⟩

/-- What is read is held by a region. -/
theorem holds_of_read {image : MemoryImage} {address : UInt64} {length : Nat} {bytes : Bytes}
    (found : image.read address length = .ok bytes) :
    bytes.length = length ∧ image.Holds address.toNat bytes := by
  rw [read_eq_ok_iff_bytesAt?] at found
  unfold bytesAt? regionFor? at found
  obtain ⟨region, last, slice⟩ := Option.bind_eq_some_iff.1 found
  obtain ⟨member, reached⟩ := Region.mem_of_mem_takeWhile (List.mem_of_getLast? last)
  have size := Bytes.length_of_slice? slice
  refine ⟨size, region, member, reached, ?_⟩
  rw [size]
  exact slice

/-- Less can be read where more can: the same region is asked for it. -/
theorem read_take {image : MemoryImage} {address : UInt64} {length shorter : Nat} {bytes : Bytes}
    (found : image.read address length = .ok bytes) (less : shorter ≤ length) :
    image.read address shorter = .ok (bytes.take shorter) := by
  rw [read_eq_ok_iff_bytesAt?] at found ⊢
  unfold bytesAt? at found ⊢
  obtain ⟨region, answers, slice⟩ := Option.bind_eq_some_iff.1 found
  have fits : 0 + shorter ≤ length := Nat.le_trans (Nat.le_of_eq (Nat.zero_add _)) less
  have first := Bytes.slice?_range slice fits
  rw [Bytes.range_eq_take_drop, List.drop_zero] at first
  rw [answers]
  exact first

/-- Where regions keep apart, what a region holds can be read. -/
theorem read_of_holds {image : MemoryImage} (apart : image.Disjoint) {address : UInt64}
    {bytes : Bytes} (held : image.Holds address.toNat bytes) :
    image.read address bytes.length = .ok bytes := by
  obtain ⟨region, inside, holds⟩ := held
  obtain ⟨last, answers, held⟩ := Region.exists_getLast?_holds apart inside holds
  rw [read_eq_ok_iff_bytesAt?]
  unfold bytesAt? regionFor?
  rw [answers]
  exact held.slice

end MemoryImage

end NtTarget
