import Mathlib.Algebra.Group.Nat.Defs
import NtTarget.Bytes.Basic

/-!
# Ranges of byte strings

A range is given by an offset and a length and cut at the end of its string.
Machine words compute its end in three ways: the sum stops at the largest word,
or it must not wrap, or the length is cut down first.  In a string that fits in
memory all three find the bytes that natural numbers find.
-/

namespace NtTarget

namespace Bytes

/-- The bytes between two offsets, each of them cut at the end of the string. -/
def range (bytes : Bytes) (offset length : Nat) : Bytes :=
  bytes.extract (min offset bytes.length) (min (offset + length) bytes.length)

theorem range_eq_take_drop (bytes : Bytes) (offset length : Nat) :
    bytes.range offset length = (bytes.drop offset).take length := by
  unfold range
  rw [List.extract_eq_take_drop]
  rcases Nat.le_total bytes.length offset with past | inside
  · rw [Nat.min_eq_right past, List.drop_length, List.drop_of_length_le past, List.take_nil,
      List.take_nil]
  · rw [Nat.min_eq_left inside, List.take_eq_take_iff, List.length_drop]
    omega

/-- A range of positive length is empty only behind the end. -/
theorem range_eq_nil_iff {bytes : Bytes} {offset length : Nat} (positive : 0 < length) :
    bytes.range offset length = [] ↔ bytes.length ≤ offset := by
  rw [range_eq_take_drop, List.take_eq_nil_iff, List.drop_eq_nil_iff]
  exact or_iff_right (Nat.ne_of_gt positive)

theorem length_range {bytes : Bytes} {offset length : Nat} (fits : offset + length ≤ bytes.length) :
    (bytes.range offset length).length = length := by
  rw [range_eq_take_drop, List.length_take, List.length_drop]
  exact Nat.min_eq_left (by omega)

/-- A range is the two that it is divided into. -/
theorem range_add (bytes : Bytes) (offset first second : Nat) :
    bytes.range offset (first + second) =
      bytes.range offset first ++ bytes.range (offset + first) second := by
  rw [range_eq_take_drop, range_eq_take_drop, range_eq_take_drop, List.take_add, List.drop_drop]

/-- A range of several pieces of one size is these pieces in a row. -/
theorem range_mul (bytes : Bytes) (offset count size : Nat) :
    bytes.range offset (count * size) =
      (List.range count).flatMap fun index => bytes.range (offset + index * size) size := by
  induction count with
  | zero =>
      rw [range_eq_take_drop, Nat.zero_mul, List.take_zero]
      rfl
  | succ count ih =>
      rw [Nat.succ_mul, range_add, ih, List.range_succ, List.flatMap_append,
        List.flatMap_singleton]

/-- A range of a range is the range at its own place. -/
theorem range_range (bytes : Bytes) {start length offset part : Nat}
    (fits : offset + part ≤ length) :
    (bytes.range start length).range offset part = bytes.range (start + offset) part := by
  rw [range_eq_take_drop, range_eq_take_drop, range_eq_take_drop, List.drop_take, List.drop_drop,
    List.take_take, Nat.min_eq_left (by omega)]

@[simp] theorem range_zero_length (bytes : Bytes) : bytes.range 0 bytes.length = bytes := by
  rw [range_eq_take_drop, List.drop_zero, List.take_length]

/-- A slice is what stands between its two ends. -/
theorem slice?_eq_extract {bytes : Bytes} {offset length : Nat}
    (inside : offset + length ≤ bytes.length) :
    bytes.slice? offset length = some (bytes.extract offset (offset + length)) := by
  rw [slice?_eq_some_iff, List.extract_eq_take_drop, Nat.add_sub_cancel_left]
  exact ⟨inside, rfl⟩

/-- A part of a slice is the slice at its own place. -/
theorem slice?_range {bytes slice : Bytes} {start length offset part : Nat}
    (found : bytes.slice? start length = some slice) (fits : offset + part ≤ length) :
    bytes.slice? (start + offset) part = some (slice.range offset part) := by
  obtain ⟨inside, rfl⟩ := slice?_eq_some_iff.1 found
  rw [slice?_eq_some_iff, ← range_eq_take_drop, ← range_eq_take_drop, range_range bytes fits]
  exact ⟨by omega, rfl⟩

/-- A range that starts inside its string is cut at one end only. -/
theorem range_eq_extract {bytes : Bytes} {offset : Nat} (inside : offset ≤ bytes.length)
    (length : Nat) :
    bytes.range offset length = bytes.extract offset (min (offset + length) bytes.length) := by
  unfold range
  rw [Nat.min_eq_left inside]

/-- What is left behind a range continues it. -/
theorem range_append_drop (bytes : Bytes) (offset length : Nat) :
    bytes.range offset length ++ bytes.drop (offset + (bytes.range offset length).length) =
      bytes.drop offset := by
  rw [range_eq_take_drop, ← List.drop_drop]
  exact List.prefix_iff_eq_append.1 (List.take_prefix length (bytes.drop offset))

section Words

variable {w : Nat}

theorem toNat_ofNat_length {bytes : Bytes} (fits : bytes.length < 2 ^ w) :
    (BitVec.ofNat w bytes.length).toNat = bytes.length := by
  rw [BitVec.toNat_ofNat, Nat.mod_eq_of_lt fits]

/-- The sum of two machine words, which stops at the largest one. -/
def saturatingSum (a b : BitVec w) : BitVec w :=
  if a.uaddOverflow b then BitVec.allOnes w else a + b

/-- The end of a range of a string, as machine words compute it. -/
def wordStop (size offset length : BitVec w) : BitVec w :=
  if size ≤ saturatingSum offset length then size else saturatingSum offset length

/--
A range as machine words compute it.  There is none when its bounds are out of
order or outside the string.
-/
def wordRange? (bytes : Bytes) (offset length : BitVec w) : Option Bytes :=
  let size := BitVec.ofNat w bytes.length
  let stop := wordStop size offset length
  if size ≤ offset then some []
  else if offset ≤ stop then bytes.slice? offset.toNat (stop - offset).toNat
  else none

theorem toNat_saturatingSum (a b : BitVec w) :
    (saturatingSum a b).toNat = min (a.toNat + b.toNat) (2 ^ w - 1) := by
  unfold saturatingSum
  by_cases overflow : a.uaddOverflow b = true
  · have large : 2 ^ w ≤ a.toNat + b.toNat := of_decide_eq_true overflow
    rw [if_pos overflow, BitVec.toNat_allOnes]
    omega
  · have small : ¬ 2 ^ w ≤ a.toNat + b.toNat := fun large => overflow (decide_eq_true large)
    rw [if_neg overflow, BitVec.toNat_add_of_not_uaddOverflow overflow]
    omega

theorem toNat_wordStop (size offset length : BitVec w) :
    (wordStop size offset length).toNat = min (offset.toNat + length.toNat) size.toNat := by
  have total := toNat_saturatingSum offset length
  have bound := size.isLt
  unfold wordStop
  split <;> rename_i order <;> rw [BitVec.le_def] at order <;> omega

/-- In a string that fits in memory the bounds of a range are in order and never wrap. -/
theorem wordRange?_eq_some {bytes : Bytes} (fits : bytes.length < 2 ^ w)
    (offset length : BitVec w) :
    bytes.wordRange? offset length = some (bytes.range offset.toNat length.toNat) := by
  have size := toNat_ofNat_length fits
  have stop := toNat_wordStop (BitVec.ofNat w bytes.length) offset length
  rw [size] at stop
  unfold wordRange?
  dsimp only
  rw [range_eq_take_drop]
  by_cases past : BitVec.ofNat w bytes.length ≤ offset
  · rw [if_pos past]
    rw [BitVec.le_def, size] at past
    rw [List.drop_of_length_le past, List.take_nil]
  · rw [if_neg past]
    rw [BitVec.le_def, size] at past
    have ordered : offset ≤ wordStop (BitVec.ofNat w bytes.length) offset length := by
      rw [BitVec.le_def, stop]
      omega
    rw [if_pos ordered, slice?_eq_some_iff, BitVec.toNat_sub_of_le ordered, stop,
      List.take_eq_take_iff, List.length_drop]
    omega

/--
A slice as machine words find it.  There is none when the end of the range wraps
or lies behind the string.
-/
def wordSlice? (bytes : Bytes) (offset length : BitVec w) : Option Bytes :=
  if offset.uaddOverflow length then none
  else if offset + length ≤ BitVec.ofNat w bytes.length then
    some (bytes.extract offset.toNat (offset + length).toNat)
  else none

/-- A range as machine words find it, whose length is cut down before its end is computed. -/
def wordPart? (bytes : Bytes) (offset length : BitVec w) : Option Bytes :=
  let left := BitVec.ofNat w bytes.length - offset
  if BitVec.ofNat w bytes.length < offset then none
  else bytes.slice? offset.toNat (if length ≤ left then length else left).toNat

section Fits

variable {bytes : Bytes} (fits : bytes.length < 2 ^ w)
include fits

/-- A range whose end wraps ends behind a string that fits in memory. -/
theorem wordSlice?_eq_slice? (offset length : BitVec w) :
    bytes.wordSlice? offset length = bytes.slice? offset.toNat length.toNat := by
  have size := toNat_ofNat_length fits
  unfold wordSlice?
  by_cases overflow : offset.uaddOverflow length = true
  · have large : 2 ^ w ≤ offset.toNat + length.toNat := of_decide_eq_true overflow
    rw [if_pos overflow]
    exact (slice?_eq_none_iff.2 (Nat.lt_of_lt_of_le fits large)).symm
  · have stop := BitVec.toNat_add_of_not_uaddOverflow overflow
    rw [if_neg overflow]
    by_cases inside : offset + length ≤ BitVec.ofNat w bytes.length
    · rw [if_pos inside, stop]
      rw [BitVec.le_def, stop, size] at inside
      exact (slice?_eq_extract inside).symm
    · rw [if_neg inside]
      rw [BitVec.le_def, stop, size] at inside
      exact (slice?_eq_none_iff.2 (Nat.not_le.1 inside)).symm

/-- Cutting the length down keeps the end of a range inside its string. -/
theorem wordPart?_eq_range (offset length : BitVec w) :
    bytes.wordPart? offset length =
      if bytes.length < offset.toNat then none
      else some (bytes.range offset.toNat length.toNat) := by
  have size := toNat_ofNat_length fits
  unfold wordPart?
  dsimp only
  by_cases past : BitVec.ofNat w bytes.length < offset
  · rw [if_pos past]
    rw [BitVec.lt_def, size] at past
    rw [if_pos past]
  · have ordered : offset ≤ BitVec.ofNat w bytes.length := by
      rw [BitVec.lt_def] at past
      exact BitVec.le_def.2 (Nat.not_lt.1 past)
    have left := BitVec.toNat_sub_of_le ordered
    rw [size] at left
    rw [if_neg past]
    rw [BitVec.lt_def, size] at past
    rw [if_neg past, range_eq_take_drop, slice?_eq_some_iff, List.take_eq_take_iff,
      List.length_drop]
    split <;> rename_i order <;> rw [BitVec.le_def, left] at order <;> omega

end Fits

end Words

end Bytes

end NtTarget
