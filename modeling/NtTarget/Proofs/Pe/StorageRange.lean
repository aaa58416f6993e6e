import Mathlib.Logic.Basic
import NtTarget.Pe.Storage
import NtTarget.Proofs.Bytes.WordReader

/-!
# Ranges of a stored file

A buffer looks for a range and may not find it.  A mapping compares the end of
the range with its size and then takes the bytes, which ends the program when
the bounds are out of order or outside.  Both add the offset and the length with
a check.  In a file that a word can measure both answer every range, and with
the same bytes.
-/

namespace NtTarget

/-- Two positions that differ by a length bound the slice of that length. -/
theorem WordCursor.between?_eq_slice? {w : Nat} {cursor : WordCursor w} {start stop : BitVec w}
    {length : Nat} (measured : cursor.data.length < 2 ^ w)
    (sum : stop.toNat = start.toNat + length) :
    cursor.between? start stop = cursor.data.slice? start.toNat length := by
  by_cases inside : stop.toNat ≤ cursor.data.length
  · rw [between?_eq_some measured (by omega) inside, sum, Nat.add_sub_cancel_left]
    exact (Bytes.slice?_eq_some_iff.2 ⟨sum ▸ inside, rfl⟩).symm
  · have outside : ¬ stop ≤ cursor.size := by rwa [BitVec.le_def, toNat_size measured]
    rw [Bytes.slice?_eq_none_iff.2 (by omega)]
    exact if_neg fun bounds => outside bounds.2

namespace Storage

/--
What a storage answers to a range in machine words.  The outer `none` is a
program that ends, the inner one a range that is refused.
-/
def wordAnswer? {w : Nat} (storage : Storage) (offset length : BitVec w) : Option (Option Bytes) :=
  let cursor : WordCursor w := ⟨storage.contents, offset⟩
  match storage, checkedSum offset length with
  | _, none => some none
  | buffer _, some stop => some (cursor.between? offset stop)
  | mapping _, some stop =>
      if cursor.size < stop then some none else (cursor.between? offset stop).map some

/-- In numbers and in machine words a storage answers every range by the slice at its place. -/
structure AnswersRanges (storage : Storage) : Prop where
  ranges : ∀ offset length, storage.range? offset length = storage.contents.slice? offset length
  words : ∀ offset length : BitVec 64,
    storage.wordAnswer? offset length = some (storage.range? offset.toNat length.toNat)

variable (storage : Storage)

/-- A range whose end is a word is the slice at its place; no other range is answered. -/
theorem range?_eq (offset length : Nat) :
    storage.range? offset length =
      if offset + length < UInt64.size then storage.contents.slice? offset length else none := by
  by_cases addressed : offset + length < UInt64.size
  · have stop : stop? offset length = some (offset + length) := if_pos addressed
    rw [if_pos addressed]
    unfold Bytes.slice?
    cases storage with
    | buffer contents =>
        rw [range?, stop, Option.bind_some, List.drop_take, Nat.add_sub_cancel_left]
        exact if_congr (and_iff_right (Nat.le_add_right offset length)) rfl rfl
    | mapping contents =>
        rw [range?, stop, Option.bind_some, Nat.add_sub_cancel_left, ← ite_not]
        exact if_congr Nat.not_lt rfl rfl
  · have stop : stop? offset length = none := if_neg addressed
    rw [if_neg addressed]
    cases storage <;> rw [range?, stop, Option.bind_none]

/-- The ranges of a storage are those of a mapping of its contents. -/
theorem range?_mapping (offset length : Nat) :
    (mapping storage.contents).range? offset length = storage.range? offset length :=
  (range?_eq _ offset length).trans (storage.range?_eq offset length).symm

theorem range?_of_addressed {offset length : Nat} (addressed : offset + length < UInt64.size) :
    storage.range? offset length = storage.contents.slice? offset length :=
  (storage.range?_eq offset length).trans (if_pos addressed)

/-- Where a word can measure the file, a range whose end is no word is outside of it. -/
theorem range?_of_measured (measured : storage.contents.length < UInt64.size)
    (offset length : Nat) :
    storage.range? offset length = storage.contents.slice? offset length := by
  by_cases addressed : offset + length < UInt64.size
  · exact storage.range?_of_addressed addressed
  · rw [range?_eq, if_neg addressed]
    exact (Bytes.slice?_eq_none_iff.2 (by omega)).symm

/-- No range ends the program, and each is answered by the slice at its place. -/
theorem wordAnswer?_eq_slice? {w : Nat} (measured : storage.contents.length < 2 ^ w)
    (offset length : BitVec w) :
    storage.wordAnswer? offset length =
      some (storage.contents.slice? offset.toNat length.toNat) := by
  rcases Nat.lt_or_ge (offset.toNat + length.toNat) (2 ^ w) with fits | overflow
  · obtain ⟨stop, found, sum⟩ := exists_checkedSum fits
    let cursor : WordCursor w := ⟨storage.contents, offset⟩
    have taken : cursor.between? offset stop = storage.contents.slice? offset.toNat length.toNat :=
      WordCursor.between?_eq_slice? measured sum
    have size : cursor.size.toNat = storage.contents.length := WordCursor.toNat_size measured
    cases storage with
    | buffer contents =>
        unfold wordAnswer?
        rw [found]
        exact congrArg some taken
    | mapping contents =>
        unfold wordAnswer?
        rw [found]
        dsimp only
        rw [taken]
        split
        · rename_i past
          rw [BitVec.lt_def, size, sum] at past
          rw [Bytes.slice?_eq_none_iff.2 past]
        · rename_i inside
          rw [BitVec.lt_def, size, sum] at inside
          rw [Bytes.slice?_eq_some_iff.2 ⟨Nat.not_lt.1 inside, rfl⟩]
          rfl
  · have wrapped : storage.contents.length < offset.toNat + length.toNat := by omega
    unfold wordAnswer?
    rw [checkedSum_eq_none overflow, Bytes.slice?_eq_none_iff.2 wrapped]

theorem answersRanges (measured : storage.contents.length < UInt64.size) :
    storage.AnswersRanges where
  ranges := storage.range?_of_measured measured
  words offset length := by
    rw [storage.range?_of_measured measured]
    exact storage.wordAnswer?_eq_slice? measured offset length

end Storage

end NtTarget
