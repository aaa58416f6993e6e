/-!
# Byte strings

Sections, records, memory regions and executables are finite byte strings.
Sizes and offsets are natural numbers, so the end of a range never wraps: a
range is either inside its string or it is refused.
-/

namespace NtTarget

abbrev Bytes := List UInt8

namespace Bytes

/-- The `length` bytes at `offset`, when the string holds all of them. -/
def slice? (bytes : Bytes) (offset length : Nat) : Option Bytes :=
  if offset + length ≤ bytes.length then some ((bytes.drop offset).take length) else none

/-- The bytes before the first zero byte, or all of them when there is none. -/
def untilZero (bytes : Bytes) : Bytes :=
  bytes.takeWhile (· != 0)

/-- The bytes before the first zero byte, which must exist. -/
def zeroTerminated? (bytes : Bytes) : Option Bytes :=
  if bytes.contains 0 then some bytes.untilZero else none

theorem slice?_eq_some_iff {bytes part : Bytes} {offset length : Nat} :
    bytes.slice? offset length = some part ↔
      offset + length ≤ bytes.length ∧ (bytes.drop offset).take length = part := by
  simp [slice?]

theorem slice?_eq_none_iff {bytes : Bytes} {offset length : Nat} :
    bytes.slice? offset length = none ↔ bytes.length < offset + length := by
  simp [slice?]

theorem length_of_slice? {bytes part : Bytes} {offset length : Nat}
    (found : bytes.slice? offset length = some part) : part.length = length := by
  obtain ⟨fits, rfl⟩ := slice?_eq_some_iff.1 found
  simp only [List.length_take, List.length_drop]
  omega

/-- The bytes between two others are the slice at their place. -/
theorem slice?_between (before part after : Bytes) :
    (before ++ (part ++ after)).slice? before.length part.length = some part := by
  refine slice?_eq_some_iff.2 ⟨?_, ?_⟩
  · rw [List.length_append, List.length_append]
    omega
  · rw [List.drop_left, List.take_left]

theorem slice?_self (bytes : Bytes) : bytes.slice? 0 bytes.length = some bytes :=
  slice?_eq_some_iff.2 ⟨Nat.le_of_eq (Nat.zero_add _), List.take_length⟩

theorem zero_notMem_untilZero (bytes : Bytes) : (0 : UInt8) ∉ bytes.untilZero := by
  intro inside
  simpa using List.all_eq_true.1 List.all_takeWhile 0 inside

theorem untilZero_of_notMem {bytes : Bytes} (clean : (0 : UInt8) ∉ bytes) :
    bytes.untilZero = bytes := by
  induction bytes with
  | nil => rfl
  | cons byte rest ih =>
      rw [List.mem_cons, not_or] at clean
      have step : untilZero (byte :: rest) = byte :: untilZero rest :=
        List.takeWhile_cons_of_pos (bne_iff_ne.2 (Ne.symm clean.1))
      rw [step, ih clean.2]

theorem length_untilZero (bytes : Bytes) :
    bytes.untilZero.length = bytes.findIdx (· == 0) := by
  have first : bytes.untilZero = bytes.take (bytes.findIdx (· == 0)) :=
    (List.takeWhile_eq_take_findIdx_not (p := (· != 0))).trans (by simp [bne])
  rw [first, List.length_take, Nat.min_eq_left List.findIdx_le_length]

theorem take_length_untilZero (bytes : Bytes) :
    bytes.take bytes.untilZero.length = bytes.untilZero :=
  (List.prefix_iff_eq_take.1 (List.takeWhile_prefix _)).symm

/-- A text that a zero byte ends is what stands before the first one. -/
theorem zeroTerminated?_eq_some_iff {bytes text : Bytes} :
    bytes.zeroTerminated? = some text ↔ ∃ rest, bytes = text ++ 0 :: rest ∧ (0 : UInt8) ∉ text := by
  unfold zeroTerminated?
  constructor
  · intro found
    split at found
    · rename_i ended
      cases found
      refine ⟨(bytes.dropWhile (· != 0)).tail, ?_, zero_notMem_untilZero bytes⟩
      have whole : bytes.untilZero ++ bytes.dropWhile (· != 0) = bytes :=
        List.takeWhile_append_dropWhile
      cases rest : bytes.dropWhile (· != 0) with
      | nil =>
          rw [rest, List.append_nil] at whole
          rw [← whole] at ended
          exact absurd (List.contains_iff_mem.1 ended) (zero_notMem_untilZero bytes)
      | cons byte tail =>
          have stopped := List.head?_dropWhile_not (· != (0 : UInt8)) bytes
          rw [rest] at stopped whole
          have zero : byte = 0 := by simpa using stopped
          rw [zero] at whole
          exact whole.symm
    · cases found
  · rintro ⟨rest, rfl, clean⟩
    have nonzero : ∀ byte ∈ text, (byte != 0) = true := by
      intro byte inside
      rw [bne_iff_ne]
      rintro rfl
      exact clean inside
    unfold untilZero
    rw [if_pos (by simp), List.takeWhile_append_of_pos nonzero,
      List.takeWhile_cons_of_neg (by decide), List.append_nil]

end Bytes

end NtTarget
