import NtTarget.Bytes.Cursor

/-!
# Counted strings

A counted string is a descriptor with a length and a capacity in bytes and a
pointer to wide text elsewhere in the target.  The pointer is aligned to its
own size, which on wide targets leaves four bytes unused after the counts.
-/

namespace NtTarget

structure CountedString where
  length : UInt16
  capacity : UInt16
  buffer : UInt64
  deriving Repr, DecidableEq

namespace CountedString

def size (width : PointerWidth) : Nat :=
  2 * width.bytes

def read (width : PointerWidth) : Reader CountedString := do
  let length ← Reader.word UInt16
  let capacity ← Reader.word UInt16
  Reader.advance (width.bytes - 4)
  let buffer ← Reader.pointer width
  pure ⟨length, capacity, buffer⟩

def parse (width : PointerWidth) (data : Bytes) : Except Fault CountedString :=
  (read width).outcome data

/-- The bytes of a descriptor, with some bytes in the gap in front of its pointer. -/
def encode (width : PointerWidth) (gap : Bytes) (descriptor : CountedString) : Bytes :=
  Word.toBytes descriptor.length ++ (Word.toBytes descriptor.capacity ++
    (gap ++ width.pointerBytes descriptor.buffer))

def isEmpty (descriptor : CountedString) : Bool :=
  descriptor.length == 0

@[simp] theorem isEmpty_iff {descriptor : CountedString} :
    descriptor.isEmpty = true ↔ descriptor.length = 0 := by
  unfold isEmpty
  exact beq_iff_eq

/-- A descriptor reads back from its bytes, with its pointer as the width stores it. -/
theorem parse_encode {width : PointerWidth} {gap : Bytes} (filled : gap.length = width.bytes - 4)
    (descriptor : CountedString) :
    parse width (encode width gap descriptor) =
      .ok { descriptor with
        buffer := PointerWidth.addressOf (width.pointerBytes descriptor.buffer) } := by
  have start : Cursor.start (encode width gap descriptor) =
      .between [] (Word.toBytes descriptor.length ++ (Word.toBytes descriptor.capacity ++
        (gap ++ (width.pointerBytes descriptor.buffer ++ [])))) := by
    rw [List.append_nil]
    rfl
  unfold parse Reader.outcome read
  rw [start, ← filled]
  simp only [Reader.runOn_bind, Reader.runOn_word_between, Reader.runOn_advance_between,
    Reader.runOn_pointer_between, Reader.runOn_pure]

theorem length_encode {width : PointerWidth} {gap : Bytes} (filled : gap.length = width.bytes - 4)
    (descriptor : CountedString) : (encode width gap descriptor).length = size width := by
  have lengths : ∀ count : UInt16, (Word.toBytes count).length = 2 := Word.length_toBytes
  unfold encode size
  simp only [List.length_append, lengths, filled, PointerWidth.length_pointerBytes]
  cases width <;> rfl

end CountedString

end NtTarget
