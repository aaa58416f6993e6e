import Mathlib.Algebra.Group.Nat.Defs
import NtTarget.Bytes.Cursor

/-!
# Stored numbers

A decoder reads words of six types and pointers of two widths.  Each of them
stands for an integer, which its bytes list in base 256, least significant
first; a negative one is stored as the number that is congruent to it.
-/

namespace NtTarget

/-- The types of word that are read from a byte string. -/
inductive WordKind where
  | u8
  | u16
  | u32
  | u64
  | i32
  | i64
  deriving Repr, DecidableEq

namespace WordKind

abbrev Value : WordKind → Type
  | u8 => UInt8
  | u16 => UInt16
  | u32 => UInt32
  | u64 => UInt64
  | i32 => Int32
  | i64 => Int64

instance (kind : WordKind) : Word kind.Value :=
  match kind with
  | u8 => inferInstanceAs (Word UInt8)
  | u16 => inferInstanceAs (Word UInt16)
  | u32 => inferInstanceAs (Word UInt32)
  | u64 => inferInstanceAs (Word UInt64)
  | i32 => inferInstanceAs (Word Int32)
  | i64 => inferInstanceAs (Word Int64)

instance (kind : WordKind) : DecidableEq kind.Value :=
  match kind with
  | u8 => inferInstanceAs (DecidableEq UInt8)
  | u16 => inferInstanceAs (DecidableEq UInt16)
  | u32 => inferInstanceAs (DecidableEq UInt32)
  | u64 => inferInstanceAs (DecidableEq UInt64)
  | i32 => inferInstanceAs (DecidableEq Int32)
  | i64 => inferInstanceAs (DecidableEq Int64)

def size : WordKind → Nat
  | u8 => 1
  | u16 => 2
  | u32 => 4
  | u64 => 8
  | i32 => 4
  | i64 => 8

/-- The integer that a word stands for. -/
def toInt : (kind : WordKind) → kind.Value → Int
  | u8, word => UInt8.toNat word
  | u16, word => UInt16.toNat word
  | u32, word => UInt32.toNat word
  | u64, word => UInt64.toNat word
  | i32, word => Int32.toInt word
  | i64, word => Int64.toInt word

theorem size_eq (kind : WordKind) : Word.size kind.Value = kind.size := by
  cases kind <;> rfl

theorem toNat_emod_of_lt {number limit : Nat} (small : number < limit) :
    ((number : Int) % limit).toNat = number := by
  rw [← Int.natCast_emod, Int.toNat_natCast, Nat.mod_eq_of_lt small]

/-- The unsigned number of the same bits is congruent to a signed one. -/
theorem toNat_toInt_emod {w : Nat} {limit : Nat} (size : 2 ^ w = limit) (bits : BitVec w) :
    (bits.toInt % limit).toNat = bits.toNat := by
  rw [← size, ← BitVec.toNat_ofInt, BitVec.ofInt_toInt]

/-- A word is stored as the number below the limit of its bytes that is congruent to it. -/
theorem toBytes_eq (kind : WordKind) (word : kind.Value) :
    Word.toBytes word = LittleEndian.encode kind.size
      (kind.toInt word % LittleEndian.limit kind.size).toNat := by
  cases kind with
  | u8 => exact congrArg (LittleEndian.encode 1) (toNat_emod_of_lt (UInt8.toNat_lt word)).symm
  | u16 => exact congrArg (LittleEndian.encode 2) (toNat_emod_of_lt (UInt16.toNat_lt word)).symm
  | u32 => exact congrArg (LittleEndian.encode 4) (toNat_emod_of_lt (UInt32.toNat_lt word)).symm
  | u64 => exact congrArg (LittleEndian.encode 8) (toNat_emod_of_lt (UInt64.toNat_lt word)).symm
  | i32 =>
      exact congrArg (LittleEndian.encode 4) (toNat_toInt_emod rfl (Int32.toBitVec word)).symm
  | i64 =>
      exact congrArg (LittleEndian.encode 8) (toNat_toInt_emod rfl (Int64.toBitVec word)).symm

end WordKind

/-- The types of number that are read from a byte string. -/
inductive NumberKind where
  | word (kind : WordKind)
  | pointer (width : PointerWidth)
  deriving Repr, DecidableEq

/-- A number of some type; a pointer is the address that it stands for. -/
inductive StoredNumber where
  | word (kind : WordKind) (value : kind.Value)
  | pointer (width : PointerWidth) (address : UInt64)
  deriving DecidableEq

namespace NumberKind

def size : NumberKind → Nat
  | word kind => kind.size
  | pointer width => width.bytes

def reader : NumberKind → Reader StoredNumber
  | word kind => do
      let value ← Reader.word kind.Value
      pure (.word kind value)
  | pointer width => do
      let address ← Reader.pointer width
      pure (.pointer width address)

/-- The number that the bytes of its size store. -/
def ofBytes : NumberKind → Bytes → StoredNumber
  | word kind, stored => .word kind (Word.ofBytes stored)
  | pointer width, stored => .pointer width (PointerWidth.addressOf stored)

theorem size_le (kind : NumberKind) : kind.size ≤ 8 := by
  cases kind with
  | word kind => cases kind <;> decide
  | pointer width => cases width <;> decide

theorem size_pos (kind : NumberKind) : 0 < kind.size := by
  cases kind with
  | word kind => cases kind <;> decide
  | pointer width => exact width.bytes_pos

/-- A number is read from the bytes of its size, when they exist. -/
theorem runOn_reader (kind : NumberKind) (cursor : Cursor) :
    kind.reader.runOn cursor =
      match cursor.data.slice? cursor.position kind.size with
      | some part => (.ok (kind.ofBytes part), cursor.moveTo (cursor.position + kind.size))
      | none => (.error .outOfBounds, cursor) := by
  cases kind with
  | word kind =>
      unfold reader
      rw [Reader.runOn_bind, Reader.runOn_word, Word.at?, kind.size_eq, size]
      cases cursor.data.slice? cursor.position kind.size <;> rfl
  | pointer width =>
      unfold reader
      rw [Reader.runOn_bind, Reader.runOn_pointer, PointerWidth.pointerAt?, size]
      cases cursor.data.slice? cursor.position width.bytes <;> rfl

end NumberKind

namespace StoredNumber

def kind : StoredNumber → NumberKind
  | word kind _ => .word kind
  | pointer width _ => .pointer width

/-- The integer that a number stands for. -/
def toInt : StoredNumber → Int
  | word kind value => kind.toInt value
  | pointer _ address => address.toNat

/-- Whether the bytes of its type can store a number; only a narrow pointer cannot store all. -/
def Fits : StoredNumber → Prop
  | word _ _ => True
  | pointer width address => width.Fits address

instance (number : StoredNumber) : Decidable number.Fits :=
  match number with
  | word _ _ => inferInstanceAs (Decidable True)
  | pointer width address => inferInstanceAs (Decidable (width.Fits address))

/--
The bytes of a number: the digits in base 256, least significant first, of the
number below their limit that is congruent to it.
-/
def bytes (number : StoredNumber) : Bytes :=
  LittleEndian.encode number.kind.size
    (number.toInt % LittleEndian.limit number.kind.size).toNat

@[simp] theorem length_bytes (number : StoredNumber) : number.bytes.length = number.kind.size :=
  LittleEndian.length_encode _ _

theorem bytes_word (kind : WordKind) (value : kind.Value) :
    (word kind value).bytes = Word.toBytes value :=
  (kind.toBytes_eq value).symm

theorem bytes_pointer {width : PointerWidth} {address : UInt64} (fits : width.Fits address) :
    (pointer width address).bytes = width.pointerBytes address :=
  congrArg (LittleEndian.encode width.bytes) (WordKind.toNat_emod_of_lt fits)

/-- A number reads back from its bytes. -/
theorem ofBytes_bytes {number : StoredNumber} (fits : number.Fits) :
    number.kind.ofBytes number.bytes = number := by
  cases number with
  | word kind value =>
      rw [bytes_word]
      exact congrArg (word kind) (Word.ofBytes_toBytes value)
  | pointer width address =>
      rw [bytes_pointer fits]
      exact congrArg (pointer width) (PointerWidth.addressOf_pointerBytes fits)

section OfBytes

variable {kind : NumberKind} {stored : Bytes}

@[simp] theorem kind_ofBytes : (kind.ofBytes stored).kind = kind := by
  cases kind <;> rfl

theorem fits_ofBytes (size : stored.length = kind.size) : (kind.ofBytes stored).Fits := by
  cases kind with
  | word kind => exact trivial
  | pointer width => exact PointerWidth.fits_addressOf size

/-- Whatever is read was stored as the bytes of its value. -/
theorem bytes_ofBytes (size : stored.length = kind.size) :
    (kind.ofBytes stored).bytes = stored := by
  cases kind with
  | word kind =>
      exact (bytes_word kind _).trans
        (Word.toBytes_ofBytes stored (size.trans kind.size_eq.symm))
  | pointer width =>
      exact (bytes_pointer (PointerWidth.fits_addressOf size)).trans
        (PointerWidth.pointerBytes_addressOf size)

end OfBytes

end StoredNumber

end NtTarget
