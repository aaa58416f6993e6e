import NtTarget.Bytes.LittleEndian
import NtTarget.Text.Hex

/-!
# Pointer width

A target has pointers of 4 or 8 bytes.  The width is fixed once per target and
selects every layout; a 32-bit pointer is read as the 64-bit address with the
same value.
-/

namespace NtTarget

inductive PointerWidth where
  | bits32
  | bits64
  deriving Repr, DecidableEq

namespace PointerWidth

/-- The width with a given number of bits, when it is supported. -/
def ofBits? : Nat → Option PointerWidth
  | 32 => some .bits32
  | 64 => some .bits64
  | _ => none

def bytes : PointerWidth → Nat
  | .bits32 => 4
  | .bits64 => 8

def bits : PointerWidth → Nat
  | .bits32 => 32
  | .bits64 => 64

def label (width : PointerWidth) : String :=
  Nat.repr width.bits ++ "-bit"

/-- A value in two hexadecimal digits per pointer byte; a wider value is printed in full. -/
def hex (width : PointerWidth) (address : UInt64) : String :=
  Hex.padded (2 * width.bytes) address.toNat

/-- The address that the bytes of a pointer store. -/
def addressOf (stored : Bytes) : UInt64 :=
  UInt64.ofNat (LittleEndian.value stored)

/-- The bytes that store an address; a narrow pointer keeps its low half. -/
def pointerBytes (width : PointerWidth) (address : UInt64) : Bytes :=
  LittleEndian.encode width.bytes address.toNat

def Fits (width : PointerWidth) (address : UInt64) : Prop :=
  address.toNat < LittleEndian.limit width.bytes

instance (width : PointerWidth) (address : UInt64) : Decidable (width.Fits address) :=
  inferInstanceAs (Decidable (_ < _))

/-- The pointer stored at an offset, when all of its bytes exist. -/
def pointerAt? (width : PointerWidth) (stored : Bytes) (offset : Nat) : Option UInt64 :=
  (stored.slice? offset width.bytes).map addressOf

theorem bytes_pos (width : PointerWidth) : 0 < width.bytes := by
  cases width <;> decide

theorem four_le_bytes (width : PointerWidth) : 4 ≤ width.bytes := by
  cases width <;> decide

@[simp] theorem length_pointerBytes (width : PointerWidth) (address : UInt64) :
    (width.pointerBytes address).length = width.bytes :=
  LittleEndian.length_encode _ _

/-- The bytes of a pointer name its address; no width has more than an address holds. -/
theorem toNat_addressOf {width : PointerWidth} {stored : Bytes}
    (size : stored.length = width.bytes) :
    (addressOf stored).toNat = LittleEndian.value stored := by
  have small := LittleEndian.value_lt stored
  have most : LittleEndian.limit stored.length ≤ UInt64.size := by
    rw [size]
    cases width <;> decide
  exact UInt64.toNat_ofNat_of_lt' (Nat.lt_of_lt_of_le small most)

theorem fits_addressOf {width : PointerWidth} {stored : Bytes}
    (size : stored.length = width.bytes) : width.Fits (addressOf stored) := by
  unfold Fits
  rw [toNat_addressOf size, ← size]
  exact LittleEndian.value_lt stored

theorem pointerBytes_addressOf {width : PointerWidth} {stored : Bytes}
    (size : stored.length = width.bytes) : width.pointerBytes (addressOf stored) = stored := by
  unfold pointerBytes
  rw [toNat_addressOf size, ← size, LittleEndian.encode_value]

/-- A pointer that fits its width reads back as the same address. -/
theorem addressOf_pointerBytes {width : PointerWidth} {address : UInt64}
    (fits : width.Fits address) : addressOf (width.pointerBytes address) = address := by
  unfold addressOf pointerBytes
  rw [LittleEndian.value_encode, Nat.mod_eq_of_lt fits, UInt64.ofNat_toNat]

theorem pointerAt?_pointerBytes {width : PointerWidth} {address : UInt64}
    (fits : width.Fits address) :
    width.pointerAt? (width.pointerBytes address) 0 = some address := by
  have whole := Bytes.slice?_self (width.pointerBytes address)
  rw [length_pointerBytes] at whole
  unfold pointerAt?
  rw [whole, Option.map_some, addressOf_pointerBytes fits]

end PointerWidth

end NtTarget
