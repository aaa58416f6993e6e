import NtTarget.Bytes.LittleEndian

/-!
# UTF-16, little-endian

Counted strings and dump payloads store text as 16-bit units, low byte first.
Decoding uses whole units only, ends at the first zero unit and replaces every
surrogate that is not part of a pair.
-/

namespace NtTarget.Utf16

/-- The character written for an unpaired surrogate. -/
def replacement : Char := '\uFFFD'

def isHigh (unit : UInt16) : Bool :=
  0xD800 ≤ unit.toNat && unit.toNat < 0xDC00

def isLow (unit : UInt16) : Bool :=
  0xDC00 ≤ unit.toNat && unit.toNat < 0xE000

/-- The character that two halves write together. -/
def join (high low : UInt16) : Char :=
  Char.ofNat (0x10000 + 0x400 * (high.toNat - 0xD800) + (low.toNat - 0xDC00))

/-- The character of a unit that is in no pair. -/
def alone (unit : UInt16) : Char :=
  if isHigh unit || isLow unit then replacement else Char.ofNat unit.toNat

/-- The text of a list of units, with a replacement for every unpaired surrogate. -/
def decodeUnits : List UInt16 → List Char
  | [] => []
  | [unit] => [alone unit]
  | first :: second :: rest =>
      if isHigh first && isLow second then
        join first second :: decodeUnits rest
      else
        alone first :: decodeUnits (second :: rest)

/-- The one or two units of a character. -/
def encodeChar (c : Char) : List UInt16 :=
  let n := c.toNat
  if n < 0x10000 then [UInt16.ofNat n]
  else
    [UInt16.ofNat (0xD800 + (n - 0x10000) / 0x400),
      UInt16.ofNat (0xDC00 + (n - 0x10000) % 0x400)]

/-- The whole units of a byte string; a last odd byte is dropped. -/
def units : Bytes → List UInt16
  | low :: high :: rest => Word.ofBytes [low, high] :: units rest
  | _ => []

/-- The bytes of a list of units. -/
def bytesOf (wide : List UInt16) : Bytes :=
  wide.flatMap Word.toBytes

/-- The units before the first zero unit. -/
def textUnits (bytes : Bytes) : List UInt16 :=
  (units bytes).takeWhile (· != 0)

/-- The text of a byte string up to its first zero unit. -/
def decode (bytes : Bytes) : String :=
  String.ofList (decodeUnits (textUnits bytes))

/-- The bytes of a text, without a terminator. -/
def encode (text : String) : Bytes :=
  bytesOf (text.toList.flatMap encodeChar)

@[simp] theorem units_nil : units [] = [] := rfl

@[simp] theorem units_cons_cons (low high : UInt8) (rest : Bytes) :
    units (low :: high :: rest) = Word.ofBytes [low, high] :: units rest := rfl

/-- The units of a list come back from its bytes, in front of whatever follows them. -/
theorem units_bytesOf_append (wide : List UInt16) (tail : Bytes) :
    units (bytesOf wide ++ tail) = wide ++ units tail := by
  induction wide with
  | nil => rfl
  | cons unit rest ih =>
      have pair : Word.toBytes unit =
          [UInt8.ofNat unit.toNat, UInt8.ofNat (unit.toNat / 256)] := rfl
      have back : Word.ofBytes [UInt8.ofNat unit.toNat, UInt8.ofNat (unit.toNat / 256)] = unit := by
        rw [← pair, Word.ofBytes_toBytes]
      have whole : bytesOf (unit :: rest) ++ tail =
          UInt8.ofNat unit.toNat :: UInt8.ofNat (unit.toNat / 256) :: (bytesOf rest ++ tail) := by
        simp [bytesOf, pair]
      rw [whole, units_cons_cons, back, ih, List.cons_append]

@[simp] theorem units_bytesOf (wide : List UInt16) : units (bytesOf wide) = wide := by
  have whole := units_bytesOf_append wide []
  rwa [List.append_nil, units_nil, List.append_nil] at whole

end NtTarget.Utf16
