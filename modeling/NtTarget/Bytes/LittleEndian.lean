import NtTarget.Bytes.Basic

/-!
# Little-endian words

A byte string names the number whose base-256 digits it lists, least
significant first.  `Word` gathers the fixed-width types that are stored this
way; its laws say that a word's bytes and its value determine each other.
-/

namespace NtTarget

namespace LittleEndian

/-- The number that the bytes list in base 256, least significant first. -/
def value : Bytes → Nat
  | [] => 0
  | byte :: rest => byte.toNat + 256 * value rest

/-- The lowest `count` base-256 digits of a number, least significant first. -/
def encode : Nat → Nat → Bytes
  | 0, _ => []
  | count + 1, number => UInt8.ofNat number :: encode count (number / 256)

/-- The first number that `count` bytes do not name. -/
def limit : Nat → Nat
  | 0 => 1
  | count + 1 => 256 * limit count

@[simp] theorem length_encode (count number : Nat) : (encode count number).length = count := by
  induction count generalizing number with
  | zero => rfl
  | succ count ih => simp [encode, ih]

theorem value_lt (bytes : Bytes) : value bytes < limit bytes.length := by
  induction bytes with
  | nil => exact Nat.zero_lt_one
  | cons byte rest ih =>
      have small := byte.toNat_lt
      rw [value, List.length_cons, limit]
      omega

/-- Encoding keeps what is below the limit of the bytes. -/
theorem value_encode (count number : Nat) :
    value (encode count number) = number % limit count := by
  induction count generalizing number with
  | zero => rw [encode, value, limit, Nat.mod_one]
  | succ count ih => rw [encode, value, limit, ih, UInt8.toNat_ofNat', Nat.mod_mul]

theorem encode_value (bytes : Bytes) : encode bytes.length (value bytes) = bytes := by
  induction bytes with
  | nil => rfl
  | cons byte rest ih =>
      have small := byte.toNat_lt
      have low : UInt8.ofNat (byte.toNat + 256 * value rest) = byte := by
        apply UInt8.toNat_inj.1
        simp only [UInt8.toNat_ofNat']
        omega
      have high : (byte.toNat + 256 * value rest) / 256 = value rest := by omega
      simp [encode, value, low, high, ih]

/-- The first bytes name the number modulo their limit. -/
theorem value_take (count : Nat) (bytes : Bytes) :
    value (bytes.take count) = value bytes % limit count := by
  induction bytes generalizing count with
  | nil => rw [List.take_nil, value, Nat.zero_mod]
  | cons byte rest ih =>
      cases count with
      | zero => rw [List.take_zero, value, limit, Nat.mod_one]
      | succ count =>
          have small := byte.toNat_lt
          have low : (byte.toNat + 256 * value rest) % 256 = byte.toNat := by omega
          have high : (byte.toNat + 256 * value rest) / 256 = value rest := by omega
          rw [List.take_succ_cons, value, value, ih, limit, Nat.mod_mul, low, high]

end LittleEndian

/-- A type whose values are stored in a fixed number of little-endian bytes. -/
class Word (α : Type) where
  size : Nat
  ofBytes : Bytes → α
  toBytes : α → Bytes
  size_pos : 0 < size
  length_toBytes : ∀ word, (toBytes word).length = size
  ofBytes_toBytes : ∀ word, ofBytes (toBytes word) = word
  toBytes_ofBytes : ∀ bytes, bytes.length = size → toBytes (ofBytes bytes) = bytes

namespace Word

instance : Word UInt8 where
  size := 1
  ofBytes bytes := UInt8.ofNat (LittleEndian.value bytes)
  toBytes word := LittleEndian.encode 1 word.toNat
  size_pos := by decide
  length_toBytes word := LittleEndian.length_encode 1 word.toNat
  ofBytes_toBytes word := by
    have small : word.toNat < LittleEndian.limit 1 := word.toNat_lt
    rw [LittleEndian.value_encode, Nat.mod_eq_of_lt small, UInt8.ofNat_toNat]
  toBytes_ofBytes bytes length := by
    have small := LittleEndian.value_lt bytes
    rw [length] at small
    rw [UInt8.toNat_ofNat_of_lt' small, ← length, LittleEndian.encode_value]

instance : Word UInt16 where
  size := 2
  ofBytes bytes := UInt16.ofNat (LittleEndian.value bytes)
  toBytes word := LittleEndian.encode 2 word.toNat
  size_pos := by decide
  length_toBytes word := LittleEndian.length_encode 2 word.toNat
  ofBytes_toBytes word := by
    have small : word.toNat < LittleEndian.limit 2 := word.toNat_lt
    rw [LittleEndian.value_encode, Nat.mod_eq_of_lt small, UInt16.ofNat_toNat]
  toBytes_ofBytes bytes length := by
    have small := LittleEndian.value_lt bytes
    rw [length] at small
    rw [UInt16.toNat_ofNat_of_lt' small, ← length, LittleEndian.encode_value]

instance : Word UInt32 where
  size := 4
  ofBytes bytes := UInt32.ofNat (LittleEndian.value bytes)
  toBytes word := LittleEndian.encode 4 word.toNat
  size_pos := by decide
  length_toBytes word := LittleEndian.length_encode 4 word.toNat
  ofBytes_toBytes word := by
    have small : word.toNat < LittleEndian.limit 4 := word.toNat_lt
    rw [LittleEndian.value_encode, Nat.mod_eq_of_lt small, UInt32.ofNat_toNat]
  toBytes_ofBytes bytes length := by
    have small := LittleEndian.value_lt bytes
    rw [length] at small
    rw [UInt32.toNat_ofNat_of_lt' small, ← length, LittleEndian.encode_value]

instance : Word UInt64 where
  size := 8
  ofBytes bytes := UInt64.ofNat (LittleEndian.value bytes)
  toBytes word := LittleEndian.encode 8 word.toNat
  size_pos := by decide
  length_toBytes word := LittleEndian.length_encode 8 word.toNat
  ofBytes_toBytes word := by
    have small : word.toNat < LittleEndian.limit 8 := word.toNat_lt
    rw [LittleEndian.value_encode, Nat.mod_eq_of_lt small, UInt64.ofNat_toNat]
  toBytes_ofBytes bytes length := by
    have small := LittleEndian.value_lt bytes
    rw [length] at small
    rw [UInt64.toNat_ofNat_of_lt' small, ← length, LittleEndian.encode_value]

/-- Signed words are stored in two's complement, that is as the unsigned word of the same bits. -/
instance : Word Int32 where
  size := 4
  ofBytes bytes := (ofBytes bytes : UInt32).toInt32
  toBytes word := toBytes word.toUInt32
  size_pos := by decide
  length_toBytes word := length_toBytes word.toUInt32
  ofBytes_toBytes word := by rw [ofBytes_toBytes]; rfl
  toBytes_ofBytes bytes length := toBytes_ofBytes (α := UInt32) bytes length

/-- Signed words are stored in two's complement, that is as the unsigned word of the same bits. -/
instance : Word Int64 where
  size := 8
  ofBytes bytes := (ofBytes bytes : UInt64).toInt64
  toBytes word := toBytes word.toUInt64
  size_pos := by decide
  length_toBytes word := length_toBytes word.toUInt64
  ofBytes_toBytes word := by rw [ofBytes_toBytes]; rfl
  toBytes_ofBytes bytes length := toBytes_ofBytes (α := UInt64) bytes length

/-- The word stored in the `size` bytes at `offset`, when they exist. -/
def at? (α : Type) [Word α] (bytes : Bytes) (offset : Nat) : Option α :=
  (bytes.slice? offset (size α)).map ofBytes

/-- A word is there exactly when all of its bytes are. -/
theorem at?_eq_ite (α : Type) [Word α] (bytes : Bytes) (offset : Nat) :
    at? α bytes offset =
      if offset + size α ≤ bytes.length then some (ofBytes ((bytes.drop offset).take (size α)))
      else none := by
  unfold at? Bytes.slice?
  split <;> rfl

/-- A word reads back from its bytes, wherever they stand. -/
theorem at?_between {α : Type} [Word α] (before : Bytes) (word : α) (after : Bytes) :
    at? α (before ++ (toBytes word ++ after)) before.length = some word := by
  have stored := Bytes.slice?_between before (toBytes word) after
  rw [length_toBytes] at stored
  rw [at?, stored, Option.map_some, ofBytes_toBytes]

/-- Data with enough bytes for a word starts with the bytes of one. -/
theorem exists_eq_append (α : Type) [Word α] {data : Bytes} (enough : size α ≤ data.length) :
    ∃ (word : α) (rest : Bytes), data = toBytes word ++ rest := by
  refine ⟨ofBytes (data.take (size α)), data.drop (size α), ?_⟩
  rw [toBytes_ofBytes _ (List.length_take_of_le enough), List.take_append_drop]

end Word

end NtTarget
