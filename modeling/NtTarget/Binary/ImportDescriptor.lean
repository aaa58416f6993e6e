import NtTarget.Bytes.Cursor

/-!
# Import descriptors

A descriptor is five little-endian words of four bytes.  The one whose words
are all zero ends a table.
-/

namespace NtTarget

structure ImportDescriptor where
  lookupTable : UInt32
  timestamp : UInt32
  forwarderChain : UInt32
  nameRva : UInt32
  addressTable : UInt32
  deriving Repr, DecidableEq

namespace ImportDescriptor

def size : Nat :=
  20

def terminator : ImportDescriptor :=
  ⟨0, 0, 0, 0, 0⟩

/-- Whether a descriptor ends its table. -/
def isTerminator (descriptor : ImportDescriptor) : Bool :=
  descriptor == terminator

def reader : Reader ImportDescriptor := do
  let lookupTable ← Reader.word UInt32
  let timestamp ← Reader.word UInt32
  let forwarderChain ← Reader.word UInt32
  let nameRva ← Reader.word UInt32
  let addressTable ← Reader.word UInt32
  pure ⟨lookupTable, timestamp, forwarderChain, nameRva, addressTable⟩

def toBytes (descriptor : ImportDescriptor) : Bytes :=
  Word.toBytes descriptor.lookupTable ++ Word.toBytes descriptor.timestamp ++
    Word.toBytes descriptor.forwarderChain ++ Word.toBytes descriptor.nameRva ++
    Word.toBytes descriptor.addressTable

/-- The descriptor at an offset, when all of its bytes exist. -/
def at? (data : Bytes) (offset : Nat) : Option ImportDescriptor :=
  match Word.at? UInt32 data offset, Word.at? UInt32 data (offset + 4),
      Word.at? UInt32 data (offset + 8), Word.at? UInt32 data (offset + 12),
      Word.at? UInt32 data (offset + 16) with
  | some lookupTable, some timestamp, some forwarderChain, some nameRva, some addressTable =>
      some ⟨lookupTable, timestamp, forwarderChain, nameRva, addressTable⟩
  | _, _, _, _, _ => none

/-- A descriptor that exists ends inside the data. -/
theorem offset_le_of_at? {data : Bytes} {offset : Nat} {descriptor : ImportDescriptor}
    (found : at? data offset = some descriptor) : offset + size ≤ data.length := by
  unfold at? at found
  split at found
  · rename_i last
    obtain ⟨stored, exists_, _⟩ := Option.map_eq_some_iff.1 last
    have fits := (Bytes.slice?_eq_some_iff.1 exists_).1
    have four : Word.size UInt32 = 4 := rfl
    rw [four] at fits
    unfold size
    omega
  · cases found

@[simp] theorem length_toBytes (descriptor : ImportDescriptor) :
    descriptor.toBytes.length = size := by
  simp [toBytes, Word.length_toBytes, size, Word.size]

/-- A descriptor reads back from its bytes, wherever they stand. -/
theorem at?_between (before : Bytes) (descriptor : ImportDescriptor) (after : Bytes) :
    at? (before ++ (descriptor.toBytes ++ after)) before.length = some descriptor := by
  obtain ⟨a, b, c, d, e⟩ := descriptor
  have size : ∀ word : UInt32, (Word.toBytes word).length = 4 := Word.length_toBytes
  -- Each word is read behind the words in front of it.
  have first := Word.at?_between before a
    (Word.toBytes b ++ Word.toBytes c ++ Word.toBytes d ++ Word.toBytes e ++ after)
  have second := Word.at?_between (before ++ Word.toBytes a) b
    (Word.toBytes c ++ Word.toBytes d ++ Word.toBytes e ++ after)
  have third := Word.at?_between (before ++ Word.toBytes a ++ Word.toBytes b) c
    (Word.toBytes d ++ Word.toBytes e ++ after)
  have fourth := Word.at?_between (before ++ Word.toBytes a ++ Word.toBytes b ++ Word.toBytes c) d
    (Word.toBytes e ++ after)
  have fifth := Word.at?_between
    (before ++ Word.toBytes a ++ Word.toBytes b ++ Word.toBytes c ++ Word.toBytes d) e after
  simp only [List.append_assoc, List.length_append, size, Nat.reduceAdd]
    at first second third fourth fifth
  simp only [at?, toBytes, List.append_assoc, first, second, third, fourth, fifth]

end ImportDescriptor

end NtTarget
