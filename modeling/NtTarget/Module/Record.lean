import NtTarget.Bytes.Cursor
import NtTarget.Module.Entry

/-!
# Module records

The older convention stores a module in a section of its own: a tag that says
how wide the load address is, the address, the size of the name and the name,
which ends at its first zero byte.
-/

namespace NtTarget.ModuleRecord

def sectionLead : String :=
  ".module"

/-- The tag of a record with a 4-byte load address. -/
def narrowTag : UInt32 :=
  3

/-- The tag of a record with an 8-byte load address. -/
def wideTag : UInt32 :=
  4

/-- Take the load address that a tag announces. -/
def addressReader (tag : UInt32) : Reader UInt64 :=
  if tag = narrowTag then do
    let address ← Reader.word UInt32
    pure address.toUInt64
  else if tag = wideTag then
    Reader.word UInt64
  else
    throw (.malformed (.moduleTag tag))

/-- Take a name of a declared size, which must not exceed what is left. -/
def nameReader (size : Nat) : Reader String := do
  let cursor ← get
  if cursor.remaining < size then
    throw (.malformed (.moduleNameSize size cursor.remaining))
  else
    let stored ← Reader.bytes size
    pure (Utf8.decode stored.untilZero)

def reader : Reader ModuleEntry := do
  let tag ← Reader.word UInt32
  let address ← addressReader tag
  let size ← Reader.word UInt32
  let name ← nameReader size.toNat
  pure ⟨name, address⟩

def decode (data : Bytes) : Except Fault ModuleEntry :=
  reader.outcome data

end NtTarget.ModuleRecord
