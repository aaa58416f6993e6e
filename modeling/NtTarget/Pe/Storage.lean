import NtTarget.Bytes.Basic

/-!
# Storage of a file

The contents of a file are held in a buffer or in a mapping of the file.  Both
refuse a range that does not lie inside the contents, including one whose end
is no 64-bit size; each checks it in its own way.
-/

namespace NtTarget

/-- Where the contents of a file are held. -/
inductive Storage where
  | buffer (contents : Bytes)
  | mapping (contents : Bytes)
  deriving Repr, DecidableEq

namespace Storage

def contents : Storage → Bytes
  | buffer contents => contents
  | mapping contents => contents

/-- The end of a range, when it is a 64-bit size. -/
def stop? (offset length : Nat) : Option Nat :=
  if offset + length < UInt64.size then some (offset + length) else none

/-- The bytes of a range inside the contents. -/
def range? : Storage → Nat → Nat → Option Bytes
  | buffer contents, offset, length =>
      (stop? offset length).bind fun stop =>
        if offset ≤ stop ∧ stop ≤ contents.length then
          some ((contents.take stop).drop offset)
        else
          none
  | mapping contents, offset, length =>
      (stop? offset length).bind fun stop =>
        if contents.length < stop then none
        else some ((contents.drop offset).take (stop - offset))

end Storage

end NtTarget
