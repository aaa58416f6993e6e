import NtTarget.Fault
import NtTarget.Bytes.Basic

/-!
# Target memory

What a decoder may ask of a target: bytes of its address space, the block that
a thread keeps about itself, and whether the target is executing.  Nothing is
assumed of the answers; a decoder checks the length of every byte string it is
given.
-/

namespace NtTarget

/-- The address space of a target, as far as a debugger can ask about it. -/
structure TargetMemory where
  read : UInt64 → Nat → Except Fault Bytes
  threadBase : UInt64 → Except Fault UInt64
  executing : Bool

end NtTarget
