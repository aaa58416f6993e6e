import NtTarget.PointerWidth

/-!
# Control block layout

The chain from a thread to what its process runs passes through three blocks:
the thread block points to the process block, which holds the load address of
the executable and points to the process parameters, which hold three counted
strings.  Each pointer width has one layout.
-/

namespace NtTarget

/-- Byte offsets of the fields on the chain. -/
structure ControlBlock where
  processBlock : UInt64
  parameters : UInt64
  commandLine : UInt64
  workingDirectory : UInt64
  executablePath : UInt64
  imageBase : UInt64
  deriving Repr, DecidableEq

def PointerWidth.controlBlock : PointerWidth → ControlBlock
  | .bits32 =>
      { processBlock := 48
        parameters := 16
        commandLine := 64
        workingDirectory := 36
        executablePath := 56
        imageBase := 8 }
  | .bits64 =>
      { processBlock := 96
        parameters := 32
        commandLine := 112
        workingDirectory := 56
        executablePath := 96
        imageBase := 16 }

end NtTarget
