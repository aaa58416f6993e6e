import NtTarget.PointerWidth
import NtTarget.Signal.Numbering

/-!
# Target profiles

What depends on the debugged target and not on the data that is decoded.
-/

namespace NtTarget

structure Profile where
  width : PointerWidth
  abi : Abi
  everySlot : Bool
  threadNameLimit : Nat
  useSymbolServer : Bool
  deriving Repr, DecidableEq

namespace Profile

/-- The number of characters kept of a thread name unless a profile says otherwise. -/
def defaultThreadNameLimit : Nat :=
  79

def windows64 : Profile :=
  ⟨.bits64, .windows, false, defaultThreadNameLimit, false⟩

def windows32 : Profile :=
  { windows64 with width := .bits32 }

def cygwin64 : Profile :=
  { windows64 with abi := .cygwin }

end Profile

end NtTarget
