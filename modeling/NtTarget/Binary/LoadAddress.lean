import NtTarget.Binary.View
import NtTarget.Dump.Stop
import NtTarget.Process.Chain

/-!
# Where the executable was loaded

An executing target is asked for the load address through its process block;
when that gives nothing, an attached dump may have recorded it.  The address 0
means that nothing is known.  A loaded executable that moved asks for its
symbols to be shifted by the distance from its linked base.
-/

namespace NtTarget

structure ExecutableEntry where
  base : UInt64
  entry : Option UInt64
  deriving Repr, DecidableEq

namespace ExecutableEntry

/-- Nothing is known of the executable. -/
def unresolved : ExecutableEntry :=
  ⟨0, none⟩

end ExecutableEntry

/-- A resolved executable and the shift that its symbols need. -/
structure Resolution where
  executable : ExecutableEntry
  shift : Option UInt64
  deriving Repr, DecidableEq

namespace Chain

/-- The load address that an executing target records, 0 when it cannot be read. -/
def liveBase (chain : Chain) (thread : UInt64) : UInt64 :=
  if chain.memory.executing then
    match chain.imageBase thread with
    | .ok base => base
    | .error _ => 0
  else
    0

/-- The load address of the executable, 0 when nothing records it. -/
def loadAddress (chain : Chain) (thread : UInt64) (dump : Option SectionList) : UInt64 :=
  if chain.liveBase thread = 0 then (dump.bind SectionList.loadAddress?).getD 0
  else chain.liveBase thread

/-- Resolve the executable; its symbols are shifted only when they are loaded. -/
def resolve (chain : Chain) (thread : UInt64) (dump : Option SectionList) (binary : BinaryView)
    (symbolsLoaded : Bool) : Resolution :=
  let base := chain.loadAddress thread dump
  if base = 0 then
    ⟨.unresolved, none⟩
  else
    { executable :=
        ⟨base, if chain.memory.executing then some (base + binary.entryPoint) else none⟩
      shift :=
        if symbolsLoaded ∧ binary.imageBase ≠ base then some (base - binary.imageBase) else none }

end Chain

end NtTarget
