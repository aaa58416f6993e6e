import NtTarget.Memory.Image
import NtTarget.Process.ControlBlock
import NtTarget.Process.CountedString
import NtTarget.Process.ThreadBlock

/-!
# The chain from a thread to its process

Every address on the chain is a pointer read at an offset from the one before.
Addresses wrap around at the end of the address space.  A text is read whole or
not at all.
-/

namespace NtTarget

/-- The memory of a target together with its pointer width. -/
structure Chain where
  memory : TargetMemory
  width : PointerWidth

/-- The chain that starts in the memory of an image. -/
def MemoryImage.chain (image : MemoryImage) (width : PointerWidth) : Chain :=
  ⟨image.target, width⟩

namespace Chain

def layout (chain : Chain) : ControlBlock :=
  chain.width.controlBlock

def pointerAt (chain : Chain) (address : UInt64) : Except Fault UInt64 := do
  let stored ← chain.memory.read address chain.width.bytes
  match chain.width.pointerAt? stored 0 with
  | some pointer => .ok pointer
  | none => .error .outOfBounds

def processBlock (chain : Chain) (thread : UInt64) : Except Fault UInt64 := do
  let block ← chain.memory.threadBase thread
  chain.pointerAt (block + chain.layout.processBlock)

def parameters (chain : Chain) (thread : UInt64) : Except Fault UInt64 := do
  let block ← chain.processBlock thread
  chain.pointerAt (block + chain.layout.parameters)

/-- The load address of the executable, as its process block records it. -/
def imageBase (chain : Chain) (thread : UInt64) : Except Fault UInt64 := do
  let block ← chain.processBlock thread
  chain.pointerAt (block + chain.layout.imageBase)

/-- The text of the counted string at an address, unless it is empty. -/
def textAt (chain : Chain) (address : UInt64) : Except Fault (Option String) := do
  let stored ← chain.memory.read address (CountedString.size chain.width)
  let descriptor ← CountedString.parse chain.width stored
  if descriptor.isEmpty then
    return none
  let text ← chain.memory.read descriptor.buffer descriptor.length.toNat
  return some (Utf16.decode text)

/-- The text of the counted string at an address, when there is one that can be read. -/
def text? (chain : Chain) (address : UInt64) : Option String :=
  match chain.textAt address with
  | .ok text => text
  | .error _ => none

/-- The block of a thread, with every slot or with the documented ones. -/
def threadBlock (chain : Chain) (thread : UInt64) (everySlot : Bool) :
    Except Fault ThreadBlock := do
  let address ← chain.memory.threadBase thread
  let stored ← chain.memory.read address (ThreadBlock.readSize chain.width everySlot)
  ThreadBlock.parse address chain.width stored

/-! ## When a hop succeeds -/

theorem pointerAt_eq_ok_iff {chain : Chain} {address pointer : UInt64} :
    chain.pointerAt address = .ok pointer ↔
      ∃ stored, chain.memory.read address chain.width.bytes = .ok stored ∧
        chain.width.pointerAt? stored 0 = some pointer := by
  unfold pointerAt
  rw [Fault.bind_eq_ok_iff]
  refine exists_congr fun stored => and_congr_right fun _ => ?_
  cases chain.width.pointerAt? stored 0 <;> simp

/-- A text is read from a whole descriptor that is not empty and a whole buffer, or not at all. -/
theorem text?_eq_some_iff {chain : Chain} {address : UInt64} {text : String} :
    chain.text? address = some text ↔
      ∃ stored descriptor payload,
        chain.memory.read address (CountedString.size chain.width) = .ok stored ∧
        CountedString.parse chain.width stored = .ok descriptor ∧ descriptor.isEmpty = false ∧
        chain.memory.read descriptor.buffer descriptor.length.toNat = .ok payload ∧
        Utf16.decode payload = text := by
  have whole : chain.text? address = some text ↔ chain.textAt address = .ok (some text) := by
    unfold text?
    cases chain.textAt address <;> simp
  rw [whole]
  unfold textAt
  constructor
  · intro found
    obtain ⟨stored, read, found⟩ := Fault.bind_eq_ok_iff.1 found
    obtain ⟨descriptor, parsed, found⟩ := Fault.bind_eq_ok_iff.1 found
    split at found
    · cases found
    · rename_i filled
      obtain ⟨payload, buffer, found⟩ := Fault.bind_eq_ok_iff.1 found
      cases found
      exact ⟨stored, descriptor, payload, read, parsed, Bool.eq_false_iff.2 filled, buffer, rfl⟩
  · rintro ⟨stored, descriptor, payload, read, parsed, filled, buffer, rfl⟩
    refine Fault.bind_eq_ok_iff.2 ⟨stored, read, Fault.bind_eq_ok_iff.2 ⟨descriptor, parsed, ?_⟩⟩
    rw [if_neg (Bool.eq_false_iff.1 filled)]
    exact Fault.bind_eq_ok_iff.2 ⟨payload, buffer, rfl⟩

end Chain

end NtTarget
