import NtTarget.Fault
import NtTarget.PointerWidth

/-!
# Thread information blocks

A thread block is a row of pointer-sized slots.  The first fourteen are
documented and always shown; any other slot is shown when it is not zero.  A
last partial slot is ignored.
-/

namespace NtTarget

/-- One shown slot of a thread block. -/
structure ThreadSlot where
  offset : Nat
  name : Option String
  value : UInt64
  deriving Repr, DecidableEq

structure ThreadBlock where
  address : UInt64
  width : PointerWidth
  slots : List ThreadSlot
  deriving Repr, DecidableEq

namespace ThreadBlock

def fieldNames : List String :=
  ["current_seh", "current_top_of_stack", "current_bottom_of_stack", "sub_system_tib",
    "fiber_data", "arbitrary_data_slot", "linear_address_tib", "environment_pointer",
    "process_id", "current_thread_id", "active_rpc_handle", "thread_local_storage",
    "process_environment_block", "last_error_number"]

def fullSize : Nat :=
  0x1000

def documentedSize (width : PointerWidth) : Nat :=
  fieldNames.length * width.bytes

/-- The number of bytes to read, for every slot or for the documented ones. -/
def readSize (width : PointerWidth) (everySlot : Bool) : Nat :=
  if everySlot then fullSize else documentedSize width

/-- The slot with a value at an offset, when it is shown; its index decides about its name. -/
def slotAt? (offset index : Nat) (value : UInt64) : Option ThreadSlot :=
  match fieldNames[index]? with
  | some name => some ⟨offset, some name, value⟩
  | none => if value = 0 then none else some ⟨offset, none, value⟩

/--
The shown slots from an offset on, where the rest of a block of some size
starts.  The offset moves on by a pointer and the index by one, as long as a
whole slot ends inside the block.
-/
def slotsFrom (width : PointerWidth) (size offset index : Nat) (rest : Bytes) :
    List ThreadSlot :=
  if _whole : offset + width.bytes ≤ size then
    let value := PointerWidth.addressOf (rest.take width.bytes)
    (slotAt? offset index value).toList ++
      slotsFrom width size (offset + width.bytes) (index + 1) (rest.drop width.bytes)
  else
    []
termination_by size - offset
decreasing_by
  have := width.bytes_pos
  omega

/-- The shown slots of a byte string. -/
def slotsOf (width : PointerWidth) (data : Bytes) : List ThreadSlot :=
  slotsFrom width data.length 0 0 data

/-- Decode the block at an address, which must hold every documented slot. -/
def parse (address : UInt64) (width : PointerWidth) (data : Bytes) : Except Fault ThreadBlock :=
  if data.length < documentedSize width then .error .outOfBounds
  else .ok ⟨address, width, slotsOf width data⟩

def get? (block : ThreadBlock) (name : String) : Option UInt64 :=
  (block.slots.find? fun slot => slot.name == some name).map (·.value)

/-- A slot name in a column of 28 characters. -/
def column (name : String) : String :=
  String.ofList (name.toList.rightpad 28 ' ')

def line (width : PointerWidth) (slot : ThreadSlot) : String :=
  (match slot.name with
    | some name => " " ++ column name
    | none => "TIB[0x" ++ Hex.padded 4 slot.offset ++ "]") ++
    " is 0x" ++ width.hex slot.value ++ "\n"

def heading (block : ThreadBlock) (thread : String) : String :=
  "Thread Information Block " ++ thread ++ " at " ++ Hex.marked block.address.toNat ++ "\n"

def render (block : ThreadBlock) (thread : String) : String :=
  String.ofList ((block.heading thread).toList ++
    block.slots.flatMap fun slot => (line block.width slot).toList)

end ThreadBlock

end NtTarget
