import NtTarget.Bytes.Cursor
import NtTarget.Exception.Code
import NtTarget.Exception.Flags

/-!
# Exception records

A record is stored in 80 bytes on narrow targets and in 152 bytes on wide ones,
where every pointer takes eight bytes and four bytes stay unused after the
parameter count.  A stored record always decodes; the shape is fixed by its
length, which the type of stored records keeps.
-/

namespace NtTarget

inductive AccessKind where
  | read
  | write
  | execute
  deriving Repr, DecidableEq

namespace AccessKind

/-- The access that a parameter stands for. -/
def ofParameter? (parameter : UInt64) : Option AccessKind :=
  if parameter = 0 then some read
  else if parameter = 1 then some write
  else if parameter = 8 then some execute
  else none

def name : AccessKind → String
  | read => "READ"
  | write => "WRITE"
  | execute => "DEP"

end AccessKind

/-- A decoded exception record. -/
structure ExceptionRecord where
  code : UInt32
  flags : ExceptionFlags
  record : UInt64
  address : UInt64
  parameterCount : UInt32
  parameters : List UInt64
  deriving Repr, DecidableEq

namespace ExceptionRecord

def maxParameters : Nat :=
  15

def kind? (record : ExceptionRecord) : Option ExceptionCode :=
  ExceptionCode.ofCode? record.code

/-- Whether a code describes a failed memory access. -/
def describesAccess : Option ExceptionCode → Bool
  | some .accessViolation => true
  | some .inPageError => true
  | _ => false

/-- The access and the data address of a failed memory access. -/
def violation? (record : ExceptionRecord) : Option (AccessKind × UInt64) :=
  if describesAccess record.kind? then
    match record.parameters with
    | access :: address :: _ =>
        (AccessKind.ofParameter? access).map fun kind => (kind, address)
    | _ => none
  else
    none

def codeText (record : ExceptionRecord) : String :=
  let code := "0x" ++ Hex.padded 8 record.code.toNat
  match record.kind? with
  | some kind => kind.name ++ " (" ++ code ++ ")"
  | none => code

def display (record : ExceptionRecord) : String :=
  record.codeText ++ " at " ++ Hex.marked record.address.toNat ++
    match record.violation? with
    | some (kind, address) => ", " ++ kind.name ++ " of " ++ Hex.marked address.toNat
    | none => ""

end ExceptionRecord

def PointerWidth.recordSize : PointerWidth → Nat
  | .bits32 => 80
  | .bits64 => 152

/-- A stored exception record, whose length fixes its pointer width. -/
structure RawRecord where
  width : PointerWidth
  bytes : Bytes
  length_bytes : bytes.length = width.recordSize
  deriving DecidableEq

namespace RawRecord

/-- Take a byte string as a stored record of the width that its length fixes. -/
def ofBytes (data : Bytes) : Except Fault RawRecord :=
  if wide : data.length = PointerWidth.bits64.recordSize then .ok ⟨.bits64, data, wide⟩
  else if narrow : data.length = PointerWidth.bits32.recordSize then .ok ⟨.bits32, data, narrow⟩
  else .error (.malformed (.recordSize data.length))

/-- The low half of every whole 8-byte slot. -/
def lowHalves : Bytes → Bytes
  | a :: b :: c :: d :: _ :: _ :: _ :: _ :: rest => a :: b :: c :: d :: lowHalves rest
  | _ => []

theorem length_lowHalves (data : Bytes) : (lowHalves data).length = data.length / 8 * 4 := by
  fun_induction lowHalves data with
  | case1 a b c d _ _ _ _ rest ih =>
      simp only [List.length_cons, ih]
      omega
  | case2 data short =>
      have few : data.length < 8 := by
        match data, short with
        | [], _ => simp
        | [_], _ => simp
        | [_, _], _ => simp
        | [_, _, _], _ => simp
        | [_, _, _, _], _ => simp
        | [_, _, _, _, _], _ => simp
        | [_, _, _, _, _, _], _ => simp
        | [_, _, _, _, _, _, _], _ => simp
        | a :: b :: c :: d :: e :: f :: g :: h :: rest, short =>
            exact absurd rfl (short a b c d e f g h rest)
      simp only [List.length_nil]
      omega

/-- The code and flags of a wide record, then the low half of every later slot. -/
def narrowBytes (wide : Bytes) : Bytes :=
  wide.take 8 ++ lowHalves (wide.drop 8)

theorem length_narrowBytes {wide : Bytes} (size : wide.length = 152) :
    (narrowBytes wide).length = 80 := by
  simp [narrowBytes, length_lowHalves, size]

/-- A record as a narrow target stores it; a narrow one is left as it is. -/
def narrowed (record : RawRecord) : RawRecord :=
  match record with
  | ⟨.bits32, bytes, size⟩ => ⟨.bits32, bytes, size⟩
  | ⟨.bits64, bytes, size⟩ => ⟨.bits32, narrowBytes bytes, length_narrowBytes size⟩

/-- Up to `length` bytes from an offset, which may be the end but not past it. -/
def read (record : RawRecord) (offset length : Nat) : Except Fault Bytes :=
  if record.bytes.length < offset then .error .outOfBounds
  else .ok ((record.bytes.drop offset).take length)

/-- Take a record of a width; at most fifteen parameters are taken. -/
def reader (width : PointerWidth) : Reader ExceptionRecord := do
  let code ← Reader.word UInt32
  let flags ← Reader.word UInt32
  let record ← Reader.pointer width
  let address ← Reader.pointer width
  let parameterCount ← Reader.word UInt32
  Reader.advance (width.bytes - 4)
  let parameters ← Reader.pointers width (min parameterCount.toNat ExceptionRecord.maxParameters)
  pure ⟨code, ⟨flags⟩, record, address, parameterCount, parameters⟩

def decode (record : RawRecord) : Except Fault ExceptionRecord :=
  (reader record.width).outcome record.bytes

end RawRecord

end NtTarget
