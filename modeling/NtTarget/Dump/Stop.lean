import NtTarget.Dump.Basic
import NtTarget.Exception.Record

/-!
# Why and where a dumped process stopped

A dump stores its exception record in the wide shape, whatever its target.  A
narrow target is served the narrowed record, clamped to its end; a wide one is
served the stored bytes as they are.
-/

namespace NtTarget.CoreDump

def exceptionSection : String :=
  ".coreexception"

def baseSection : String :=
  ".corebase"

/-- The stored bytes of the exception record. -/
def exceptionBytes (dump : CoreDump) : Except Fault Bytes :=
  match dump.sections.bytesOf? exceptionSection with
  | some stored => .ok stored
  | none => .error (.notFound (.namedSection exceptionSection))

/-- The exception record as its target stores it. -/
def rawException (dump : CoreDump) : Except Fault RawRecord := do
  let stored ← dump.exceptionBytes
  if stored.length = PointerWidth.bits64.recordSize then
    let record ← RawRecord.ofBytes stored
    match dump.profile.width with
    | .bits32 => .ok record.narrowed
    | .bits64 => .ok record
  else
    .error (.malformed (.storedRecordSize stored.length))

def exception (dump : CoreDump) : Except Fault ExceptionRecord := do
  let record ← dump.rawException
  record.decode

/-- A part of the exception record as its target sees it. -/
def exceptionRange (dump : CoreDump) (offset length : Nat) : Except Fault Bytes :=
  match dump.profile.width with
  | .bits32 =>
      if PointerWidth.bits32.recordSize < offset then .error .outOfBounds
      else do
        let record ← dump.rawException
        record.read offset length
  | .bits64 => do
      let stored ← dump.exceptionBytes
      match stored.slice? offset length with
      | some part => .ok part
      | none => .error .outOfBounds

end NtTarget.CoreDump

namespace NtTarget.SectionList

/-- The load address of the executable that a dump records. -/
def loadAddress? (sections : SectionList) : Option UInt64 :=
  (sections.bytesOf? CoreDump.baseSection).bind fun stored => Word.at? UInt64 stored 0

end NtTarget.SectionList
