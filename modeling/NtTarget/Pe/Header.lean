import NtTarget.Bytes.LittleEndian
import NtTarget.PointerWidth

/-!
# File headers

An image file starts with a stub that points to the file header.  The optional
header, present unless its declared size is 0, fixes the pointer width, the
linked base, the entry point, the file alignment and the data directories.
Every field is read at its own offset, and a header that the file does not hold
whole is refused.
-/

namespace NtTarget.Pe

/-- Where the loader finds one of its tables. -/
structure DataDirectory where
  rva : UInt32
  size : UInt32
  deriving Repr, DecidableEq

structure FileHeader where
  sectionCount : UInt16
  symbolTable : UInt32
  symbolCount : UInt32
  optionalSize : UInt16
  optionalOffset : Nat
  deriving Repr, DecidableEq

structure OptionalHeader where
  width : PointerWidth
  entryPoint : UInt32
  imageBase : UInt64
  fileAlignment : UInt32
  directories : List (Option DataDirectory)
  deriving Repr, DecidableEq

namespace FileHeader

/-- The mark at the start of the stub. -/
def stubMark : UInt16 :=
  0x5A4D

/-- The mark in front of the file header. -/
def headerMark : UInt32 :=
  0x00004550

/-- The size of the stub, which the file header cannot overlap. -/
def stubSize : Nat :=
  0x40

def size : Nat :=
  20

/-- The file header that the stub points to. -/
def ofFile? (file : Bytes) : Option FileHeader := do
  let mark ← Word.at? UInt16 file 0
  guard (mark = stubMark)
  let pointer ← Word.at? UInt32 file 0x3C
  let start := pointer.toNat
  guard (stubSize ≤ start)
  let signature ← Word.at? UInt32 file start
  guard (signature = headerMark)
  let sectionCount ← Word.at? UInt16 file (start + 6)
  let symbolTable ← Word.at? UInt32 file (start + 12)
  let symbolCount ← Word.at? UInt32 file (start + 16)
  let optionalSize ← Word.at? UInt16 file (start + 20)
  let _characteristics ← Word.at? UInt16 file (start + 22)
  pure ⟨sectionCount, symbolTable, symbolCount, optionalSize, start + 4 + size⟩

/-- Where the section headers start; the declared size of the optional header says so. -/
def sectionsOffset (header : FileHeader) : Nat :=
  header.optionalOffset + header.optionalSize.toNat

/-- Where the string table starts, behind the symbols of 18 bytes each. -/
def stringsOffset (header : FileHeader) : Nat :=
  header.symbolTable.toNat + 18 * header.symbolCount.toNat

end FileHeader

namespace DataDirectory

def maxCount : Nat :=
  16

/-- The directory at an offset; one that is all zero is absent. -/
def at? (file : Bytes) (offset : Nat) : Option (Option DataDirectory) := do
  let rva ← Word.at? UInt32 file offset
  let size ← Word.at? UInt32 file (offset + 4)
  pure (if rva = 0 ∧ size = 0 then none else some ⟨rva, size⟩)

def row? (file : Bytes) : Nat → Nat → Option (List (Option DataDirectory))
  | _, 0 => some []
  | offset, count + 1 => do
      let head ← at? file offset
      let tail ← row? file (offset + 8) count
      pure (head :: tail)

end DataDirectory

namespace OptionalHeader

/-- The mark of an optional header and the pointer width that it announces. -/
def widthOf? (mark : UInt16) : Option PointerWidth :=
  if mark = 0x10B then some .bits32
  else if mark = 0x20B then some .bits64
  else none

/-- The size of the fields before the directories. -/
def fixedSize : PointerWidth → Nat
  | .bits32 => 96
  | .bits64 => 112

/-- The linked base, a pointer in front of the section alignment. -/
def imageBase? (file : Bytes) (start : Nat) (width : PointerWidth) : Option UInt64 :=
  width.pointerAt? file (start + 32 - width.bytes)

def at? (file : Bytes) (start : Nat) : Option OptionalHeader := do
  let mark ← Word.at? UInt16 file start
  let width ← widthOf? mark
  let _fixed ← file.slice? start (fixedSize width)
  let entryPoint ← Word.at? UInt32 file (start + 16)
  let imageBase ← imageBase? file start width
  let fileAlignment ← Word.at? UInt32 file (start + 36)
  let count ← Word.at? UInt32 file (start + fixedSize width - 4)
  guard (count.toNat ≤ DataDirectory.maxCount)
  let directories ← DataDirectory.row? file (start + fixedSize width) count.toNat
  pure ⟨width, entryPoint, imageBase, fileAlignment, directories⟩

end OptionalHeader

namespace FileHeader

/-- The optional header of a file, which is absent when its declared size is 0. -/
def optional? (header : FileHeader) (file : Bytes) : Option (Option OptionalHeader) :=
  if header.optionalSize = 0 then some none
  else (OptionalHeader.at? file header.optionalOffset).map some

end FileHeader

end NtTarget.Pe
