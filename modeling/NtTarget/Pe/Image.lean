import NtTarget.Binary.View
import NtTarget.Fault
import NtTarget.Pe.ImportLoad
import NtTarget.Pe.Storage

/-!
# Image files

A loaded file answers for its sections, its directories and the file offsets of
its addresses.  Its headers are what a reader of image files delivers, and any
reader will do.  A section is the range of the file that its header gives;
headers are searched in the order in which they are delivered, and the first of
a name stands for it even when its range lies outside the file.
-/

namespace NtTarget

/--
A reader of image files.  Of a file that it accepts it delivers the optional
header, which may be absent, and the section headers.
-/
abbrev Pe.Reader : Type :=
  Bytes → Option (Option Pe.OptionalHeader × List Pe.SectionHeader)

/-- A file that a reader accepts. -/
structure PeImage where
  storage : Storage
  width : PointerWidth
  imageBase : UInt64
  entryPoint : UInt32
  directories : List (Option Pe.DataDirectory)
  headers : List Pe.SectionHeader
  deriving Repr, DecidableEq

namespace PeImage

/-- The position of the import table among the data directories. -/
def importDirectory : Nat :=
  1

/-- The image that the headers of a file describe. -/
def ofHeaders (storage : Storage) (optional : Pe.OptionalHeader)
    (headers : List Pe.SectionHeader) : PeImage :=
  { storage, headers
    width := optional.width
    imageBase := optional.imageBase
    entryPoint := optional.entryPoint
    directories := optional.directories }

/-- The stored directory at a position, unless it is absent. -/
def storedDirectory? (directories : List (Option Pe.DataDirectory)) (index : Nat) :
    Option Pe.DataDirectory :=
  directories[index]?.join

/-- Whether the loader can follow the imports of a file; without a directory it has none. -/
def loadsImports (file : Bytes) (optional : Pe.OptionalHeader)
    (headers : List Pe.SectionHeader) : Bool :=
  match storedDirectory? optional.directories importDirectory with
  | none => true
  | some directory =>
      (⟨file, headers, optional.fileAlignment, optional.width⟩ : Pe.LoadMap).followsImports
        directory

/-- The headers of a file; the optional one may be absent. -/
def headers? : Pe.Reader := fun file => do
  let header ← Pe.FileHeader.ofFile? file
  let optional ← header.optional? file
  let sections ← header.sections? file
  pure (optional, sections)

/-- The reader that also follows the imports of a file, and no other directory. -/
def importReader : Pe.Reader := fun file =>
  (headers? file).filter fun found =>
    found.1.all fun optional => loadsImports file optional found.2

/-- Load a file by a reader, which must find an optional header. -/
def load (read : Pe.Reader) (storage : Storage) : Except Fault PeImage :=
  if storage.contents.isEmpty then .error .emptyInput
  else match read storage.contents with
    | none => .error .invalidImage
    | some (none, _) => .error (.malformed .missingOptionalHeader)
    | some (some optional, sections) => .ok (ofHeaders storage optional sections)

def ofBuffer (contents : Bytes) : Except Fault PeImage :=
  load importReader (.buffer contents)

/-- Load a file by mapping it; there may be no such file. -/
def ofFile : Option Bytes → Except Fault PeImage
  | some contents => load importReader (.mapping contents)
  | none => .error .fileUnopenable

def size (image : PeImage) : Nat :=
  image.storage.contents.length

/-- A data directory, unless its address or its size is 0. -/
def directory? (image : PeImage) (index : Nat) : Option Pe.DataDirectory :=
  (storedDirectory? image.directories index).filter fun directory =>
    directory.rva != 0 && directory.size != 0

/-- The contents of a section, when its range lies inside the file. -/
def contentsOf? (image : PeImage) (header : Pe.SectionHeader) : Option Bytes :=
  image.storage.range? header.contentsRange.1 header.contentsRange.2

def headerNamed? (image : PeImage) (name : String) : Option Pe.SectionHeader :=
  image.headers.find? fun header => header.name == name

/-- The names and contents of the sections inside the file, in table order. -/
def sections (image : PeImage) : List (String × Bytes) :=
  image.headers.filterMap fun header =>
    (image.contentsOf? header).map fun contents => (header.name, contents)

def bytesOf? (image : PeImage) (name : String) : Option Bytes :=
  (image.headerNamed? name).bind image.contentsOf?

/-- The size of the first section of a name, 0 when it has no contents. -/
def sizeOf (image : PeImage) (name : String) : Nat :=
  ((image.bytesOf? name).map List.length).getD 0

/-- The linked address of the first section of a name. -/
def addressOf? (image : PeImage) (name : String) : Option UInt64 :=
  (image.headerNamed? name).map fun header => image.imageBase + header.virtualAddress.toUInt64

/-- What an image answers to the decoders of this library. -/
def view (image : PeImage) : BinaryView where
  imageBase := image.imageBase
  entryPoint := image.entryPoint.toUInt64
  importTable := (image.directory? importDirectory).map fun directory => directory.rva.toUInt64
  bytesOf? := image.bytesOf?
  addressOf? := image.addressOf?

/--
The file offset of an address by a table of headers.  A header whose virtual
range leaves the 32-bit addresses ends the search before its range is looked at.
-/
def offsetIn (headers : List Pe.SectionHeader) (rva : Nat) : Except Fault Nat :=
  match headers with
  | [] => .error (.malformed (.rvaUnmapped rva))
  | header :: rest =>
      let start := header.virtualAddress.toNat
      let stop := start + header.virtualSize.toNat
      if UInt32.size ≤ stop then
        .error (.malformed (.sectionExtent header.virtualAddress header.virtualSize))
      else if UInt32.size ≤ rva then
        .error (.malformed (.rvaTooLarge rva))
      else if start ≤ rva ∧ rva < stop then
        .ok (rva - start + header.rawPointer.toNat)
      else
        offsetIn rest rva

/-- The file offset of an address. -/
def rvaToOffset (image : PeImage) (rva : Nat) : Except Fault Nat :=
  offsetIn image.headers rva

end PeImage

end NtTarget
