import NtTarget.Binary.ImportDescriptor
import NtTarget.Pe.SectionHeader

/-!
# Loading imports

A loader follows every import of a file before it accepts the file.  Addresses
are mapped by what it reads into memory of each section, in units of the file
alignment and of pages, which is more than the section's contents.  This module
only says whether everything can be followed; nothing that is found is kept.
-/

namespace NtTarget.Pe

/-- The smallest multiple of a unit that is not below a size. -/
def roundUp (size unit : Nat) : Nat :=
  (size + unit - 1) / unit * unit

namespace SectionHeader

/-- The number of bytes of a section that are read into memory. -/
def loadedSize (header : SectionHeader) (alignment : Nat) : Nat :=
  let pointer := header.rawPointer.toNat
  let span := roundUp (pointer + header.rawSize.toNat) alignment - pointer / 0x200 * 0x200
  let size := min span (roundUp header.rawSize.toNat 0x1000)
  if header.virtualSize = 0 then size else min size (roundUp header.virtualSize.toNat 0x1000)

/-- Whether an address belongs to what is read of a section. -/
def loads (header : SectionHeader) (alignment rva : Nat) : Bool :=
  header.virtualAddress.toNat ≤ rva &&
    rva < header.virtualAddress.toNat + header.loadedSize alignment

end SectionHeader

/-- A file as its loader maps it. -/
structure LoadMap where
  file : Bytes
  headers : List SectionHeader
  alignment : UInt32
  width : PointerWidth
  deriving Repr, DecidableEq

namespace LoadMap

/-- Whether the file alignment is a power of two; otherwise nothing is mapped. -/
def isAligned (map : LoadMap) : Bool :=
  map.alignment != 0 && map.alignment &&& (map.alignment - 1) == 0

/-- The file offset of an address, by the first section that it belongs to. -/
def offsetOf? (map : LoadMap) (rva : Nat) : Option Nat :=
  if map.isAligned then
    (map.headers.find? fun header => header.loads map.alignment.toNat rva).map fun header =>
      header.rawPointer.toNat + (rva - header.virtualAddress.toNat)
  else
    none

/-- The words of a table from an offset to its zero word. -/
def tableFrom? (map : LoadMap) (offset : Nat) : Option (List Nat) :=
  if _inside : offset + map.width.bytes ≤ map.file.length then
    let entry := LittleEndian.value ((map.file.drop offset).take map.width.bytes)
    if entry = 0 then some []
    else (tableFrom? map (offset + map.width.bytes)).map (entry :: ·)
  else
    none
termination_by map.file.length - offset
decreasing_by
  have := map.width.bytes_pos
  omega

/-- Whether the name at an offset is well-formed; an empty one may start at the end of the file. -/
def holdsName (map : LoadMap) (offset : Nat) : Bool :=
  (textAt? map.file offset).isSome

/-- Whether a lookup entry has its highest bit set: it is an ordinal and names nothing. -/
def isOrdinal (width : PointerWidth) (entry : Nat) : Bool :=
  LittleEndian.limit width.bytes ≤ 2 * entry

/-- The address of the hint and name of a lookup entry. -/
def hintRva (entry : Nat) : Nat :=
  entry % 0x80000000

/--
Whether a lookup entry can be followed: a hint of two bytes and the name behind
it.  An entry that maps nowhere is passed over.
-/
def followsEntry (map : LoadMap) (entry : Nat) : Bool :=
  if isOrdinal map.width entry then true
  else match map.offsetOf? (hintRva entry) with
    | none => true
    | some offset =>
        (map.file.slice? offset 2).isSome && map.holdsName (offset + 2)

/-- Whether every entry of the lookup table at an offset can be followed. -/
def followsTable (map : LoadMap) (offset : Nat) : Bool :=
  match map.tableFrom? offset with
  | some entries => entries.all map.followsEntry
  | none => false

/-- Whether the lookup table can be followed; the address table stands in where it maps nowhere. -/
def followsLookup (map : LoadMap) (descriptor : ImportDescriptor) : Bool :=
  match map.offsetOf? descriptor.lookupTable.toNat with
  | some offset => map.followsTable offset
  | none =>
      match map.offsetOf? descriptor.addressTable.toNat with
      | some offset => map.followsTable offset
      | none => true

/-- Whether the library name of a descriptor can be read; it starts at a byte of the file. -/
def followsName (map : LoadMap) (descriptor : ImportDescriptor) : Bool :=
  match map.offsetOf? descriptor.nameRva.toNat with
  | some offset => offset < map.file.length && map.holdsName offset
  | none => false

/-- Whether the address table of a descriptor can be read. -/
def followsAddresses (map : LoadMap) (descriptor : ImportDescriptor) : Bool :=
  match map.offsetOf? descriptor.addressTable.toNat with
  | some offset => (map.tableFrom? offset).isSome
  | none => false

/-- Whether everything that a descriptor points to can be followed. -/
def follows (map : LoadMap) (descriptor : ImportDescriptor) : Bool :=
  map.followsName descriptor && map.followsLookup descriptor && map.followsAddresses descriptor

/-- Whether a descriptor ends the table for the loader: without a name or addresses it does. -/
def endsTable (descriptor : ImportDescriptor) : Bool :=
  descriptor.nameRva == 0 || descriptor.addressTable == 0

/-- Whether every descriptor from an offset to the end of the table can be followed. -/
def followsFrom (map : LoadMap) (offset : Nat) : Bool :=
  match found : ImportDescriptor.at? map.file offset with
  | none => false
  | some descriptor =>
      if endsTable descriptor then true
      else
        have _inside := ImportDescriptor.offset_le_of_at? found
        map.follows descriptor && followsFrom map (offset + ImportDescriptor.size)
termination_by map.file.length - offset
decreasing_by
  unfold ImportDescriptor.size at *
  omega

/-- Whether the imports of a directory can be followed. -/
def followsImports (map : LoadMap) (directory : DataDirectory) : Bool :=
  match map.offsetOf? directory.rva.toNat with
  | some offset => map.followsFrom offset
  | none => false

end LoadMap

end NtTarget.Pe
