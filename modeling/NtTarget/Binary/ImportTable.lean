import NtTarget.Binary.ImportDescriptor
import NtTarget.Binary.View
import NtTarget.Warning

/-!
# Import tables

The descriptors of a binary are read from the bytes of its import section,
which covers the addresses from its own start on.  Every address is checked
against the section before it is followed.  A table ends at its terminator, or
with a warning at the first descriptor that cannot be followed.
-/

namespace NtTarget

/-- The bytes of an import section and the address, relative to the image, of the first. -/
structure ImportSection where
  rva : Nat
  bytes : Bytes
  deriving Repr, DecidableEq

/-- A descriptor and the section's bytes from its name on. -/
structure ImportEntry where
  descriptor : ImportDescriptor
  nameBytes : Bytes
  deriving Repr, DecidableEq

namespace ImportEntry

/-- The name of the library, when a zero byte ends it inside the section. -/
def name? (entry : ImportEntry) : Option String :=
  entry.nameBytes.zeroTerminated?.map Utf8.decode

/-- Whether the stored name is exactly a given one. -/
def names (entry : ImportEntry) (library : String) : Bool :=
  (Utf8.encode library ++ [0]).isPrefixOf entry.nameBytes

end ImportEntry

/-- How the walk over a table ended. -/
inductive ImportStop where
  | terminator
  | cut
  | nameOutside (rva : UInt32)
  deriving Repr, DecidableEq

namespace ImportStop

/-- Only the terminator is no reason for a warning. -/
def warnings : ImportStop → List Warning
  | terminator => []
  | cut => [.importTableCut]
  | nameOutside rva => [.importNameOutside rva]

end ImportStop

/-- The entries of a walk and how it ended. -/
structure ImportWalk where
  entries : List ImportEntry
  stop : ImportStop
  deriving Repr, DecidableEq

namespace ImportSection

/-- The offset of an address, when the section covers it. -/
def offsetOf? (imports : ImportSection) (rva : Nat) : Option Nat :=
  if imports.rva ≤ rva ∧ rva - imports.rva < imports.bytes.length then some (rva - imports.rva)
  else none

/-- Walk a table from an offset to its end. -/
def walkFrom (imports : ImportSection) (offset : Nat) : ImportWalk :=
  match found : ImportDescriptor.at? imports.bytes offset with
  | none => ⟨[], .cut⟩
  | some descriptor =>
      if descriptor.isTerminator then
        ⟨[], .terminator⟩
      else
        match imports.offsetOf? descriptor.nameRva.toNat with
        | none => ⟨[], .nameOutside descriptor.nameRva⟩
        | some nameOffset =>
            have _inside := ImportDescriptor.offset_le_of_at? found
            let rest := walkFrom imports (offset + ImportDescriptor.size)
            ⟨⟨descriptor, imports.bytes.drop nameOffset⟩ :: rest.entries, rest.stop⟩
termination_by imports.bytes.length - offset
decreasing_by
  unfold ImportDescriptor.size at *
  omega

theorem walkFrom_of_terminator {imports : ImportSection} {offset : Nat}
    (found : ImportDescriptor.at? imports.bytes offset = some .terminator) :
    imports.walkFrom offset = ⟨[], .terminator⟩ := by
  rw [walkFrom]
  split
  · rename_i missing
    rw [found] at missing
    cases missing
  · rename_i other
    rw [found] at other
    cases other
    rfl

/-- A descriptor whose name the section covers is listed in front of what follows it. -/
theorem walkFrom_of_named {imports : ImportSection} {offset nameOffset : Nat}
    {descriptor : ImportDescriptor}
    (found : ImportDescriptor.at? imports.bytes offset = some descriptor)
    (goesOn : descriptor ≠ .terminator)
    (named : imports.offsetOf? descriptor.nameRva.toNat = some nameOffset) :
    imports.walkFrom offset =
      ⟨⟨descriptor, imports.bytes.drop nameOffset⟩ ::
          (imports.walkFrom (offset + ImportDescriptor.size)).entries,
        (imports.walkFrom (offset + ImportDescriptor.size)).stop⟩ := by
  have continues : ¬ descriptor.isTerminator = true := fun ends => goesOn (eq_of_beq ends)
  rw [walkFrom]
  split
  · rename_i missing
    rw [found] at missing
    cases missing
  · rename_i other
    rw [found] at other
    cases other
    simp only [if_neg continues, named]

end ImportSection

structure ImportTable where
  entries : List ImportEntry
  warnings : List Warning
  deriving Repr, DecidableEq

namespace ImportTable

def sectionName : String :=
  ".idata"

def cygwinLibrary : String :=
  "cygwin1.dll"

def empty : ImportTable :=
  ⟨[], []⟩

/-- The entries of the table at an address inside a section. -/
def ofSection (imports : ImportSection) (table : UInt64) : ImportTable :=
  match imports.offsetOf? table.toNat with
  | none => ⟨[], [.importTableOutside table]⟩
  | some start =>
      let walk := imports.walkFrom start
      ⟨walk.entries, walk.stop.warnings⟩

/-- The import table of a binary; an absent table address counts as 0. -/
def ofView (binary : BinaryView) : ImportTable :=
  match binary.bytesOf? sectionName, binary.addressOf? sectionName with
  | some bytes, some address =>
      if address.toNat < binary.imageBase.toNat then
        ⟨[], [.importsBelowBase address binary.imageBase]⟩
      else
        ofSection ⟨address.toNat - binary.imageBase.toNat, bytes⟩ (binary.importTable.getD 0)
  | _, _ => empty

def importsLibrary (table : ImportTable) (library : String) : Bool :=
  table.entries.any fun entry => entry.names library

/-- Whether the binary is a program with the Cygwin runtime. -/
def importsCygwin (table : ImportTable) : Bool :=
  table.importsLibrary cygwinLibrary

end ImportTable

end NtTarget
