import Mathlib.Algebra.Group.Nat.Defs
import NtTarget.Proofs.Binary.LibraryNames

/-!
# Import sections read back

A linker lays an import section out in three parts: a descriptor for each
library and the terminator, a thunk table that the descriptors share, and the
names in the same order, each with a zero byte behind it.  The walk over such a
section finds every library under its own name, whatever bytes follow.
-/

namespace NtTarget

namespace ImportLayout

/-- The bytes of the names, each with a zero byte behind it. -/
def nameBytes : List String → Bytes
  | [] => []
  | library :: rest => Utf8.encode library ++ 0 :: nameBytes rest

/-- The descriptor of a library whose name and thunks have given addresses. -/
def descriptor (thunks name : Nat) : ImportDescriptor where
  lookupTable := UInt32.ofNat thunks
  timestamp := 0
  forwarderChain := 0
  nameRva := UInt32.ofNat name
  addressTable := UInt32.ofNat thunks

/-- The descriptors of libraries whose names stand in a row from an address on. -/
def descriptors (thunks : Nat) : Nat → List String → List ImportDescriptor
  | _, [] => []
  | name, library :: rest =>
      descriptor thunks name :: descriptors thunks (name + (Utf8.encode library).length + 1) rest

def tableBytes (table : List ImportDescriptor) : Bytes :=
  table.flatMap ImportDescriptor.toBytes ++ ImportDescriptor.terminator.toBytes

def thunkTableSize : Nat :=
  8

/-- The address of the thunks, behind a table for some libraries. -/
def thunksRva (rva : Nat) (libraries : List String) : Nat :=
  rva + (libraries.length + 1) * ImportDescriptor.size

/-- The address of the first name. -/
def namesRva (rva : Nat) (libraries : List String) : Nat :=
  thunksRva rva libraries + thunkTableSize

/-- The descriptors of the libraries of a section at an address. -/
def table (rva : Nat) (libraries : List String) : List ImportDescriptor :=
  descriptors (thunksRva rva libraries) (namesRva rva libraries) libraries

/-- The section that imports some libraries, laid out for an address. -/
def sectionBytes (rva : Nat) (libraries : List String) : Bytes :=
  tableBytes (table rva libraries) ++ (List.replicate thunkTableSize 0 ++ nameBytes libraries)

theorem length_descriptors (thunks name : Nat) (libraries : List String) :
    (descriptors thunks name libraries).length = libraries.length := by
  induction libraries generalizing name with
  | nil => rfl
  | cons library rest ih => simp [descriptors, ih]

theorem tableBytes_cons (first : ImportDescriptor) (rest : List ImportDescriptor) :
    tableBytes (first :: rest) = first.toBytes ++ tableBytes rest := by
  simp [tableBytes]

theorem length_tableBytes (table : List ImportDescriptor) :
    (tableBytes table).length = (table.length + 1) * ImportDescriptor.size := by
  induction table with
  | nil => simp [tableBytes]
  | cons first rest ih =>
      rw [tableBytes_cons, List.length_append, ih, ImportDescriptor.length_toBytes,
        List.length_cons, Nat.succ_mul (rest.length + 1), Nat.add_comm]

theorem length_nameBytes_cons (library : String) (rest : List String) :
    (nameBytes (library :: rest)).length =
      (Utf8.encode library).length + 1 + (nameBytes rest).length := by
  simp [nameBytes]
  omega

/-! ## The rest of a layout -/

/--
The part of a layout that is still to be walked: from an offset on the section
holds the table of some libraries, and from an address on their names.
-/
structure Holds (imports : ImportSection) (thunks offset name : Nat) (libraries : List String) :
    Prop where
  table : ∃ before after, before.length = offset ∧
    imports.bytes = before ++ (tableBytes (descriptors thunks name libraries) ++ after)
  names : ∃ tail, imports.bytes.drop (name - imports.rva) = nameBytes libraries ++ tail
  above : imports.rva ≤ name
  thunks_pos : 0 < thunks
  thunks_le : thunks ≤ name
  ends : name + (nameBytes libraries).length ≤ 2 ^ 32

namespace Holds

variable {imports : ImportSection} {thunks offset name : Nat} {library : String}
  {rest : List String}

theorem terminator (holds : Holds imports thunks offset name []) :
    ImportDescriptor.at? imports.bytes offset = some .terminator := by
  obtain ⟨before, after, rfl, stored⟩ := holds.table
  rw [stored]
  exact ImportDescriptor.at?_between before .terminator after

theorem first (holds : Holds imports thunks offset name (library :: rest)) :
    ImportDescriptor.at? imports.bytes offset = some (descriptor thunks name) := by
  obtain ⟨before, after, rfl, stored⟩ := holds.table
  rw [stored, descriptors, tableBytes_cons, List.append_assoc]
  exact ImportDescriptor.at?_between before _ _

/-- The address of a name that is still to come fits into its descriptor. -/
theorem name_lt (holds : Holds imports thunks offset name (library :: rest)) : name < 2 ^ 32 := by
  have ends := holds.ends
  rw [length_nameBytes_cons] at ends
  omega

theorem goesOn (holds : Holds imports thunks offset name (library :: rest)) :
    descriptor thunks name ≠ .terminator := by
  intro same
  have zero : UInt32.ofNat thunks = 0 := congrArg ImportDescriptor.lookupTable same
  have small : thunks < 2 ^ 32 := Nat.lt_of_le_of_lt holds.thunks_le holds.name_lt
  have thunks_eq : thunks = 0 := by
    rw [← UInt32.toNat_ofNat_of_lt' small, zero]
    rfl
  exact Nat.ne_of_gt holds.thunks_pos thunks_eq

theorem named (holds : Holds imports thunks offset name (library :: rest)) :
    imports.offsetOf? (descriptor thunks name).nameRva.toNat = some (name - imports.rva) := by
  have nameRva : (descriptor thunks name).nameRva.toNat = name :=
    UInt32.toNat_ofNat_of_lt' holds.name_lt
  obtain ⟨tail, stored⟩ := holds.names
  have inside : name - imports.rva < imports.bytes.length := by
    have size := congrArg List.length stored
    rw [List.length_drop, List.length_append, length_nameBytes_cons] at size
    omega
  rw [nameRva, ImportSection.offsetOf?, if_pos ⟨holds.above, inside⟩]

theorem later (holds : Holds imports thunks offset name (library :: rest)) :
    Holds imports thunks (offset + ImportDescriptor.size)
      (name + (Utf8.encode library).length + 1) rest where
  table := by
    obtain ⟨before, after, rfl, stored⟩ := holds.table
    refine ⟨before ++ (descriptor thunks name).toBytes, after, ?_, ?_⟩
    · rw [List.length_append, ImportDescriptor.length_toBytes]
    · rw [stored, descriptors, tableBytes_cons, List.append_assoc, List.append_assoc]
  names := by
    obtain ⟨tail, stored⟩ := holds.names
    have above := holds.above
    have next : name + (Utf8.encode library).length + 1 - imports.rva =
        name - imports.rva + (Utf8.encode library ++ [0]).length := by
      simp
      omega
    refine ⟨tail, ?_⟩
    rw [next, ← List.drop_drop, stored, nameBytes]
    simp
  above := Nat.le_trans holds.above (by omega)
  thunks_pos := holds.thunks_pos
  thunks_le := Nat.le_trans holds.thunks_le (by omega)
  ends := by
    have ends := holds.ends
    rw [length_nameBytes_cons] at ends
    omega

/-- A name without a zero character ends at its own zero byte and not at a later one. -/
theorem zeroTerminated?_name (holds : Holds imports thunks offset name (library :: rest))
    (clean : '\x00' ∉ library.toList) :
    Bytes.zeroTerminated? (imports.bytes.drop (name - imports.rva)) =
      some (Utf8.encode library) := by
  obtain ⟨tail, stored⟩ := holds.names
  refine Bytes.zeroTerminated?_eq_some_iff.2 ⟨nameBytes rest ++ tail, ?_, ?_⟩
  · rw [stored, nameBytes]
    simp
  · exact Utf8.zero_notMem_encode clean

end Holds

/-- What the walk over a layout finds: every descriptor with its own name, then the terminator. -/
structure FoundBy (walk : ImportWalk) (table : List ImportDescriptor) (libraries : List String) :
    Prop where
  descriptors_eq : walk.entries.map (·.descriptor) = table
  names_eq : walk.entries.map (·.nameBytes.zeroTerminated?) =
    libraries.map fun library => some (Utf8.encode library)
  stop_eq : walk.stop = .terminator

/-- The walk finds what is left of a layout. -/
theorem Holds.foundBy {imports : ImportSection} {thunks offset name : Nat}
    {libraries : List String} (holds : Holds imports thunks offset name libraries)
    (clean : ∀ library ∈ libraries, '\x00' ∉ library.toList) :
    FoundBy (imports.walkFrom offset) (descriptors thunks name libraries) libraries := by
  induction libraries generalizing offset name with
  | nil =>
      rw [ImportSection.walkFrom_of_terminator holds.terminator]
      exact ⟨rfl, rfl, rfl⟩
  | cons library rest ih =>
      obtain ⟨here, there⟩ := List.forall_mem_cons.1 clean
      have found := ih holds.later there
      rw [ImportSection.walkFrom_of_named holds.first holds.goesOn holds.named]
      refine ⟨?_, ?_, found.stop_eq⟩
      · simp only [List.map_cons, found.descriptors_eq, descriptors]
      · simp only [List.map_cons, found.names_eq, holds.zeroTerminated?_name here]

/-- A whole layout is held from the start of its section on, whatever bytes follow. -/
theorem holds_sectionBytes {rva : Nat} {libraries : List String}
    (ends : rva + (sectionBytes rva libraries).length ≤ 2 ^ 32) (tail : Bytes) :
    Holds ⟨rva, sectionBytes rva libraries ++ tail⟩ (thunksRva rva libraries) 0
      (namesRva rva libraries) libraries := by
  have size : (tableBytes (table rva libraries)).length =
      (libraries.length + 1) * ImportDescriptor.size := by
    rw [length_tableBytes, table, length_descriptors]
  have names : namesRva rva libraries - rva =
      (tableBytes (table rva libraries) ++ List.replicate thunkTableSize 0).length := by
    rw [List.length_append, size, List.length_replicate, namesRva, thunksRva]
    omega
  refine ⟨⟨[], List.replicate thunkTableSize 0 ++ nameBytes libraries ++ tail, rfl, ?_⟩,
    ⟨tail, ?_⟩, ?_, ?_, ?_, ?_⟩
  · simp [sectionBytes, table]
  · change (sectionBytes rva libraries ++ tail).drop (namesRva rva libraries - rva) = _
    rw [names, sectionBytes, ← List.append_assoc, List.append_assoc, List.drop_left]
  · change rva ≤ namesRva rva libraries
    unfold namesRva thunksRva
    omega
  · unfold thunksRva ImportDescriptor.size
    omega
  · exact Nat.le_add_right _ _
  · rw [sectionBytes, List.length_append, List.length_append, size, List.length_replicate] at ends
    unfold namesRva thunksRva
    omega

end ImportLayout

open ImportLayout

/--
A binary has the import section of some libraries at an address, as a linker
lays it out, with its table at the start and any bytes behind it.
-/
structure BinaryView.LaysOut (binary : BinaryView) (rva : Nat) (libraries : List String)
    (tail : Bytes) : Prop where
  bytes_eq : binary.bytesOf? ImportTable.sectionName = some (sectionBytes rva libraries ++ tail)
  address_eq :
    binary.addressOf? ImportTable.sectionName = some (binary.imageBase + UInt64.ofNat rva)
  table_eq : binary.importTable.getD 0 = UInt64.ofNat rva
  ends : rva + (sectionBytes rva libraries).length ≤ 2 ^ 32
  placed : binary.imageBase.toNat + rva < 2 ^ 64
  clean : ∀ library ∈ libraries, '\x00' ∉ library.toList

namespace ImportTable

theorem ofSection_of_offset {imports : ImportSection} {table : UInt64} {start : Nat}
    (found : imports.offsetOf? table.toNat = some start) :
    ofSection imports table =
      ⟨(imports.walkFrom start).entries, (imports.walkFrom start).stop.warnings⟩ := by
  unfold ofSection
  rw [found]

variable {binary : BinaryView} {rva : Nat} {libraries : List String} {tail : Bytes}

/-- The table of a laid out section is what the walk from its start finds. -/
theorem ofView_of_laysOut (laidOut : binary.LaysOut rva libraries tail) :
    ∃ walk, FoundBy walk (table rva libraries) libraries ∧
      ofView binary = ⟨walk.entries, walk.stop.warnings⟩ := by
  have holds := holds_sectionBytes laidOut.ends tail
  have placed := laidOut.placed
  have size : 0 < (sectionBytes rva libraries ++ tail).length := by
    simp only [sectionBytes, List.length_append, length_tableBytes, ImportDescriptor.size]
    omega
  have rva_eq : (UInt64.ofNat rva).toNat = rva :=
    UInt64.toNat_ofNat_of_lt' (Nat.lt_of_le_of_lt (Nat.le_add_left _ _) placed)
  have address : (binary.imageBase + UInt64.ofNat rva).toNat = binary.imageBase.toNat + rva := by
    rw [UInt64.toNat_add, rva_eq, Nat.mod_eq_of_lt placed]
  have start : (ImportSection.mk rva (sectionBytes rva libraries ++ tail)).offsetOf? rva =
      some 0 := by
    rw [ImportSection.offsetOf?, if_pos ⟨Nat.le_refl _, by rwa [Nat.sub_self]⟩, Nat.sub_self]
  refine ⟨_, holds.foundBy laidOut.clean, ?_⟩
  rw [ofView_of_found laidOut.bytes_eq laidOut.address_eq, address, if_neg (by omega),
    Nat.add_sub_cancel_left, laidOut.table_eq]
  exact ofSection_of_offset (rva_eq.symm ▸ start)

/--
A section that was laid out for some libraries reads back: the walk says nothing,
lists every descriptor that was written, each under the name of its library, and
finds a text without a zero character exactly when it is one of the libraries.
-/
theorem libraries_read_back (laidOut : binary.LaysOut rva libraries tail) :
    (ofView binary).warnings = [] ∧
      (ofView binary).entries.map (·.descriptor) = table rva libraries ∧
      (ofView binary).entries.map ImportEntry.name? = libraries.map some ∧
      ∀ library, '\x00' ∉ library.toList →
        ((ofView binary).importsLibrary library = true ↔ library ∈ libraries) := by
  obtain ⟨walk, found, view⟩ := ofView_of_laysOut laidOut
  rw [view]
  refine ⟨?_, found.descriptors_eq, ?_, ?_⟩
  · rw [found.stop_eq]
    rfl
  · -- A name is the decoded text of the bytes that were written for it.
    have decoded := congrArg (List.map (Option.map Utf8.decode)) found.names_eq
    simp only [List.map_map, Function.comp_def, Option.map_some, Utf8.decode_encode] at decoded
    exact decoded
  · intro library clean
    have found_iff : (∃ entry ∈ walk.entries,
        entry.nameBytes.zeroTerminated? = some (Utf8.encode library)) ↔
          some (Utf8.encode library) ∈ libraries.map fun other => some (Utf8.encode other) := by
      rw [← found.names_eq, List.mem_map]
    rw [importsLibrary_iff]
    simp only [ImportEntry.names_iff clean, found_iff, List.mem_map, Option.some_inj,
      Utf8.encode_inj, exists_eq_right]

/-- A binary that imports one library twice and one without a name, with more bytes behind. -/
def repeating : BinaryView where
  imageBase := 0x140000000
  entryPoint := 0
  importTable := some 0x3000
  bytesOf? := fun _ => some (sectionBytes 0x3000 ["é.dll", "", "é.dll"] ++ [0x78, 0])
  addressOf? := fun _ => some 0x140003000

theorem repeating_libraries_read_back :
    repeating.LaysOut 0x3000 ["é.dll", "", "é.dll"] [0x78, 0] ∧
      (ofView repeating).warnings = [] ∧
      (ofView repeating).entries.map (·.descriptor.nameRva) = [0x3058, 0x305F, 0x3060] ∧
      (ofView repeating).entries.map ImportEntry.name? = [some "é.dll", some "", some "é.dll"] ∧
      (ofView repeating).importsLibrary "" = true ∧
      ¬ (ofView repeating).importsLibrary "x" = true := by
  have laidOut : repeating.LaysOut 0x3000 ["é.dll", "", "é.dll"] [0x78, 0] :=
    ⟨rfl, by decide, by decide, by decide +kernel, by decide, by decide⟩
  obtain ⟨silent, table, names, finds⟩ := libraries_read_back laidOut
  have addresses := congrArg (List.map ImportDescriptor.nameRva) table
  rw [List.map_map] at addresses
  refine ⟨laidOut, silent, addresses.trans (by decide +kernel), names, ?_, ?_⟩
  · exact (finds "" (by decide)).2 (by decide)
  · intro found
    exact absurd ((finds "x" (by decide)).1 found) (by decide)

end ImportTable

end NtTarget
