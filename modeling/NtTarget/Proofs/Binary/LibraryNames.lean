import NtTarget.Proofs.Binary.ImportWalk
import NtTarget.Proofs.Text.Utf8Codec

/-!
# Asking for a library and listing the libraries

A descriptor names a library by the bytes from its name on up to the first zero
byte.  Asking for a library compares these bytes with those of the given text,
and listing decodes them with replacements.  The two answers agree on every text
that holds neither a zero character nor a replacement.
-/

namespace NtTarget

namespace ImportEntry

variable {entry : ImportEntry} {library : String}

/-- A text is found when its bytes and a zero byte stand in front. -/
theorem names_iff_append :
    entry.names library = true ↔ ∃ rest, entry.nameBytes = Utf8.encode library ++ 0 :: rest := by
  unfold names
  rw [List.isPrefixOf_iff_prefix]
  constructor
  · rintro ⟨rest, stored⟩
    exact ⟨rest, by rw [← stored, List.append_assoc, List.singleton_append]⟩
  · rintro ⟨rest, stored⟩
    exact ⟨rest, by rw [stored, List.append_assoc, List.singleton_append]⟩

/-- A text without a zero character is found when its bytes are the stored name. -/
theorem names_iff (clean : '\x00' ∉ library.toList) :
    entry.names library = true ↔ entry.nameBytes.zeroTerminated? = some (Utf8.encode library) := by
  rw [names_iff_append, Bytes.zeroTerminated?_eq_some_iff]
  constructor
  · rintro ⟨rest, stored⟩
    exact ⟨rest, stored, Utf8.zero_notMem_encode clean⟩
  · rintro ⟨rest, stored, -⟩
    exact ⟨rest, stored⟩

/-- A text without a replacement is listed when its bytes are the stored name. -/
theorem name?_eq_some_iff_encode (clean : Utf8.replacement ∉ library.toList) :
    entry.name? = some library ↔
      entry.nameBytes.zeroTerminated? = some (Utf8.encode library) := by
  unfold name?
  rw [Option.map_eq_some_iff]
  constructor
  · rintro ⟨text, stored, decoded⟩
    rw [stored, (Utf8.decode_eq_iff clean).1 decoded]
  · intro stored
    exact ⟨_, stored, Utf8.decode_encode library⟩

/-- No descriptor is found under two texts. -/
theorem eq_of_names {other : String} (clean : '\x00' ∉ library.toList)
    (otherClean : '\x00' ∉ other.toList) (found : entry.names library = true)
    (otherFound : entry.names other = true) : other = library := by
  rw [names_iff clean] at found
  rw [names_iff otherClean, found, Option.some_inj] at otherFound
  rw [← Utf8.decode_encode other, ← otherFound, Utf8.decode_encode]

end ImportEntry

theorem Bytes.zeroTerminated?_eq_some_iff_takeWhile {bytes text : Bytes} :
    bytes.zeroTerminated? = some text ↔
      (0 : UInt8) ∈ bytes ∧ bytes.takeWhile (· != 0) = text := by
  unfold zeroTerminated? untilZero
  rw [Option.ite_none_right_eq_some, List.contains_iff_mem, Option.some_inj]

namespace ImportTable

theorem importsLibrary_iff {table : ImportTable} {library : String} :
    table.importsLibrary library = true ↔ ∃ entry ∈ table.entries, entry.names library = true :=
  List.any_eq_true

/-- What a listed name is read from: the import section, from the offset of the name on. -/
theorem nameBytes_of_mem {binary : BinaryView} {entry : ImportEntry}
    (listed : entry ∈ (ofView binary).entries) :
    ∃ bytes address, binary.bytesOf? sectionName = some bytes ∧
      binary.addressOf? sectionName = some address ∧
      binary.imageBase.toNat ≤ address.toNat ∧
      (ImportSection.mk (address.toNat - binary.imageBase.toNat) bytes).Covers
        entry.descriptor.nameRva.toNat ∧
      entry.nameBytes = bytes.drop
        (entry.descriptor.nameRva.toNat - (address.toNat - binary.imageBase.toNat)) := by
  cases stored : binary.bytesOf? sectionName with
  | none =>
      rw [ofView_of_missing (.inl stored)] at listed
      cases listed
  | some bytes =>
      cases placed : binary.addressOf? sectionName with
      | none =>
          rw [ofView_of_missing (.inr placed)] at listed
          cases listed
      | some address =>
          rw [ofView_of_found stored placed] at listed
          by_cases below : address.toNat < binary.imageBase.toNat
          · rw [if_pos below] at listed
            cases listed
          · rw [if_neg below] at listed
            refine ⟨bytes, address, rfl, rfl, Nat.not_lt.1 below, ?_⟩
            by_cases covered : (ImportSection.mk (address.toNat - binary.imageBase.toNat)
                bytes).Covers (binary.importTable.getD 0).toNat
            · obtain ⟨count, lists⟩ := ofSection_lists covered
              rw [lists.entries_eq] at listed
              obtain ⟨index, inside, rfl⟩ := List.mem_map.1 listed
              exact ⟨(lists.inside (List.mem_range.1 inside)).2, rfl⟩
            · rw [ofSection_of_outside covered] at listed
              cases listed

/--
Asking a binary for a library and listing its libraries agree.  A text without
a zero character is found exactly when some descriptor of the walk has a zero
byte behind its name inside the section and the bytes up to the first are those
of the text; if the text holds no replacement either, exactly when it is listed.
The bytes of a name are those of the section from its offset on.  No descriptor
is found under another text, be it a part, an extension or another spelling of
its name, and none whose name no zero byte ends is found at all.
-/
theorem importsLibrary_iff_listed (binary : BinaryView) {library : String}
    (clean : '\x00' ∉ library.toList) :
    ((ofView binary).importsLibrary library = true ↔
      ∃ entry ∈ (ofView binary).entries, (0 : UInt8) ∈ entry.nameBytes ∧
        entry.nameBytes.takeWhile (· != 0) = library.toUTF8.data.toList) ∧
    (Utf8.replacement ∉ library.toList →
      ((ofView binary).importsLibrary library = true ↔
        ∃ entry ∈ (ofView binary).entries, entry.name? = some library)) ∧
    ∀ entry ∈ (ofView binary).entries,
      (∃ bytes address, binary.bytesOf? sectionName = some bytes ∧
        binary.addressOf? sectionName = some address ∧
        binary.imageBase.toNat ≤ address.toNat ∧
        (ImportSection.mk (address.toNat - binary.imageBase.toNat) bytes).Covers
          entry.descriptor.nameRva.toNat ∧
        entry.nameBytes = bytes.drop
          (entry.descriptor.nameRva.toNat - (address.toNat - binary.imageBase.toNat))) ∧
      (∀ other : String, '\x00' ∉ other.toList → other ≠ library →
        entry.names library = true → entry.names other = false) ∧
      ((0 : UInt8) ∉ entry.nameBytes → entry.names library = false) := by
  refine ⟨?_, ?_, ?_⟩
  · rw [importsLibrary_iff, ← Utf8.encode_eq_toUTF8]
    simp only [ImportEntry.names_iff clean, Bytes.zeroTerminated?_eq_some_iff_takeWhile]
  · intro whole
    rw [importsLibrary_iff]
    simp only [ImportEntry.names_iff clean, ImportEntry.name?_eq_some_iff_encode whole]
  · intro entry listed
    refine ⟨nameBytes_of_mem listed, ?_, ?_⟩
    · intro other otherClean different found
      rw [Bool.eq_false_iff]
      intro otherFound
      exact different (ImportEntry.eq_of_names clean otherClean found otherFound)
    · intro unended
      rw [Bool.eq_false_iff, ne_eq, ImportEntry.names_iff clean,
        Bytes.zeroTerminated?_eq_some_iff_takeWhile]
      rintro ⟨ended, -⟩
      exact unended ended

/-- A binary with two names, of which the second one runs off the end of the section. -/
def accented : BinaryView where
  imageBase := 0x400000
  entryPoint := 0
  importTable := some 0x1000
  bytesOf? := fun _ => some (List.replicate 12 1 ++ [0x3C, 0x10, 0, 0, 1, 1, 1, 1] ++
    List.replicate 12 1 ++ [0x43, 0x10, 0, 0, 1, 1, 1, 1] ++ List.replicate 20 0 ++
    [0xC3, 0xA9, 0x2E, 0x64, 0x6C, 0x6C, 0] ++ [0x61, 0x2E, 0x64, 0x6C, 0x6C])
  addressOf? := fun _ => some 0x401000

theorem accented_importsLibrary :
    '\x00' ∉ "é.dll".toList ∧ Utf8.replacement ∉ "é.dll".toList ∧
      (ofView accented).importsLibrary "é.dll" = true ∧
      (∃ entry ∈ (ofView accented).entries, entry.name? = some "é.dll") ∧
      ∀ entry ∈ (ofView accented).entries, entry.names "é.dll" = true →
        entry.names "e.dll" = false := by
  obtain ⟨found, clean, whole⟩ : (ofView accented).importsLibrary "é.dll" = true ∧
      '\x00' ∉ "é.dll".toList ∧ Utf8.replacement ∉ "é.dll".toList := by
    decide +kernel
  obtain ⟨-, listed, alone⟩ := importsLibrary_iff_listed accented clean
  refine ⟨clean, whole, found, (listed whole).1 found, ?_⟩
  intro entry inside
  exact (alone entry inside).2.1 "e.dll" (by decide) (by decide)

end ImportTable

end NtTarget
