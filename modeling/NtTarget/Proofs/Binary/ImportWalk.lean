import NtTarget.Binary.ImportTable

/-!
# The walk over an import table

A table is the row of descriptors that follow each other from its start on.
The walk lists those in front of the first that ends it: the terminator, one
whose name lies outside the section, or one that the section does not hold
whole.  Nothing outside the section is ever looked at.
-/

namespace NtTarget

namespace ImportDescriptor

/-- The word that the four bytes at an offset name, least significant first. -/
def wordAt (data : Bytes) (offset : Nat) : UInt32 :=
  Word.ofBytes ((data.drop offset).take 4)

def wordsAt (data : Bytes) (offset : Nat) : ImportDescriptor where
  lookupTable := wordAt data offset
  timestamp := wordAt data (offset + 4)
  forwarderChain := wordAt data (offset + 8)
  nameRva := wordAt data (offset + 12)
  addressTable := wordAt data (offset + 16)

theorem at?_word (data : Bytes) (offset : Nat) :
    Word.at? UInt32 data offset =
      if offset + 4 ≤ data.length then some (wordAt data offset) else none :=
  Word.at?_eq_ite UInt32 data offset

theorem at?_eq_ite (data : Bytes) (offset : Nat) :
    at? data offset =
      if offset + size ≤ data.length then some (wordsAt data offset) else none := by
  unfold at? size
  rw [at?_word, at?_word, at?_word, at?_word, at?_word]
  by_cases fits : offset + 20 ≤ data.length
  · rw [if_pos fits, if_pos (by omega), if_pos (by omega), if_pos (by omega), if_pos (by omega),
      if_pos (by omega)]
    rfl
  · rw [if_neg fits, if_neg (by omega : ¬ offset + 16 + 4 ≤ data.length)]
    split
    · rename_i last
      cases last
    · rfl

end ImportDescriptor

namespace ImportSection

def Covers (imports : ImportSection) (rva : Nat) : Prop :=
  imports.rva ≤ rva ∧ rva < imports.rva + imports.bytes.length

/-- The descriptor of a given index in the table that starts at an offset. -/
def descriptorAt (imports : ImportSection) (start index : Nat) : ImportDescriptor :=
  .wordsAt imports.bytes (start + 20 * index)

/-- Whether the section holds the descriptor of a given index whole. -/
def Holds (imports : ImportSection) (start index : Nat) : Prop :=
  start + 20 * index + 20 ≤ imports.bytes.length

/-- Whether the table cannot be followed to a given index. -/
def StopsAt (imports : ImportSection) (start index : Nat) : Prop :=
  ¬ imports.Holds start index ∨ imports.descriptorAt start index = .terminator ∨
    ¬ imports.Covers (imports.descriptorAt start index).nameRva.toNat

/-- The entry of a given index: its descriptor and the section from its name on. -/
def entryAt (imports : ImportSection) (start index : Nat) : ImportEntry where
  descriptor := imports.descriptorAt start index
  nameBytes := imports.bytes.drop
    ((imports.descriptorAt start index).nameRva.toNat - imports.rva)

instance (imports : ImportSection) (start index : Nat) :
    Decidable (imports.Holds start index) :=
  inferInstanceAs (Decidable (_ ≤ _))

instance (imports : ImportSection) (rva : Nat) : Decidable (imports.Covers rva) :=
  inferInstanceAs (Decidable (_ ∧ _))

/-- What is wrong with a table that cannot be followed to a given index. -/
def warningsAt (imports : ImportSection) (start index : Nat) : List Warning :=
  if ¬ imports.Holds start index then [.importTableCut]
  else if imports.descriptorAt start index = .terminator then []
  else [.importNameOutside (imports.descriptorAt start index).nameRva]

theorem offsetOf?_eq_ite (imports : ImportSection) (rva : Nat) :
    imports.offsetOf? rva = if imports.Covers rva then some (rva - imports.rva) else none := by
  unfold offsetOf?
  by_cases covered : imports.Covers rva
  · obtain ⟨above, below⟩ := covered
    have inside : imports.rva ≤ rva ∧ rva - imports.rva < imports.bytes.length :=
      ⟨above, by omega⟩
    rw [if_pos inside, if_pos ⟨above, below⟩]
  · have outside : ¬ (imports.rva ≤ rva ∧ rva - imports.rva < imports.bytes.length) := by
      rintro ⟨above, below⟩
      exact covered ⟨above, by omega⟩
    rw [if_neg covered, if_neg outside]

/-- A descriptor that the walk reads is the one of its index. -/
theorem at?_eq_some_iff {imports : ImportSection} {start : Nat}
    {descriptor : ImportDescriptor} :
    ImportDescriptor.at? imports.bytes start = some descriptor ↔
      imports.Holds start 0 ∧ imports.descriptorAt start 0 = descriptor := by
  rw [ImportDescriptor.at?_eq_ite]
  unfold Holds descriptorAt ImportDescriptor.size
  simp

theorem descriptorAt_succ (imports : ImportSection) (start index : Nat) :
    imports.descriptorAt (start + ImportDescriptor.size) index =
      imports.descriptorAt start (index + 1) := by
  unfold descriptorAt ImportDescriptor.size
  rw [show start + 20 + 20 * index = start + 20 * (index + 1) by omega]

theorem holds_succ_iff (imports : ImportSection) (start index : Nat) :
    imports.Holds (start + ImportDescriptor.size) index ↔ imports.Holds start (index + 1) := by
  unfold Holds ImportDescriptor.size
  rw [show start + 20 + 20 * index = start + 20 * (index + 1) by omega]

theorem stopsAt_succ_iff (imports : ImportSection) (start index : Nat) :
    imports.StopsAt (start + ImportDescriptor.size) index ↔
      imports.StopsAt start (index + 1) := by
  unfold StopsAt
  rw [descriptorAt_succ, holds_succ_iff]

theorem warningsAt_succ (imports : ImportSection) (start index : Nat) :
    imports.warningsAt (start + ImportDescriptor.size) index =
      imports.warningsAt start (index + 1) := by
  unfold warningsAt
  simp only [descriptorAt_succ, holds_succ_iff]

theorem entryAt_succ (imports : ImportSection) (start index : Nat) :
    imports.entryAt (start + ImportDescriptor.size) index =
      imports.entryAt start (index + 1) := by
  unfold entryAt
  rw [descriptorAt_succ]

/--
The entries and warnings of the table at an offset, when it can be followed
up to a given index and no further.
-/
structure Lists (imports : ImportSection) (start count : Nat) (entries : List ImportEntry)
    (warnings : List Warning) : Prop where
  stops : imports.StopsAt start count
  follows : ∀ index < count, ¬ imports.StopsAt start index
  entries_eq : entries = (List.range count).map (imports.entryAt start)
  warnings_eq : warnings = imports.warningsAt start count

namespace Lists

variable {imports : ImportSection} {start count : Nat} {entries : List ImportEntry}
  {warnings : List Warning}

theorem stop (stops : imports.StopsAt start 0) (warned : imports.warningsAt start 0 = warnings) :
    imports.Lists start 0 [] warnings where
  stops := stops
  follows := by
    intro index below
    cases below
  entries_eq := rfl
  warnings_eq := warned.symm

/-- A descriptor that can be followed stands in front of the table behind it. -/
theorem cons (follows : ¬ imports.StopsAt start 0)
    (rest : imports.Lists (start + ImportDescriptor.size) count entries warnings) :
    imports.Lists start (count + 1) (imports.entryAt start 0 :: entries) warnings where
  stops := (stopsAt_succ_iff imports start count).1 rest.stops
  follows := by
    intro index below
    cases index with
    | zero => exact follows
    | succ index =>
        intro stops
        exact rest.follows index (by omega) ((stopsAt_succ_iff imports start index).2 stops)
  entries_eq := by
    rw [List.range_succ_eq_map, List.map_cons, List.map_map, rest.entries_eq]
    congr 1
    apply List.map_congr_left
    intro index _
    exact entryAt_succ imports start index
  warnings_eq := by
    rw [rest.warnings_eq, warningsAt_succ]

theorem inside (lists : imports.Lists start count entries warnings) {index : Nat}
    (below : index < count) :
    imports.Holds start index ∧
      imports.Covers (imports.descriptorAt start index).nameRva.toNat := by
  have follows := lists.follows index below
  constructor
  · apply Decidable.byContradiction
    intro cut
    exact follows (.inl cut)
  · apply Decidable.byContradiction
    intro uncovered
    exact follows (.inr (.inr uncovered))

theorem count_le (lists : imports.Lists start count entries warnings) :
    count ≤ (imports.bytes.length - start) / ImportDescriptor.size := by
  unfold ImportDescriptor.size
  cases count with
  | zero => exact Nat.zero_le _
  | succ last =>
      have held : start + 20 * last + 20 ≤ imports.bytes.length :=
        (lists.inside (Nat.lt_succ_self last)).1
      rw [Nat.le_div_iff_mul_le (by decide)]
      omega

/-- The three ways in which a table ends, and what is said about each. -/
theorem ends (lists : imports.Lists start count entries warnings) :
    (¬ imports.Holds start count ∧ warnings = [.importTableCut]) ∨
      (imports.Holds start count ∧ imports.descriptorAt start count = .terminator ∧
        warnings = []) ∨
      (imports.Holds start count ∧ imports.descriptorAt start count ≠ .terminator ∧
        ¬ imports.Covers (imports.descriptorAt start count).nameRva.toNat ∧
        warnings = [.importNameOutside (imports.descriptorAt start count).nameRva]) := by
  have warned := lists.warnings_eq
  unfold warningsAt at warned
  by_cases holds : imports.Holds start count
  · rw [if_neg (not_not_intro holds)] at warned
    by_cases zero : imports.descriptorAt start count = .terminator
    · rw [if_pos zero] at warned
      exact .inr (.inl ⟨holds, zero, warned⟩)
    · rw [if_neg zero] at warned
      have uncovered := (lists.stops.resolve_left (not_not_intro holds)).resolve_left zero
      exact .inr (.inr ⟨holds, zero, uncovered, warned⟩)
  · rw [if_pos holds] at warned
    exact .inl ⟨holds, warned⟩

end Lists

/-- The walk from an offset lists the table there. -/
theorem walkFrom_lists (imports : ImportSection) (start : Nat) :
    ∃ count, imports.Lists start count (imports.walkFrom start).entries
      (imports.walkFrom start).stop.warnings := by
  -- One case per way through the body; only the last goes on.
  fun_induction imports.walkFrom start with
  | case1 offset missing =>
      have cut : ¬ imports.Holds offset 0 := by
        intro holds
        have found := at?_eq_some_iff.2 ⟨holds, rfl⟩
        rw [missing] at found
        cases found
      exact ⟨0, .stop (.inl cut) (if_pos cut)⟩
  | case2 offset descriptor found ends =>
      obtain ⟨holds, rfl⟩ := at?_eq_some_iff.1 found
      have zero : imports.descriptorAt offset 0 = .terminator := beq_iff_eq.1 ends
      have silent : imports.warningsAt offset 0 = [] := by
        unfold warningsAt
        rw [if_neg (not_not_intro holds), if_pos zero]
      exact ⟨0, .stop (.inr (.inl zero)) silent⟩
  | case3 offset descriptor found continues outside =>
      obtain ⟨holds, rfl⟩ := at?_eq_some_iff.1 found
      have nonzero : imports.descriptorAt offset 0 ≠ .terminator := fun zero =>
        continues (beq_iff_eq.2 zero)
      have uncovered : ¬ imports.Covers (imports.descriptorAt offset 0).nameRva.toNat := by
        intro covered
        rw [offsetOf?_eq_ite, if_pos covered] at outside
        cases outside
      have warned : imports.warningsAt offset 0 =
          [.importNameOutside (imports.descriptorAt offset 0).nameRva] := by
        unfold warningsAt
        rw [if_neg (not_not_intro holds), if_neg nonzero]
      exact ⟨0, .stop (.inr (.inr uncovered)) warned⟩
  | case4 offset descriptor found continues nameOffset located inside rest ih =>
      obtain ⟨holds, rfl⟩ := at?_eq_some_iff.1 found
      obtain ⟨count, lists⟩ := ih
      rw [offsetOf?_eq_ite] at located
      obtain ⟨covered, placed⟩ := Option.ite_none_right_eq_some.1 located
      have follows : ¬ imports.StopsAt offset 0 := by
        rintro (cut | zero | uncovered)
        · exact cut holds
        · exact continues (beq_iff_eq.2 zero)
        · exact uncovered covered
      cases placed
      exact ⟨count + 1, .cons follows lists⟩

end ImportSection

namespace ImportEntry

theorem name?_eq_some_iff {entry : ImportEntry} {name : String} :
    entry.name? = some name ↔ ∃ text rest, entry.nameBytes = text ++ 0 :: rest ∧
      (0 : UInt8) ∉ text ∧ Utf8.decode text = name := by
  unfold name?
  rw [Option.map_eq_some_iff]
  constructor
  · rintro ⟨text, found, decoded⟩
    obtain ⟨rest, stored, clean⟩ := Bytes.zeroTerminated?_eq_some_iff.1 found
    exact ⟨text, rest, stored, clean, decoded⟩
  · rintro ⟨text, rest, stored, clean, decoded⟩
    exact ⟨text, Bytes.zeroTerminated?_eq_some_iff.2 ⟨rest, stored, clean⟩, decoded⟩

theorem name?_eq_none_iff {entry : ImportEntry} :
    entry.name? = none ↔ (0 : UInt8) ∉ entry.nameBytes := by
  unfold name? Bytes.zeroTerminated?
  simp

end ImportEntry

namespace ImportTable

variable {binary : BinaryView} {bytes : Bytes} {address : UInt64}

theorem ofView_of_missing
    (missing : binary.bytesOf? sectionName = none ∨ binary.addressOf? sectionName = none) :
    ofView binary = empty := by
  unfold ofView
  split
  · rename_i stored placed
    rw [stored, placed] at missing
    obtain no | no := missing <;> cases no
  · rfl

theorem ofView_of_found (stored : binary.bytesOf? sectionName = some bytes)
    (placed : binary.addressOf? sectionName = some address) :
    ofView binary =
      if address.toNat < binary.imageBase.toNat then
        ⟨[], [.importsBelowBase address binary.imageBase]⟩
      else
        ofSection ⟨address.toNat - binary.imageBase.toNat, bytes⟩
          (binary.importTable.getD 0) := by
  unfold ofView
  rw [stored, placed]

theorem ofSection_of_outside {imports : ImportSection} {table : UInt64}
    (uncovered : ¬ imports.Covers table.toNat) :
    ofSection imports table = ⟨[], [.importTableOutside table]⟩ := by
  unfold ofSection
  rw [ImportSection.offsetOf?_eq_ite, if_neg uncovered]

theorem ofSection_lists {imports : ImportSection} {table : UInt64}
    (covered : imports.Covers table.toNat) :
    ∃ count, imports.Lists (table.toNat - imports.rva) count (ofSection imports table).entries
      (ofSection imports table).warnings := by
  unfold ofSection
  rw [ImportSection.offsetOf?_eq_ite, if_pos covered]
  exact imports.walkFrom_lists _

/-- Binaries whose import sections lie equally far from their bases have the same table. -/
theorem ofView_congr {other : BinaryView} {otherAddress : UInt64}
    (stored : binary.bytesOf? sectionName = some bytes)
    (placed : binary.addressOf? sectionName = some address)
    (otherStored : other.bytesOf? sectionName = some bytes)
    (otherPlaced : other.addressOf? sectionName = some otherAddress)
    (tables : other.importTable = binary.importTable)
    (apart : otherAddress.toNat + binary.imageBase.toNat =
      address.toNat + other.imageBase.toNat) :
    (ofView other).entries = (ofView binary).entries ∧
      (ofView other).warnings.length = (ofView binary).warnings.length ∧
      (binary.imageBase.toNat ≤ address.toNat → ofView other = ofView binary) := by
  rw [ofView_of_found stored placed, ofView_of_found otherStored otherPlaced, tables]
  by_cases below : address.toNat < binary.imageBase.toNat
  · rw [if_pos below, if_pos (by omega)]
    exact ⟨rfl, rfl, fun above => absurd below (Nat.not_lt.2 above)⟩
  · have near : otherAddress.toNat - other.imageBase.toNat =
        address.toNat - binary.imageBase.toNat := by
      omega
    rw [if_neg below, if_neg (by omega), near]
    exact ⟨rfl, rfl, fun _ => rfl⟩

/--
The table of a binary is decided by its import bytes, its table address and
how far the section lies above the image base.  Where all of these fit
together it lists the descriptors in front of the first that ends the table,
and it says nothing only about a table that a terminator ends.
-/
theorem ofView_lists_descriptors (binary : BinaryView) :
    (binary.bytesOf? sectionName = none ∨ binary.addressOf? sectionName = none →
      ofView binary = empty) ∧
    ∀ bytes address, binary.bytesOf? sectionName = some bytes →
      binary.addressOf? sectionName = some address →
      let imports : ImportSection := ⟨address.toNat - binary.imageBase.toNat, bytes⟩
      let table := binary.importTable.getD 0
      let start := table.toNat - imports.rva
      (address.toNat < binary.imageBase.toNat →
        ofView binary = ⟨[], [.importsBelowBase address binary.imageBase]⟩) ∧
      (binary.imageBase.toNat ≤ address.toNat → ¬ imports.Covers table.toNat →
        ofView binary = ⟨[], [.importTableOutside table]⟩) ∧
      (binary.imageBase.toNat ≤ address.toNat → imports.Covers table.toNat →
        ∃ count, count ≤ (bytes.length - start) / ImportDescriptor.size ∧
          imports.Lists start count (ofView binary).entries (ofView binary).warnings ∧
          (∀ index < count, imports.Holds start index ∧
            imports.Covers (imports.descriptorAt start index).nameRva.toNat ∧
            (∀ name, (imports.entryAt start index).name? = some name ↔
              ∃ text rest,
                bytes.drop ((imports.descriptorAt start index).nameRva.toNat - imports.rva) =
                    text ++ 0 :: rest ∧
                  (0 : UInt8) ∉ text ∧ Utf8.decode text = name) ∧
            ((imports.entryAt start index).name? = none ↔ (0 : UInt8) ∉
              bytes.drop ((imports.descriptorAt start index).nameRva.toNat - imports.rva))) ∧
          ((¬ imports.Holds start count ∧ (ofView binary).warnings = [.importTableCut]) ∨
            (imports.Holds start count ∧ imports.descriptorAt start count = .terminator ∧
              (ofView binary).warnings = []) ∨
            (imports.Holds start count ∧ imports.descriptorAt start count ≠ .terminator ∧
              ¬ imports.Covers (imports.descriptorAt start count).nameRva.toNat ∧
              (ofView binary).warnings =
                [.importNameOutside (imports.descriptorAt start count).nameRva]))) ∧
      (∀ other otherAddress, other.bytesOf? sectionName = some bytes →
        other.addressOf? sectionName = some otherAddress →
        other.importTable = binary.importTable →
        otherAddress.toNat + binary.imageBase.toNat =
          address.toNat + other.imageBase.toNat →
        (ofView other).entries = (ofView binary).entries ∧
          (ofView other).warnings.length = (ofView binary).warnings.length ∧
          (binary.imageBase.toNat ≤ address.toNat → ofView other = ofView binary)) := by
  refine ⟨ofView_of_missing, ?_⟩
  intro bytes address stored placed imports table start
  have found := ofView_of_found stored placed
  refine ⟨?_, ?_, ?_, ?_⟩
  · intro below
    rw [found, if_pos below]
  · intro above uncovered
    rw [found, if_neg (Nat.not_lt.2 above)]
    exact ofSection_of_outside uncovered
  · intro above covered
    rw [if_neg (Nat.not_lt.2 above)] at found
    obtain ⟨count, lists⟩ := ofSection_lists covered
    rw [← found] at lists
    refine ⟨count, lists.count_le, lists, ?_, lists.ends⟩
    intro index below
    obtain ⟨held, named⟩ := lists.inside below
    exact ⟨held, named, fun name => ImportEntry.name?_eq_some_iff, ImportEntry.name?_eq_none_iff⟩
  · intro other otherAddress otherStored otherPlaced tables apart
    exact ofView_congr stored placed otherStored otherPlaced tables apart

/-- A binary whose one name is stored in the timestamp of its own descriptor. -/
def selfNamed : BinaryView where
  imageBase := 0x400000
  entryPoint := 0
  importTable := some 0x1000
  bytesOf? := fun _ => some ([1, 0, 0, 0, 65, 66, 0, 0, 0, 0, 0, 0, 4, 16, 0, 0] ++
    List.replicate 24 0)
  addressOf? := fun _ => some 0x401000

example : (ofView selfNamed).entries.map ImportEntry.name? = [some "AB"] := by
  decide +kernel

end ImportTable

end NtTarget
