import NtTarget.Proofs.Dump.Discovery

/-!
# What an indexed module name spells

A full name writes the address behind the lead, then the size, the timestamp
and the version, each behind its key and each optional.  A key is looked for in
the whole name, so a field can be taken from another one: the numbers in front
of a version hold no key, but the version is any text.  A size or a timestamp
that the name leaves out is therefore read from the version, if its key stands
there in front of a number.
-/

namespace NtTarget

namespace Scan

@[simp] theorem afterFirst?_append (key tail : List Char) :
    afterFirst? key (key ++ tail) = some tail :=
  afterFirst?_eq_some_iff.2 ⟨[], rfl, fun _ _ _ => Nat.zero_le _⟩

variable {mark : Char} {key : List Char}

/-- A key that does not stand here is looked for one character later. -/
theorem afterFirst?_cons {c : Char} {rest : List Char}
    (notHere : ∀ tail, c :: rest ≠ key ++ tail) :
    afterFirst? key (c :: rest) = afterFirst? key rest := by
  rw [afterFirst?, afterLead?_eq_none_iff.2 notHere]

theorem afterFirst?_cons_of_ne {c : Char} (other : c ≠ mark) (rest : List Char) :
    afterFirst? (mark :: key) (c :: rest) = afterFirst? (mark :: key) rest := by
  apply afterFirst?_cons
  intro tail same
  exact other (List.cons.inj same).1

/-- A key cannot begin in a text without its first character. -/
theorem afterFirst?_append_of_notMem {front : List Char} (clean : mark ∉ front)
    (back : List Char) :
    afterFirst? (mark :: key) (front ++ back) = afterFirst? (mark :: key) back := by
  induction front with
  | nil => rfl
  | cons c rest ih =>
      have other : c ≠ mark := fun same => clean (same ▸ List.mem_cons_self)
      have cleanRest : mark ∉ rest := fun later => clean (List.mem_cons_of_mem c later)
      rw [List.cons_append, afterFirst?_cons_of_ne other, ih cleanRest]

end Scan

namespace IndexedName

/-! ## Keys -/

/-- The key of the field with a given letter. -/
def fieldKey (letter : Char) : List Char :=
  [';', letter, '=']

theorem toList_sizeKey : sizeKey.toList = fieldKey 's' := rfl

theorem toList_timestampKey : timestampKey.toList = fieldKey 't' := rfl

theorem toList_versionKey : versionKey.toList = fieldKey 'v' := rfl

/-- The number behind the first place of a key in a list of characters. -/
def fieldOf? (key text : List Char) : Option UInt32 :=
  ((Scan.afterFirst? key text).bind (leadingBelow? UInt32.size)).map UInt32.ofNat

theorem field?_eq_fieldOf? (name key : String) :
    field? name key = fieldOf? key.toList name.toList := rfl

/-- A scan for one key passes over another. -/
theorem afterFirst?_fieldKey_of_ne {letter other : Char} (unmarked : letter ≠ ';')
    (differs : letter ≠ other) (back : List Char) :
    Scan.afterFirst? (fieldKey other) (fieldKey letter ++ back) =
      Scan.afterFirst? (fieldKey other) back := by
  have notHere : ∀ tail, fieldKey letter ++ back ≠ fieldKey other ++ tail := by
    intro tail same
    have behind := (List.cons.inj same).2
    exact differs (List.cons.inj behind).1
  calc Scan.afterFirst? (fieldKey other) (fieldKey letter ++ back)
      = Scan.afterFirst? (fieldKey other) ([letter, '='] ++ back) :=
        Scan.afterFirst?_cons notHere
    _ = Scan.afterFirst? (fieldKey other) back :=
        Scan.afterFirst?_append_of_notMem (by simp [unmarked.symm]) back

/-! ## Parts of a name -/

/-- A field as it stands in a name: its key and its number, or nothing at all. -/
inductive SpellsField (letter : Char) : Option UInt32 → List Char → Prop where
  | absent : SpellsField letter none []
  | given {number : UInt32} {run : List Char} (writes : Hex.Writes run number.toNat) :
      SpellsField letter (some number) (fieldKey letter ++ run)

/-- The version as it stands in a name, which it ends. -/
def versionPart : Option String → List Char
  | none => []
  | some version => fieldKey 'v' ++ version.toList

/-- A full name: the lead, the address, and those fields that the module has. -/
inductive Spells (module : IndexedName) : List Char → Prop where
  | intro {address size timestamp : List Char}
      (addressed : Hex.Writes address module.address.toNat)
      (sized : SpellsField 's' module.size size)
      (stamped : SpellsField 't' module.timestamp timestamp) :
      Spells module (sectionLead.toList ++
        (address ++ (size ++ (timestamp ++ versionPart module.version))))

/-- What may follow a number in a full name: nothing, or another key. -/
def StartsField (text : List Char) : Prop :=
  ∀ c ∈ text.head?, c = ';'

theorem startsField_versionPart (version : Option String) :
    StartsField (versionPart version) := by
  cases version with
  | none => exact nofun
  | some version =>
      intro c first
      exact (Option.some.inj first).symm

theorem StartsField.maximal {text : List Char} (starts : StartsField text) :
    ∀ c ∈ text.head?, Hex.isDigit c = false := by
  intro c first
  rw [starts c first]
  decide

/-- A number that nothing continues is the one that is read. -/
theorem leadingBelow?_of_writes {limit number : Nat} {run back : List Char}
    (writes : Hex.Writes run number) (below : number < limit)
    (maximal : ∀ c ∈ back.head?, Hex.isDigit c = false) :
    leadingBelow? limit (run ++ back) = some number :=
  leadingBelow?_eq_some_iff.2
    ⟨below, run, back, rfl, writes.nonempty, writes.digits, maximal, writes.reads⟩

section Part

variable {letter : Char} {value : Option UInt32} {part : List Char}

theorem SpellsField.startsField (spells : SpellsField letter value part) {back : List Char}
    (starts : StartsField back) : StartsField (part ++ back) := by
  cases spells with
  | absent => exact starts
  | given writes =>
      intro c first
      exact (Option.some.inj first).symm

/-- A field that is given is read, whatever follows it; for another one the scan goes on. -/
theorem fieldOf?_own (spells : SpellsField letter value part) {back : List Char}
    (starts : StartsField back) :
    fieldOf? (fieldKey letter) (part ++ back) =
      value.or (fieldOf? (fieldKey letter) back) := by
  cases spells with
  | absent => rfl
  | @given number run writes =>
      unfold fieldOf?
      rw [List.append_assoc, Scan.afterFirst?_append, Option.bind_some,
        leadingBelow?_of_writes writes number.toNat_lt starts.maximal, Option.map_some,
        UInt32.ofNat_toNat]
      rfl

/-- No other field is found in a field. -/
theorem afterFirst?_other (spells : SpellsField letter value part) {other : Char}
    (unmarked : letter ≠ ';') (differs : letter ≠ other) (back : List Char) :
    Scan.afterFirst? (fieldKey other) (part ++ back) =
      Scan.afterFirst? (fieldKey other) back := by
  cases spells with
  | absent => rfl
  | given writes =>
      rw [List.append_assoc, afterFirst?_fieldKey_of_ne unmarked differs]
      exact Scan.afterFirst?_append_of_notMem (writes.notMem (by decide)) back

end Part

/-- A version holds what is read of another field behind its key. -/
theorem fieldOf?_versionPart {letter : Char} (differs : 'v' ≠ letter) (version : Option String) :
    fieldOf? (fieldKey letter) (versionPart version) =
      version.bind fun text => fieldOf? (fieldKey letter) text.toList := by
  cases version with
  | none => rfl
  | some text =>
      unfold fieldOf? versionPart
      rw [afterFirst?_fieldKey_of_ne (by decide) differs]
      rfl

theorem afterFirst?_versionPart (version : Option String) :
    (Scan.afterFirst? (fieldKey 'v') (versionPart version)).map String.ofList = version := by
  cases version with
  | none => rfl
  | some text =>
      rw [versionPart, Scan.afterFirst?_append, Option.map_some, String.ofList_toList]

/-! ## Reading a full name -/

/--
What is read of a field: the number that is given; without one, the number that
the version holds behind the first place of the key; and otherwise nothing.
-/
inductive ReadsField (key : String) (version : Option String) :
    Option UInt32 → Option UInt32 → Prop where
  | given (number : UInt32) : ReadsField key version (some number) (some number)
  | borrowed {text : String} {number : UInt32} {before run tail : List Char}
      (shown : version = some text) (has : HasField text key number before run tail) :
      ReadsField key version none (some number)
  | missing (hasNone : ∀ text number before run tail, version = some text →
      ¬ HasField text key number before run tail) : ReadsField key version none none

theorem readsField_or (key : String) (version : Option String) (value : Option UInt32) :
    ReadsField key version value (value.or (version.bind fun text => field? text key)) := by
  cases value with
  | some number => exact .given number
  | none =>
      rw [Option.none_or]
      cases held : version.bind fun text => field? text key with
      | some number =>
          obtain ⟨text, shown, found⟩ := Option.bind_eq_some_iff.1 held
          obtain ⟨before, run, tail, has⟩ := field?_eq_some_iff.1 found
          exact .borrowed shown has
      | none =>
          refine .missing ?_
          rintro text number before run tail rfl has
          rw [Option.bind_some, field?_eq_some_iff.2 ⟨before, run, tail, has⟩] at held
          cases held

/-- The fields that are read from a full name. -/
theorem parse?_of_spells {name : String} {module : IndexedName}
    (spells : Spells module name.toList) :
    parse? name = some { module with
      size := module.size.or (module.version.bind fun text => field? text sizeKey)
      timestamp :=
        module.timestamp.or (module.version.bind fun text => field? text timestampKey) } := by
  generalize whole : name.toList = letters at spells
  obtain @⟨address, size, timestamp, addressed, sized, stamped⟩ := spells
  have versioned := startsField_versionPart module.version
  have behindSize := stamped.startsField versioned
  have behindAddress := sized.startsField behindSize
  -- No key begins in the lead or in the address.
  have skipped : ∀ letter : Char, Scan.afterFirst? (fieldKey letter) name.toList =
      Scan.afterFirst? (fieldKey letter)
        (size ++ (timestamp ++ versionPart module.version)) := by
    intro letter
    unfold fieldKey
    rw [whole, Scan.afterFirst?_append_of_notMem (by decide),
      Scan.afterFirst?_append_of_notMem (addressed.notMem (by decide))]
  have sizeRead : field? name sizeKey =
      module.size.or (module.version.bind fun text => field? text sizeKey) := by
    calc field? name sizeKey
        = fieldOf? (fieldKey 's') (size ++ (timestamp ++ versionPart module.version)) := by
          rw [field?_eq_fieldOf?, toList_sizeKey]
          unfold fieldOf?
          rw [skipped]
      _ = module.size.or (fieldOf? (fieldKey 's') (timestamp ++ versionPart module.version)) :=
          fieldOf?_own sized behindSize
      _ = module.size.or (fieldOf? (fieldKey 's') (versionPart module.version)) := by
          unfold fieldOf?
          rw [afterFirst?_other stamped (by decide) (by decide)]
      _ = module.size.or (module.version.bind fun text => field? text sizeKey) := by
          rw [fieldOf?_versionPart (by decide)]
          rfl
  have timestampRead : field? name timestampKey =
      module.timestamp.or (module.version.bind fun text => field? text timestampKey) := by
    calc field? name timestampKey
        = fieldOf? (fieldKey 't') (timestamp ++ versionPart module.version) := by
          rw [field?_eq_fieldOf?, toList_timestampKey]
          unfold fieldOf?
          rw [skipped, afterFirst?_other sized (by decide) (by decide)]
      _ = module.timestamp.or (fieldOf? (fieldKey 't') (versionPart module.version)) :=
          fieldOf?_own stamped versioned
      _ = module.timestamp.or
            (module.version.bind fun text => field? text timestampKey) := by
          rw [fieldOf?_versionPart (by decide)]
          rfl
  have versionRead :
      (Scan.afterFirst? versionKey.toList name.toList).map String.ofList = module.version := by
    rw [toList_versionKey, skipped, afterFirst?_other sized (by decide) (by decide),
      afterFirst?_other stamped (by decide) (by decide), afterFirst?_versionPart]
  have addressRead : (Scan.afterLead? sectionLead.toList name.toList).bind
      (leadingBelow? UInt64.size) = some module.address.toNat := by
    rw [whole, Scan.afterLead?_append, Option.bind_some]
    exact leadingBelow?_of_writes addressed module.address.toNat_lt behindAddress.maximal
  unfold parse?
  rw [addressRead, Option.map_some, sizeRead, timestampRead, versionRead, UInt64.ofNat_toNat]

/-! ## Companion sections -/

theorem toList_buildIdSection (module : IndexedName) :
    module.buildIdSection.toList = buildIdLead.toList ++ Hex.digits module.address.toNat := by
  unfold buildIdSection Hex.text
  rw [String.toList_append, String.toList_ofList]

/-- Two modules share a companion section exactly when they are loaded at one address. -/
theorem buildIdSection_eq_iff {left right : IndexedName} :
    left.buildIdSection = right.buildIdSection ↔ left.address = right.address := by
  constructor
  · intro same
    have letters := congrArg String.toList same
    rw [toList_buildIdSection, toList_buildIdSection] at letters
    have numbers := congrArg Hex.value (List.append_cancel_left letters)
    rw [Hex.value_digits, Hex.value_digits] at numbers
    exact UInt64.toNat_inj.1 numbers
  · intro same
    unfold buildIdSection
    rw [same]

/--
A name is read exactly when a number of 64 bits follows the lead, which is the
address.  A full name reads back: its address, its version, whatever text that
is, and its size and timestamp, which alone can come from the version when they
are left out.  The companion section of a module is named by its address, whose
plain form reads back, so two modules share one exactly when they share the
address.
-/
theorem parse?_reads_spelled_names :
    (∀ name address, (parse? name).map (·.address) = some address ↔
      ∃ run tail number, name.toList = sectionLead.toList ++ (run ++ tail) ∧
        Hex.Writes run number ∧ (∀ c ∈ tail.head?, Hex.isDigit c = false) ∧
        number < 2 ^ 64 ∧ UInt64.ofNat number = address) ∧
    (∀ name module, Spells module name.toList → ∃ read, parse? name = some read ∧
      read.address = module.address ∧ read.version = module.version ∧
      ReadsField sizeKey module.version module.size read.size ∧
      ReadsField timestampKey module.version module.timestamp read.timestamp) ∧
    (∀ name module, parse? name = some module → ∃ run,
      module.buildIdSection.toList = buildIdLead.toList ++ run ∧
      Hex.IsPlain run module.address.toNat ∧ Hex.leading? run = some module.address.toNat) ∧
    ∀ name other module companion, parse? name = some module → parse? other = some companion →
      (module.buildIdSection = companion.buildIdSection ↔ module.address = companion.address) := by
  refine ⟨?_, ?_, ?_, ?_⟩
  · intro name address
    rw [map_address_parse?_eq_some_iff]
    constructor
    · rintro ⟨run, tail, named, nonempty, digits, maximal, below, rfl⟩
      exact ⟨run, tail, _, named, ⟨nonempty, digits, rfl⟩, maximal, below, rfl⟩
    · rintro ⟨run, tail, number, named, ⟨nonempty, digits, rfl⟩, maximal, below, rfl⟩
      exact ⟨run, tail, named, nonempty, digits, maximal, below, rfl⟩
  · intro name module spells
    exact ⟨_, parse?_of_spells spells, rfl, rfl, readsField_or _ _ _, readsField_or _ _ _⟩
  · intro name module _
    have plain := Hex.isPlain_digits module.address.toNat
    have writes := Hex.writes_digits module.address.toNat
    refine ⟨_, toList_buildIdSection module, plain, ?_⟩
    rw [Hex.leading?_eq_some_iff]
    exact ⟨_, [], (List.append_nil _).symm, writes.nonempty, writes.digits, nofun, writes.reads⟩
  · intro name other module companion _ _
    exact buildIdSection_eq_iff

/-- A module whose version holds the keys of all three fields. -/
def keyedVersion : IndexedName where
  address := 0x7FFA0000
  size := none
  timestamp := some 0x5F
  version := some "1;t=60;s=2d;v=3"

/-- The size that is left out is taken from the version, the timestamp that is given is not. -/
theorem keyedVersion_reads :
    Spells keyedVersion ".coremodule/00007ffA0000;t=5F;v=1;t=60;s=2d;v=3".toList ∧
      parse? ".coremodule/00007ffA0000;t=5F;v=1;t=60;s=2d;v=3" =
        some { keyedVersion with size := some 0x2D } ∧
      ∃ read, parse? ".coremodule/00007ffA0000;t=5F;v=1;t=60;s=2d;v=3" = some read ∧
        read.version = keyedVersion.version ∧
        ReadsField sizeKey keyedVersion.version none read.size := by
  have address : Hex.Writes "00007ffA0000".toList keyedVersion.address.toNat :=
    ⟨by decide, List.all_eq_true.1 (by decide), by decide⟩
  have timestamp : Hex.Writes "5F".toList (0x5F : UInt32).toNat :=
    ⟨by decide, List.all_eq_true.1 (by decide), by decide⟩
  have letters : ".coremodule/00007ffA0000;t=5F;v=1;t=60;s=2d;v=3".toList =
      sectionLead.toList ++ ("00007ffA0000".toList ++
        ([] ++ ((fieldKey 't' ++ "5F".toList) ++ versionPart keyedVersion.version))) := by
    decide +kernel
  have spells : Spells keyedVersion ".coremodule/00007ffA0000;t=5F;v=1;t=60;s=2d;v=3".toList := by
    rw [letters]
    exact .intro address .absent (.given timestamp)
  obtain ⟨read, parsed, -, version, size, -⟩ := parse?_reads_spelled_names.2.1 _ _ spells
  exact ⟨spells, by decide +kernel, read, parsed, version, size⟩

end IndexedName

end NtTarget
