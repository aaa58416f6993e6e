import Mathlib.Algebra.Group.Nat.Defs
import Mathlib.Logic.Basic
import NtTarget.Binary.LoadAddress

/-!
# What an executable resolves to

The load address has two sources.  An executing target gives it at the end of a
chain of two pointers, every hop of which can fail; a dump gives it in the first
bytes of one section.  The target is asked first, and an address of 0 counts as
no answer.  Only a known address moves symbols, by the distance that takes the
linked base to it modulo the size of the address space, and only an executing
target has an entry point, wherever its load address was found.
-/

namespace NtTarget

/-- The symbols of an executable: whether they are loaded, and how they are shifted. -/
structure SymbolStore (σ : Type) where
  loaded : σ → Bool
  shift : UInt64 → σ → σ

/--
What becomes of symbols when an executable that was linked at one address is
loaded at another: one shift by the distance between them, or nothing.
-/
inductive SymbolStore.Follows {σ : Type} (symbols : SymbolStore σ) (linked base : UInt64)
    (state : σ) : σ → Prop where
  | shifted {distance : UInt64} (known : base ≠ 0) (loaded : symbols.loaded state = true)
      (moved : linked ≠ base) (place : (linked.toNat + distance.toNat) % 2 ^ 64 = base.toNat) :
      Follows symbols linked base state (symbols.shift distance state)
  | kept (why : base = 0 ∨ symbols.loaded state = false ∨ linked = base) :
      Follows symbols linked base state state

namespace Chain

/--
A pointer that memory answers at an address: the first bytes of the answer, the
least significant one first.  The address wraps around.
-/
def AnswersPointer (chain : Chain) (address : Nat) (pointer : UInt64) : Prop :=
  ∃ bytes, chain.memory.read (UInt64.ofNat address) chain.width.bytes = .ok bytes ∧
    chain.width.bytes ≤ bytes.length ∧
    pointer.toNat = LittleEndian.value (bytes.take chain.width.bytes)

/-- An executing target records a load address, and the whole chain to it can be read. -/
structure RecordsBase (chain : Chain) (thread base : UInt64) : Prop where
  executing : chain.memory.executing = true
  known : base ≠ 0
  chained : ∃ block process, chain.memory.threadBase thread = .ok block ∧
    chain.AnswersPointer (block.toNat + chain.layout.processBlock.toNat) process ∧
    chain.AnswersPointer (process.toNat + chain.layout.imageBase.toNat) base

end Chain

/-- A dump stores a load address in the first eight bytes of its first section of that name. -/
def SectionList.StoresBase (sections : SectionList) (base : UInt64) : Prop :=
  ∃ before stored after, sections = before ++ ⟨".corebase", stored⟩ :: after ∧
    (∀ entry ∈ before, entry.name ≠ ".corebase") ∧ 8 ≤ stored.length ∧
    base.toNat = LittleEndian.value (stored.take 8)

namespace Chain

/-- Where an executable is loaded: the target is asked first, then the dump. -/
inductive LoadedAt (chain : Chain) (thread : UInt64) (dump : Option SectionList) :
    UInt64 → Prop where
  | recorded {base : UInt64} (records : chain.RecordsBase thread base) :
      LoadedAt chain thread dump base
  | stored {base : UInt64} {sections : SectionList}
      (silent : ∀ other, ¬ chain.RecordsBase thread other) (attached : dump = some sections)
      (stores : sections.StoresBase base) : LoadedAt chain thread dump base
  | unknown (silent : ∀ other, ¬ chain.RecordsBase thread other)
      (nothing : ∀ sections, dump = some sections → ∀ other, ¬ sections.StoresBase other) :
      LoadedAt chain thread dump 0

/-- What an executable resolves to, and which shift its symbols are asked for. -/
structure Resolves (chain : Chain) (thread : UInt64) (dump : Option SectionList)
    (binary : BinaryView) (symbolsLoaded : Bool) (resolution : Resolution) : Prop where
  base : chain.LoadedAt thread dump resolution.executable.base
  unresolved : resolution.executable.base = 0 →
    resolution.executable.entry = none ∧ resolution.shift = none
  entry : resolution.executable.base ≠ 0 → ∀ entry,
    resolution.executable.entry = some entry ↔
      chain.memory.executing = true ∧
        entry.toNat = (resolution.executable.base.toNat + binary.entryPoint.toNat) % 2 ^ 64
  shift : resolution.executable.base ≠ 0 → ∀ distance,
    resolution.shift = some distance ↔
      symbolsLoaded = true ∧ binary.imageBase ≠ resolution.executable.base ∧
        (binary.imageBase.toNat + distance.toNat) % 2 ^ 64 = resolution.executable.base.toNat

/-- Resolve the executable, and shift its symbols when that is asked for. -/
def resolveWith {σ : Type} (symbols : SymbolStore σ) (chain : Chain) (thread : UInt64)
    (dump : Option SectionList) (binary : BinaryView) (state : σ) : ExecutableEntry × σ :=
  let resolution := chain.resolve thread dump binary (symbols.loaded state)
  (resolution.executable, resolution.shift.elim state fun distance => symbols.shift distance state)

end Chain

/-! ## The two sources -/

theorem PointerWidth.pointerAt?_eq_some_iff {width : PointerWidth} {bytes : Bytes}
    {pointer : UInt64} :
    width.pointerAt? bytes 0 = some pointer ↔
      width.bytes ≤ bytes.length ∧ pointer.toNat = LittleEndian.value (bytes.take width.bytes) := by
  unfold pointerAt?
  rw [Option.map_eq_some_iff]
  constructor
  · rintro ⟨stored, found, rfl⟩
    have size := Bytes.length_of_slice? found
    obtain ⟨long, rfl⟩ := Bytes.slice?_eq_some_iff.1 found
    exact ⟨Nat.zero_add width.bytes ▸ long, toNat_addressOf size⟩
  · rintro ⟨long, value⟩
    refine ⟨bytes.take width.bytes, ?_, UInt64.toNat_inj.1 ?_⟩
    · exact Bytes.slice?_eq_some_iff.2 ⟨(Nat.zero_add width.bytes).symm ▸ long, rfl⟩
    · rw [value, toNat_addressOf (List.length_take_of_le long)]

/-- The load address of a dump is a wide pointer at the start of its section. -/
theorem SectionList.loadAddress?_eq_some_iff {sections : SectionList} {base : UInt64} :
    sections.loadAddress? = some base ↔ sections.StoresBase base := by
  have read : ∀ stored : Bytes, Word.at? UInt64 stored 0 = some base ↔
      8 ≤ stored.length ∧ base.toNat = LittleEndian.value (stored.take 8) :=
    fun stored => @PointerWidth.pointerAt?_eq_some_iff .bits64 stored base
  unfold loadAddress? StoresBase
  rw [Option.bind_eq_some_iff]
  constructor
  · rintro ⟨stored, found, value⟩
    obtain ⟨before, after, whole, first⟩ := bytesOf?_eq_some_iff.1 found
    exact ⟨before, stored, after, whole, first, (read stored).1 value⟩
  · rintro ⟨before, stored, after, whole, first, value⟩
    exact ⟨stored, bytesOf?_eq_some_iff.2 ⟨before, after, whole, first⟩, (read stored).2 value⟩

namespace Chain

variable {chain : Chain} {thread base : UInt64} {dump : Option SectionList}

theorem pointerAt_eq_ok_iff_answersPointer {block offset pointer : UInt64} :
    chain.pointerAt (block + offset) = .ok pointer ↔
      chain.AnswersPointer (block.toNat + offset.toNat) pointer := by
  have wraps : UInt64.ofNat (block.toNat + offset.toNat) = block + offset := by
    rw [UInt64.ofNat_add, UInt64.ofNat_toNat, UInt64.ofNat_toNat]
  unfold AnswersPointer
  rw [pointerAt_eq_ok_iff, wraps]
  exact exists_congr fun bytes => and_congr_right fun _ => PointerWidth.pointerAt?_eq_some_iff

theorem imageBase_eq_ok_iff :
    chain.imageBase thread = .ok base ↔
      ∃ block process, chain.memory.threadBase thread = .ok block ∧
        chain.AnswersPointer (block.toNat + chain.layout.processBlock.toNat) process ∧
        chain.AnswersPointer (process.toNat + chain.layout.imageBase.toNat) base := by
  unfold imageBase processBlock
  constructor
  · intro found
    obtain ⟨process, reached, recorded⟩ := Fault.bind_eq_ok_iff.1 found
    obtain ⟨block, known, pointed⟩ := Fault.bind_eq_ok_iff.1 reached
    exact ⟨block, process, known, pointerAt_eq_ok_iff_answersPointer.1 pointed,
      pointerAt_eq_ok_iff_answersPointer.1 recorded⟩
  · rintro ⟨block, process, known, pointed, recorded⟩
    refine Fault.bind_eq_ok_iff.2 ⟨process, Fault.bind_eq_ok_iff.2 ⟨block, known, ?_⟩, ?_⟩
    · exact pointerAt_eq_ok_iff_answersPointer.2 pointed
    · exact pointerAt_eq_ok_iff_answersPointer.2 recorded

/-- What an executing target records is its live base, unless that is 0. -/
theorem recordsBase_iff :
    chain.RecordsBase thread base ↔ base ≠ 0 ∧ chain.liveBase thread = base := by
  constructor
  · rintro ⟨executing, known, chained⟩
    refine ⟨known, ?_⟩
    unfold liveBase
    rw [if_pos executing, imageBase_eq_ok_iff.2 chained]
  · rintro ⟨known, rfl⟩
    unfold liveBase at known ⊢
    split at known
    · rename_i executing
      rw [if_pos executing]
      cases found : chain.imageBase thread with
      | ok base =>
          rw [found] at known
          exact ⟨executing, known, imageBase_eq_ok_iff.1 found⟩
      | error fault =>
          rw [found] at known
          exact absurd rfl known
    · exact absurd rfl known

/-! ## The load address -/

/-- The load address is where the executable is loaded, and nowhere else. -/
theorem loadAddress_eq_iff :
    chain.loadAddress thread dump = base ↔ chain.LoadedAt thread dump base := by
  have silent_iff : (∀ other, ¬ chain.RecordsBase thread other) ↔ chain.liveBase thread = 0 := by
    constructor
    · intro silent
      by_cases zero : chain.liveBase thread = 0
      · exact zero
      · exact absurd (recordsBase_iff.2 ⟨zero, rfl⟩) (silent _)
    · rintro zero other records
      obtain ⟨known, live⟩ := recordsBase_iff.1 records
      exact known (live.symm.trans zero)
  unfold loadAddress
  constructor
  · rintro rfl
    by_cases zero : chain.liveBase thread = 0
    · rw [if_pos zero]
      have silent := silent_iff.2 zero
      cases found : dump.bind SectionList.loadAddress? with
      | some base =>
          obtain ⟨sections, attached, stores⟩ := Option.bind_eq_some_iff.1 found
          exact .stored silent attached (SectionList.loadAddress?_eq_some_iff.1 stores)
      | none =>
          refine .unknown silent fun sections attached other stores => ?_
          rw [attached, Option.bind_some, SectionList.loadAddress?_eq_some_iff.2 stores] at found
          cases found
    · rw [if_neg zero]
      exact .recorded (recordsBase_iff.2 ⟨zero, rfl⟩)
  · intro loaded
    cases loaded with
    | recorded records =>
        obtain ⟨known, rfl⟩ := recordsBase_iff.1 records
        exact if_neg known
    | stored silent attached stores =>
        rw [if_pos (silent_iff.1 silent), attached, Option.bind_some,
          SectionList.loadAddress?_eq_some_iff.2 stores]
        rfl
    | unknown silent nothing =>
        rw [if_pos (silent_iff.1 silent)]
        cases found : dump.bind SectionList.loadAddress? with
        | some base =>
            obtain ⟨sections, attached, stores⟩ := Option.bind_eq_some_iff.1 found
            exact absurd (SectionList.loadAddress?_eq_some_iff.1 stores)
              (nothing sections attached base)
        | none => rfl

/-! ## The resolution -/

/-- A distance takes the linked base to the load address exactly when it is their difference. -/
theorem eq_sub_iff_toNat {linked base distance : UInt64} :
    base - linked = distance ↔ (linked.toNat + distance.toNat) % 2 ^ 64 = base.toNat := by
  rw [← UInt64.toNat_add, UInt64.toNat_inj]
  constructor
  · rintro rfl
    exact UInt64.add_comm linked _ ▸ UInt64.sub_add_cancel base linked
  · rintro rfl
    rw [UInt64.add_comm, UInt64.add_sub_cancel]

section Outcome

variable {binary : BinaryView} {symbolsLoaded : Bool}

theorem resolve_of_unknown (unknown : chain.loadAddress thread dump = 0) :
    chain.resolve thread dump binary symbolsLoaded = ⟨⟨0, none⟩, none⟩ :=
  if_pos unknown

theorem resolve_of_known (known : chain.loadAddress thread dump ≠ 0) :
    chain.resolve thread dump binary symbolsLoaded =
      ⟨⟨chain.loadAddress thread dump, if chain.memory.executing then
          some (chain.loadAddress thread dump + binary.entryPoint) else none⟩,
        if symbolsLoaded ∧ binary.imageBase ≠ chain.loadAddress thread dump then
          some (chain.loadAddress thread dump - binary.imageBase) else none⟩ :=
  if_neg known

end Outcome

variable (chain thread dump) (binary : BinaryView) (symbolsLoaded : Bool)

theorem base_resolve :
    (chain.resolve thread dump binary symbolsLoaded).executable.base =
      chain.loadAddress thread dump := by
  by_cases unknown : chain.loadAddress thread dump = 0
  · rw [resolve_of_unknown unknown, unknown]
  · rw [resolve_of_known unknown]

theorem resolve_resolves :
    chain.Resolves thread dump binary symbolsLoaded
      (chain.resolve thread dump binary symbolsLoaded) := by
  have loaded : chain.LoadedAt thread dump (chain.loadAddress thread dump) :=
    loadAddress_eq_iff.1 rfl
  by_cases unknown : chain.loadAddress thread dump = 0
  · rw [resolve_of_unknown unknown]
    rw [unknown] at loaded
    exact ⟨loaded, fun _ => ⟨rfl, rfl⟩, fun known => absurd rfl known,
      fun known => absurd rfl known⟩
  · rw [resolve_of_known unknown]
    refine ⟨loaded, fun zero => absurd zero unknown, fun _ entry => ?_, fun _ distance => ?_⟩
    · dsimp only
      by_cases executing : chain.memory.executing = true
      · rw [if_pos executing, Option.some_inj, ← UInt64.toNat_inj, UInt64.toNat_add]
        exact ⟨fun same => ⟨executing, same.symm⟩, fun both => both.2.symm⟩
      · rw [if_neg executing]
        exact ⟨nofun, fun both => absurd both.1 executing⟩
    · dsimp only
      rw [← eq_sub_iff_toNat, ← and_assoc]
      by_cases moved : symbolsLoaded = true ∧ binary.imageBase ≠ chain.loadAddress thread dump
      · rw [if_pos moved, Option.some_inj, and_iff_right moved]
      · rw [if_neg moved]
        exact ⟨nofun, fun both => absurd both.1 moved⟩

/-- Everything about a resolution is settled by where the executable is loaded. -/
theorem resolves_unique {chain : Chain} {thread : UInt64} {dump : Option SectionList}
    {binary : BinaryView} {symbolsLoaded : Bool} {first second : Resolution}
    (left : chain.Resolves thread dump binary symbolsLoaded first)
    (right : chain.Resolves thread dump binary symbolsLoaded second) : first = second := by
  obtain ⟨⟨base, entry⟩, shift⟩ := first
  obtain ⟨⟨base', entry'⟩, shift'⟩ := second
  obtain rfl : base = base' :=
    (loadAddress_eq_iff.2 left.base).symm.trans (loadAddress_eq_iff.2 right.base)
  by_cases zero : base = 0
  · obtain ⟨rfl, rfl⟩ := left.unresolved zero
    obtain ⟨rfl, rfl⟩ := right.unresolved zero
    rfl
  · obtain rfl : entry = entry' :=
      Option.ext fun address => (left.entry zero address).trans (right.entry zero address).symm
    obtain rfl : shift = shift' :=
      Option.ext fun distance => (left.shift zero distance).trans (right.shift zero distance).symm
    rfl

/-- Symbols are shifted once, by the distance to the load address, or not at all. -/
theorem resolveWith_follows {σ : Type} (symbols : SymbolStore σ) (state : σ) :
    symbols.Follows binary.imageBase (chain.loadAddress thread dump) state
      (chain.resolveWith symbols thread dump binary state).2 := by
  unfold resolveWith
  by_cases unknown : chain.loadAddress thread dump = 0
  · rw [resolve_of_unknown unknown]
    exact .kept (.inl unknown)
  · rw [resolve_of_known unknown]
    dsimp only
    by_cases asked : symbols.loaded state = true ∧
        binary.imageBase ≠ chain.loadAddress thread dump
    · rw [if_pos asked]
      exact .shifted unknown asked.1 asked.2 (eq_sub_iff_toNat.1 rfl)
    · rw [if_neg asked]
      apply SymbolStore.Follows.kept
      rcases not_and_or.1 asked with absent | unmoved
      · exact .inr (.inl (Bool.eq_false_iff.2 absent))
      · exact .inr (.inr (not_not.1 unmoved))

/--
An executable resolves to the address that its executing target records, or else
to the one that its dump stores, or else to nothing, and no symbols are shifted
then.  A known load address gives an entry point exactly when the target is
executing, and it shifts the symbols at most once, exactly when they are loaded
and it is not the linked base, by the distance from there modulo the size of the
address space.  The load address alone is the same.
-/
theorem resolve_finds_load_address :
    (∀ base, chain.loadAddress thread dump = base ↔ chain.LoadedAt thread dump base) ∧
    (∀ resolution, chain.resolve thread dump binary symbolsLoaded = resolution ↔
      chain.Resolves thread dump binary symbolsLoaded resolution) ∧
    (chain.resolve thread dump binary symbolsLoaded).executable.base =
      chain.loadAddress thread dump ∧
    ∀ {σ : Type} (symbols : SymbolStore σ) (state : σ),
      (chain.resolveWith symbols thread dump binary state).1 =
        (chain.resolve thread dump binary (symbols.loaded state)).executable ∧
      symbols.Follows binary.imageBase (chain.loadAddress thread dump) state
        (chain.resolveWith symbols thread dump binary state).2 := by
  refine ⟨fun _ => loadAddress_eq_iff, fun resolution => ⟨?_, fun resolves => ?_⟩,
    base_resolve chain thread dump binary symbolsLoaded, fun symbols state => ⟨rfl, ?_⟩⟩
  · rintro rfl
    exact resolve_resolves chain thread dump binary symbolsLoaded
  · exact resolves_unique (resolve_resolves chain thread dump binary symbolsLoaded) resolves
  · exact resolveWith_follows chain thread dump binary symbols state

/-! ## An executable that was moved down -/

/-- An executing target whose memory cannot be read. -/
def lockedTarget : TargetMemory where
  read address length := .error (.unreadable address length)
  threadBase _ := .ok 0x1000
  executing := true

/-- A dump with two load addresses, of which the first one counts. -/
def movedDump : SectionList :=
  [⟨".text", [0x90]⟩, ⟨".corebase", [0, 0, 0x10, 0, 0, 0, 0, 0, 0xFF]⟩,
    ⟨".corebase", [0, 0, 0x20, 0, 0, 0, 0, 0]⟩]

def movedBinary : BinaryView where
  imageBase := 0x400000
  entryPoint := 0x1000
  importTable := none
  bytesOf? _ := none
  addressOf? _ := none

/-- Symbols that are loaded and note every shift. -/
def notedShifts : SymbolStore (List UInt64) where
  loaded _ := true
  shift distance noted := noted ++ [distance]

/-- The dump answers for a target that cannot, and the shift downwards wraps around. -/
theorem movedDump_resolves :
    Chain.LoadedAt ⟨lockedTarget, .bits32⟩ 1 (some movedDump) 0x100000 ∧
    Chain.Resolves ⟨lockedTarget, .bits32⟩ 1 (some movedDump) movedBinary true
      ⟨⟨0x100000, some 0x101000⟩, some 0xFFFFFFFFFFD00000⟩ ∧
    Chain.resolveWith notedShifts ⟨lockedTarget, .bits32⟩ 1 (some movedDump) movedBinary [] =
      (⟨0x100000, some 0x101000⟩, [0xFFFFFFFFFFD00000]) ∧
    notedShifts.Follows 0x400000 0x100000 [] [0xFFFFFFFFFFD00000] := by
  have resolved : Chain.resolve ⟨lockedTarget, .bits32⟩ 1 (some movedDump) movedBinary true =
      ⟨⟨0x100000, some 0x101000⟩, some 0xFFFFFFFFFFD00000⟩ := by decide +kernel
  obtain ⟨loaded, resolves, base, stores⟩ :=
    resolve_finds_load_address ⟨lockedTarget, .bits32⟩ 1 (some movedDump) movedBinary true
  rw [resolved] at base
  have served : Chain.resolveWith notedShifts ⟨lockedTarget, .bits32⟩ 1 (some movedDump)
      movedBinary [] = (⟨0x100000, some 0x101000⟩, [0xFFFFFFFFFFD00000]) := by decide +kernel
  have follows := (stores notedShifts []).2
  rw [served, ← base] at follows
  exact ⟨(loaded _).1 base.symm, (resolves _).1 resolved, served, follows⟩

end Chain

end NtTarget
