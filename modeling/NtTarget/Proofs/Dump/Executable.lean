import NtTarget.Proofs.Dump.Locating

/-!
# The name of the executable

A dump tells its executable in two ways.  The list of modules starts with the
first section that stores a module; the name of the executable comes from the
first section that is named like an indexed module, whether it stores one or
not.  Both speak of one section exactly when the first module is an indexed one
and no indexed section in front of it stores none.
-/

namespace NtTarget

/-! ## The section of the executable -/

/-- An indexed section in front of which no other stands. -/
structure SectionList.FirstIndexed (sections : SectionList) (entry : NamedSection) : Prop where
  indexed : entry.isIndexed = true
  first : ∃ before after, sections = before ++ entry :: after ∧
    ∀ other ∈ before, other.isIndexed = false

/--
An indexed section that stores the first module, and in front of which no
indexed section is undecodable.
-/
structure SectionList.StartsIndexed (sections : SectionList) (entry : NamedSection)
    (module : ModuleEntry) : Prop where
  indexed : entry.isIndexed = true
  stores : StoresModule entry module
  first : ∃ before after, sections = before ++ entry :: after ∧
    (∀ other ∈ before, ∀ stored, ¬ StoresModule other stored) ∧
    ∀ other ∈ before, other.isIndexed = true → ¬ other.IsUndecodable

/--
What a dump says of its executable: nothing without an indexed section, and
otherwise the name in the first one.  That section is looked up when its address
is usable and there is a locator to ask.
-/
inductive CoreDump.NamesExecutable (dump : CoreDump) : Traced (Option String) → Prop where
  | missing (noneIndexed : ∀ entry ∈ dump.sections, entry.isIndexed = false) :
      NamesExecutable dump (.silent none)
  | unusable {entry : NamedSection} (first : dump.sections.FirstIndexed entry)
      (stores_none : ∀ module, ¬ StoresModule entry module) :
      NamesExecutable dump (.silent (some (Utf16.decode entry.bytes)))
  | unasked {entry : NamedSection} {module : ModuleEntry}
      (first : dump.sections.FirstIndexed entry) (stores : StoresModule entry module)
      (quiet : dump.activeLocator? = none) : NamesExecutable dump (.silent (some module.name))
  | asked {entry : NamedSection} {module : ModuleEntry} {locate : Locator} {lookup : Lookup}
      (first : dump.sections.FirstIndexed entry) (stores : StoresModule entry module)
      (active : dump.activeLocator? = some locate)
      (asks : entry.Asks dump.sections lookup.query) (own : lookup.query.name = module.name)
      (answer : lookup.answer = locate lookup.query) :
      NamesExecutable dump ⟨some (lookup.answer.getD module.name), [lookup]⟩

/-- The executable of a dump is the first of its modules, which is no library. -/
structure CoreDump.ExecutableIs (dump : CoreDump) (module : ModuleEntry) : Prop where
  first : dump.modules.value = module :: dump.libraries.value
  unasked : dump.activeLocator? = none → dump.executable = .silent (some module.name)
  asked : ∀ locate, dump.activeLocator? = some locate → ∃ lookup,
    dump.executable.lookups = [lookup] ∧ lookup.query.name = module.name ∧
      lookup.answer = locate lookup.query ∧
      dump.executable.value = some (lookup.answer.getD module.name) ∧
      dump.executable.warnings =
        if lookup.answer.isNone then [.moduleNotLocated module.name lookup.version] else []

namespace SectionList

variable {sections : SectionList} {entry : NamedSection}

theorem firstIndexed_iff :
    sections.FirstIndexed entry ↔ sections.find? NamedSection.isIndexed = some entry := by
  simp only [List.find?_eq_some_iff_append, Bool.not_eq_true']
  exact ⟨fun first => ⟨first.indexed, first.first⟩, fun found => ⟨found.1, found.2⟩⟩

/-- In front of a first module that is well placed stands no indexed section at all. -/
theorem StartsIndexed.firstIndexed {module : ModuleEntry}
    (starts : sections.StartsIndexed entry module) : sections.FirstIndexed entry := by
  obtain ⟨indexed, -, before, after, whole, stores_none, decodable⟩ := starts
  refine ⟨indexed, before, after, whole, fun other inside => Bool.eq_false_iff.2 fun named => ?_⟩
  have moduleSection : other.isModuleSection = true := Bool.or_eq_true_iff.2 (.inl named)
  exact decodable other inside named ⟨moduleSection, stores_none other inside⟩

theorem StartsIndexed.head?_storedModules {module : ModuleEntry}
    (starts : sections.StartsIndexed entry module) :
    sections.storedModules.head? = some module := by
  obtain ⟨-, stores, before, after, rfl, stores_none, -⟩ := starts
  have front : SectionList.storedModules before = [] := by
    refine List.filterMap_eq_nil_iff.2 fun other inside => ?_
    refine Option.eq_none_iff_forall_ne_some.2 fun stored found => ?_
    exact stores_none other inside stored (NamedSection.storedModule?_eq_some_iff.1 found)
  rw [storedModules_append, front, List.nil_append, storedModules_cons,
    NamedSection.storedModule?_eq_some_iff.2 stores]
  rfl

/--
One section is the first indexed one and the first one that stores a module
exactly when no indexed section without a module stands in front of it.
-/
theorem exists_startsIndexed_iff :
    (∃ module, sections.StartsIndexed entry module) ↔
      sections.FirstIndexed entry ∧ sections.moduleSections.head? = some entry := by
  unfold moduleSections
  rw [List.head?_filter]
  constructor
  · rintro ⟨module, starts⟩
    refine ⟨starts.firstIndexed, ?_⟩
    obtain ⟨-, stores, before, after, rfl, stores_none, -⟩ := starts
    refine List.find?_eq_some_iff_append.2
      ⟨NamedSection.isDecodable_iff.2 ⟨module, stores⟩, before, after, rfl, ?_⟩
    intro other inside
    rw [Bool.not_eq_true', ← Bool.not_eq_true, NamedSection.isDecodable_iff]
    rintro ⟨stored, found⟩
    exact stores_none other inside stored found
  · rintro ⟨⟨indexed, before, after, rfl, others⟩, found⟩
    -- No section in front decodes: the first to do so would be the entry, which is indexed.
    have undecodable : before.find? NamedSection.isDecodable = none := by
      refine Option.eq_none_iff_forall_ne_some.2 fun other earlier => ?_
      rw [List.find?_append, earlier, Option.some_or, Option.some_inj] at found
      have inside := List.mem_of_find?_eq_some earlier
      rw [found] at inside
      exact Bool.false_ne_true ((others entry inside).symm.trans indexed)
    obtain ⟨module, stores⟩ := NamedSection.isDecodable_iff.1 (List.find?_some found)
    refine ⟨module, indexed, stores, before, after, rfl, ?_, ?_⟩
    · intro other inside stored stores_other
      exact List.find?_eq_none.1 undecodable other inside
        (NamedSection.isDecodable_iff.2 ⟨stored, stores_other⟩)
    · intro other inside named
      exact absurd named (Bool.eq_false_iff.1 (others other inside))

end SectionList

namespace CoreDump

variable {dump : CoreDump} {entry : NamedSection}

/-! ## What the first indexed section says -/

theorem executable_of_firstIndexed (first : dump.sections.FirstIndexed entry) :
    dump.executable = (dump.executableOf entry).map some := by
  have found := SectionList.firstIndexed_iff.1 first
  unfold NamedSection.isIndexed at found
  unfold executable
  rw [found]

theorem executable_of_missing (noneIndexed : ∀ entry ∈ dump.sections, entry.isIndexed = false) :
    dump.executable = .silent none := by
  have missing : dump.sections.find? NamedSection.isIndexed = none :=
    List.find?_eq_none.2 fun entry inside => Bool.eq_false_iff.1 (noneIndexed entry inside)
  unfold NamedSection.isIndexed at missing
  unfold executable
  rw [missing]

theorem executableOf_of_unusable (indexed : entry.isIndexed = true)
    (stores_none : ∀ module, ¬ StoresModule entry module) :
    dump.executableOf entry = .silent (Utf16.decode entry.bytes) := by
  have unread : IndexedName.parse? entry.name = none := by
    cases parsed : IndexedName.parse? entry.name with
    | none => rfl
    | some name =>
        have found : entry.storedModule? = some ⟨Utf16.decode entry.bytes, name.address⟩ := by
          rw [NamedSection.storedModule?_of_isIndexed indexed, parsed]
          rfl
        exact absurd (NamedSection.storedModule?_eq_some_iff.1 found) (stores_none _)
  unfold executableOf
  rw [unread]

theorem executableOf_of_quiet {module : ModuleEntry} (indexed : entry.isIndexed = true)
    (stores : StoresModule entry module) (quiet : dump.activeLocator? = none) :
    dump.executableOf entry = .silent module.name := by
  obtain ⟨name, parsed, rfl⟩ := NamedSection.exists_parse?_of_storesModule indexed stores
  unfold executableOf
  rw [parsed]
  exact resolvedName_of_quiet quiet name entry.bytes

/-- With a locator to ask, the section of the executable is looked up like any other. -/
theorem executableOf_of_active {module : ModuleEntry} {locate : Locator}
    (indexed : entry.isIndexed = true) (stores : StoresModule entry module)
    (active : dump.activeLocator? = some locate) :
    ∃ lookup, dump.executableOf entry = ⟨lookup.answer.getD module.name, [lookup]⟩ ∧
      entry.Asks dump.sections lookup.query ∧ lookup.query.name = module.name ∧
      lookup.answer = locate lookup.query := by
  obtain ⟨lookup, found, asks, answer, own⟩ :=
    NamedSection.exists_lookup?_of_storesModule indexed stores dump.sections locate
  obtain ⟨name, parsed, -⟩ := NamedSection.exists_parse?_of_storesModule indexed stores
  refine ⟨lookup, ?_, asks, own, answer⟩
  unfold NamedSection.lookup? at found
  rw [if_pos indexed, parsed, Option.map_some, Option.some_inj] at found
  unfold executableOf resolvedName
  rw [parsed, active, ← own, ← found]
  rfl

theorem namesExecutable_executable (dump : CoreDump) : dump.NamesExecutable dump.executable := by
  cases found : dump.sections.find? NamedSection.isIndexed with
  | none =>
      have noneIndexed : ∀ entry ∈ dump.sections, entry.isIndexed = false :=
        fun entry inside => Bool.eq_false_iff.2 (List.find?_eq_none.1 found entry inside)
      rw [executable_of_missing noneIndexed]
      exact .missing noneIndexed
  | some entry =>
      have first := SectionList.firstIndexed_iff.2 found
      rw [executable_of_firstIndexed first]
      by_cases usable : ∃ module, StoresModule entry module
      · obtain ⟨module, stores⟩ := usable
        cases active : dump.activeLocator? with
        | none =>
            rw [executableOf_of_quiet first.indexed stores active]
            exact .unasked first stores active
        | some locate =>
            obtain ⟨lookup, same, asks, own, answer⟩ :=
              executableOf_of_active first.indexed stores active
            rw [same]
            exact .asked first stores active asks own answer
      · have stores_none := not_exists.1 usable
        rw [executableOf_of_unusable first.indexed stores_none]
        exact .unusable first stores_none

theorem isSome_executable_iff (dump : CoreDump) :
    dump.executable.value.isSome = true ↔ ∃ entry ∈ dump.sections, entry.isIndexed = true := by
  constructor
  · intro named
    by_contra missing
    have noneIndexed : ∀ entry ∈ dump.sections, entry.isIndexed = false :=
      fun entry inside => Bool.eq_false_iff.2 fun indexed => missing ⟨entry, inside, indexed⟩
    rw [executable_of_missing noneIndexed] at named
    cases named
  · intro indexed
    obtain ⟨entry, found⟩ := Option.isSome_iff_exists.1 (List.find?_isSome.2 indexed)
    rw [executable_of_firstIndexed (SectionList.firstIndexed_iff.2 found)]
    rfl

/-! ## The first module -/

/-- The first module is the first one that is stored, with and without a locator. -/
theorem head?_modules (dump : CoreDump) :
    dump.modules.value.head? = dump.sections.storedModules.head? := by
  cases active : dump.activeLocator? with
  | none =>
      have found := modulesFrom_eq_storedModules dump active true dump.sections
      exact congrArg (fun traced => traced.value.head?) found
  | some locate =>
      rw [(renamedBy_of_active active).first, modules_withoutLocator]
      rfl

theorem executableIs_of_startsIndexed {module : ModuleEntry}
    (starts : dump.sections.StartsIndexed entry module) : dump.ExecutableIs module where
  first := List.eq_cons_of_mem_head? ((head?_modules dump).trans starts.head?_storedModules)
  unasked quiet := by
    rw [executable_of_firstIndexed starts.firstIndexed,
      executableOf_of_quiet starts.indexed starts.stores quiet]
    rfl
  asked locate active := by
    obtain ⟨lookup, same, -, own, answer⟩ :=
      executableOf_of_active starts.indexed starts.stores active
    have named : dump.executable = ⟨some (lookup.answer.getD module.name), [lookup]⟩ := by
      rw [executable_of_firstIndexed starts.firstIndexed, same]
      rfl
    refine ⟨lookup, by rw [named], own, answer, by rw [named], ?_⟩
    rw [named, Traced.warnings]
    cases answered : lookup.answer <;> simp [Lookup.warning?, answered, own]

/--
The executable has a name exactly when some section is named like an indexed
module.  The name is that of the first such section, which is not looked up when
its address is unusable.  Where the first module is an indexed one and no indexed
section in front of it is undecodable, it is the module that is named: under its
own name without a locator, and with one by a single query for that name.  No
other dump takes both from one section.
-/
theorem executable_agrees_with_modules (dump : CoreDump) :
    (dump.executable.value.isSome = true ↔
      ∃ entry ∈ dump.sections, Scan.startsWith ".coremodule/" entry.name = true) ∧
    dump.NamesExecutable dump.executable ∧
    (∀ entry module, dump.sections.StartsIndexed entry module → dump.ExecutableIs module) ∧
    ∀ entry, (∃ module, dump.sections.StartsIndexed entry module) ↔
      dump.sections.FirstIndexed entry ∧ dump.sections.moduleSections.head? = some entry :=
  ⟨isSome_executable_iff dump, namesExecutable_executable dump,
    fun _ _ => executableIs_of_startsIndexed, fun _ => SectionList.exists_startsIndexed_iff⟩

/-- A dump with a record that is cut off in front of two indexed modules, and a locator for all. -/
def relocatedDump : CoreDump where
  sections :=
    [⟨".module", [3, 0]⟩,
      ⟨".coremodule/1000;v=1.0", [0x61, 0]⟩,
      ⟨".coremodule/zz", [0x7A, 0]⟩,
      ⟨".coremodule/2000", [0x62, 0]⟩]
  profile := { Profile.windows64 with useSymbolServer := true }
  locator := some fun query => if query.name = "b" then some "b.dll" else none

theorem relocatedDump_startsIndexed :
    relocatedDump.sections.StartsIndexed ⟨".coremodule/1000;v=1.0", [0x61, 0]⟩ ⟨"a", 0x1000⟩ where
  indexed := by decide +kernel
  stores := NamedSection.storedModule?_eq_some_iff.1 (by decide +kernel)
  first := by
    refine ⟨[⟨".module", [3, 0]⟩], _, rfl, ?_, ?_⟩
    · intro other inside stored stores
      rw [List.mem_singleton.1 inside] at stores
      have found := NamedSection.storedModule?_eq_some_iff.2 stores
      have nothing : NamedSection.storedModule? ⟨".module", [3, 0]⟩ = none := by decide +kernel
      cases nothing.symm.trans found
    · intro other inside indexed
      rw [List.mem_singleton.1 inside] at indexed
      exact absurd indexed (by decide +kernel)

/-- The first module is looked up as the executable, though not as a module. -/
theorem relocatedDump_executable :
    relocatedDump.sections.StartsIndexed ⟨".coremodule/1000;v=1.0", [0x61, 0]⟩ ⟨"a", 0x1000⟩ ∧
      relocatedDump.ExecutableIs ⟨"a", 0x1000⟩ ∧
      relocatedDump.libraries.value = [⟨"b.dll", 0x2000⟩] ∧
      relocatedDump.executable =
        ⟨some "a", [⟨⟨"a", 0, 0, none⟩, some "1.0", none⟩]⟩ ∧
      relocatedDump.executable.warnings = [.moduleNotLocated "a" (some "1.0")] := by
  have starts := relocatedDump_startsIndexed
  obtain ⟨-, -, agrees, -⟩ := executable_agrees_with_modules relocatedDump
  exact ⟨starts, agrees _ _ starts, by decide +kernel, by decide +kernel, by decide +kernel⟩

end CoreDump

end NtTarget
