import Mathlib.Algebra.Group.Nat.Defs
import NtTarget.Proofs.Module.LibraryReading

/-!
# Which sections of a dump are modules

A section stores a module by its own name and bytes, whatever else the dump
holds.  The list of modules is what the sections store, in discovery order, so
a section that stores none can stand anywhere: it contributes nothing and it is
never taken for the first module.
-/

namespace NtTarget

namespace Traced

theorem zipWith_silent_none {α : Type} (later : Traced (List α)) :
    (silent none).zipWith (fun (found : Option α) rest => found.toList ++ rest) later = later :=
  rfl

end Traced

/-! ## The module that one section stores -/

/--
A section stores a module in one of two ways: under a name that carries a load
address, with the module's name as wide text, or as a module record.
-/
inductive StoresModule : NamedSection → ModuleEntry → Prop where
  | indexed {entry : NamedSection} {run tail : List Char}
      (named : entry.name.toList = IndexedName.sectionLead.toList ++ (run ++ tail))
      (nonempty : run ≠ []) (digits : ∀ c ∈ run, Hex.isDigit c = true)
      (maximal : ∀ c ∈ tail.head?, Hex.isDigit c = false)
      (below : Hex.value run < 2 ^ 64) :
      StoresModule entry ⟨Utf16.decode entry.bytes, UInt64.ofNat (Hex.value run)⟩
  | recorded {entry : NamedSection} {tail : List Char} {module : ModuleEntry}
      (named : entry.name.toList = ModuleRecord.sectionLead.toList ++ tail)
      (decoded : ModuleRecord.decode entry.bytes = .ok module) :
      StoresModule entry module

def NamedSection.isModuleSection (entry : NamedSection) : Bool :=
  Scan.startsWith IndexedName.sectionLead entry.name ||
    Scan.startsWith ModuleRecord.sectionLead entry.name

/-- The module that a section stores, under its own name. -/
def NamedSection.storedModule? (entry : NamedSection) : Option ModuleEntry :=
  if Scan.startsWith IndexedName.sectionLead entry.name then
    (IndexedName.parse? entry.name).map fun module =>
      ⟨Utf16.decode entry.bytes, module.address⟩
  else if Scan.startsWith ModuleRecord.sectionLead entry.name then
    CoreDump.recordedModule? entry
  else none

def SectionList.storedModules (sections : SectionList) : List ModuleEntry :=
  sections.filterMap NamedSection.storedModule?

/-- A section that is named like a module and stores none. -/
structure NamedSection.IsUndecodable (entry : NamedSection) : Prop where
  named : entry.isModuleSection = true
  stores_none : ∀ module, ¬ StoresModule entry module

namespace IndexedName

/-- An indexed name is read exactly when a usable number follows the lead. -/
theorem map_address_parse?_eq_some_iff {name : String} {address : UInt64} :
    (parse? name).map (·.address) = some address ↔
      ∃ run tail, name.toList = sectionLead.toList ++ (run ++ tail) ∧ run ≠ [] ∧
        (∀ c ∈ run, Hex.isDigit c = true) ∧ (∀ c ∈ tail.head?, Hex.isDigit c = false) ∧
        Hex.value run < 2 ^ 64 ∧ UInt64.ofNat (Hex.value run) = address := by
  have read : (parse? name).map (·.address) =
      ((Scan.afterLead? sectionLead.toList name.toList).bind (leadingBelow? (2 ^ 64))).map
        UInt64.ofNat := by
    simp [parse?, Function.comp_def]
  rw [read, Option.map_eq_some_iff]
  constructor
  · rintro ⟨number, found, rfl⟩
    obtain ⟨line, after, leading⟩ := Option.bind_eq_some_iff.1 found
    obtain ⟨below, run, tail, rfl, nonempty, digits, maximal, rfl⟩ :=
      leadingBelow?_eq_some_iff.1 leading
    exact ⟨run, tail, Scan.afterLead?_eq_some_iff.1 after, nonempty, digits, maximal, below, rfl⟩
  · rintro ⟨run, tail, named, nonempty, digits, maximal, below, rfl⟩
    refine ⟨Hex.value run, ?_, rfl⟩
    rw [Scan.afterLead?_eq_some_iff.2 named, Option.bind_some]
    exact leadingBelow?_eq_some_iff.2 ⟨below, run, tail, rfl, nonempty, digits, maximal, rfl⟩

end IndexedName

namespace CoreDump

theorem recordedModule?_eq_some_iff {entry : NamedSection} {module : ModuleEntry} :
    recordedModule? entry = some module ↔ ModuleRecord.decode entry.bytes = .ok module := by
  unfold recordedModule?
  cases ModuleRecord.decode entry.bytes <;> simp [Except.toOption]

end CoreDump

namespace NamedSection

theorem not_both_leads {entry : NamedSection}
    (indexed : Scan.startsWith IndexedName.sectionLead entry.name = true) :
    Scan.startsWith ModuleRecord.sectionLead entry.name = false := by
  obtain ⟨tail, named⟩ := Scan.startsWith_iff.1 indexed
  rw [← Bool.not_eq_true, Scan.startsWith_iff]
  rintro ⟨other, same⟩
  rw [named] at same
  simp [IndexedName.sectionLead, ModuleRecord.sectionLead] at same

theorem storedModule?_eq_some_iff {entry : NamedSection} {module : ModuleEntry} :
    entry.storedModule? = some module ↔ StoresModule entry module := by
  constructor
  · intro found
    unfold storedModule? at found
    split at found
    · obtain ⟨name, parsed, rfl⟩ := Option.map_eq_some_iff.1 found
      obtain ⟨run, tail, named, nonempty, digits, maximal, below, address⟩ :=
        IndexedName.map_address_parse?_eq_some_iff.1 (Option.map_eq_some_iff.2 ⟨name, parsed, rfl⟩)
      rw [← address]
      exact .indexed named nonempty digits maximal below
    · split at found
      · rename_i recorded
        obtain ⟨tail, named⟩ := Scan.startsWith_iff.1 recorded
        exact .recorded named (CoreDump.recordedModule?_eq_some_iff.1 found)
      · cases found
  · intro stores
    unfold storedModule?
    cases stores with
    | @indexed run tail named nonempty digits maximal below =>
        have address := IndexedName.map_address_parse?_eq_some_iff.2
          ⟨run, tail, named, nonempty, digits, maximal, below, rfl⟩
        obtain ⟨name, parsed, same⟩ := Option.map_eq_some_iff.1 address
        rw [if_pos (Scan.startsWith_iff.2 ⟨_, named⟩), parsed, ← same]
        rfl
    | recorded named decoded =>
        have recorded := Scan.startsWith_iff.2 ⟨_, named⟩
        have other : ¬ Scan.startsWith IndexedName.sectionLead entry.name = true := by
          intro indexed
          rw [not_both_leads indexed] at recorded
          cases recorded
        rw [if_neg other, if_pos recorded]
        exact CoreDump.recordedModule?_eq_some_iff.2 decoded

theorem isUndecodable_iff {entry : NamedSection} :
    entry.IsUndecodable ↔ entry.isModuleSection = true ∧ entry.storedModule? = none := by
  constructor
  · rintro ⟨named, stores_none⟩
    refine ⟨named, Option.eq_none_iff_forall_ne_some.2 ?_⟩
    intro module found
    exact stores_none module (storedModule?_eq_some_iff.1 found)
  · rintro ⟨named, none_found⟩
    refine ⟨named, ?_⟩
    intro module stores
    rw [storedModule?_eq_some_iff.2 stores] at none_found
    cases none_found

/-- A section that is named like a module holds no build id. -/
theorem name_ne_buildIdSection {entry : NamedSection} (named : entry.isModuleSection = true)
    (module : IndexedName) : entry.name ≠ module.buildIdSection := by
  intro same
  have letters : entry.name.toList =
      IndexedName.buildIdLead.toList ++ (Hex.text module.address.toNat).toList := by
    rw [same, IndexedName.buildIdSection, String.toList_append]
  rcases Bool.or_eq_true_iff.1 named with indexed | recorded
  · obtain ⟨tail, other⟩ := Scan.startsWith_iff.1 indexed
    rw [letters] at other
    simp [IndexedName.buildIdLead, IndexedName.sectionLead] at other
  · obtain ⟨tail, other⟩ := Scan.startsWith_iff.1 recorded
    rw [letters] at other
    simp [IndexedName.buildIdLead, ModuleRecord.sectionLead] at other

end NamedSection

namespace SectionList

theorem bytesOf?_insert_of_ne {entry : NamedSection} {name : String} (other : entry.name ≠ name)
    (before after : SectionList) :
    bytesOf? (before ++ entry :: after) name = bytesOf? (before ++ after) name := by
  induction before with
  | nil => rw [List.nil_append, bytesOf?_cons, if_neg other, List.nil_append]
  | cons first rest ih =>
      rw [List.cons_append, List.cons_append, bytesOf?_cons, bytesOf?_cons, ih]

theorem buildId?_insert {entry : NamedSection} (named : entry.isModuleSection = true)
    (module : IndexedName) (before after : SectionList) :
    module.buildId? (before ++ entry :: after) = module.buildId? (before ++ after) := by
  unfold IndexedName.buildId?
  rw [bytesOf?_insert_of_ne (entry.name_ne_buildIdSection named module)]

theorem storedModules_cons (entry : NamedSection) (rest : SectionList) :
    storedModules (entry :: rest) = entry.storedModule?.toList ++ storedModules rest := by
  unfold storedModules
  rw [List.filterMap_cons]
  cases entry.storedModule? <;> rfl

theorem storedModules_append (left right : SectionList) :
    storedModules (left ++ right) = storedModules left ++ storedModules right :=
  List.filterMap_append

end SectionList

/-! ## The scan over all sections -/

namespace CoreDump

def withSections (dump : CoreDump) (sections : SectionList) : CoreDump :=
  { dump with sections }

variable (dump : CoreDump)

@[simp] theorem sections_withSections (sections : SectionList) :
    (dump.withSections sections).sections = sections := rfl

/-- Without a locator to ask, and for the first module, a section counts as what it stores. -/
theorem moduleOf_eq_silent {first : Bool} (unasked : first = true ∨ dump.activeLocator? = none)
    (entry : NamedSection) : dump.moduleOf first entry = .silent entry.storedModule? := by
  unfold moduleOf NamedSection.storedModule?
  split
  -- Only an indexed name could lead to a query.
  · unfold indexedModule
    cases IndexedName.parse? entry.name with
    | none => rfl
    | some module =>
        rcases unasked with rfl | quiet
        · rfl
        · cases first with
          | true => rfl
          | false => simp [resolvedName, quiet, Traced.map, Traced.silent]
  · split <;> rfl

theorem moduleOf_eq_silent_none {entry : NamedSection} (stores_none : entry.storedModule? = none)
    (first : Bool) : dump.moduleOf first entry = .silent none := by
  unfold NamedSection.storedModule? at stores_none
  unfold moduleOf
  split at stores_none
  · rw [if_pos (by assumption)]
    unfold indexedModule
    rw [Option.map_eq_none_iff.1 stores_none]
  · rw [if_neg (by assumption)]
    split at stores_none
    · rw [if_pos (by assumption), stores_none]
    · rw [if_neg (by assumption)]

/-- Of the other sections, a module's name depends on the build ids only. -/
theorem resolvedName_congr {left right : SectionList}
    (buildIds : ∀ module : IndexedName, module.buildId? left = module.buildId? right)
    (module : IndexedName) (payload : Bytes) :
    (dump.withSections left).resolvedName module payload =
      (dump.withSections right).resolvedName module payload := by
  -- A query repeats the section's own name and payload; its build id alone is looked up elsewhere.
  have query : ∀ name : String, module.query left name = module.query right name := by
    intro name
    unfold IndexedName.query
    rw [buildIds module]
  unfold resolvedName IndexedName.lookup
  simp only [withSections, query]
  rfl

theorem moduleOf_congr {left right : SectionList}
    (buildIds : ∀ module : IndexedName, module.buildId? left = module.buildId? right)
    (first : Bool) (entry : NamedSection) :
    (dump.withSections left).moduleOf first entry =
      (dump.withSections right).moduleOf first entry := by
  unfold moduleOf indexedModule
  simp only [resolvedName_congr dump buildIds]

/-- A scan passes over a section that stores no module, wherever it stands. -/
theorem modulesFrom_insert {entry : NamedSection} (stores_none : entry.storedModule? = none)
    (first : Bool) (before after : SectionList) :
    dump.modulesFrom first (before ++ entry :: after) =
      dump.modulesFrom first (before ++ after) := by
  induction before generalizing first with
  | nil =>
      -- The scan goes on under the same mark: a section that stores none is not the first module.
      rw [List.nil_append, List.nil_append, modulesFrom_cons,
        moduleOf_eq_silent_none dump stores_none, Traced.zipWith_silent_none]
      simp [Traced.silent]
  | cons head rest ih =>
      rw [List.cons_append, List.cons_append, modulesFrom_cons, modulesFrom_cons, ih]

/-- A scan may leave out any sections that store no module. -/
theorem modulesFrom_filter_of_storesNone {kept : NamedSection → Bool}
    (storesNone : ∀ entry, kept entry = false → entry.storedModule? = none) (first : Bool)
    (sections : SectionList) :
    dump.modulesFrom first (sections.filter kept) = dump.modulesFrom first sections := by
  induction sections generalizing first with
  | nil => rfl
  | cons entry rest ih =>
      cases keep : kept entry with
      | true =>
          rw [List.filter_cons_of_pos keep, modulesFrom_cons, modulesFrom_cons, ih]
      | false =>
          rw [List.filter_cons_of_neg (Bool.eq_false_iff.1 keep), ih]
          exact (modulesFrom_insert dump (storesNone entry keep) first [] rest).symm

theorem modulesFrom_congr {left right : SectionList}
    (buildIds : ∀ module : IndexedName, module.buildId? left = module.buildId? right)
    (first : Bool) (sections : SectionList) :
    (dump.withSections left).modulesFrom first sections =
      (dump.withSections right).modulesFrom first sections := by
  induction sections generalizing first with
  | nil => rfl
  | cons entry rest ih =>
      rw [modulesFrom_cons, modulesFrom_cons, moduleOf_congr dump buildIds, ih]

theorem modulesFrom_eq_storedModules (quiet : dump.activeLocator? = none) (first : Bool)
    (sections : SectionList) :
    dump.modulesFrom first sections = .silent sections.storedModules := by
  induction sections generalizing first with
  | nil => rfl
  | cons entry rest ih =>
      rw [modulesFrom_cons, moduleOf_eq_silent dump (.inr quiet), ih,
        SectionList.storedModules_cons]
      rfl

/-- An undecodable module section changes neither the modules nor the queries. -/
theorem modules_insert_undecodable {corrupt : NamedSection} (undecodable : corrupt.IsUndecodable)
    (before after : SectionList) :
    (dump.withSections (before ++ corrupt :: after)).modules =
      (dump.withSections (before ++ after)).modules := by
  obtain ⟨named, stores_none⟩ := NamedSection.isUndecodable_iff.1 undecodable
  have buildIds : ∀ module : IndexedName,
      module.buildId? (before ++ corrupt :: after) = module.buildId? (before ++ after) :=
    fun module => SectionList.buildId?_insert named module before after
  -- The inserted section is first dropped from the look-ups, then from the scan.
  calc
    (dump.withSections (before ++ corrupt :: after)).modules
      = (dump.withSections (before ++ after)).modulesFrom true (before ++ corrupt :: after) :=
        modulesFrom_congr dump buildIds true _
    _ = (dump.withSections (before ++ after)).modules :=
        modulesFrom_insert _ stores_none true before after

/--
The modules of a dump without a locator to ask are what its sections store, in
discovery order; the libraries are all but the first of them, and the document
renders those, so that they are what is read from it.  With or without a
locator, an undecodable module section can stand anywhere: modules, libraries
and document stay the same, and so do the queries that are made.
-/
theorem modules_eq_storedModules :
    (∀ entry module, entry.storedModule? = some module ↔ StoresModule entry module) ∧
    (dump.activeLocator? = none →
      dump.modules = .silent dump.sections.storedModules ∧
      dump.libraries = .silent (dump.sections.storedModules.drop 1) ∧
      dump.libraryList =
        .silent (LibraryList.render (dump.sections.storedModules.drop 1)) ∧
      LibraryList.read? dump.libraryList.value.toList =
        some (dump.sections.storedModules.drop 1, []) ∧
      ∀ left right, (dump.withSections (left ++ right)).modules.value =
        (dump.withSections left).modules.value ++ (dump.withSections right).modules.value) ∧
    ∀ before corrupt after, corrupt.IsUndecodable → dump.sections = before ++ after →
      (dump.withSections (before ++ corrupt :: after)).modules = dump.modules ∧
      (dump.withSections (before ++ corrupt :: after)).libraries = dump.libraries ∧
      (dump.withSections (before ++ corrupt :: after)).libraryList = dump.libraryList := by
  refine ⟨fun _ _ => NamedSection.storedModule?_eq_some_iff, ?_, ?_⟩
  · intro quiet
    have found : ∀ sections,
        (dump.withSections sections).modules = .silent sections.storedModules :=
      fun sections => modulesFrom_eq_storedModules (dump.withSections sections) quiet true sections
    have whole : dump.modules = .silent dump.sections.storedModules := found dump.sections
    have listed : dump.libraries = .silent (dump.sections.storedModules.drop 1) := by
      rw [List.drop_one]
      unfold libraries
      rw [whole]
      rfl
    have document : dump.libraryList =
        .silent (LibraryList.render (dump.sections.storedModules.drop 1)) := by
      unfold libraryList
      rw [listed]
      rfl
    refine ⟨whole, listed, document, ?_, ?_⟩
    · rw [document]
      exact LibraryList.read?_render _
    · intro left right
      rw [found, found, found]
      exact SectionList.storedModules_append left right
  · intro before corrupt after undecodable whole
    have kept : (dump.withSections (before ++ corrupt :: after)).modules = dump.modules := by
      rw [modules_insert_undecodable dump undecodable, ← whole]
      rfl
    refine ⟨kept, ?_, ?_⟩
    · unfold libraries
      rw [kept]
    · unfold libraryList libraries
      rw [kept]

/-- A dump with a module of each convention and a section that is no module. -/
def mixedDump : CoreDump where
  sections :=
    [⟨".module", [3, 0, 0, 0, 0, 0, 0x40, 0, 2, 0, 0, 0, 0x61, 0]⟩,
      ⟨".text", [0x90]⟩,
      ⟨".coremodule/2000;s=10", [0x62, 0]⟩]
  profile := .windows64
  locator := none

/--
A record that is cut off in front of a dump is not taken for its executable, and
the document of the dump, with or without that record, lists the other module.
-/
theorem mixedDump_modules :
    mixedDump.activeLocator? = none ∧ NamedSection.IsUndecodable ⟨".module", [3, 0]⟩ ∧
      mixedDump.modules = .silent [⟨"a", 0x400000⟩, ⟨"b", 0x2000⟩] ∧
      (mixedDump.withSections (⟨".module", [3, 0]⟩ :: mixedDump.sections)).libraries =
        .silent [⟨"b", 0x2000⟩] ∧
      (mixedDump.withSections (⟨".module", [3, 0]⟩ :: mixedDump.sections)).libraryList =
        .silent ("<library-list>\n" ++
          "<library name=\"b\"><segment address=\"0x2000\"/></library></library-list>\n") ∧
      LibraryList.read? mixedDump.libraryList.value.toList = some ([⟨"b", 0x2000⟩], []) := by
  have quiet : mixedDump.activeLocator? = none := rfl
  have undecodable : NamedSection.IsUndecodable ⟨".module", [3, 0]⟩ :=
    NamedSection.isUndecodable_iff.2 ⟨by decide +kernel, by decide +kernel⟩
  have stored : mixedDump.sections.storedModules = [⟨"a", 0x400000⟩, ⟨"b", 0x2000⟩] := by
    decide +kernel
  obtain ⟨-, whenQuiet, inserted⟩ := modules_eq_storedModules mixedDump
  obtain ⟨modules, libraries, document, read, -⟩ := whenQuiet quiet
  obtain ⟨-, keptLibraries, keptDocument⟩ :=
    inserted [] ⟨".module", [3, 0]⟩ mixedDump.sections undecodable rfl
  rw [List.nil_append] at keptLibraries keptDocument
  refine ⟨quiet, undecodable, ?_, ?_, ?_, ?_⟩
  · rw [modules, stored]
  · rw [keptLibraries, libraries, stored]
    rfl
  · rw [keptDocument, document, stored]
    decide +kernel
  · rw [read, stored]
    rfl

end CoreDump

end NtTarget
