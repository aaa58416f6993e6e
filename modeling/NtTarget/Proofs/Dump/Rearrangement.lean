import NtTarget.Dump.Stop
import NtTarget.Dump.Threads
import NtTarget.Proofs.Dump.Discovery

/-!
# Independent sections commute

A dump looks at its sections in two ways.  The scans go over the sections that
are named like modules, in discovery order; every other look-up takes the first
section of one name.  Rearranging the sections keeps both views as long as the
module sections stay in order and so do the sections of each name, and a
section that neither view shows can be put in or taken out anywhere.
-/

namespace NtTarget

/-! ## What a dump sees of its sections -/

/--
The same sections in another order, in which the module sections follow each
other as before, and so do the sections of every name.
-/
structure SectionList.IsRearrangement (left right : SectionList) : Prop where
  perm : left.Perm right
  modules : left.filter NamedSection.isModuleSection = right.filter NamedSection.isModuleSection
  named : ∀ name, left.filter (fun entry => entry.name == name) =
    right.filter (fun entry => entry.name == name)

/--
A section that no answer looks at: it is not named like a module, and its name
is not that of the exception record, of the load address, of a thread's name or
of a build id.
-/
structure NamedSection.IsUnread (entry : NamedSection) : Prop where
  notModule : entry.isModuleSection = false
  notException : entry.name ≠ CoreDump.exceptionSection
  notBase : entry.name ≠ CoreDump.baseSection
  notThread : ∀ thread, entry.name ≠ ThreadName.sectionName thread
  notBuildId : ∀ module : IndexedName, entry.name ≠ module.buildIdSection

/-- Two section lists of which a dump sees the same. -/
structure SectionList.ReadsAlike (left right : SectionList) : Prop where
  modules : left.filter NamedSection.isModuleSection = right.filter NamedSection.isModuleSection
  exception : left.bytesOf? CoreDump.exceptionSection = right.bytesOf? CoreDump.exceptionSection
  base : left.bytesOf? CoreDump.baseSection = right.bytesOf? CoreDump.baseSection
  thread : ∀ thread, left.bytesOf? (ThreadName.sectionName thread) =
    right.bytesOf? (ThreadName.sectionName thread)
  buildId : ∀ module : IndexedName, left.bytesOf? module.buildIdSection =
    right.bytesOf? module.buildIdSection

/--
Two dumps with the same answers.  Names that come from a locator are compared
together with the queries that were made for them, in order, and so with the
warnings for those that were not answered.
-/
structure CoreDump.AnswersAlike (left right : CoreDump) : Prop where
  modules : left.modules = right.modules
  libraries : left.libraries = right.libraries
  libraryList : left.libraryList = right.libraryList
  executable : left.executable = right.executable
  threadName : ∀ thread, left.threadName? thread = right.threadName? thread
  rawException : left.rawException = right.rawException
  exception : left.exception = right.exception
  exceptionRange : ∀ offset length,
    left.exceptionRange offset length = right.exceptionRange offset length
  loadAddress : left.sections.loadAddress? = right.sections.loadAddress?

namespace SectionList

/-- A look-up depends on the sections of its name only. -/
theorem bytesOf?_eq_head?_filter (sections : SectionList) (name : String) :
    sections.bytesOf? name =
      (sections.filter fun entry => entry.name == name).head?.map (·.bytes) := by
  unfold bytesOf?
  rw [List.head?_filter]

theorem IsRearrangement.bytesOf?_eq {left right : SectionList}
    (rearranged : left.IsRearrangement right) (name : String) :
    left.bytesOf? name = right.bytesOf? name := by
  rw [bytesOf?_eq_head?_filter, bytesOf?_eq_head?_filter, rearranged.named name]

theorem IsRearrangement.readsAlike {left right : SectionList}
    (rearranged : left.IsRearrangement right) : left.ReadsAlike right where
  modules := rearranged.modules
  exception := rearranged.bytesOf?_eq _
  base := rearranged.bytesOf?_eq _
  thread _ := rearranged.bytesOf?_eq _
  buildId _ := rearranged.bytesOf?_eq _

theorem ReadsAlike.buildId?_eq {left right : SectionList} (alike : left.ReadsAlike right)
    (module : IndexedName) : module.buildId? left = module.buildId? right := by
  unfold IndexedName.buildId?
  rw [alike.buildId module]

theorem readsAlike_insert {entry : NamedSection} (unread : entry.IsUnread)
    (before after : SectionList) : ReadsAlike (before ++ entry :: after) (before ++ after) where
  modules := by
    rw [List.filter_append, List.filter_append,
      List.filter_cons_of_neg (Bool.eq_false_iff.1 unread.notModule)]
  exception := bytesOf?_insert_of_ne unread.notException before after
  base := bytesOf?_insert_of_ne unread.notBase before after
  thread thread := bytesOf?_insert_of_ne (unread.notThread thread) before after
  buildId module := bytesOf?_insert_of_ne (unread.notBuildId module) before after

/-- Two neighbours with different names, not both of them modules, can change places. -/
theorem isRearrangement_swap {first second : NamedSection} (names : first.name ≠ second.name)
    (notBoth : first.isModuleSection = false ∨ second.isModuleSection = false)
    (before after : SectionList) :
    IsRearrangement (before ++ first :: second :: after)
      (before ++ second :: first :: after) where
  perm := List.Perm.append_left before (List.Perm.swap second first after)
  modules := by
    rw [List.filter_append, List.filter_append]
    rcases notBoth with plain | plain
    · simp [List.filter_cons, plain]
    · simp [List.filter_cons, plain]
  named := by
    intro name
    rw [List.filter_append, List.filter_append]
    by_cases same : first.name = name
    · have other : ¬ second.name = name := fun equal => names (same.trans equal.symm)
      simp [List.filter_cons, other]
    · simp [List.filter_cons, same]

end SectionList

/-! ## Every answer depends on what is seen -/

namespace NamedSection

/-- A section is unread if its name is outside the four families and neither of the single names. -/
theorem isUnread_of_startsWith {entry : NamedSection} (notModule : entry.isModuleSection = false)
    (notException : entry.name ≠ CoreDump.exceptionSection)
    (notBase : entry.name ≠ CoreDump.baseSection)
    (notThread : Scan.startsWith ThreadName.sectionLead entry.name = false)
    (notBuildId : Scan.startsWith IndexedName.buildIdLead entry.name = false) :
    entry.IsUnread where
  notModule := notModule
  notException := notException
  notBase := notBase
  notThread thread same := by
    have starts : Scan.startsWith ThreadName.sectionLead entry.name = true :=
      Scan.startsWith_iff.2 ⟨_, by rw [same, ThreadName.sectionName, String.toList_append]⟩
    exact Bool.false_ne_true (notThread.symm.trans starts)
  notBuildId module same := by
    have starts : Scan.startsWith IndexedName.buildIdLead entry.name = true :=
      Scan.startsWith_iff.2 ⟨_, by rw [same, IndexedName.buildIdSection, String.toList_append]⟩
    exact Bool.false_ne_true (notBuildId.symm.trans starts)

theorem storedModule?_eq_none {entry : NamedSection}
    (plain : entry.isModuleSection = false) : entry.storedModule? = none := by
  obtain ⟨notIndexed, notRecorded⟩ := Bool.or_eq_false_iff.1 plain
  unfold storedModule?
  rw [if_neg (Bool.eq_false_iff.1 notIndexed), if_neg (Bool.eq_false_iff.1 notRecorded)]

end NamedSection

namespace CoreDump

variable (dump : CoreDump)

/-- The scan for modules passes over every other section. -/
theorem modulesFrom_filter (first : Bool) (sections : SectionList) :
    dump.modulesFrom first (sections.filter NamedSection.isModuleSection) =
      dump.modulesFrom first sections :=
  modulesFrom_filter_of_storesNone dump (fun _ plain => NamedSection.storedModule?_eq_none plain)
    first sections

/-- The first indexed section is the first one among the module sections. -/
theorem find?_indexed_filter (sections : SectionList) :
    (sections.filter NamedSection.isModuleSection).find?
        (fun entry => Scan.startsWith IndexedName.sectionLead entry.name) =
      sections.find? fun entry => Scan.startsWith IndexedName.sectionLead entry.name := by
  rw [List.find?_filter]
  congr 1
  funext entry
  unfold NamedSection.isModuleSection
  cases Scan.startsWith IndexedName.sectionLead entry.name <;> simp

section ReadsAlike

variable {left right : SectionList} (alike : left.ReadsAlike right)

include alike

theorem modules_congr : (dump.withSections left).modules = (dump.withSections right).modules :=
  calc
    (dump.withSections left).modules
      = (dump.withSections right).modulesFrom true left :=
        modulesFrom_congr dump alike.buildId?_eq true left
    _ = (dump.withSections right).modulesFrom true (left.filter NamedSection.isModuleSection) :=
        (modulesFrom_filter _ true left).symm
    _ = (dump.withSections right).modules := by
        rw [alike.modules, modulesFrom_filter]
        rfl

theorem executable_congr :
    (dump.withSections left).executable = (dump.withSections right).executable := by
  have found : left.find? (fun entry => Scan.startsWith IndexedName.sectionLead entry.name) =
      right.find? fun entry => Scan.startsWith IndexedName.sectionLead entry.name := by
    rw [← find?_indexed_filter left, alike.modules, find?_indexed_filter]
  have names : ∀ entry, (dump.withSections left).executableOf entry =
      (dump.withSections right).executableOf entry := by
    intro entry
    unfold executableOf
    simp only [resolvedName_congr dump alike.buildId?_eq]
  unfold executable
  rw [sections_withSections, sections_withSections, found]
  simp only [names]

theorem exceptionBytes_congr :
    (dump.withSections left).exceptionBytes = (dump.withSections right).exceptionBytes := by
  unfold exceptionBytes
  rw [sections_withSections, sections_withSections, alike.exception]

theorem rawException_congr :
    (dump.withSections left).rawException = (dump.withSections right).rawException := by
  unfold rawException
  rw [exceptionBytes_congr dump alike]
  rfl

theorem exceptionRange_congr (offset length : Nat) :
    (dump.withSections left).exceptionRange offset length =
      (dump.withSections right).exceptionRange offset length := by
  unfold exceptionRange
  rw [exceptionBytes_congr dump alike, rawException_congr dump alike]
  rfl

theorem threadName?_congr (thread : UInt64) :
    (dump.withSections left).threadName? thread = (dump.withSections right).threadName? thread := by
  unfold threadName?
  rw [sections_withSections, sections_withSections, alike.thread thread]
  rfl

/-- Dumps that see the same of their sections give the same answers. -/
theorem answersAlike_of_readsAlike :
    (dump.withSections left).AnswersAlike (dump.withSections right) where
  modules := modules_congr dump alike
  libraries := by
    unfold libraries
    rw [modules_congr dump alike]
  libraryList := by
    unfold libraryList libraries
    rw [modules_congr dump alike]
  executable := executable_congr dump alike
  threadName := threadName?_congr dump alike
  rawException := rawException_congr dump alike
  exception := by
    unfold exception
    rw [rawException_congr dump alike]
  exceptionRange := exceptionRange_congr dump alike
  loadAddress := by
    unfold SectionList.loadAddress?
    rw [sections_withSections, sections_withSections, alike.base]

end ReadsAlike

/--
Independent sections commute: a rearrangement that keeps the module sections in
order, and the sections of every name, changes no answer of a dump, no query to
its locator and no warning.  Neither does a section that no answer looks at,
wherever it is put in or taken out.
-/
theorem answersAlike_of_rearrangement :
    (∀ left right : SectionList, left.IsRearrangement right →
      (dump.withSections left).AnswersAlike (dump.withSections right)) ∧
    ∀ (before : SectionList) (entry : NamedSection) (after : SectionList), entry.IsUnread →
      (dump.withSections (before ++ entry :: after)).AnswersAlike
        (dump.withSections (before ++ after)) := by
  constructor
  · intro left right rearranged
    exact answersAlike_of_readsAlike dump rearranged.readsAlike
  · intro before entry after unread
    exact answersAlike_of_readsAlike dump (SectionList.readsAlike_insert unread before after)

/-- A dump whose build id stands behind its module, and a locator that asks for the build id. -/
def locatedDump : CoreDump where
  sections :=
    [⟨".coremodule/1000", [0x61, 0]⟩,
      ⟨".coremodule/2000", [0x62, 0]⟩,
      ⟨".corebuildid/2000", List.replicate IndexedName.buildIdSize 7⟩]
  profile := { Profile.windows64 with useSymbolServer := true }
  locator := some fun query => query.buildId.map fun _ => query.name ++ ".dll"

/-- The sections of the dump with the build id in front of its module. -/
def buildIdFirst : SectionList :=
  [⟨".coremodule/1000", [0x61, 0]⟩,
    ⟨".corebuildid/2000", List.replicate IndexedName.buildIdSize 7⟩,
    ⟨".coremodule/2000", [0x62, 0]⟩]

/-- The build id is found in both places, and with a section of code in front. -/
theorem locatedDump_modules :
    locatedDump.sections.IsRearrangement buildIdFirst ∧
      NamedSection.IsUnread ⟨".text", [0x90]⟩ ∧
      locatedDump.modules =
        ⟨[⟨"a", 0x1000⟩, ⟨"b.dll", 0x2000⟩],
          [⟨⟨"b", 0, 0, some (List.replicate IndexedName.buildIdSize 7)⟩, none, some "b.dll"⟩]⟩ ∧
      (locatedDump.withSections buildIdFirst).modules = locatedDump.modules ∧
      (locatedDump.withSections (⟨".text", [0x90]⟩ :: locatedDump.sections)).modules =
        locatedDump.modules := by
  have rearranged : locatedDump.sections.IsRearrangement buildIdFirst :=
    SectionList.isRearrangement_swap (by decide) (.inr (by decide +kernel))
      [⟨".coremodule/1000", [0x61, 0]⟩] []
  have unread : NamedSection.IsUnread ⟨".text", [0x90]⟩ :=
    NamedSection.isUnread_of_startsWith (by decide +kernel) (by decide) (by decide)
      (by decide +kernel) (by decide +kernel)
  obtain ⟨reordered, inserted⟩ := answersAlike_of_rearrangement locatedDump
  refine ⟨rearranged, unread, by decide +kernel, ?_, ?_⟩
  · exact (reordered _ _ rearranged).modules.symm
  · exact (inserted [] ⟨".text", [0x90]⟩ locatedDump.sections unread).modules

end CoreDump

end NtTarget
