import Mathlib.Data.List.Forall2
import NtTarget.Proofs.Dump.Discovery

/-!
# A locator can only replace names

The modules of a dump are the same with and without a locator to ask, in number,
order and address.  What a locator may change is the name of an indexed module
behind the first one: it is asked once for each of these, in discovery order,
and the dump's own name stays when it has no answer.
-/

namespace NtTarget

/-! ## What a locator is asked -/

/-- The number in a field of a section name, 0 where the name has none. -/
inductive IndexedName.FieldOrZero (name key : String) : UInt32 → Prop where
  | found {number : UInt32} {before run tail : List Char}
      (has : HasField name key number before run tail) : FieldOrZero name key number
  | missing (hasNone : ∀ number before run tail, ¬ HasField name key number before run tail) :
      FieldOrZero name key 0

/--
The build id of the module at an address: the 20 bytes of the first section
that the address names, in lowercase hexadecimal without leading zeros.
-/
structure SectionList.StoresBuildId (sections : SectionList) (address : UInt64) (id : Bytes) :
    Prop where
  size : id.length = 20
  first : ∃ digits before after, Hex.IsPlain digits address.toNat ∧
    sections = before ++ ⟨".corebuildid/" ++ String.ofList digits, id⟩ :: after ∧
      ∀ entry ∈ before, entry.name ≠ ".corebuildid/" ++ String.ofList digits

def NamedSection.isIndexed (entry : NamedSection) : Bool :=
  Scan.startsWith IndexedName.sectionLead entry.name

/-- The query about the module of an indexed section. -/
structure NamedSection.Asks (entry : NamedSection) (sections : SectionList) (query : SymbolQuery) :
    Prop where
  name : query.name = Utf16.decode entry.bytes
  size : IndexedName.FieldOrZero entry.name ";s=" query.size
  timestamp : IndexedName.FieldOrZero entry.name ";t=" query.timestamp
  buildId : ∀ module, StoresModule entry module →
    ∀ id, query.buildId = some id ↔ sections.StoresBuildId module.address id

def NamedSection.isDecodable (entry : NamedSection) : Bool :=
  entry.storedModule?.isSome

theorem NamedSection.isDecodable_iff {entry : NamedSection} :
    entry.isDecodable = true ↔ ∃ module, StoresModule entry module := by
  unfold isDecodable
  rw [Option.isSome_iff_exists]
  exact exists_congr fun module => storedModule?_eq_some_iff

/-- The sections that store a module, in discovery order. -/
def SectionList.moduleSections (sections : SectionList) : SectionList :=
  sections.filter NamedSection.isDecodable

/-- The sections whose modules are looked up: the indexed ones behind the first module. -/
def SectionList.lookedUpSections (sections : SectionList) : SectionList :=
  (sections.moduleSections.drop 1).filter NamedSection.isIndexed

/-- The module that comes of a section behind the first module, with a locator to ask. -/
inductive NamesModule (sections : SectionList) (locate : Locator) :
    NamedSection → ModuleEntry → Prop where
  | recorded {entry : NamedSection} {module : ModuleEntry}
      (notIndexed : entry.isIndexed = false)
      (stores : StoresModule entry module) : NamesModule sections locate entry module
  | located {entry : NamedSection} {module : ModuleEntry} {query : SymbolQuery} {path : String}
      (indexed : entry.isIndexed = true)
      (stores : StoresModule entry module) (asks : entry.Asks sections query)
      (answered : locate query = some path) :
      NamesModule sections locate entry ⟨path, module.address⟩
  | missed {entry : NamedSection} {module : ModuleEntry} {query : SymbolQuery}
      (indexed : entry.isIndexed = true)
      (stores : StoresModule entry module) (asks : entry.Asks sections query)
      (unanswered : locate query = none) : NamesModule sections locate entry module

namespace CoreDump

def withoutLocator (dump : CoreDump) : CoreDump :=
  { dump with locator := none }

/-- What a locator makes of a dump: other names for some modules, and nothing else. -/
structure RenamedBy (dump : CoreDump) (locate : Locator) : Prop where
  length : dump.modules.value.length = dump.withoutLocator.modules.value.length
  addresses : dump.modules.value.map (·.address) =
    dump.withoutLocator.modules.value.map (·.address)
  first : dump.modules.value.head? = dump.withoutLocator.modules.value.head?
  names : List.Forall₂ (NamesModule dump.sections locate) (dump.sections.moduleSections.drop 1)
    (dump.modules.value.drop 1)
  queries : List.Forall₂
    (fun entry lookup =>
      entry.Asks dump.sections lookup.query ∧ lookup.answer = locate lookup.query)
    dump.sections.lookedUpSections dump.modules.lookups
  warnings : dump.modules.warnings =
    (dump.modules.lookups.filter fun lookup => lookup.answer.isNone).map fun lookup =>
      Warning.moduleNotLocated lookup.query.name lookup.version
  unanswered : (∀ query, locate query = none) →
    dump.modules.value = dump.withoutLocator.modules.value

/-- No answer of a dump that could be looked up is. -/
structure AsksNothing (dump : CoreDump) : Prop where
  modules : dump.modules.lookups = []
  libraries : dump.libraries.lookups = []
  libraryList : dump.libraryList.lookups = []
  executable : dump.executable.lookups = []

end CoreDump

namespace IndexedName

theorem fieldOrZero_field? (name key : String) :
    FieldOrZero name key ((field? name key).getD 0) := by
  cases found : field? name key with
  | some number =>
      obtain ⟨before, run, tail, has⟩ := field?_eq_some_iff.1 found
      exact .found has
  | none =>
      refine .missing fun number before run tail has => ?_
      rw [field?_eq_some_iff.2 ⟨before, run, tail, has⟩] at found
      cases found

theorem buildId?_eq_some_iff {module : IndexedName} {sections : SectionList} {id : Bytes} :
    module.buildId? sections = some id ↔ sections.StoresBuildId module.address id := by
  unfold buildId?
  rw [Option.filter_eq_some_iff, SectionList.bytesOf?_eq_some_iff]
  constructor
  · rintro ⟨⟨before, after, whole, others⟩, size⟩
    exact ⟨eq_of_beq size, _, before, after, Hex.isPlain_digits _, whole, others⟩
  · rintro ⟨size, digits, before, after, plain, whole, others⟩
    obtain rfl := Hex.eq_digits_of_isPlain plain
    exact ⟨⟨before, after, whole, others⟩, beq_iff_eq.2 size⟩

end IndexedName

namespace NamedSection

/-- The look-up that a section asks for behind the first module. -/
def lookup? (entry : NamedSection) (sections : SectionList) (locate : Locator) : Option Lookup :=
  if entry.isIndexed then
    (IndexedName.parse? entry.name).map fun module =>
      module.lookup sections locate (Utf16.decode entry.bytes)
  else none

/-- The module of a section behind the first one, under the name that its look-up gives. -/
def locatedModule? (entry : NamedSection) (sections : SectionList) (locate : Locator) :
    Option ModuleEntry :=
  entry.storedModule?.map fun module =>
    { module with name := ((entry.lookup? sections locate).map Lookup.name).getD module.name }

theorem storedModule?_of_isIndexed {entry : NamedSection} (indexed : entry.isIndexed = true) :
    entry.storedModule? = (IndexedName.parse? entry.name).map fun module =>
      ⟨Utf16.decode entry.bytes, module.address⟩ :=
  if_pos indexed

theorem exists_parse?_of_storesModule {entry : NamedSection} {module : ModuleEntry}
    (indexed : entry.isIndexed = true) (stores : StoresModule entry module) :
    ∃ name, IndexedName.parse? entry.name = some name ∧
      module = ⟨Utf16.decode entry.bytes, name.address⟩ := by
  have found := storedModule?_eq_some_iff.2 stores
  rw [storedModule?_of_isIndexed indexed] at found
  obtain ⟨name, parsed, same⟩ := Option.map_eq_some_iff.1 found
  exact ⟨name, parsed, same.symm⟩

theorem asks_query {entry : NamedSection} {module : IndexedName} (indexed : entry.isIndexed = true)
    (parsed : IndexedName.parse? entry.name = some module) (sections : SectionList) :
    entry.Asks sections (module.query sections (Utf16.decode entry.bytes)) := by
  have fields : module.size = IndexedName.field? entry.name IndexedName.sizeKey ∧
      module.timestamp = IndexedName.field? entry.name IndexedName.timestampKey := by
    obtain ⟨address, -, rfl⟩ := Option.map_eq_some_iff.1 parsed
    exact ⟨rfl, rfl⟩
  refine ⟨rfl, ?_, ?_, ?_⟩
  · have size := IndexedName.fieldOrZero_field? entry.name IndexedName.sizeKey
    rw [← fields.1] at size
    exact size
  · have timestamp := IndexedName.fieldOrZero_field? entry.name IndexedName.timestampKey
    rw [← fields.2] at timestamp
    exact timestamp
  · intro stored stores id
    obtain ⟨name, again, rfl⟩ := exists_parse?_of_storesModule indexed stores
    cases parsed.symm.trans again
    exact IndexedName.buildId?_eq_some_iff

/-- The look-up of an indexed section that decodes asks about its module and keeps the answer. -/
theorem exists_lookup?_of_storesModule {entry : NamedSection} {module : ModuleEntry}
    (indexed : entry.isIndexed = true) (stores : StoresModule entry module)
    (sections : SectionList) (locate : Locator) :
    ∃ lookup, entry.lookup? sections locate = some lookup ∧ entry.Asks sections lookup.query ∧
      lookup.answer = locate lookup.query ∧ lookup.query.name = module.name := by
  obtain ⟨name, parsed, rfl⟩ := exists_parse?_of_storesModule indexed stores
  refine ⟨name.lookup sections locate (Utf16.decode entry.bytes), ?_,
    asks_query indexed parsed sections, rfl, rfl⟩
  unfold lookup?
  rw [if_pos indexed, parsed]
  rfl

theorem lookup?_of_notIndexed {entry : NamedSection} (notIndexed : entry.isIndexed = false)
    (sections : SectionList) (locate : Locator) : entry.lookup? sections locate = none := by
  unfold lookup?
  rw [notIndexed]
  exact if_neg Bool.false_ne_true

theorem locatedModule?_of_storesModule {entry : NamedSection} {module : ModuleEntry}
    (stores : StoresModule entry module) (sections : SectionList) (locate : Locator) :
    entry.locatedModule? sections locate = some { module with
      name := ((entry.lookup? sections locate).map Lookup.name).getD module.name } := by
  unfold locatedModule?
  rw [storedModule?_eq_some_iff.2 stores]
  rfl

theorem exists_locatedModule?_of_storesModule {entry : NamedSection} {module : ModuleEntry}
    (stores : StoresModule entry module) (sections : SectionList) (locate : Locator) :
    ∃ named, entry.locatedModule? sections locate = some named ∧
      NamesModule sections locate entry named := by
  rw [locatedModule?_of_storesModule stores]
  cases indexed : entry.isIndexed with
  | false =>
      rw [lookup?_of_notIndexed indexed]
      exact ⟨module, rfl, .recorded indexed stores⟩
  | true =>
      obtain ⟨lookup, found, asks, answer, own⟩ :=
        exists_lookup?_of_storesModule indexed stores sections locate
      rw [found, Option.map_some, Option.getD_some, Lookup.name, answer, own]
      cases outcome : locate lookup.query with
      | some path => exact ⟨_, rfl, .located indexed stores asks outcome⟩
      | none => exact ⟨_, rfl, .missed indexed stores asks outcome⟩

/-- A look-up without an answer leaves the module as it is stored. -/
theorem locatedModule?_of_nothing {locate : Locator} (nothing : ∀ query, locate query = none)
    (entry : NamedSection) (sections : SectionList) :
    entry.locatedModule? sections locate = entry.storedModule? := by
  cases found : entry.storedModule? with
  | none =>
      unfold locatedModule?
      rw [found]
      rfl
  | some module =>
      have stores := storedModule?_eq_some_iff.1 found
      rw [locatedModule?_of_storesModule stores]
      cases indexed : entry.isIndexed with
      | false =>
          rw [lookup?_of_notIndexed indexed]
          rfl
      | true =>
          obtain ⟨lookup, asked, -, answer, own⟩ :=
            exists_lookup?_of_storesModule indexed stores sections locate
          rw [asked, Option.map_some, Option.getD_some, Lookup.name, answer, nothing, own]
          rfl

end NamedSection

namespace CoreDump

variable {dump : CoreDump} {locate : Locator}

/-- Behind the first module, a section is looked up exactly when it is indexed and decodes. -/
theorem moduleOf_of_active (active : dump.activeLocator? = some locate) (entry : NamedSection) :
    dump.moduleOf false entry =
      ⟨entry.locatedModule? dump.sections locate, (entry.lookup? dump.sections locate).toList⟩ := by
  unfold moduleOf NamedSection.locatedModule? NamedSection.lookup? NamedSection.storedModule?
    NamedSection.isIndexed
  by_cases indexed : Scan.startsWith IndexedName.sectionLead entry.name = true
  · rw [if_pos indexed, if_pos indexed, if_pos indexed]
    unfold indexedModule resolvedName
    rw [active]
    cases IndexedName.parse? entry.name <;> rfl
  · rw [if_neg indexed, if_neg indexed, if_neg indexed]
    split
    · cases recordedModule? entry <;> rfl
    · rfl

theorem modulesFrom_of_active (active : dump.activeLocator? = some locate)
    (sections : SectionList) :
    dump.modulesFrom false sections =
      ⟨sections.filterMap fun entry => entry.locatedModule? dump.sections locate,
        sections.filterMap fun entry => entry.lookup? dump.sections locate⟩ := by
  induction sections with
  | nil => rfl
  | cons entry rest ih =>
      rw [modulesFrom_cons, moduleOf_of_active active, Bool.false_and, ih]
      simp only [Traced.zipWith, List.filterMap_cons]
      cases entry.locatedModule? dump.sections locate <;>
        cases entry.lookup? dump.sections locate <;> rfl

end CoreDump

namespace SectionList

theorem storedModules_eq_filterMap_moduleSections (sections : SectionList) :
    sections.storedModules = sections.moduleSections.filterMap NamedSection.storedModule? := by
  unfold storedModules moduleSections
  rw [List.filterMap_filter]
  refine List.filterMap_congr fun entry _ => ?_
  unfold NamedSection.isDecodable
  cases entry.storedModule? <;> rfl

end SectionList

namespace CoreDump

variable {dump : CoreDump} {locate : Locator}

theorem activeLocator?_eq_some_iff :
    dump.activeLocator? = some locate ↔
      dump.profile.useSymbolServer = true ∧ dump.locator = some locate := by
  unfold activeLocator?
  cases dump.profile.useSymbolServer <;> simp

theorem modules_withoutLocator (dump : CoreDump) :
    dump.withoutLocator.modules = .silent dump.sections.storedModules := by
  have quiet : dump.withoutLocator.activeLocator? = none := by
    unfold activeLocator?
    exact ite_self none
  exact modulesFrom_eq_storedModules dump.withoutLocator quiet true dump.sections

/--
A dump stores no module, or its first module keeps the name that it is stored
under and the other module sections follow it, each with its look-up.
-/
theorem modules_of_active (active : dump.activeLocator? = some locate) :
    (dump.sections.moduleSections = [] ∧ dump.modules = .silent [] ∧
      dump.sections.storedModules = []) ∨
    ∃ entry rest module, dump.sections.moduleSections = entry :: rest ∧
      dump.modules =
        ⟨module :: rest.filterMap fun other => other.locatedModule? dump.sections locate,
          rest.filterMap fun other => other.lookup? dump.sections locate⟩ ∧
      dump.sections.storedModules = module :: rest.filterMap NamedSection.storedModule? := by
  have scanned : dump.modules = dump.modulesFrom true dump.sections.moduleSections := by
    refine (modulesFrom_filter_of_storesNone dump ?_ true dump.sections).symm
    intro entry undecodable
    exact Option.not_isSome_iff_eq_none.1 (Bool.eq_false_iff.1 undecodable)
  have stored := dump.sections.storedModules_eq_filterMap_moduleSections
  cases shape : dump.sections.moduleSections with
  | nil =>
      rw [shape] at scanned stored
      exact .inl ⟨rfl, scanned, stored⟩
  | cons entry rest =>
      rw [shape] at scanned stored
      have inside : entry ∈ dump.sections.moduleSections := by
        rw [shape]
        exact List.mem_cons_self
      obtain ⟨module, found⟩ := Option.isSome_iff_exists.1 (List.mem_filter.1 inside).2
      refine .inr ⟨entry, rest, module, rfl, ?_, ?_⟩
      · rw [scanned, modulesFrom_cons, moduleOf_eq_silent dump (.inl rfl), found]
        simp only [Traced.silent, Option.isNone_some, Bool.and_false,
          modulesFrom_of_active active]
        rfl
      · rw [stored, List.filterMap_cons_some found]

/-! ## The modules behind the first one -/

theorem forall₂_filterMap_of_mem {α β : Type} {R : α → β → Prop} {f : α → Option β} {list : List α}
    (each : ∀ a ∈ list, ∃ b, f a = some b ∧ R a b) : List.Forall₂ R list (list.filterMap f) := by
  induction list with
  | nil => exact .nil
  | cons a rest ih =>
      obtain ⟨here, there⟩ := List.forall_mem_cons.1 each
      obtain ⟨b, found, related⟩ := here
      rw [List.filterMap_cons_some found]
      exact .cons related (ih there)

section Rest

variable {sections rest : SectionList} (decodable : ∀ entry ∈ rest, entry.isDecodable = true)

include decodable

theorem forall₂_namesModule (locate : Locator) :
    List.Forall₂ (NamesModule sections locate) rest
      (rest.filterMap fun entry => entry.locatedModule? sections locate) := by
  refine forall₂_filterMap_of_mem fun entry inside => ?_
  obtain ⟨module, stores⟩ := NamedSection.isDecodable_iff.1 (decodable entry inside)
  exact NamedSection.exists_locatedModule?_of_storesModule stores sections locate

theorem forall₂_asks (locate : Locator) :
    List.Forall₂
      (fun entry lookup => entry.Asks sections lookup.query ∧ lookup.answer = locate lookup.query)
      (rest.filter NamedSection.isIndexed)
      (rest.filterMap fun entry => entry.lookup? sections locate) := by
  have indexedOnly : (rest.filterMap fun entry => entry.lookup? sections locate) =
      (rest.filter NamedSection.isIndexed).filterMap fun entry =>
        entry.lookup? sections locate := by
    rw [List.filterMap_filter]
    refine List.filterMap_congr fun entry _ => ?_
    cases indexed : entry.isIndexed with
    | true => rfl
    | false => exact NamedSection.lookup?_of_notIndexed indexed sections locate
  rw [indexedOnly]
  refine forall₂_filterMap_of_mem fun entry inside => ?_
  obtain ⟨behind, indexed⟩ := List.mem_filter.1 inside
  obtain ⟨module, stores⟩ := NamedSection.isDecodable_iff.1 (decodable entry behind)
  obtain ⟨lookup, found, asks, answer, -⟩ :=
    NamedSection.exists_lookup?_of_storesModule indexed stores sections locate
  exact ⟨lookup, found, asks, answer⟩

end Rest

theorem map_address_locatedModule? (sections rest : SectionList) (locate : Locator) :
    (rest.filterMap fun entry => entry.locatedModule? sections locate).map (·.address) =
      (rest.filterMap NamedSection.storedModule?).map (·.address) := by
  rw [List.map_filterMap, List.map_filterMap]
  refine List.filterMap_congr fun entry _ => ?_
  unfold NamedSection.locatedModule?
  rw [Option.map_map]
  rfl

/-- There is one warning for every look-up without an answer, and no other. -/
theorem filterMap_warning? (lookups : List Lookup) :
    lookups.filterMap Lookup.warning? =
      (lookups.filter fun lookup => lookup.answer.isNone).map fun lookup =>
        Warning.moduleNotLocated lookup.query.name lookup.version := by
  induction lookups with
  | nil => rfl
  | cons lookup rest ih =>
      rcases lookup with ⟨query, version, answer⟩
      cases answer with
      | none => exact congrArg (_ :: ·) ih
      | some path => exact ih

theorem renamedBy_of_active (active : dump.activeLocator? = some locate) :
    dump.RenamedBy locate := by
  have plain := modules_withoutLocator dump
  have warnings := filterMap_warning? dump.modules.lookups
  obtain ⟨noSections, scanned, stored⟩ | ⟨entry, rest, module, shape, scanned, stored⟩ :=
    modules_of_active active
  · constructor <;> simp [plain, scanned, stored, noSections, SectionList.lookedUpSections,
      Traced.silent, Traced.warnings]
  · have decodable : ∀ other ∈ rest, other.isDecodable = true := by
      intro other behind
      have inside : other ∈ dump.sections.moduleSections := by
        rw [shape]
        exact List.mem_cons_of_mem _ behind
      exact (List.mem_filter.1 inside).2
    have addresses : dump.modules.value.map (·.address) =
        dump.withoutLocator.modules.value.map (·.address) := by
      rw [scanned, plain, stored]
      exact congrArg (module.address :: ·) (map_address_locatedModule? dump.sections rest locate)
    refine ⟨?length, addresses, ?first, ?names, ?queries, warnings, ?unanswered⟩
    case length => simpa only [List.length_map] using congrArg List.length addresses
    case first =>
      rw [scanned, plain, stored]
      rfl
    case names =>
      rw [shape, scanned]
      exact forall₂_namesModule decodable locate
    case queries =>
      unfold SectionList.lookedUpSections
      rw [shape, scanned]
      exact forall₂_asks decodable locate
    case unanswered =>
      intro nothing
      rw [scanned, plain, stored]
      refine congrArg (module :: ·) (List.filterMap_congr fun other _ => ?_)
      exact other.locatedModule?_of_nothing nothing dump.sections

/-! ## A dump without a locator to ask -/

theorem resolvedName_of_quiet (quiet : dump.activeLocator? = none) (module : IndexedName)
    (payload : Bytes) : dump.resolvedName module payload = .silent (Utf16.decode payload) := by
  unfold resolvedName
  rw [quiet]

theorem executable_lookups_of_quiet (quiet : dump.activeLocator? = none) :
    dump.executable.lookups = [] := by
  unfold executable
  cases dump.sections.find? fun entry => Scan.startsWith IndexedName.sectionLead entry.name with
  | none => rfl
  | some entry =>
      dsimp only
      unfold executableOf
      cases IndexedName.parse? entry.name with
      | none => rfl
      | some module =>
          dsimp only
          rw [resolvedName_of_quiet quiet]
          rfl

/--
A locator can only replace names.  With symbol look-ups turned on, the modules
of a dump are as many, in the same order and at the same addresses as without a
locator; the first module and every recorded one keep their names, and another
indexed module has the path that the locator finds for it or its own name.  One
query is made for each of the indexed sections behind the first module that
decode, in discovery order, and one warning given for each that is not
answered; a locator that answers none changes nothing.  With symbol look-ups
turned off no query is made at all.
-/
theorem locator_replaces_names (dump : CoreDump) :
    (∀ entry, entry ∈ dump.sections.moduleSections ↔
      entry ∈ dump.sections ∧ ∃ module, StoresModule entry module) ∧
    List.Forall₂ StoresModule dump.sections.moduleSections dump.withoutLocator.modules.value ∧
    (∀ locate, dump.profile.useSymbolServer = true → dump.locator = some locate →
      dump.RenamedBy locate) ∧
    (dump.profile.useSymbolServer = false → dump.AsksNothing) := by
  refine ⟨?_, ?_, ?_, ?_⟩
  · intro entry
    unfold SectionList.moduleSections
    rw [List.mem_filter, NamedSection.isDecodable_iff]
  · rw [modules_withoutLocator, Traced.silent,
      SectionList.storedModules_eq_filterMap_moduleSections]
    refine forall₂_filterMap_of_mem fun entry inside => ?_
    obtain ⟨module, stores⟩ := NamedSection.isDecodable_iff.1 (List.mem_filter.1 inside).2
    exact ⟨module, NamedSection.storedModule?_eq_some_iff.2 stores, stores⟩
  · intro locate enabled attached
    exact renamedBy_of_active (activeLocator?_eq_some_iff.2 ⟨enabled, attached⟩)
  · intro disabled
    have quiet : dump.activeLocator? = none := by
      unfold activeLocator?
      rw [disabled]
      rfl
    have modules : dump.modules.lookups = [] :=
      congrArg Traced.lookups (modulesFrom_eq_storedModules dump quiet true dump.sections)
    exact ⟨modules, modules, modules, executable_lookups_of_quiet quiet⟩

/-- A locator that knows modules by their build id. -/
def locateByBuildId : Locator :=
  fun query => query.buildId.map fun _ => query.name ++ ".dll"

/--
A dump whose first section has no usable address, with a recorded module in
front of two indexed ones, of which the first has a build id.
-/
def searchedDump : CoreDump where
  sections :=
    [⟨".coremodule/zz", [0x7A, 0]⟩,
      ⟨".module", [3, 0, 0, 0, 0, 0, 0x40, 0, 2, 0, 0, 0, 0x61, 0]⟩,
      ⟨".coremodule/2000;s=10", [0x62, 0]⟩,
      ⟨".coremodule/3000", [0x63, 0]⟩,
      ⟨".corebuildid/2000", List.replicate IndexedName.buildIdSize 7⟩]
  profile := { Profile.windows64 with useSymbolServer := true }
  locator := some locateByBuildId

/-- Only the module with a build id is renamed, and the other one gives a warning. -/
theorem searchedDump_renamedBy :
    searchedDump.profile.useSymbolServer = true ∧
      searchedDump.locator = some locateByBuildId ∧
      searchedDump.RenamedBy locateByBuildId ∧
      searchedDump.modules =
        ⟨[⟨"a", 0x400000⟩, ⟨"b.dll", 0x2000⟩, ⟨"c", 0x3000⟩],
          [⟨⟨"b", 0x10, 0, some (List.replicate IndexedName.buildIdSize 7)⟩, none, some "b.dll"⟩,
            ⟨⟨"c", 0, 0, none⟩, none, none⟩]⟩ ∧
      searchedDump.modules.warnings = [.moduleNotLocated "c" none] ∧
      { searchedDump with profile := .windows64 }.AsksNothing := by
  obtain ⟨-, -, renamed, -⟩ := locator_replaces_names searchedDump
  obtain ⟨-, -, -, disabled⟩ := locator_replaces_names { searchedDump with profile := .windows64 }
  exact ⟨rfl, rfl, renamed locateByBuildId rfl rfl, by decide +kernel, by decide +kernel,
    disabled rfl⟩

end CoreDump

end NtTarget
