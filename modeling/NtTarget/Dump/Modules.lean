import NtTarget.Dump.Basic
import NtTarget.Module.Record
import NtTarget.Text.Utf16

/-!
# The modules of a dump

Sections of both conventions are scanned in discovery order, and a section that
does not decode contributes nothing.  The first module is the executable: its
name is never looked up, and the library list leaves it out.
-/

namespace NtTarget.CoreDump

/-- The name that an indexed module gets, through the active locator if there is one. -/
def resolvedName (dump : CoreDump) (module : IndexedName) (payload : Bytes) : Traced String :=
  let name := Utf16.decode payload
  match dump.activeLocator? with
  | some locate =>
      let lookup := module.lookup dump.sections locate name
      ⟨lookup.name, [lookup]⟩
  | none => .silent name

/-- The module of an indexed section, looked up unless it comes first. -/
def indexedModule (dump : CoreDump) (first : Bool) (entry : NamedSection) :
    Traced (Option ModuleEntry) :=
  match IndexedName.parse? entry.name with
  | none => .silent none
  | some module =>
      let name :=
        if first then .silent (Utf16.decode entry.bytes) else dump.resolvedName module entry.bytes
      name.map fun text => some ⟨text, module.address⟩

/-- The module of a section with a module record. -/
def recordedModule? (entry : NamedSection) : Option ModuleEntry :=
  (ModuleRecord.decode entry.bytes).toOption

/-- The module that a section contributes. -/
def moduleOf (dump : CoreDump) (first : Bool) (entry : NamedSection) :
    Traced (Option ModuleEntry) :=
  if Scan.startsWith IndexedName.sectionLead entry.name then dump.indexedModule first entry
  else if Scan.startsWith ModuleRecord.sectionLead entry.name then .silent (recordedModule? entry)
  else .silent none

/-- The modules of a run of sections; `first` says that no module came before. -/
def modulesFrom (dump : CoreDump) : Bool → SectionList → Traced (List ModuleEntry)
  | _, [] => .silent []
  | first, entry :: rest =>
      let head := dump.moduleOf first entry
      let tail := dump.modulesFrom (first && head.value.isNone) rest
      head.zipWith (fun found later => found.toList ++ later) tail

/-- Every module in discovery order, the executable first. -/
def modules (dump : CoreDump) : Traced (List ModuleEntry) :=
  dump.modulesFrom true dump.sections

def libraries (dump : CoreDump) : Traced (List ModuleEntry) :=
  dump.modules.map List.tail

def libraryList (dump : CoreDump) : Traced String :=
  dump.libraries.map LibraryList.render

/-- The name of the executable that an indexed section stores; its address need not be usable. -/
def executableOf (dump : CoreDump) (entry : NamedSection) : Traced String :=
  match IndexedName.parse? entry.name with
  | some module => dump.resolvedName module entry.bytes
  | none => .silent (Utf16.decode entry.bytes)

/-- The name of the executable, from the first indexed section. -/
def executable (dump : CoreDump) : Traced (Option String) :=
  match dump.sections.find? fun entry => Scan.startsWith IndexedName.sectionLead entry.name with
  | some entry => (dump.executableOf entry).map some
  | none => .silent none

theorem modulesFrom_cons (dump : CoreDump) (first : Bool) (entry : NamedSection)
    (rest : SectionList) :
    dump.modulesFrom first (entry :: rest) =
      (dump.moduleOf first entry).zipWith (fun found later => found.toList ++ later)
        (dump.modulesFrom (first && (dump.moduleOf first entry).value.isNone) rest) := rfl

end NtTarget.CoreDump
