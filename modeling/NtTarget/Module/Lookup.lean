import NtTarget.Dump.Sections
import NtTarget.Module.IndexedName
import NtTarget.Warning

/-!
# Locating modules

A locator may know a better name for a module than its dump.  It answers a
query and sees nothing else.  Every query that is made is kept with its answer,
so that queries and warnings can be read off a result in order.
-/

namespace NtTarget

/-- What a locator is told about a module. -/
structure SymbolQuery where
  name : String
  size : UInt32
  timestamp : UInt32
  buildId : Option Bytes
  deriving Repr, DecidableEq

/-- A locator answers a query with a path, or not at all. -/
abbrev Locator := SymbolQuery → Option String

structure Lookup where
  query : SymbolQuery
  version : Option String
  answer : Option String
  deriving Repr, DecidableEq

namespace Lookup

/-- The name of the module after the query: the answer, or its own name. -/
def name (lookup : Lookup) : String :=
  lookup.answer.getD lookup.query.name

/-- A query without an answer is worth a warning. -/
def warning? (lookup : Lookup) : Option Warning :=
  match lookup.answer with
  | some _ => none
  | none => some (.moduleNotLocated lookup.query.name lookup.version)

end Lookup

/-- A value and the queries that were made for it, in order. -/
structure Traced (α : Type) where
  value : α
  lookups : List Lookup
  deriving Repr, DecidableEq

namespace Traced

/-- A value for which no query was made. -/
def silent {α : Type} (value : α) : Traced α :=
  ⟨value, []⟩

/-- Change the value and keep the queries. -/
def map {α β : Type} (f : α → β) (traced : Traced α) : Traced β :=
  ⟨f traced.value, traced.lookups⟩

/-- Combine two values whose queries follow each other. -/
def zipWith {α β γ : Type} (f : α → β → γ) (first : Traced α) (second : Traced β) : Traced γ :=
  ⟨f first.value second.value, first.lookups ++ second.lookups⟩

def warnings {α : Type} (traced : Traced α) : List Warning :=
  traced.lookups.filterMap Lookup.warning?

end Traced

namespace IndexedName

def buildIdSize : Nat :=
  20

/-- The build id of a module, when its section has the size of one. -/
def buildId? (module : IndexedName) (sections : SectionList) : Option Bytes :=
  (sections.bytesOf? module.buildIdSection).filter fun stored => stored.length == buildIdSize

/-- What a locator is told about a module with a given name of its own. -/
def query (module : IndexedName) (sections : SectionList) (name : String) : SymbolQuery :=
  ⟨name, module.size.getD 0, module.timestamp.getD 0, module.buildId? sections⟩

def lookup (module : IndexedName) (sections : SectionList) (locate : Locator) (name : String) :
    Lookup :=
  ⟨module.query sections name, module.version, locate (module.query sections name)⟩

end IndexedName

end NtTarget
