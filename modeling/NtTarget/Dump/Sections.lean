import NtTarget.Bytes.Basic

/-!
# Named sections

A dump presents its notes as named byte strings in discovery order.  Names may
repeat; a look-up answers with the first section of a name.
-/

namespace NtTarget

structure NamedSection where
  name : String
  bytes : Bytes
  deriving Repr, DecidableEq

abbrev SectionList := List NamedSection

namespace SectionList

/-- The bytes of the first section with a name. -/
def bytesOf? (sections : SectionList) (name : String) : Option Bytes :=
  (sections.find? fun entry => entry.name == name).map (·.bytes)

/-- The size of the first section with a name, 0 without one. -/
def sizeOf (sections : SectionList) (name : String) : Nat :=
  ((sections.bytesOf? name).map List.length).getD 0

/-- Only the first section of a name answers. -/
theorem bytesOf?_cons (entry : NamedSection) (rest : SectionList) (name : String) :
    bytesOf? (entry :: rest) name =
      if entry.name = name then some entry.bytes else bytesOf? rest name := by
  by_cases same : entry.name = name <;> simp [bytesOf?, same]

/-- A look-up finds the bytes of a section of that name in front of which no other stands. -/
theorem bytesOf?_eq_some_iff {sections : SectionList} {name : String} {bytes : Bytes} :
    sections.bytesOf? name = some bytes ↔
      ∃ before after, sections = before ++ ⟨name, bytes⟩ :: after ∧
        ∀ entry ∈ before, entry.name ≠ name := by
  unfold bytesOf?
  rw [Option.map_eq_some_iff]
  constructor
  · rintro ⟨⟨_, _⟩, found, rfl⟩
    obtain ⟨named, before, after, rfl, others⟩ := List.find?_eq_some_iff_append.1 found
    obtain rfl := eq_of_beq named
    exact ⟨before, after, rfl, fun entry inside => by simpa using others entry inside⟩
  · rintro ⟨before, after, rfl, others⟩
    refine ⟨⟨name, bytes⟩, List.find?_eq_some_iff_append.2 ⟨beq_self_eq_true name, before, after,
      rfl, ?_⟩, rfl⟩
    intro entry inside
    simpa using others entry inside

theorem bytesOf?_eq_none_iff {sections : SectionList} {name : String} :
    sections.bytesOf? name = none ↔ ∀ entry ∈ sections, entry.name ≠ name := by
  unfold bytesOf?
  rw [Option.map_eq_none_iff, List.find?_eq_none]
  simp only [beq_iff_eq, ne_eq]

end SectionList

end NtTarget
