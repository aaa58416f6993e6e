import Mathlib.Data.List.Nodup
import NtTarget.Dump.Threads
import NtTarget.Text.Utf8

/-!
# Names of threads

A dump stores the name of a thread under the decimal digits of its id, which no
other thread has.  What is shown of a name is its longest front within the limit.
The limit counts characters; the cut is made in the bytes of the name, at the
place where the first character behind the limit starts.
-/

namespace NtTarget

/-! ## Cutting a text between two characters -/

namespace Utf8

/-- Where the characters of a text start in its bytes, from a given place on. -/
def charStarts : Nat → List Char → List Nat
  | _, [] => []
  | place, c :: rest => place :: charStarts (place + (encodeChar c).length) rest

/-- The bytes of a text in front of the character at a position, or all of them without one. -/
def bytesBefore (text : String) (position : Nat) : Bytes :=
  match (charStarts 0 text.toList)[position]? with
  | some place => (encode text).take place
  | none => encode text

theorem getElem?_charStarts (place : Nat) (text : List Char) (position : Nat) :
    (charStarts place text)[position]? =
      if position < text.length then
        some (place + ((text.take position).flatMap encodeChar).length)
      else none := by
  induction text generalizing place position with
  | nil => simp [charStarts]
  | cons c rest ih =>
      cases position with
      | zero => simp [charStarts]
      | succ position => simp [charStarts, ih, Nat.add_assoc]

/-- The bytes in front of a character are those of the characters in front of it. -/
theorem bytesBefore_eq_encode (text : String) (position : Nat) :
    bytesBefore text position = encode (String.ofList (text.toList.take position)) := by
  unfold bytesBefore encode
  rw [getElem?_charStarts, String.toList_ofList]
  by_cases inside : position < text.toList.length
  · have whole : text.toList.flatMap encodeChar =
        (text.toList.take position).flatMap encodeChar ++
          (text.toList.drop position).flatMap encodeChar := by
      rw [← List.flatMap_append, List.take_append_drop]
    rw [if_pos inside, Nat.zero_add, whole]
    exact List.take_left
  · rw [if_neg inside, List.take_of_length_le (Nat.not_lt.1 inside)]

end Utf8

namespace ThreadName

/--
What is shown of a name under a limit: the front of at most so many characters
that no other such front exceeds.  Its bytes are cut where a character starts.
-/
structure IsShown (name : String) (limit : Nat) (text : String) : Prop where
  front : ∃ rest, name = text ++ rest
  short : text.length ≤ limit
  longest : ∀ other rest, name = other ++ rest → other.length ≤ limit →
    other.length ≤ text.length
  bytes : Utf8.encode text = Utf8.bytesBefore name limit

theorem isShown_iff {name : String} {limit : Nat} {text : String} :
    IsShown name limit text ↔ text = String.ofList (name.toList.take limit) := by
  have cut : name = String.ofList (name.toList.take limit) ++
      String.ofList (name.toList.drop limit) := by
    rw [← String.ofList_append, List.take_append_drop, String.ofList_toList]
  have length : (String.ofList (name.toList.take limit)).length = min limit name.length := by
    rw [String.length_ofList, List.length_take, String.length_toList]
  constructor
  · rintro ⟨⟨rest, rfl⟩, short, longest, -⟩
    have least := longest _ _ cut (length ▸ Nat.min_le_left _ _)
    rw [length, String.length_append] at least
    -- The front is within the limit, and what is left fits behind it only when it is empty.
    have nothing : rest.toList.take (limit - text.toList.length) = [] := by
      rw [List.take_eq_nil_iff, String.length_toList, ← List.length_eq_zero_iff,
        String.length_toList]
      omega
    rw [String.toList_append, List.take_append, nothing, List.append_nil,
      List.take_of_length_le (String.length_toList ▸ short), String.ofList_toList]
  · rintro rfl
    refine ⟨⟨_, cut⟩, length ▸ Nat.min_le_left _ _, ?_,
      (Utf8.bytesBefore_eq_encode name limit).symm⟩
    rintro other rest whole short
    rw [length, whole, String.length_append]
    omega

/-- Threads with different ids have their names in sections of different names. -/
theorem sectionName_inj {first second : UInt64} :
    sectionName first = sectionName second ↔ first = second := by
  refine ⟨fun same => UInt64.toNat_inj.1 ?_, congrArg sectionName⟩
  have digits := congrArg String.toList ((String.append_right_inj sectionLead).1 same)
  rw [Nat.toList_repr, Nat.toList_repr] at digits
  calc
    first.toNat = Nat.ofDigitChars 10 (Nat.toDigits 10 first.toNat) 0 :=
        Nat.ofDigitChars_ten_toDigits.symm
    _ = second.toNat := by rw [digits, Nat.ofDigitChars_ten_toDigits]

end ThreadName

/-! ## The sections that store names -/

def NamedSection.isThreadName (entry : NamedSection) : Bool :=
  Scan.startsWith ThreadName.sectionLead entry.name

/--
Sections that store some names of threads, one for each thread and in any order,
among others that are not named like the name of a thread.
-/
structure SectionList.StoresNames (sections : SectionList) (names : List (UInt64 × Bytes)) :
    Prop where
  distinct : (names.map Prod.fst).Nodup
  stored : (sections.filter NamedSection.isThreadName).Perm
    (names.map fun name => ⟨ThreadName.sectionName name.1, name.2⟩)

namespace SectionList.StoresNames

variable {sections : SectionList} {names : List (UInt64 × Bytes)}

theorem mem_iff (stores : sections.StoresNames names) (thread : UInt64) (payload : Bytes) :
    ⟨ThreadName.sectionName thread, payload⟩ ∈ sections ↔ (thread, payload) ∈ names := by
  have named : NamedSection.isThreadName ⟨ThreadName.sectionName thread, payload⟩ = true :=
    Scan.startsWith_iff.2 ⟨_, String.toList_append⟩
  have stored := stores.stored.mem_iff (a := ⟨ThreadName.sectionName thread, payload⟩)
  rw [List.mem_filter, and_iff_left named, List.mem_map] at stored
  rw [stored]
  constructor
  · rintro ⟨⟨other, bytes⟩, inside, same⟩
    obtain ⟨sameName, rfl⟩ := NamedSection.mk.inj same
    rwa [← ThreadName.sectionName_inj.1 sameName]
  · intro inside
    exact ⟨_, inside, rfl⟩

theorem eq_of_mem (stores : sections.StoresNames names) {thread : UInt64} {first second : Bytes}
    (left : (thread, first) ∈ names) (right : (thread, second) ∈ names) : first = second :=
  congrArg Prod.snd (List.inj_on_of_nodup_map stores.distinct left right rfl)

/-- The look-up of a thread's section finds the name of that thread. -/
theorem bytesOf?_eq_some_iff (stores : sections.StoresNames names) {thread : UInt64}
    {payload : Bytes} :
    sections.bytesOf? (ThreadName.sectionName thread) = some payload ↔
      (thread, payload) ∈ names := by
  have sound : ∀ found, sections.bytesOf? (ThreadName.sectionName thread) = some found →
      (thread, found) ∈ names := by
    intro found looked
    obtain ⟨before, after, rfl, -⟩ := SectionList.bytesOf?_eq_some_iff.1 looked
    exact (stores.mem_iff thread found).1 (List.mem_append_right before List.mem_cons_self)
  refine ⟨sound payload, fun inside => ?_⟩
  cases looked : sections.bytesOf? (ThreadName.sectionName thread) with
  | some found => rw [stores.eq_of_mem (sound found looked) inside]
  | none =>
      have there := (stores.mem_iff thread payload).2 inside
      exact absurd rfl (bytesOf?_eq_none_iff.1 looked _ there)

theorem bytesOf?_eq_none_iff (stores : sections.StoresNames names) {thread : UInt64} :
    sections.bytesOf? (ThreadName.sectionName thread) = none ↔
      ∀ payload, (thread, payload) ∉ names := by
  rw [Option.eq_none_iff_forall_ne_some]
  exact forall_congr' fun payload => not_congr stores.bytesOf?_eq_some_iff

end SectionList.StoresNames

namespace CoreDump

variable {dump : CoreDump} {thread : UInt64}

theorem threadName?_eq_some_iff {text : String} :
    dump.threadName? thread = some text ↔
      thread ≠ 0 ∧ ∃ payload,
        dump.sections.bytesOf? (ThreadName.sectionName thread) = some payload ∧ payload ≠ [] ∧
          ThreadName.IsShown (Utf16.decode payload) dump.profile.threadNameLimit text := by
  unfold threadName?
  by_cases process : thread = 0
  · simp [process]
  · rw [if_neg process, and_iff_right process]
    cases dump.sections.bytesOf? (ThreadName.sectionName thread) with
    | none => simp
    | some payload =>
        cases payload with
        | nil => simp
        | cons byte rest => simp [ThreadName.isShown_iff, eq_comm]

theorem threadName?_eq_none_iff :
    dump.threadName? thread = none ↔
      thread = 0 ∨ dump.sections.bytesOf? (ThreadName.sectionName thread) = none ∨
        dump.sections.bytesOf? (ThreadName.sectionName thread) = some [] := by
  unfold threadName?
  by_cases process : thread = 0
  · simp [process]
  · rw [if_neg process, or_iff_right process]
    cases dump.sections.bytesOf? (ThreadName.sectionName thread) with
    | none => simp
    | some payload => cases payload <;> simp

/--
In a dump that stores some names of threads, a thread has no name if it is
thread 0, if none is stored for it or if the one that is stored is empty.
Otherwise it has the name that is stored for it and for no other thread, cut
between two characters to the limit.
-/
theorem threadName?_shows_stored_name {names : List (UInt64 × Bytes)}
    (stores : dump.sections.StoresNames names) (thread : UInt64) :
    (dump.threadName? thread = none ↔
      thread = 0 ∨ (∀ payload, (thread, payload) ∉ names) ∨ (thread, []) ∈ names) ∧
    ∀ text, dump.threadName? thread = some text ↔
      thread ≠ 0 ∧ ∃ payload, (thread, payload) ∈ names ∧ payload ≠ [] ∧
        ThreadName.IsShown (Utf16.decode payload) dump.profile.threadNameLimit text := by
  constructor
  · rw [threadName?_eq_none_iff, stores.bytesOf?_eq_none_iff, stores.bytesOf?_eq_some_iff]
  · intro text
    simp only [threadName?_eq_some_iff, stores.bytesOf?_eq_some_iff]

/-- A dump in which one thread id continues another, with characters of two and four bytes. -/
def namedThreads : CoreDump where
  sections :=
    [⟨".corethread/11", [0x62, 0]⟩,
      ⟨".text", [0x90]⟩,
      ⟨".corethread/0", [0x7A, 0]⟩,
      ⟨".corethread/7", []⟩,
      ⟨".corethread/1", [0xE4, 0, 0x00, 0xD8, 0x48, 0xDF, 0x63, 0, 0, 0, 0x64, 0]⟩]
  profile := { Profile.windows64 with threadNameLimit := 2 }
  locator := none

/-- A name of three characters is cut to two of them, and six bytes. -/
theorem namedThreads_threadName? :
    namedThreads.sections.StoresNames
        [(0, [0x7A, 0]), (1, [0xE4, 0, 0x00, 0xD8, 0x48, 0xDF, 0x63, 0, 0, 0, 0x64, 0]), (7, []),
          (11, [0x62, 0])] ∧
      namedThreads.threadName? 0 = none ∧ namedThreads.threadName? 2 = none ∧
      namedThreads.threadName? 7 = none ∧ namedThreads.threadName? 11 = some "b" ∧
      namedThreads.threadName? 1 = some "ä𐍈" ∧ (Utf8.encode "ä𐍈").length = 6 := by
  have stores : namedThreads.sections.StoresNames
      [(0, [0x7A, 0]), (1, [0xE4, 0, 0x00, 0xD8, 0x48, 0xDF, 0x63, 0, 0, 0, 0x64, 0]), (7, []),
        (11, [0x62, 0])] :=
    ⟨by decide, by decide +kernel⟩
  have shown := threadName?_shows_stored_name stores
  refine ⟨stores, (shown 0).1.2 (.inl rfl), (shown 2).1.2 (.inr (.inl (by simp))),
    (shown 7).1.2 (.inr (.inr (by decide))), ?_, ?_, by decide +kernel⟩
  · exact ((shown 11).2 "b").2
      ⟨by decide, [0x62, 0], by decide, by decide, ThreadName.isShown_iff.2 (by decide +kernel)⟩
  · exact ((shown 1).2 "ä𐍈").2
      ⟨by decide, [0xE4, 0, 0x00, 0xD8, 0x48, 0xDF, 0x63, 0, 0, 0, 0x64, 0], by decide, by decide,
        ThreadName.isShown_iff.2 (by decide +kernel)⟩

end CoreDump

end NtTarget
