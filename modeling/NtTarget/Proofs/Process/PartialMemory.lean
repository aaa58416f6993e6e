import NtTarget.Process.Info
import NtTarget.Proofs.Memory.Regions

/-!
# Answers of a part of the memory

Memory can be lost: regions are missing, bytes are cut off their ends and
threads are forgotten.  What can still be read is what could be read before, so
every answer that is still given is the answer of the whole memory.  A query
comes to the same outcome, with fewer texts.
-/

namespace NtTarget

/-! ## Outcomes that persist -/

/-- Whatever the first outcome yields, the second one yields too. -/
def Persists {α : Type} (part whole : Except Fault α) : Prop :=
  ∀ value, part = .ok value → whole = .ok value

namespace Persists

variable {α β : Type}

theorem refl (outcome : Except Fault α) : Persists outcome outcome :=
  fun _ found => found

/-- Steps whose outcomes persist make a sequence whose outcome persists. -/
theorem bind {part whole : Except Fault α} {laterPart laterWhole : α → Except Fault β}
    (first : Persists part whole) (later : ∀ value, Persists (laterPart value) (laterWhole value)) :
    Persists (part >>= laterPart) (whole >>= laterWhole) := by
  intro value found
  obtain ⟨middle, reached, found⟩ := Fault.bind_eq_ok_iff.1 found
  exact Fault.bind_eq_ok_iff.2 ⟨middle, first middle reached, later middle value found⟩

end Persists

/-! ## Memories of which one is a part of the other -/

/-- A memory that answers less than another one, and nothing else. -/
structure TargetMemory.IsPartOf (part whole : TargetMemory) : Prop where
  read : ∀ address length, Persists (part.read address length) (whole.read address length)
  threadBase : ∀ thread, Persists (part.threadBase thread) (whole.threadBase thread)
  executing : part.executing = whole.executing

/-- What is left of a region after bytes were cut off its ends. -/
def Region.IsPartOf (part whole : Region) : Prop :=
  ∃ front back, whole.bytes = front ++ part.bytes ++ back ∧
    part.start.toNat = whole.start.toNat + front.length

/--
What is left of an image after regions were dropped, bytes were cut off the
ends of regions and threads were forgotten.
-/
structure MemoryImage.IsPartOf (part whole : MemoryImage) : Prop where
  regions : ∀ region ∈ part.regions, ∃ origin ∈ whole.regions, region.IsPartOf origin
  threads : ∀ thread base,
    part.threadBase? thread = some base → whole.threadBase? thread = some base
  live : part.live = whole.live

theorem Region.Holds.of_isPartOf {part whole : Region} {address : Nat} {bytes : Bytes}
    (holds : part.Holds address bytes) (isPart : part.IsPartOf whole) :
    whole.Holds address bytes := by
  obtain ⟨front, back, pieces, start⟩ := isPart
  obtain ⟨above, slice⟩ := holds
  obtain ⟨fits, taken⟩ := Bytes.slice?_eq_some_iff.1 slice
  refine ⟨by omega, Bytes.slice?_eq_some_iff.2 ⟨?_, ?_⟩⟩
  · rw [pieces, List.length_append, List.length_append]
    omega
  · have distance : address - whole.start.toNat =
        front.length + (address - part.start.toNat) := by omega
    rw [pieces, List.append_assoc, distance, List.drop_length_add_append,
      List.drop_append_of_le_length (by omega), List.take_append_of_le_length]
    · exact taken
    · rw [List.length_drop]
      omega

namespace MemoryImage

/-- The memory of a part of an image answers less than that of the whole image. -/
theorem IsPartOf.target {part whole : MemoryImage} (isPart : part.IsPartOf whole)
    (apart : whole.Disjoint) : part.target.IsPartOf whole.target where
  read := by
    intro address length bytes found
    obtain ⟨rfl, region, inside, holds⟩ := holds_of_read found
    obtain ⟨origin, member, left⟩ := isPart.regions region inside
    exact read_of_holds apart ⟨origin, member, holds.of_isPartOf left⟩
  threadBase := by
    intro thread base found
    have known := isPart.threads thread base (threadBase_eq_ok_iff.1 found)
    exact threadBase_eq_ok_iff.2 known
  executing := isPart.live

end MemoryImage

/-! ## The chain over a part of the memory -/

/-- The answers for one process of which one has fewer texts than the other. -/
def ProcessInfo.IsPartOf (part whole : ProcessInfo) : Prop :=
  ∀ field text, part.answer field = .found text → whole.answer field = .found text

namespace Chain

variable {part whole : TargetMemory} (isPart : part.IsPartOf whole) (width : PointerWidth)

include isPart

theorem persists_pointerAt (address : UInt64) :
    Persists (pointerAt ⟨part, width⟩ address) (pointerAt ⟨whole, width⟩ address) :=
  (isPart.read address width.bytes).bind fun _ => .refl _

theorem persists_processBlock (thread : UInt64) :
    Persists (processBlock ⟨part, width⟩ thread) (processBlock ⟨whole, width⟩ thread) :=
  (isPart.threadBase thread).bind fun _ => persists_pointerAt isPart width _

theorem persists_parameters (thread : UInt64) :
    Persists (parameters ⟨part, width⟩ thread) (parameters ⟨whole, width⟩ thread) :=
  (persists_processBlock isPart width thread).bind fun _ => persists_pointerAt isPart width _

theorem persists_imageBase (thread : UInt64) :
    Persists (imageBase ⟨part, width⟩ thread) (imageBase ⟨whole, width⟩ thread) :=
  (persists_processBlock isPart width thread).bind fun _ => persists_pointerAt isPart width _

theorem persists_threadBlock (thread : UInt64) (everySlot : Bool) :
    Persists (threadBlock ⟨part, width⟩ thread everySlot)
      (threadBlock ⟨whole, width⟩ thread everySlot) :=
  (isPart.threadBase thread).bind fun _ => (isPart.read _ _).bind fun _ => .refl _

theorem text?_of_isPartOf {address : UInt64} {text : String}
    (found : text? ⟨part, width⟩ address = some text) :
    text? ⟨whole, width⟩ address = some text := by
  obtain ⟨stored, descriptor, payload, read, parsed, filled, buffer, decoded⟩ :=
    text?_eq_some_iff.1 found
  exact text?_eq_some_iff.2 ⟨stored, descriptor, payload, isPart.read _ _ _ read, parsed, filled,
    isPart.read _ _ _ buffer, decoded⟩

/-- A text that is found at the end of a chain over a part is found over the whole. -/
theorem answerField_of_isPartOf {thread : UInt64} {selector : ProcessSelector}
    {field : ProcessField} {text : String}
    (found : answerField ⟨part, width⟩ thread selector field = .found text) :
    answerField ⟨whole, width⟩ thread selector field = .found text := by
  obtain ⟨wanted, address, reached, known⟩ := answerField_eq_found_iff.1 found
  have kept := persists_parameters isPart width thread address reached
  exact answerField_eq_found_iff.2 ⟨wanted, address, kept, text?_of_isPartOf isPart width known⟩

/-- A query comes to the same outcome, and over the part it finds fewer texts. -/
theorem processInfo_of_isPartOf (thread : UInt64) (dumpAttached : Bool)
    (selector : ProcessSelector) (arguments : Option String) :
    (∃ fault, processInfo ⟨part, width⟩ thread dumpAttached selector arguments = .error fault ∧
      processInfo ⟨whole, width⟩ thread dumpAttached selector arguments = .error fault) ∨
    ∃ less more, processInfo ⟨part, width⟩ thread dumpAttached selector arguments = .ok less ∧
      processInfo ⟨whole, width⟩ thread dumpAttached selector arguments = .ok more ∧
      less.IsPartOf more := by
  unfold processInfo
  rw [isPart.executing]
  split
  · exact .inl ⟨_, rfl, rfl⟩
  · split
    · exact .inl ⟨_, rfl, rfl⟩
    · refine .inr ⟨_, _, rfl, rfl, ?_⟩
      intro field text found
      rw [ProcessInfo.answer_ofAnswers] at found ⊢
      exact answerField_of_isPartOf isPart width found

end Chain

namespace MemoryImage

/--
Lost memory never changes an answer, where each region of the whole ends before
the next one starts (`disjoint_iff_isChain`).  Whatever a part of an image
answers, the whole image answers too, and a query over both comes to the same
outcome.  A text in particular is read from a whole descriptor and a whole
buffer, so it is the text of the whole image or none.
-/
theorem answers_persist_of_isPartOf {part whole : MemoryImage} (apart : whole.Disjoint)
    (isPart : part.IsPartOf whole) (width : PointerWidth) :
    (∀ address,
      Persists ((part.chain width).pointerAt address) ((whole.chain width).pointerAt address)) ∧
    (∀ thread,
      Persists ((part.chain width).processBlock thread) ((whole.chain width).processBlock thread) ∧
      Persists ((part.chain width).parameters thread) ((whole.chain width).parameters thread) ∧
      Persists ((part.chain width).imageBase thread) ((whole.chain width).imageBase thread) ∧
      ∀ everySlot, Persists ((part.chain width).threadBlock thread everySlot)
        ((whole.chain width).threadBlock thread everySlot)) ∧
    (∀ address text, (part.chain width).text? address = some text →
      (whole.chain width).text? address = some text ∧
      ∃ stored descriptor payload,
        part.Holds address.toNat stored ∧ stored.length = CountedString.size width ∧
        CountedString.parse width stored = .ok descriptor ∧
        part.Holds descriptor.buffer.toNat payload ∧
        payload.length = descriptor.length.toNat ∧ text = Utf16.decode payload) ∧
    ∀ thread dumpAttached selector arguments,
      (∃ fault,
        (part.chain width).processInfo thread dumpAttached selector arguments = .error fault ∧
        (whole.chain width).processInfo thread dumpAttached selector arguments = .error fault) ∨
      ∃ less more,
        (part.chain width).processInfo thread dumpAttached selector arguments = .ok less ∧
        (whole.chain width).processInfo thread dumpAttached selector arguments = .ok more ∧
        ∀ field text, less.answer field = .found text → more.answer field = .found text := by
  have target := isPart.target apart
  refine ⟨?_, ?_, ?_, ?_⟩
  · exact Chain.persists_pointerAt target width
  · intro thread
    exact ⟨Chain.persists_processBlock target width thread,
      Chain.persists_parameters target width thread,
      Chain.persists_imageBase target width thread,
      Chain.persists_threadBlock target width thread⟩
  · intro address text found
    refine ⟨Chain.text?_of_isPartOf target width found, ?_⟩
    obtain ⟨stored, descriptor, payload, read, parsed, -, buffer, decoded⟩ :=
      Chain.text?_eq_some_iff.1 found
    obtain ⟨storedSize, storedHeld⟩ := holds_of_read read
    obtain ⟨payloadSize, payloadHeld⟩ := holds_of_read buffer
    exact ⟨stored, descriptor, payload, storedHeld, storedSize, parsed, payloadHeld, payloadSize,
      decoded.symm⟩
  · exact Chain.processInfo_of_isPartOf target width

/-- The memory of a thread with a counted string and some bytes that belong to neither. -/
def labelledImage : MemoryImage :=
  (((empty.map 0x1000 [6, 0, 8, 0, 0xAA, 0xBB, 0xCC, 0xDD, 0, 0x20, 0, 0, 0, 0, 0, 0, 0xEE]).map
    0x2000 [0x68, 0, 0x3D, 0xD8, 0, 0xDE, 0x21, 0]).map 0x3000 [1]).withThread 1 0x1000

/-- The same memory after a region, a thread and the ends of two regions were lost. -/
def damagedImage : MemoryImage :=
  (empty.map 0x1000 [6, 0, 8, 0, 0xAA, 0xBB, 0xCC, 0xDD, 0, 0x20, 0, 0, 0, 0, 0, 0]).map
    0x2000 [0x68, 0, 0x3D, 0xD8, 0, 0xDE]

/-- A text that is whole in what is left of an image is the text of the image. -/
theorem text?_labelledImage_of_damagedImage :
    labelledImage.Disjoint ∧ damagedImage.IsPartOf labelledImage ∧
      (damagedImage.chain .bits64).text? 0x1000 = some "h😀" ∧
      (labelledImage.chain .bits64).text? 0x1000 = some "h😀" := by
  have apart : labelledImage.Disjoint := disjoint_iff_isChain.2 (by decide +kernel)
  have isPart : damagedImage.IsPartOf labelledImage := by
    refine ⟨?_, nofun, rfl⟩
    refine List.forall_mem_cons.2 ⟨?_, List.forall_mem_singleton.2 ?_⟩
    · exact ⟨_, List.mem_cons_self, [], [0xEE], rfl, rfl⟩
    · exact ⟨_, List.mem_cons_of_mem _ List.mem_cons_self, [], [0x21, 0], rfl, rfl⟩
  have left : (damagedImage.chain .bits64).text? 0x1000 = some "h😀" := by decide +kernel
  obtain ⟨-, -, texts, -⟩ := answers_persist_of_isPartOf apart isPart .bits64
  exact ⟨apart, isPart, left, (texts 0x1000 "h😀" left).1⟩

end MemoryImage

end NtTarget
