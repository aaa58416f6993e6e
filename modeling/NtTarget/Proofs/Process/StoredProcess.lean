import Mathlib.Algebra.Group.Nat.Defs
import NtTarget.Process.Info
import NtTarget.Proofs.Memory.Regions
import NtTarget.Proofs.Text.Utf16Codec

/-!
# A process that memory stores

A process is stored when every block of the chain has its pointers and its
descriptors at the offsets of the layout; all other bytes can be anything.
Following the chain then finds what is stored: the load address, and of every
field its text, or nothing for a field whose descriptor is empty.
-/

namespace NtTarget

/-- What a process keeps about itself, and where its blocks are. -/
structure StoredProcess where
  thread : UInt64
  threadBlock : UInt64
  processBlock : UInt64
  parameters : UInt64
  imageBase : UInt64
  text : ProcessField → Option String

namespace MemoryImage

/-- An image stores a pointer that fits its width. -/
structure StoresPointer (image : MemoryImage) (width : PointerWidth) (address : Nat)
    (pointer : UInt64) : Prop where
  fits : width.Fits pointer
  held : image.Holds address (width.pointerBytes pointer)

/--
An image stores a descriptor for a text: one that counts the bytes of its
buffer, or one that counts none.  The count has 16 bits, so the text takes at
most 65534 bytes.
-/
inductive StoresText (image : MemoryImage) (width : PointerWidth) (address : Nat) :
    Option String → Prop where
  | set {text : String} {descriptor : CountedString} {gap : Bytes}
      (nonempty : text ≠ "") (clean : '\x00' ∉ text.toList)
      (filled : gap.length = width.bytes - 4)
      (counted : descriptor.length.toNat = (Utf16.encode text).length)
      (fits : width.Fits descriptor.buffer)
      (held : image.Holds address (descriptor.encode width gap))
      (buffer : image.Holds descriptor.buffer.toNat (Utf16.encode text)) :
      StoresText image width address (some text)
  | unset {descriptor : CountedString} {gap : Bytes}
      (filled : gap.length = width.bytes - 4) (empty : descriptor.length = 0)
      (held : image.Holds address (descriptor.encode width gap)) :
      StoresText image width address none

/-- An image stores a process, every block laid out for a pointer width. -/
structure StoresProcess (image : MemoryImage) (width : PointerWidth) (process : StoredProcess) :
    Prop where
  thread : image.threadBase? process.thread = some process.threadBlock
  processBlock : image.StoresPointer width
    (process.threadBlock.toNat + width.controlBlock.processBlock.toNat) process.processBlock
  imageBase : image.StoresPointer width
    (process.processBlock.toNat + width.controlBlock.imageBase.toNat) process.imageBase
  parameters : image.StoresPointer width
    (process.processBlock.toNat + width.controlBlock.parameters.toNat) process.parameters
  texts : ∀ field, image.StoresText width
    (process.parameters.toNat + (field.offset width.controlBlock).toNat) (process.text field)

/--
No region overlaps the next one, which by `disjoint_iff_isChain` keeps all of
them apart, and none leaves the address space.
-/
structure WellPlaced (image : MemoryImage) : Prop where
  apart : image.Disjoint
  bounded : ∀ region ∈ image.regions, region.stop ≤ 2 ^ 64

section WellPlaced

variable {image : MemoryImage} (placed : image.WellPlaced) {width : PointerWidth}

include placed

/-- What is stored behind a block is read there: its address does not wrap around. -/
theorem WellPlaced.read_offset {block offset : UInt64} {bytes : Bytes} (nonempty : bytes ≠ [])
    (held : image.Holds (block.toNat + offset.toNat) bytes) :
    image.read (block + offset) bytes.length = .ok bytes := by
  have inSpace : block.toNat + offset.toNat + bytes.length ≤ 2 ^ 64 := by
    obtain ⟨region, inside, holds⟩ := held
    exact Nat.le_trans holds.le_stop (placed.bounded region inside)
  have some_byte := List.length_pos_iff.2 nonempty
  have address : (block + offset).toNat = block.toNat + offset.toNat := by
    rw [UInt64.toNat_add]
    exact Nat.mod_eq_of_lt (by omega)
  rw [← address] at held
  exact read_of_holds placed.apart held

theorem WellPlaced.pointerAt_offset {block offset pointer : UInt64}
    (stored : image.StoresPointer width (block.toNat + offset.toNat) pointer) :
    (image.chain width).pointerAt (block + offset) = .ok pointer := by
  have nonempty : width.pointerBytes pointer ≠ [] := by
    rw [← List.length_pos_iff, width.length_pointerBytes]
    exact width.bytes_pos
  have found := placed.read_offset nonempty stored.held
  rw [width.length_pointerBytes] at found
  exact Chain.pointerAt_eq_ok_iff.2 ⟨_, found, PointerWidth.pointerAt?_pointerBytes stored.fits⟩

theorem WellPlaced.read_descriptor {block offset : UInt64} {descriptor : CountedString}
    {gap : Bytes} (filled : gap.length = width.bytes - 4)
    (held : image.Holds (block.toNat + offset.toNat) (descriptor.encode width gap)) :
    image.read (block + offset) (CountedString.size width) =
      .ok (descriptor.encode width gap) := by
  have size := CountedString.length_encode filled descriptor
  have nonempty : descriptor.encode width gap ≠ [] := by
    rw [← List.length_pos_iff, size]
    exact Nat.mul_pos (by decide) width.bytes_pos
  rw [← size]
  exact placed.read_offset nonempty held

/-- A text is read as it is stored, and an empty descriptor reads as no text. -/
theorem WellPlaced.text?_offset {block offset : UInt64} {known : Option String}
    (stored : image.StoresText width (block.toNat + offset.toNat) known) :
    (image.chain width).text? (block + offset) = known := by
  cases stored with
  | @set text descriptor gap nonempty clean filled counted fits held buffer =>
      have read := placed.read_descriptor filled held
      have parsed := CountedString.parse_encode filled descriptor
      have payload := read_of_holds placed.apart buffer
      have content := List.length_pos_iff.2 (Utf16.encode_ne_nil nonempty)
      have counts : descriptor.isEmpty = false := by
        rw [Bool.eq_false_iff, ne_eq, CountedString.isEmpty_iff]
        intro zero
        rw [← counted, zero] at content
        exact Nat.lt_irrefl 0 content
      rw [PointerWidth.addressOf_pointerBytes fits] at parsed
      rw [← counted] at payload
      exact Chain.text?_eq_some_iff.2
        ⟨_, descriptor, _, read, parsed, counts, payload, Utf16.decode_encode clean⟩
  | @unset descriptor gap filled empty held =>
      rw [Option.eq_none_iff_forall_ne_some]
      intro text found
      obtain ⟨_, other, _, read, parsed, counts, -⟩ := Chain.text?_eq_some_iff.1 found
      -- What is read is the stored descriptor, and that one is empty.
      cases (placed.read_descriptor filled held).symm.trans read
      have same := (CountedString.parse_encode filled descriptor).symm.trans parsed
      cases same
      exact Bool.eq_false_iff.1 counts (CountedString.isEmpty_iff.2 empty)

/-! ## Along the chain -/

variable {process : StoredProcess} (stored : image.StoresProcess width process)

include stored

theorem StoresProcess.processBlock_eq_ok :
    (image.chain width).processBlock process.thread = .ok process.processBlock :=
  Fault.bind_eq_ok_iff.2 ⟨_, threadBase_eq_ok_iff.2 stored.thread,
    placed.pointerAt_offset stored.processBlock⟩

theorem StoresProcess.imageBase_eq_ok :
    (image.chain width).imageBase process.thread = .ok process.imageBase :=
  Fault.bind_eq_ok_iff.2 ⟨_, stored.processBlock_eq_ok placed,
    placed.pointerAt_offset stored.imageBase⟩

theorem StoresProcess.parameters_eq_ok :
    (image.chain width).parameters process.thread = .ok process.parameters :=
  Fault.bind_eq_ok_iff.2 ⟨_, stored.processBlock_eq_ok placed,
    placed.pointerAt_offset stored.parameters⟩

theorem StoresProcess.answerField_eq (selector : ProcessSelector) (field : ProcessField) :
    (image.chain width).answerField process.thread selector field =
      if selector.wants field then .ofText (process.text field) else .notRequested := by
  have text : (image.chain width).fieldText? process.parameters field = process.text field :=
    placed.text?_offset (stored.texts field)
  unfold Chain.answerField
  rw [stored.parameters_eq_ok placed]
  dsimp only
  rw [text]

/--
A query for a stored process finds every wanted text as it is stored, and
reports the wanted fields without one, in their order and with one warning
each.  All fields are wanted unless the query is for a single one.  It needs no
more than a process that executes or a dump.
-/
theorem processInfo_finds_stored {dumpAttached : Bool}
    (current : image.live = true ∨ dumpAttached = true) (selector : ProcessSelector)
    (arguments : Option String) (noArgument : arguments.getD "" = "") :
    (image.chain width).imageBase process.thread = .ok process.imageBase ∧
    (∀ field, selector.wants field = true ↔
      selector = .minimal ∨ selector = .all ∨ selector = .only field) ∧
    ∃ info,
      (image.chain width).processInfo process.thread dumpAttached selector arguments = .ok info ∧
      (∀ field text, selector.wants field = true → process.text field = some text →
        info.answer field = .found text) ∧
      (∀ field, selector.wants field = false → info.answer field = .notRequested) ∧
      info.unavailable =
        [ProcessField.commandLine, .workingDirectory, .executablePath].filter
          (fun field => selector.wants field && (process.text field).isNone) ∧
      info.warnings.map Warning.message =
        info.unavailable.map fun field => "unable to read " ++ field.name := by
  have answers := stored.answerField_eq placed selector
  refine ⟨stored.imageBase_eq_ok placed, fun _ => ProcessSelector.wants_iff,
    .ofAnswers ((image.chain width).answerField process.thread selector), ?_, ?_, ?_, ?_, ?_⟩
  · have running : ((image.chain width).memory.executing || dumpAttached) ≠ false := by
      rw [ne_eq, Bool.or_eq_false_iff]
      rintro ⟨idle, detached⟩
      rcases current with live | attached
      · cases live.symm.trans idle
      · cases attached.symm.trans detached
    unfold Chain.processInfo
    rw [noArgument, if_neg (by decide), if_neg running]
  · intro field text wanted known
    rw [ProcessInfo.answer_ofAnswers, answers, if_pos wanted, known]
    rfl
  · intro field unwanted
    rw [ProcessInfo.answer_ofAnswers, answers, if_neg (Bool.eq_false_iff.1 unwanted)]
  · refine List.filter_congr fun field _ => ?_
    rw [ProcessInfo.answer_ofAnswers, answers]
    cases selector.wants field with
    | false => rfl
    | true => cases process.text field <;> rfl
  · unfold ProcessInfo.warnings
    rw [List.map_map]
    rfl

end WellPlaced

/-- A process that was started with a command line and without any path. -/
def startedProcess : StoredProcess where
  thread := 7
  threadBlock := 0x1000
  processBlock := 0x2000
  parameters := 0x3000
  imageBase := 0x140000000
  text
    | .commandLine => some "a😀"
    | .workingDirectory => none
    | .executablePath => none

def startedCommand : CountedString :=
  ⟨6, 8, 0x4000⟩

/-- A descriptor of no text, left with a capacity and a pointer to nothing. -/
def startedPath : CountedString :=
  ⟨0, 0xFFFF, 0x5555⟩

/-- The blocks of the process in a dump, with other bytes between their fields. -/
def startedImage : MemoryImage :=
  ((((empty.map 0x1060 (PointerWidth.bits64.pointerBytes 0x2000)).map
    0x2010 (PointerWidth.bits64.pointerBytes 0x140000000 ++ List.replicate 8 0xCC ++
      PointerWidth.bits64.pointerBytes 0x3000)).map
    0x3038 (startedPath.encode .bits64 [1, 2, 3, 4] ++ List.replicate 24 0xCC ++
      startedPath.encode .bits64 [5, 6, 7, 8] ++
      startedCommand.encode .bits64 [9, 9, 9, 9])).map
    0x4000 (Utf16.encode "a😀")).withThread 7 0x1000

/--
The command line of the started process is found and both paths are reported, by
either selector for all fields.  A query for one path says nothing of the rest.
-/
theorem processInfo_startedImage :
    startedImage.WellPlaced ∧ startedImage.StoresProcess .bits64 startedProcess ∧
      (startedImage.chain .bits64).imageBase 7 = .ok 0x140000000 ∧
      (∃ info, (startedImage.chain .bits64).processInfo 7 true .all none = .ok info ∧
        info.answer .commandLine = .found "a😀" ∧
        info.unavailable = [.workingDirectory, .executablePath]) ∧
      (∃ info, (startedImage.chain .bits64).processInfo 7 true .minimal none = .ok info ∧
        info.answer .commandLine = .found "a😀" ∧
        info.unavailable = [.workingDirectory, .executablePath]) ∧
      ∃ info, (startedImage.chain .bits64).processInfo 7 true (.only .executablePath) none =
          .ok info ∧
        info.answer .commandLine = .notRequested ∧
        info.answer .workingDirectory = .notRequested ∧ info.unavailable = [.executablePath] := by
  have placed : startedImage.WellPlaced :=
    ⟨disjoint_iff_isChain.2 (by decide +kernel), by decide +kernel⟩
  have stored : startedImage.StoresProcess .bits64 startedProcess := by
    refine ⟨rfl, ⟨by decide, by decide +kernel⟩, ⟨by decide, by decide +kernel⟩,
      ⟨by decide, by decide +kernel⟩, ?_⟩
    intro field
    cases field with
    | commandLine =>
        exact .set (by decide) (by decide) rfl (by decide +kernel) (by decide)
          (by decide +kernel : startedImage.Holds _ (startedCommand.encode .bits64 [9, 9, 9, 9]))
          (by decide +kernel)
    | workingDirectory =>
        exact .unset rfl rfl
          (by decide +kernel : startedImage.Holds _ (startedPath.encode .bits64 [1, 2, 3, 4]))
    | executablePath =>
        exact .unset rfl rfl
          (by decide +kernel : startedImage.Holds _ (startedPath.encode .bits64 [5, 6, 7, 8]))
  obtain ⟨base, -, info, answered, found, -, missing, -⟩ :=
    processInfo_finds_stored placed stored (.inr rfl) .all none rfl
  obtain ⟨-, -, brief, answeredBrief, foundBrief, -, missingBrief, -⟩ :=
    processInfo_finds_stored placed stored (.inr rfl) .minimal none rfl
  obtain ⟨-, -, single, answeredSingle, -, silent, missingSingle, -⟩ :=
    processInfo_finds_stored placed stored (.inr rfl) (.only .executablePath) none rfl
  refine ⟨placed, stored, base, ⟨info, answered, found .commandLine "a😀" rfl rfl, missing⟩,
    ⟨brief, answeredBrief, foundBrief .commandLine "a😀" rfl rfl, missingBrief⟩, ?_⟩
  exact ⟨single, answeredSingle, silent .commandLine rfl, silent .workingDirectory rfl,
    missingSingle⟩

end MemoryImage

end NtTarget
