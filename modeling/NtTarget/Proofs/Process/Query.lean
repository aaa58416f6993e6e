import NtTarget.Process.Info
import NtTarget.Proofs.Process.StoredProcess

/-!
# Queries for what a process runs

A query is refused for its argument or for want of a process, and otherwise it
answers.  Every field is answered by itself.  A query for fewer fields gives
those the same answers, and the answer for a field depends on no more of the
memory than what is asked on the way to it: the hops of the chain, the field's
own descriptor and the field's own buffer.
-/

namespace NtTarget

/-! ## Outcomes that agree -/

/-- Two outcomes agree when they yield the same, or neither yields anything. -/
def Alike {α : Type} (left right : Except Fault α) : Prop :=
  left.toOption = right.toOption

namespace Alike

variable {α β : Type}

theorem refl (outcome : Except Fault α) : Alike outcome outcome :=
  rfl

/-- What follows two outcomes need agree only after a value that the first one yields. -/
theorem bind {left right : Except Fault α} {laterLeft laterRight : α → Except Fault β}
    (first : Alike left right)
    (later : ∀ value, left = .ok value → Alike (laterLeft value) (laterRight value)) :
    Alike (left >>= laterLeft) (right >>= laterRight) := by
  cases left with
  | error fault =>
      cases right with
      | error other => rfl
      | ok value => cases first
  | ok value =>
      cases right with
      | error fault => cases first
      | ok other =>
          cases Option.some.inj first
          exact later value rfl

end Alike

/-! ## What is asked of a target -/

/-- Something that is asked of a target. -/
inductive MemoryRequest where
  | threadBase (thread : UInt64)
  | read (address : UInt64) (length : Nat)
  deriving Repr, DecidableEq

/-- Two targets give a request the same answer, or both refuse it. -/
def MemoryRequest.AnsweredAlike (left right : TargetMemory) : MemoryRequest → Prop
  | threadBase thread => Alike (left.threadBase thread) (right.threadBase thread)
  | read address length => Alike (left.read address length) (right.read address length)

namespace Chain

/-- The requests on the way from a thread to the parameters of its process. -/
inductive AsksForParameters (chain : Chain) (thread : UInt64) : MemoryRequest → Prop where
  | threadBase : AsksForParameters chain thread (.threadBase thread)
  | processBlock {block : UInt64} (found : chain.memory.threadBase thread = .ok block) :
      AsksForParameters chain thread
        (.read (block + chain.layout.processBlock) chain.width.bytes)
  | parameters {block : UInt64} (found : chain.processBlock thread = .ok block) :
      AsksForParameters chain thread
        (.read (block + chain.layout.parameters) chain.width.bytes)

/-- The requests for the text of a counted string: its descriptor, then its buffer. -/
inductive AsksForText (chain : Chain) (address : UInt64) : MemoryRequest → Prop where
  | descriptor : AsksForText chain address (.read address (CountedString.size chain.width))
  | buffer {stored : Bytes} {descriptor : CountedString}
      (read : chain.memory.read address (CountedString.size chain.width) = .ok stored)
      (parsed : CountedString.parse chain.width stored = .ok descriptor)
      (filled : descriptor.isEmpty = false) :
      AsksForText chain address (.read descriptor.buffer descriptor.length.toNat)

/-- The requests on the way to the text of one field. -/
inductive AsksForField (chain : Chain) (thread : UInt64) (field : ProcessField) :
    MemoryRequest → Prop where
  | hop {request : MemoryRequest} (asked : chain.AsksForParameters thread request) :
      AsksForField chain thread field request
  | text {parameters : UInt64} {request : MemoryRequest}
      (found : chain.parameters thread = .ok parameters)
      (asked : chain.AsksForText (parameters + field.offset chain.layout) request) :
      AsksForField chain thread field request

/-- The text of one field of a thread's process, when the whole way to it can be read. -/
def textOf? (chain : Chain) (thread : UInt64) (field : ProcessField) : Option String :=
  (chain.parameters thread).toOption.bind fun parameters => chain.fieldText? parameters field

/-! ## Answers depend on what is asked -/

section Alike

variable {left right : TargetMemory} {width : PointerWidth} {thread address : UInt64}

theorem alike_pointerAt
    (read : Alike (left.read address width.bytes) (right.read address width.bytes)) :
    Alike (pointerAt ⟨left, width⟩ address) (pointerAt ⟨right, width⟩ address) :=
  read.bind fun _ _ => .refl _

theorem alike_parameters
    (asked : ∀ request, AsksForParameters ⟨left, width⟩ thread request →
      request.AnsweredAlike left right) :
    Alike (parameters ⟨left, width⟩ thread) (parameters ⟨right, width⟩ thread) := by
  have processBlock : Alike (processBlock ⟨left, width⟩ thread)
      (processBlock ⟨right, width⟩ thread) := by
    refine Alike.bind (asked _ .threadBase) fun block found => ?_
    exact alike_pointerAt (asked _ (.processBlock found))
  refine processBlock.bind fun block found => ?_
  exact alike_pointerAt (asked _ (.parameters found))

theorem text?_eq_join (chain : Chain) (address : UInt64) :
    chain.text? address = (chain.textAt address).toOption.join := by
  unfold text?
  cases chain.textAt address <;> rfl

theorem text?_congr
    (asked : ∀ request, AsksForText ⟨left, width⟩ address request →
      request.AnsweredAlike left right) :
    text? ⟨left, width⟩ address = text? ⟨right, width⟩ address := by
  have whole : Alike (textAt ⟨left, width⟩ address) (textAt ⟨right, width⟩ address) := by
    refine Alike.bind (asked _ .descriptor) fun stored read => ?_
    refine Alike.bind (.refl _) fun descriptor parsed => ?_
    cases filled : descriptor.isEmpty with
    | true => exact .refl _
    | false => exact Alike.bind (asked _ (.buffer read parsed filled)) fun _ _ => .refl _
  rw [text?_eq_join, text?_eq_join]
  exact congrArg Option.join whole

/-- A field has the same text wherever the requests on the way to it are answered alike. -/
theorem textOf?_congr {field : ProcessField}
    (asked : ∀ request, AsksForField ⟨left, width⟩ thread field request →
      request.AnsweredAlike left right) :
    textOf? ⟨left, width⟩ thread field = textOf? ⟨right, width⟩ thread field := by
  have hops : Alike (parameters ⟨left, width⟩ thread) (parameters ⟨right, width⟩ thread) :=
    alike_parameters fun request hop => asked request (.hop hop)
  unfold textOf?
  rw [← hops]
  cases reached : parameters ⟨left, width⟩ thread with
  | error fault => rfl
  | ok address => exact text?_congr fun request part => asked request (.text reached part)

end Alike

/-! ## What a query answers -/

section Query

variable {chain : Chain} {thread : UInt64} {dumpAttached : Bool} {selector : ProcessSelector}
  {arguments : Option String}

theorem isEmpty_getD_eq_false_iff :
    (arguments.getD "").isEmpty = false ↔ ∃ text, arguments = some text ∧ text ≠ "" := by
  cases arguments with
  | none => simp
  | some text => simp [Bool.eq_false_iff]

theorem current_iff :
    (chain.memory.executing || dumpAttached) = false ↔
      ¬ (chain.memory.executing = true ∨ dumpAttached = true) := by
  rw [← Bool.or_eq_true, Bool.not_eq_true]

theorem processInfo_eq_argumentsNotSupported_iff :
    chain.processInfo thread dumpAttached selector arguments = .error .argumentsNotSupported ↔
      ∃ text, arguments = some text ∧ text ≠ "" := by
  rw [← isEmpty_getD_eq_false_iff]
  unfold processInfo
  split
  · rename_i given
    exact iff_of_true rfl given
  · rename_i absent
    refine iff_of_false ?_ absent
    split <;> nofun

theorem processInfo_eq_noCurrentProcess_iff :
    chain.processInfo thread dumpAttached selector arguments = .error .noCurrentProcess ↔
      (¬ ∃ text, arguments = some text ∧ text ≠ "") ∧
        ¬ (chain.memory.executing = true ∨ dumpAttached = true) := by
  rw [← isEmpty_getD_eq_false_iff, ← current_iff]
  unfold processInfo
  split
  · rename_i given
    exact iff_of_false nofun fun both => both.1 given
  · rename_i absent
    split
    · rename_i idle
      exact iff_of_true rfl ⟨absent, idle⟩
    · rename_i current
      exact iff_of_false nofun fun both => current both.2

theorem processInfo_eq_ok_iff {info : ProcessInfo} :
    chain.processInfo thread dumpAttached selector arguments = .ok info ↔
      (¬ ∃ text, arguments = some text ∧ text ≠ "") ∧
        (chain.memory.executing = true ∨ dumpAttached = true) ∧
        info = .ofAnswers (chain.answerField thread selector) := by
  rw [← isEmpty_getD_eq_false_iff, ← not_not (a := _ ∨ _), ← current_iff]
  unfold processInfo
  split
  · rename_i given
    exact iff_of_false nofun fun all => all.1 given
  · rename_i absent
    split
    · rename_i idle
      exact iff_of_false nofun fun all => all.2.1 idle
    · rename_i current
      constructor
      · intro found
        cases found
        exact ⟨absent, current, rfl⟩
      · rintro ⟨-, -, rfl⟩
        rfl

variable (chain thread selector)

/-- A requested field is answered by its text, whatever else is requested. -/
theorem answerField_eq (field : ProcessField) :
    chain.answerField thread selector field =
      if selector.wants field then .ofText (chain.textOf? thread field) else .notRequested := by
  unfold answerField textOf?
  cases chain.parameters thread <;> rfl

end Query

end Chain

/-- The fields that a selector asks for, in their order. -/
def ProcessSelector.requested (selector : ProcessSelector) : List ProcessField :=
  [.commandLine, .workingDirectory, .executablePath].filter selector.wants

/-- Every selector but that of another field asks for a field. -/
theorem ProcessSelector.mem_requested_iff {selector : ProcessSelector} {field : ProcessField} :
    field ∈ selector.requested ↔
      selector = .minimal ∨ selector = .all ∨ selector = .only field := by
  have listed : field ∈ [ProcessField.commandLine, .workingDirectory, .executablePath] := by
    cases field <;> simp
  unfold requested
  rw [List.mem_filter, wants_iff]
  exact and_iff_right listed

namespace ProcessInfo

section Requested

variable {info : ProcessInfo} {selector : ProcessSelector} {text : ProcessField → Option String}
  (answers : ∀ field,
    info.answer field = if selector.wants field then .ofText (text field) else .notRequested)

include answers

/-- A line is printed for every requested field that has a text. -/
theorem lines_eq_filterMap :
    info.lines = selector.requested.filterMap fun field =>
      (text field).map fun found => field.name ++ " = '" ++ found ++ "'" := by
  unfold ProcessSelector.requested
  rw [List.filterMap_filter]
  refine List.filterMap_congr fun field _ => ?_
  rw [answers]
  cases selector.wants field with
  | false => rfl
  | true => cases text field <;> rfl

/-- A requested field that has no text is unavailable. -/
theorem unavailable_eq_filter :
    info.unavailable = selector.requested.filter fun field => (text field).isNone := by
  unfold ProcessSelector.requested
  rw [List.filter_filter]
  refine List.filter_congr fun field _ => ?_
  rw [answers]
  cases selector.wants field with
  | false => exact (Bool.and_false _).symm
  | true => cases text field <;> rfl

end Requested

end ProcessInfo

namespace Chain

/--
A query is refused for an argument, else for want of a process, and otherwise
answers.  It asks for one field or, by either of the other selectors, for all
three.  There is one text for each field, or none: a query for all fields gives
every text, and any query gives those of the fields that it asks for.  It prints
a line for a requested field with a text and reports a requested field without
one, each in their order.  A field's answer is the same over any other memory
that answers alike what is asked on the way to that field.
-/
theorem processInfo_answers_each_field (chain : Chain) (thread : UInt64) (dumpAttached : Bool)
    (selector : ProcessSelector) (arguments : Option String) :
    (chain.processInfo thread dumpAttached selector arguments = .error .argumentsNotSupported ↔
      ∃ text, arguments = some text ∧ text ≠ "") ∧
    (chain.processInfo thread dumpAttached selector arguments = .error .noCurrentProcess ↔
      (¬ ∃ text, arguments = some text ∧ text ≠ "") ∧
        ¬ (chain.memory.executing = true ∨ dumpAttached = true)) ∧
    ((∃ info, chain.processInfo thread dumpAttached selector arguments = .ok info) ↔
      (¬ ∃ text, arguments = some text ∧ text ≠ "") ∧
        (chain.memory.executing = true ∨ dumpAttached = true)) ∧
    (∀ field, field ∈ selector.requested ↔
      selector = .minimal ∨ selector = .all ∨ selector = .only field) ∧
    (∀ info, chain.processInfo thread dumpAttached selector arguments = .ok info →
      ∃ (whole : ProcessInfo) (text : ProcessField → Option String),
        chain.processInfo thread dumpAttached .all arguments = .ok whole ∧
        (∀ field, whole.answer field = .ofText (text field)) ∧
        (∀ field, info.answer field =
          if selector.wants field then whole.answer field else .notRequested) ∧
        info.lines = (selector.requested.filterMap fun field =>
          (text field).map fun found => field.name ++ " = '" ++ found ++ "'") ∧
        info.unavailable = (selector.requested.filter fun field => (text field).isNone) ∧
        info.warnings.map Warning.message =
          info.unavailable.map fun field => "unable to read " ++ field.name) ∧
    ∀ (other : TargetMemory) (field : ProcessField),
      (∀ request, chain.AsksForField thread field request →
        request.AnsweredAlike chain.memory other) →
      ∀ info answered,
        chain.processInfo thread dumpAttached selector arguments = .ok info →
        processInfo ⟨other, chain.width⟩ thread dumpAttached selector arguments = .ok answered →
        answered.answer field = info.answer field := by
  refine ⟨processInfo_eq_argumentsNotSupported_iff, processInfo_eq_noCurrentProcess_iff, ?_,
    fun _ => ProcessSelector.mem_requested_iff, ?_, ?_⟩
  · constructor
    · rintro ⟨info, found⟩
      obtain ⟨noArgument, current, -⟩ := processInfo_eq_ok_iff.1 found
      exact ⟨noArgument, current⟩
    · rintro ⟨noArgument, current⟩
      exact ⟨_, processInfo_eq_ok_iff.2 ⟨noArgument, current, rfl⟩⟩
  · intro info found
    obtain ⟨noArgument, current, rfl⟩ := processInfo_eq_ok_iff.1 found
    have answers := fun field => (ProcessInfo.answer_ofAnswers
      (chain.answerField thread selector) field).trans (answerField_eq chain thread selector field)
    refine ⟨_, chain.textOf? thread, processInfo_eq_ok_iff.2 ⟨noArgument, current, rfl⟩, ?_, ?_,
      ProcessInfo.lines_eq_filterMap answers, ProcessInfo.unavailable_eq_filter answers, ?_⟩
    · intro field
      rw [ProcessInfo.answer_ofAnswers]
      exact answerField_eq chain thread .all field
    · intro field
      rw [answers, ProcessInfo.answer_ofAnswers, answerField_eq chain thread .all field]
      rfl
    · unfold ProcessInfo.warnings
      rw [List.map_map]
      rfl
  · intro other field asked info answered found otherFound
    obtain ⟨-, -, rfl⟩ := processInfo_eq_ok_iff.1 found
    obtain ⟨-, -, rfl⟩ := processInfo_eq_ok_iff.1 otherFound
    have same : textOf? ⟨other, chain.width⟩ thread field = chain.textOf? thread field :=
      (textOf?_congr asked).symm
    rw [ProcessInfo.answer_ofAnswers, ProcessInfo.answer_ofAnswers, answerField_eq,
      answerField_eq, same]

/-- The memory of the started process, with another descriptor where its directory was. -/
def movedMemory : TargetMemory where
  read address length :=
    if address = 0x3038 then .ok (MemoryImage.startedCommand.encode .bits64 [0, 0, 0, 0])
    else MemoryImage.startedImage.read address length
  threadBase := MemoryImage.startedImage.threadBase
  executing := true

theorem movedMemory_alike {address : UInt64} (elsewhere : address ≠ 0x3038) (length : Nat) :
    (MemoryRequest.read address length).AnsweredAlike MemoryImage.startedImage.target
      movedMemory := by
  change Alike _ (if address = 0x3038 then _ else _)
  rw [if_neg elsewhere]
  exact .refl _

/--
The command line is the same in both memories, although their directories
differ.  The default query prints it and reports both paths, and a query for the
directory reports that one alone.
-/
theorem movedMemory_keeps_commandLine :
    (∃ info answered,
      (MemoryImage.startedImage.chain .bits64).processInfo 7 true .all none = .ok info ∧
      processInfo ⟨movedMemory, .bits64⟩ 7 true .all none = .ok answered ∧
      info.answer .workingDirectory = .unavailable ∧
      answered.answer .workingDirectory = .found "a😀" ∧
      answered.answer .commandLine = info.answer .commandLine) ∧
    (∃ info, (MemoryImage.startedImage.chain .bits64).processInfo 7 true .minimal none = .ok info ∧
      ProcessField.executablePath ∈ ProcessSelector.minimal.requested ∧
      info.lines = ["cmdline = 'a😀'"] ∧
      info.unavailable = [.workingDirectory, .executablePath]) ∧
    ∃ info, (MemoryImage.startedImage.chain .bits64).processInfo 7 true (.only .workingDirectory)
        none = .ok info ∧
      info.answer .commandLine = .notRequested ∧ info.lines = [] ∧
      info.unavailable = [.workingDirectory] := by
  have base : MemoryImage.startedImage.target.threadBase 7 = .ok 0x1000 := rfl
  have block : (MemoryImage.startedImage.chain .bits64).processBlock 7 = .ok 0x2000 := by
    decide +kernel
  have parameters : (MemoryImage.startedImage.chain .bits64).parameters 7 = .ok 0x3000 := by
    decide +kernel
  have descriptor : MemoryImage.startedImage.target.read 0x3070 16 =
      .ok (MemoryImage.startedCommand.encode .bits64 [9, 9, 9, 9]) := by
    decide +kernel
  have alike : ∀ request, (MemoryImage.startedImage.chain .bits64).AsksForField 7 .commandLine
      request → request.AnsweredAlike MemoryImage.startedImage.target movedMemory := by
    intro request asked
    cases asked with
    | hop asked =>
        cases asked with
        | threadBase => exact .refl _
        | processBlock found =>
            cases base.symm.trans found
            exact movedMemory_alike (by decide) _
        | parameters found =>
            cases block.symm.trans found
            exact movedMemory_alike (by decide) _
    | text found asked =>
        cases parameters.symm.trans found
        cases asked with
        | descriptor => exact movedMemory_alike (by decide) _
        | buffer read parsed =>
            cases descriptor.symm.trans read
            cases parsed
            exact movedMemory_alike (by decide) _
  obtain ⟨-, -, -, -, -, apart⟩ := processInfo_answers_each_field
    (MemoryImage.startedImage.chain .bits64) 7 true .all none
  have same := apart movedMemory .commandLine alike
  obtain ⟨-, -, -, asked, -, -⟩ := processInfo_answers_each_field
    (MemoryImage.startedImage.chain .bits64) 7 true .minimal none
  obtain ⟨-, -, -, -, answers, -⟩ := processInfo_answers_each_field
    (MemoryImage.startedImage.chain .bits64) 7 true (.only .workingDirectory) none
  obtain ⟨_, _, -, -, each, -⟩ := answers _ rfl
  refine ⟨⟨_, _, rfl, rfl, by decide +kernel, by decide +kernel, same _ _ rfl rfl⟩, ?_, ?_⟩
  · exact ⟨_, rfl, (asked _).2 (.inl rfl), by decide +kernel, by decide +kernel⟩
  · exact ⟨_, rfl, each .commandLine, by decide +kernel, by decide +kernel⟩

end Chain

end NtTarget
