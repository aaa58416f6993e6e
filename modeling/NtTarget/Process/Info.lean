import NtTarget.Process.Chain
import NtTarget.Warning

/-!
# What a process runs

A query asks for some of three texts.  A text that cannot be read is reported
as unavailable and never keeps the others from being read.
-/

namespace NtTarget

inductive ProcessField where
  | commandLine
  | workingDirectory
  | executablePath
  deriving Repr, DecidableEq

namespace ProcessField

def all : List ProcessField :=
  [commandLine, workingDirectory, executablePath]

def name : ProcessField → String
  | commandLine => "cmdline"
  | workingDirectory => "cwd"
  | executablePath => "exe"

def offset (layout : ControlBlock) : ProcessField → UInt64
  | commandLine => layout.commandLine
  | workingDirectory => layout.workingDirectory
  | executablePath => layout.executablePath

end ProcessField

inductive ProcessSelector where
  | minimal
  | only (field : ProcessField)
  | all
  deriving Repr, DecidableEq

namespace ProcessSelector

def wants : ProcessSelector → ProcessField → Bool
  | only wanted, field => wanted == field
  | minimal, _ => true
  | all, _ => true

/-- A selector for one field asks for that one, and the other two selectors ask for every field. -/
theorem wants_iff {selector : ProcessSelector} {field : ProcessField} :
    selector.wants field = true ↔ selector = minimal ∨ selector = all ∨ selector = only field := by
  cases selector <;> simp [wants]

end ProcessSelector

/-- What became of one field in a query. -/
inductive FieldAnswer where
  | notRequested
  | unavailable
  | found (text : String)
  deriving Repr, DecidableEq

namespace FieldAnswer

def text? : FieldAnswer → Option String
  | found text => some text
  | _ => none

/-- The answer for a field that was asked for. -/
def ofText : Option String → FieldAnswer
  | some text => found text
  | none => unavailable

theorem ofText_eq_found_iff {known : Option String} {text : String} :
    ofText known = found text ↔ known = some text := by
  cases known <;> simp [ofText]

end FieldAnswer

structure ProcessInfo where
  commandLine : FieldAnswer
  workingDirectory : FieldAnswer
  executablePath : FieldAnswer
  deriving Repr, DecidableEq

namespace ProcessInfo

/-- Answer every field by one rule. -/
def ofAnswers (answer : ProcessField → FieldAnswer) : ProcessInfo :=
  ⟨answer .commandLine, answer .workingDirectory, answer .executablePath⟩

def answer (info : ProcessInfo) : ProcessField → FieldAnswer
  | .commandLine => info.commandLine
  | .workingDirectory => info.workingDirectory
  | .executablePath => info.executablePath

@[simp] theorem answer_ofAnswers (rule : ProcessField → FieldAnswer) (field : ProcessField) :
    (ofAnswers rule).answer field = rule field := by
  cases field <;> rfl

/-- The fields that were asked for and could not be read. -/
def unavailable (info : ProcessInfo) : List ProcessField :=
  ProcessField.all.filter fun field => info.answer field == .unavailable

def lines (info : ProcessInfo) : List String :=
  ProcessField.all.filterMap fun field =>
    (info.answer field).text?.map fun text => field.name ++ " = '" ++ text ++ "'"

def warnings (info : ProcessInfo) : List Warning :=
  info.unavailable.map fun field => .fieldUnreadable field.name

end ProcessInfo

namespace Chain

/-- The text of one field of the process parameters at a known address. -/
def fieldText? (chain : Chain) (parameters : UInt64) (field : ProcessField) : Option String :=
  chain.text? (parameters + field.offset chain.layout)

/-- The answer of a query for one field. -/
def answerField (chain : Chain) (thread : UInt64) (selector : ProcessSelector)
    (field : ProcessField) : FieldAnswer :=
  if selector.wants field then
    match chain.parameters thread with
    | .ok parameters => .ofText (chain.fieldText? parameters field)
    | .error _ => .unavailable
  else
    .notRequested

/--
Ask for the process of a thread.  Only the current process can be asked for,
and there is one when the target executes or a dump is attached.
-/
def processInfo (chain : Chain) (thread : UInt64) (dumpAttached : Bool)
    (selector : ProcessSelector) (arguments : Option String) : Except Fault ProcessInfo :=
  if (arguments.getD "").isEmpty = false then .error .argumentsNotSupported
  else if (chain.memory.executing || dumpAttached) = false then .error .noCurrentProcess
  else .ok (.ofAnswers (chain.answerField thread selector))

/-- A text is found when its field is wanted and can be read at the end of the chain. -/
theorem answerField_eq_found_iff {chain : Chain} {thread : UInt64} {selector : ProcessSelector}
    {field : ProcessField} {text : String} :
    chain.answerField thread selector field = .found text ↔
      selector.wants field = true ∧
        ∃ address, chain.parameters thread = .ok address ∧
          chain.fieldText? address field = some text := by
  unfold answerField
  cases selector.wants field with
  | false => simp
  | true =>
      cases chain.parameters thread with
      | error fault => simp
      | ok address => simp [FieldAnswer.ofText_eq_found_iff]

end Chain

end NtTarget
