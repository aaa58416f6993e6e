import NtTarget.Text.Hex

/-!
# Faults

Every operation that can fail says why.  A fault is a cause; its wording is
given once, by `Fault.message`.
-/

namespace NtTarget

/-- Why data that could be read cannot be what it claims to be. -/
inductive Malformation where
  | oddUtf16Length (length : Nat)
  | recordSize (length : Nat)
  | storedRecordSize (length : Nat)
  | moduleTag (tag : UInt32)
  | moduleNameSize (declared remaining : Nat)
  | missingOptionalHeader
  | sectionExtent (address size : UInt32)
  | rvaTooLarge (rva : Nat)
  | rvaUnmapped (rva : Nat)
  deriving Repr, DecidableEq

namespace Malformation

def message : Malformation → String
  | oddUtf16Length length => "Invalid UTF-16 length - " ++ Nat.repr length
  | recordSize length => "Exception record has invalid size - " ++ Nat.repr length
  | storedRecordSize length => "Exception record section has invalid size - " ++ Nat.repr length
  | moduleTag tag => "Unknown module record tag - " ++ Nat.repr tag.toNat
  | moduleNameSize declared remaining =>
      "Module name size " ++ Nat.repr declared ++ " exceeds section - " ++ Nat.repr remaining ++
        " bytes left"
  | missingOptionalHeader => "File does not have an OptionalHeader"
  | sectionExtent address size =>
      "Section malformed, causing integer overflow - " ++ Nat.repr address.toNat ++ " + " ++
        Nat.repr size.toNat
  | rvaTooLarge rva => "RVA too large to fit in u32: " ++ Nat.repr rva
  | rvaUnmapped rva => "RVA could not be converted to offset - " ++ Nat.repr rva

end Malformation

/-- What an operation depends on and could not find. -/
inductive Missing where
  | threadBase (thread : UInt64)
  | namedSection (name : String)
  | breakpoint (id : UInt64)
  deriving Repr, DecidableEq

namespace Missing

def label : Missing → String
  | threadBase thread => "thread local base of thread " ++ Nat.repr thread.toNat
  | namedSection name => name
  | breakpoint id => "breakpoint #" ++ Nat.repr id.toNat

end Missing

/-- A facility of the debugger that refuses a request. -/
inductive Facility where
  | breakpoint
  | debugRegister
  deriving Repr, DecidableEq

namespace Facility

def label : Facility → String
  | breakpoint => "breakpoint"
  | debugRegister => "debug register"

end Facility

/-- The cause of a failed operation. -/
inductive Fault where
  | malformed (why : Malformation)
  | outOfBounds
  | unsupportedWidth
  | emptyInput
  | unreadable (address : UInt64) (length : Nat)
  | notFound (what : Missing)
  | unavailable (what : Facility)
  | noCurrentProcess
  | argumentsNotSupported
  | fileUnopenable
  | invalidImage
  deriving Repr, DecidableEq

namespace Fault

def message : Fault → String
  | malformed why => why.message
  | outOfBounds => "Out of Bound read would have occurred!"
  | unsupportedWidth => "This target layout is not supported"
  | emptyInput => "Provided input was empty"
  | unreadable address length =>
      "Cannot access memory at " ++ Hex.marked address.toNat ++ " (" ++ Nat.repr length ++ " bytes)"
  | notFound what => what.label ++ " not found"
  | unavailable what => "unable to read " ++ what.label
  | noCurrentProcess => "No current process"
  | argumentsNotSupported => "Only supported for the current process"
  | fileUnopenable => "The file cannot be opened"
  | invalidImage => "The file is not a loadable image"

/-- What follows a step succeeds exactly when the step does and the rest does after it. -/
theorem bind_eq_ok_iff {α β : Type} {first : Except Fault α} {later : α → Except Fault β}
    {value : β} :
    (first >>= later) = .ok value ↔ ∃ middle, first = .ok middle ∧ later middle = .ok value := by
  cases first with
  | error fault => exact ⟨nofun, nofun⟩
  | ok middle =>
      constructor
      · intro found
        exact ⟨middle, rfl, found⟩
      · rintro ⟨_, same, found⟩
        cases same
        exact found

/-- Two steps fail with the fault of the first one, or with that of the second one after it. -/
theorem bind_eq_error_iff {α β : Type} {first : Except Fault α} {later : α → Except Fault β}
    {fault : Fault} :
    (first >>= later) = .error fault ↔
      first = .error fault ∨ ∃ middle, first = .ok middle ∧ later middle = .error fault := by
  cases first with
  | error cause =>
      constructor
      · intro failed
        cases failed
        exact .inl rfl
      · rintro (failed | ⟨_, same, -⟩)
        · cases failed
          rfl
        · cases same
  | ok middle =>
      constructor
      · intro failed
        exact .inr ⟨middle, rfl, failed⟩
      · rintro (same | ⟨_, same, failed⟩)
        · cases same
        · cases same
          exact failed

end Fault

end NtTarget
