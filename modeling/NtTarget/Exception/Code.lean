/-!
# Exception codes

The status codes that have a name of their own, in ascending order.
-/

namespace NtTarget

/-- An exception code with a name. -/
inductive ExceptionCode where
  | fatalAppExit
  | wx86SingleStep
  | wx86Breakpoint
  | dbgControlC
  | dbgControlBreak
  | datatypeMisalignment
  | breakpoint
  | singleStep
  | accessViolation
  | inPageError
  | illegalInstruction
  | noncontinuableException
  | invalidDisposition
  | arrayBoundsExceeded
  | floatDenormalOperand
  | floatDivideByZero
  | floatInexactResult
  | floatInvalidOperation
  | floatOverflow
  | floatStackCheck
  | floatUnderflow
  | integerDivideByZero
  | integerOverflow
  | privInstruction
  | stackOverflow
  | fastFail
  deriving Repr, DecidableEq

namespace ExceptionCode

def all : List ExceptionCode :=
  [fatalAppExit, wx86SingleStep, wx86Breakpoint, dbgControlC, dbgControlBreak,
    datatypeMisalignment, breakpoint, singleStep, accessViolation, inPageError,
    illegalInstruction, noncontinuableException, invalidDisposition, arrayBoundsExceeded,
    floatDenormalOperand, floatDivideByZero, floatInexactResult, floatInvalidOperation,
    floatOverflow, floatStackCheck, floatUnderflow, integerDivideByZero, integerOverflow,
    privInstruction, stackOverflow, fastFail]

def code : ExceptionCode → UInt32
  | fatalAppExit => 0x40000015
  | wx86SingleStep => 0x4000001E
  | wx86Breakpoint => 0x4000001F
  | dbgControlC => 0x40010005
  | dbgControlBreak => 0x40010008
  | datatypeMisalignment => 0x80000002
  | breakpoint => 0x80000003
  | singleStep => 0x80000004
  | accessViolation => 0xC0000005
  | inPageError => 0xC0000006
  | illegalInstruction => 0xC000001D
  | noncontinuableException => 0xC0000025
  | invalidDisposition => 0xC0000026
  | arrayBoundsExceeded => 0xC000008C
  | floatDenormalOperand => 0xC000008D
  | floatDivideByZero => 0xC000008E
  | floatInexactResult => 0xC000008F
  | floatInvalidOperation => 0xC0000090
  | floatOverflow => 0xC0000091
  | floatStackCheck => 0xC0000092
  | floatUnderflow => 0xC0000093
  | integerDivideByZero => 0xC0000094
  | integerOverflow => 0xC0000095
  | privInstruction => 0xC0000096
  | stackOverflow => 0xC00000FD
  | fastFail => 0xC0000409

def name : ExceptionCode → String
  | fatalAppExit => "FATAL_APP_EXIT"
  | wx86SingleStep => "WX86_SINGLE_STEP"
  | wx86Breakpoint => "WX86_BREAKPOINT"
  | dbgControlC => "DBG_CONTROL_C"
  | dbgControlBreak => "DBG_CONTROL_BREAK"
  | datatypeMisalignment => "DATATYPE_MISALIGNMENT"
  | breakpoint => "BREAKPOINT"
  | singleStep => "SINGLE_STEP"
  | accessViolation => "ACCESS_VIOLATION"
  | inPageError => "IN_PAGE_ERROR"
  | illegalInstruction => "ILLEGAL_INSTRUCTION"
  | noncontinuableException => "NONCONTINUABLE_EXCEPTION"
  | invalidDisposition => "INVALID_DISPOSITION"
  | arrayBoundsExceeded => "ARRAY_BOUNDS_EXCEEDED"
  | floatDenormalOperand => "FLOAT_DENORMAL_OPERAND"
  | floatDivideByZero => "FLOAT_DIVIDE_BY_ZERO"
  | floatInexactResult => "FLOAT_INEXACT_RESULT"
  | floatInvalidOperation => "FLOAT_INVALID_OPERATION"
  | floatOverflow => "FLOAT_OVERFLOW"
  | floatStackCheck => "FLOAT_STACK_CHECK"
  | floatUnderflow => "FLOAT_UNDERFLOW"
  | integerDivideByZero => "INTEGER_DIVIDE_BY_ZERO"
  | integerOverflow => "INTEGER_OVERFLOW"
  | privInstruction => "PRIV_INSTRUCTION"
  | stackOverflow => "STACK_OVERFLOW"
  | fastFail => "FAST_FAIL"

def ofCode? (stored : UInt32) : Option ExceptionCode :=
  all.find? fun kind => kind.code == stored

end ExceptionCode

end NtTarget
