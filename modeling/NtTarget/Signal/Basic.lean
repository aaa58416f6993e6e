import NtTarget.Exception.Code

/-!
# Signals

A debugger speaks of signals that belong to no system.  An exception code is
reported as one of them; a code without a counterpart is reported as unknown.
-/

namespace NtTarget

inductive Signal where
  | noSignal
  | hup
  | int
  | quit
  | ill
  | trap
  | abrt
  | emt
  | fpe
  | kill
  | bus
  | segv
  | sys
  | pipe
  | alrm
  | term
  | urg
  | stop
  | tstp
  | cont
  | chld
  | ttin
  | ttou
  | io
  | xcpu
  | xfsz
  | vtalrm
  | prof
  | winch
  | pwr
  | usr1
  | usr2
  | unknown
  deriving Repr, DecidableEq

namespace Signal

def all : List Signal :=
  [noSignal, hup, int, quit, ill, trap, abrt, emt, fpe, kill, bus, segv, sys, pipe, alrm, term,
    urg, stop, tstp, cont, chld, ttin, ttou, io, xcpu, xfsz, vtalrm, prof, winch, pwr, usr1, usr2,
    unknown]

def name : Signal → String
  | noSignal => "0"
  | hup => "HUP"
  | int => "INT"
  | quit => "QUIT"
  | ill => "ILL"
  | trap => "TRAP"
  | abrt => "ABRT"
  | emt => "EMT"
  | fpe => "FPE"
  | kill => "KILL"
  | bus => "BUS"
  | segv => "SEGV"
  | sys => "SYS"
  | pipe => "PIPE"
  | alrm => "ALRM"
  | term => "TERM"
  | urg => "URG"
  | stop => "STOP"
  | tstp => "TSTP"
  | cont => "CONT"
  | chld => "CHLD"
  | ttin => "TTIN"
  | ttou => "TTOU"
  | io => "IO"
  | xcpu => "XCPU"
  | xfsz => "XFSZ"
  | vtalrm => "VTALRM"
  | prof => "PROF"
  | winch => "WINCH"
  | pwr => "PWR"
  | usr1 => "USR1"
  | usr2 => "USR2"
  | unknown => "UNKNOWN"

def ofName? (text : String) : Option Signal :=
  all.find? fun signal => signal.name == text

/-- The signal that a named exception code is reported as. -/
def ofException : ExceptionCode → Signal
  | .accessViolation => segv
  | .stackOverflow => segv
  | .arrayBoundsExceeded => fpe
  | .floatDenormalOperand => fpe
  | .floatDivideByZero => fpe
  | .floatInexactResult => fpe
  | .floatInvalidOperation => fpe
  | .floatOverflow => fpe
  | .floatStackCheck => fpe
  | .floatUnderflow => fpe
  | .integerDivideByZero => fpe
  | .integerOverflow => fpe
  | .breakpoint => trap
  | .singleStep => trap
  | .dbgControlC => int
  | .dbgControlBreak => int
  | .illegalInstruction => ill
  | .privInstruction => ill
  | .noncontinuableException => ill
  | .fatalAppExit => abrt
  | .wx86SingleStep => unknown
  | .wx86Breakpoint => unknown
  | .datatypeMisalignment => unknown
  | .inPageError => unknown
  | .invalidDisposition => unknown
  | .fastFail => unknown

/-- The signal that a stored exception code is reported as; 0 means no exception. -/
def ofStoredCode (stored : UInt32) : Signal :=
  if stored = 0 then noSignal
  else match ExceptionCode.ofCode? stored with
    | some kind => ofException kind
    | none => unknown

end Signal

end NtTarget
