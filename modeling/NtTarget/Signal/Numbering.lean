import NtTarget.Signal.Basic

/-!
# Signal numbers

Each runtime flavour of a target numbers signals in its own way.
-/

namespace NtTarget

inductive Abi where
  | windows
  | cygwin
  deriving Repr, DecidableEq

namespace Abi

def name : Abi → String
  | windows => "windows"
  | cygwin => "cygwin"

/-- The signal constants of a flavour, in their order of declaration. -/
def constants : Abi → List (String × Nat)
  | windows =>
      [("SIGHUP", 1), ("SIGINT", 2), ("SIGQUIT", 3), ("SIGILL", 4), ("SIGTRAP", 5), ("SIGIOT", 6),
        ("SIGEMT", 7), ("SIGFPE", 8), ("SIGKILL", 9), ("SIGBUS", 10), ("SIGSEGV", 11),
        ("SIGSYS", 12), ("SIGPIPE", 13), ("SIGALRM", 14), ("SIGTERM", 15), ("SIGBREAK", 21),
        ("SIGABRT", 22)]
  | cygwin =>
      [("SIGHUP", 1), ("SIGINT", 2), ("SIGQUIT", 3), ("SIGILL", 4), ("SIGTRAP", 5), ("SIGABRT", 6),
        ("SIGEMT", 7), ("SIGFPE", 8), ("SIGKILL", 9), ("SIGBUS", 10), ("SIGSEGV", 11),
        ("SIGSYS", 12), ("SIGPIPE", 13), ("SIGALRM", 14), ("SIGTERM", 15), ("SIGURG", 16),
        ("SIGSTOP", 17), ("SIGTSTP", 18), ("SIGCONT", 19), ("SIGCHLD", 20), ("SIGTTIN", 21),
        ("SIGTTOU", 22), ("SIGIO", 23), ("SIGXCPU", 24), ("SIGXFSZ", 25), ("SIGVTALRM", 26),
        ("SIGPROF", 27), ("SIGWINCH", 28), ("SIGLOST", 29), ("SIGUSR1", 30), ("SIGUSR2", 31)]

/-- The name of the constant that stands for a signal, when the flavour has one. -/
def constantName? : Abi → Signal → Option String
  | _, .noSignal => none
  | _, .unknown => none
  | cygwin, .pwr => some "SIGLOST"
  | _, signal => some ("SIG" ++ signal.name)

/-- The number of a signal, when the flavour has one; no signal has number 0. -/
def number? (abi : Abi) (signal : Signal) : Option Nat :=
  match signal with
  | .noSignal => some 0
  | signal => (abi.constantName? signal).bind fun name => abi.constants.lookup name

end Abi

end NtTarget
