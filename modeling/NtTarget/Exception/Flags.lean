/-!
# Exception flags

Seven bits of the flags word have a name.  The word is kept as it was stored,
so bits without a name are never lost.
-/

namespace NtTarget

inductive ExceptionFlag where
  | noncontinuable
  | unwinding
  | exitUnwind
  | stackInvalid
  | nestedCall
  | targetUnwind
  | collidedUnwind
  deriving Repr, DecidableEq

namespace ExceptionFlag

def all : List ExceptionFlag :=
  [noncontinuable, unwinding, exitUnwind, stackInvalid, nestedCall, targetUnwind, collidedUnwind]

def bit : ExceptionFlag → UInt32
  | noncontinuable => 0x01
  | unwinding => 0x02
  | exitUnwind => 0x04
  | stackInvalid => 0x08
  | nestedCall => 0x10
  | targetUnwind => 0x20
  | collidedUnwind => 0x40

def name : ExceptionFlag → String
  | noncontinuable => "NONCONTINUABLE"
  | unwinding => "UNWINDING"
  | exitUnwind => "EXIT_UNWIND"
  | stackInvalid => "STACK_INVALID"
  | nestedCall => "NESTED_CALL"
  | targetUnwind => "TARGET_UNWIND"
  | collidedUnwind => "COLLIDED_UNWIND"

end ExceptionFlag

structure ExceptionFlags where
  bits : UInt32
  deriving Repr, DecidableEq

namespace ExceptionFlags

/-- The bits that have a name. -/
def knownBits : UInt32 :=
  0x7F

def has (flags : ExceptionFlags) (flag : ExceptionFlag) : Bool :=
  flags.bits &&& flag.bit != 0

def known (flags : ExceptionFlags) : List ExceptionFlag :=
  ExceptionFlag.all.filter flags.has

def truncated (flags : ExceptionFlags) : UInt32 :=
  flags.bits &&& knownBits

/-- The word, unless it has a bit without a name. -/
def strict? (flags : ExceptionFlags) : Option UInt32 :=
  if flags.truncated = flags.bits then some flags.bits else none

end ExceptionFlags

end NtTarget
