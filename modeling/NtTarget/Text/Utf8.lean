import NtTarget.Bytes.Basic

/-!
# UTF-8

Decoding never fails.  A byte that cannot continue the character begun before
it ends that attempt with one replacement character and is then looked at
afresh, so every maximal ill-formed piece becomes exactly one U+FFFD.
-/

namespace NtTarget.Utf8

/-- The character written for input that encodes none. -/
def replacement : Char := '\uFFFD'

/--
A character whose first bytes have been read: the range of the next byte, the
number of bytes owed after that one, and the payload bits gathered so far.
-/
structure Pending where
  low : Nat
  high : Nat
  owed : Nat
  payload : Nat
  deriving Repr, DecidableEq

/-- What a byte of 0x80 or more begins, when it can begin a character. -/
def Pending.ofLead? (byte : Nat) : Option Pending :=
  if 0xC2 ≤ byte ∧ byte ≤ 0xDF then some ⟨0x80, 0xBF, 0, byte - 0xC0⟩
  else if byte = 0xE0 then some ⟨0xA0, 0xBF, 1, 0⟩
  else if byte = 0xED then some ⟨0x80, 0x9F, 1, 0xD⟩
  else if 0xE1 ≤ byte ∧ byte ≤ 0xEF then some ⟨0x80, 0xBF, 1, byte - 0xE0⟩
  else if byte = 0xF0 then some ⟨0x90, 0xBF, 2, 0⟩
  else if 0xF1 ≤ byte ∧ byte ≤ 0xF3 then some ⟨0x80, 0xBF, 2, byte - 0xF0⟩
  else if byte = 0xF4 then some ⟨0x80, 0x8F, 2, 4⟩
  else none

/-- What one byte adds between characters, and the state after it. -/
def stepFresh (byte : Nat) : List Char × Option Pending :=
  if byte < 0x80 then ([Char.ofNat byte], none)
  else match Pending.ofLead? byte with
    | some pending => ([], some pending)
    | none => ([replacement], none)

/-- What one byte adds inside a character, and the state after it. -/
def Pending.step (pending : Pending) (byte : Nat) : List Char × Option Pending :=
  if pending.low ≤ byte ∧ byte ≤ pending.high then
    match pending.owed with
    | 0 => ([Char.ofNat (64 * pending.payload + (byte - 0x80))], none)
    | owed + 1 => ([], some ⟨0x80, 0xBF, owed, 64 * pending.payload + (byte - 0x80)⟩)
  else
    (replacement :: (stepFresh byte).1, (stepFresh byte).2)

/-- What one byte adds in either state. -/
def step : Option Pending → Nat → List Char × Option Pending
  | none, byte => stepFresh byte
  | some pending, byte => pending.step byte

/-- Decode from a given state; an unfinished last character is replaced. -/
def decodeFrom : Option Pending → Bytes → List Char
  | none, [] => []
  | some _, [] => [replacement]
  | state, byte :: rest => (step state byte.toNat).1 ++ decodeFrom (step state byte.toNat).2 rest

/-- The text of a byte string, with a replacement for every maximal ill-formed piece. -/
def decode (bytes : Bytes) : String :=
  String.ofList (decodeFrom none bytes)

/-- The one to four bytes of a character. -/
def encodeChar (c : Char) : Bytes :=
  let n := c.toNat
  if n < 0x80 then [UInt8.ofNat n]
  else if n < 0x800 then [UInt8.ofNat (0xC0 + n / 64), UInt8.ofNat (0x80 + n % 64)]
  else if n < 0x10000 then
    [UInt8.ofNat (0xE0 + n / 4096), UInt8.ofNat (0x80 + n / 64 % 64), UInt8.ofNat (0x80 + n % 64)]
  else
    [UInt8.ofNat (0xF0 + n / 262144), UInt8.ofNat (0x80 + n / 4096 % 64),
      UInt8.ofNat (0x80 + n / 64 % 64), UInt8.ofNat (0x80 + n % 64)]

def encode (text : String) : Bytes :=
  text.toList.flatMap encodeChar

/-- Whether a byte string is well-formed, from a given state. -/
def wellFormedFrom : Option Pending → Bytes → Bool
  | none, [] => true
  | some _, [] => false
  | none, byte :: rest =>
      if byte.toNat < 0x80 then wellFormedFrom none rest
      else match Pending.ofLead? byte.toNat with
        | some pending => wellFormedFrom (some pending) rest
        | none => false
  | some pending, byte :: rest =>
      if pending.low ≤ byte.toNat ∧ byte.toNat ≤ pending.high then
        wellFormedFrom (pending.step byte.toNat).2 rest
      else false

/-- The text of a byte string, when it is well-formed. -/
def decode? (bytes : Bytes) : Option String :=
  if wellFormedFrom none bytes then some (decode bytes) else none

@[simp] theorem decodeFrom_cons (state : Option Pending) (byte : UInt8) (rest : Bytes) :
    decodeFrom state (byte :: rest) =
      (step state byte.toNat).1 ++ decodeFrom (step state byte.toNat).2 rest := by
  cases state <;> rfl

end NtTarget.Utf8
