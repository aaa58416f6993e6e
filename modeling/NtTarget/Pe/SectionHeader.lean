import NtTarget.Pe.Header
import NtTarget.Text.Utf8

/-!
# Section headers

A header names a section in eight bytes, or in the string table when the name
is a slash and a number, written in decimal or, behind a second slash, in
base 64.  The contents of a section start at its raw pointer; a virtual size
below the raw size marks the rest as padding.
-/

namespace NtTarget.Pe

structure SectionHeader where
  rawName : Bytes
  longName : Option String
  virtualSize : UInt32
  virtualAddress : UInt32
  rawSize : UInt32
  rawPointer : UInt32
  deriving Repr, DecidableEq

namespace SectionHeader

def size : Nat :=
  40

/-- The name of a section; a short one ends before its last zero bytes. -/
def name (header : SectionHeader) : String :=
  match header.longName with
  | some text => text
  | none =>
      String.ofList ((Utf8.decode header.rawName).toList.reverse.dropWhile (· == '\x00')).reverse

/-- The raw pointer and the number of bytes of a section's contents. -/
def contentsRange (header : SectionHeader) : Nat × Nat :=
  (header.rawPointer.toNat,
    if header.virtualSize = 0 then header.rawSize.toNat
    else min header.virtualSize.toNat header.rawSize.toNat)

end SectionHeader

/--
The well-formed text at an offset of a file, up to a zero byte or the end of
the file.  At the very end of the file an empty text starts.
-/
def textAt? (file : Bytes) (offset : Nat) : Option String :=
  if offset ≤ file.length then Utf8.decode? (Bytes.untilZero (file.drop offset)) else none

namespace LongName

/-- The slash that announces a name in the string table. -/
def slash : UInt8 :=
  0x2F

def base64Digit? (byte : UInt8) : Option Nat :=
  let n := byte.toNat
  if 0x41 ≤ n ∧ n ≤ 0x5A then some (n - 0x41)
  else if 0x61 ≤ n ∧ n ≤ 0x7A then some (n - 0x61 + 26)
  else if 0x30 ≤ n ∧ n ≤ 0x39 then some (n - 0x30 + 52)
  else if n = 0x2B then some 62
  else if n = 0x2F then some 63
  else none

def decimalDigit? (byte : UInt8) : Option Nat :=
  if 0x30 ≤ byte.toNat ∧ byte.toNat ≤ 0x39 then some (byte.toNat - 0x30) else none

/-- The number that a list of digits writes in a base, most significant first. -/
def number? (base : Nat) (digit? : UInt8 → Option Nat) (text : Bytes) : Option Nat :=
  text.foldlM (fun number byte => (digit? byte).map fun value => base * number + value) 0

/-- A decimal number of at least one digit, with an optional plus sign. -/
def decimal? (text : Bytes) : Option Nat :=
  match text with
  | [] => none
  | 0x2B :: [] => none
  | 0x2B :: digits => number? 10 decimalDigit? digits
  | digits => number? 10 decimalDigit? digits

/-- A base-64 number; no digits write 0. -/
def base64? (text : Bytes) : Option Nat :=
  number? 64 base64Digit? text

/--
The offset that a raw name gives into the string table, `some none` for a name
that gives none, and `none` for one that should and does not.
-/
def offset? (rawName : Bytes) : Option (Option Nat) :=
  match rawName with
  | first :: second :: rest =>
      if first = slash then
        if second = slash then (base64? (Bytes.untilZero rest)).map some
        else (decimal? (Bytes.untilZero (second :: rest))).map some
      else
        some none
  | _ => some none

end LongName

namespace SectionHeader

def at? (file : Bytes) (strings offset : Nat) : Option SectionHeader := do
  let _whole ← file.slice? offset size
  let rawName ← file.slice? offset 8
  let virtualSize ← Word.at? UInt32 file (offset + 8)
  let virtualAddress ← Word.at? UInt32 file (offset + 12)
  let rawSize ← Word.at? UInt32 file (offset + 16)
  let rawPointer ← Word.at? UInt32 file (offset + 20)
  let indirect ← LongName.offset? rawName
  pure
    { rawName, virtualSize, virtualAddress, rawSize, rawPointer
      longName := indirect.bind fun index => textAt? file (strings + index) }

def row? (file : Bytes) (strings : Nat) : Nat → Nat → Option (List SectionHeader)
  | _, 0 => some []
  | offset, count + 1 => do
      let head ← at? file strings offset
      let tail ← row? file strings (offset + size) count
      pure (head :: tail)

end SectionHeader

/-- The section headers of a file, which must be few enough to fit into it. -/
def FileHeader.sections? (header : FileHeader) (file : Bytes) : Option (List SectionHeader) :=
  if header.sectionCount.toNat ≤ file.length / SectionHeader.size then
    SectionHeader.row? file header.stringsOffset header.sectionsOffset header.sectionCount.toNat
  else
    none

end NtTarget.Pe
