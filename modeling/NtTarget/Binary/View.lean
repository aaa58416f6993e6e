import NtTarget.Bytes.Basic

/-!
# Binaries

What the decoders ask of an executable: where it was linked to load, where it
is entered, where its import table lies, and the contents and address of a
section by name.  Contents and address are separate answers and need not agree.
-/

namespace NtTarget

/-- The answers of an executable. -/
structure BinaryView where
  imageBase : UInt64
  entryPoint : UInt64
  importTable : Option UInt64
  bytesOf? : String → Option Bytes
  addressOf? : String → Option UInt64

end NtTarget
