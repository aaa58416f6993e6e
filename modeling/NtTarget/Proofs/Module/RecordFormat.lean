import NtTarget.Module.Record
import NtTarget.Proofs.Text.Utf8Codec

/-!
# What a module record stores

A record is a tag, a load address of the tag's width, the size of the name and
at least as many bytes.  Every byte string has exactly one outcome: it is too
short for its header, it starts with another tag, it declares more bytes than
are left, or it is a record.
-/

namespace NtTarget.ModuleRecord

/-- The bytes of a load address behind the tag that announces its width. -/
inductive StoresAddress : UInt32 → Bytes → UInt64 → Prop where
  | narrow (base : UInt32) : StoresAddress narrowTag (Word.toBytes base) base.toUInt64
  | wide (base : UInt64) : StoresAddress wideTag (Word.toBytes base) base

/-- The number of bytes of the load address that a tag announces. -/
def addressSize? (tag : UInt32) : Option Nat :=
  if tag = narrowTag then some 4 else if tag = wideTag then some 8 else none

/-- The outcome that a byte string has as a module record. -/
inductive Yields : Bytes → Except Fault ModuleEntry → Prop where
  | short {data : Bytes} (few : data.length < 4) : Yields data (.error .outOfBounds)
  | unknownTag {tag : UInt32} {rest : Bytes} (unknown : addressSize? tag = none) :
      Yields (Word.toBytes tag ++ rest) (.error (.malformed (.moduleTag tag)))
  | cutHeader {tag : UInt32} {rest : Bytes} {count : Nat} (known : addressSize? tag = some count)
      (few : rest.length < count + 4) :
      Yields (Word.toBytes tag ++ rest) (.error .outOfBounds)
  | oversized {tag size : UInt32} {stored rest : Bytes} {address : UInt64}
      (stores : StoresAddress tag stored address) (few : rest.length < size.toNat) :
      Yields (Word.toBytes tag ++ (stored ++ (Word.toBytes size ++ rest)))
        (.error (.malformed (.moduleNameSize size.toNat rest.length)))
  | record {tag size : UInt32} {stored name rest : Bytes} {address : UInt64}
      (stores : StoresAddress tag stored address) (length : name.length = size.toNat) :
      Yields (Word.toBytes tag ++ (stored ++ (Word.toBytes size ++ (name ++ rest))))
        (.ok ⟨Utf8.decode name.untilZero, address⟩)

/-! ## Load addresses -/

section Address

variable {tag : UInt32} {stored : Bytes} {address : UInt64}

theorem addressSize?_eq_none_iff :
    addressSize? tag = none ↔ tag ≠ narrowTag ∧ tag ≠ wideTag := by
  unfold addressSize?
  by_cases narrow : tag = narrowTag
  · rw [if_pos narrow]
    exact ⟨nofun, fun other => absurd narrow other.1⟩
  · rw [if_neg narrow]
    by_cases wide : tag = wideTag
    · rw [if_pos wide]
      exact ⟨nofun, fun other => absurd wide other.2⟩
    · rw [if_neg wide]
      exact ⟨fun _ => ⟨narrow, wide⟩, fun _ => rfl⟩

theorem StoresAddress.addressSize? (stores : StoresAddress tag stored address) :
    addressSize? tag = some stored.length := by
  cases stores with
  | narrow base => rw [Word.length_toBytes]; rfl
  | wide base => rw [Word.length_toBytes]; rfl

/-- Enough bytes behind a known tag are those of a load address. -/
theorem exists_storesAddress {count : Nat} (known : addressSize? tag = some count) {rest : Bytes}
    (enough : count ≤ rest.length) :
    ∃ stored later address, StoresAddress tag stored address ∧ rest = stored ++ later := by
  unfold addressSize? at known
  split at known
  · rename_i narrow
    subst narrow
    cases known
    obtain ⟨base, later, rfl⟩ := Word.exists_eq_append UInt32 enough
    exact ⟨_, later, _, .narrow base, rfl⟩
  · split at known
    · rename_i wide
      subst wide
      cases known
      obtain ⟨base, later, rfl⟩ := Word.exists_eq_append UInt64 enough
      exact ⟨_, later, _, .wide base, rfl⟩
    · cases known

theorem runOn_addressReader (stores : StoresAddress tag stored address) (before rest : Bytes) :
    (addressReader tag).runOn (.between before (stored ++ rest)) =
      (.ok address, .between (before ++ stored) rest) := by
  cases stores with
  | narrow base =>
      rw [addressReader, if_pos rfl, Reader.runOn_bind, Reader.runOn_word_between]
      rfl
  | wide base =>
      rw [addressReader, if_neg (by decide), if_pos rfl, Reader.runOn_word_between]

theorem runOn_addressReader_short {count : Nat} (known : addressSize? tag = some count)
    (before : Bytes) {rest : Bytes} (few : rest.length < count) :
    (addressReader tag).runOn (.between before rest) =
      (.error .outOfBounds, .between before rest) := by
  unfold addressSize? at known
  unfold addressReader
  split at known
  · cases known
    rw [if_pos (by assumption), Reader.runOn_bind, Reader.runOn_word_short before few]
  · rw [if_neg (by assumption)]
    split at known
    · cases known
      rw [if_pos (by assumption), Reader.runOn_word_short before few]
    · cases known

theorem runOn_addressReader_unknown (unknown : addressSize? tag = none) (cursor : Cursor) :
    (addressReader tag).runOn cursor = (.error (.malformed (.moduleTag tag)), cursor) := by
  unfold addressSize? at unknown
  unfold addressReader
  split at unknown
  · cases unknown
  · split at unknown
    · cases unknown
    · rw [if_neg (by assumption), if_neg (by assumption), Reader.runOn_throw]

end Address

/-! ## Names -/

theorem runOn_nameReader (before name rest : Bytes) :
    (nameReader name.length).runOn (.between before (name ++ rest)) =
      (.ok (Utf8.decode name.untilZero), .between (before ++ name) rest) := by
  have enough : ¬ (Cursor.between before (name ++ rest)).remaining < name.length := by
    rw [Cursor.remaining_between, List.length_append]
    omega
  unfold nameReader
  rw [Reader.runOn_bind, Reader.runOn_get]
  dsimp only
  rw [if_neg enough, Reader.runOn_bind, Reader.runOn_bytes_between]
  rfl

theorem runOn_nameReader_oversized {size : Nat} (before : Bytes) {rest : Bytes}
    (few : rest.length < size) :
    (nameReader size).runOn (.between before rest) =
      (.error (.malformed (.moduleNameSize size rest.length)), .between before rest) := by
  have short : (Cursor.between before rest).remaining < size := by
    rwa [Cursor.remaining_between]
  unfold nameReader
  rw [Reader.runOn_bind, Reader.runOn_get]
  dsimp only
  rw [if_pos short, Reader.runOn_throw, Cursor.remaining_between]

/-! ## Outcomes -/

theorem decode_eq_runOn (data : Bytes) : decode data = (reader.runOn (.between [] data)).1 := rfl

/-- Behind a known tag and its load address the size and the name are read. -/
theorem runOn_reader {tag : UInt32} {stored : Bytes} {address : UInt64}
    (stores : StoresAddress tag stored address) (rest : Bytes) :
    reader.runOn (.between [] (Word.toBytes tag ++ (stored ++ rest))) =
      Reader.runOn (do
        let size ← Reader.word UInt32
        let name ← nameReader size.toNat
        pure ⟨name, address⟩) (.between (Word.toBytes tag ++ stored) rest) := by
  unfold reader
  rw [Reader.runOn_bind, Reader.runOn_word_between]
  dsimp only
  rw [Reader.runOn_bind, runOn_addressReader stores]
  rfl

theorem decode_of_yields {data : Bytes} {outcome : Except Fault ModuleEntry}
    (yields : Yields data outcome) : decode data = outcome := by
  rw [decode_eq_runOn]
  cases yields with
  | short few =>
      unfold reader
      rw [Reader.runOn_bind, Reader.runOn_word_short [] few]
  | unknownTag unknown =>
      unfold reader
      rw [Reader.runOn_bind, Reader.runOn_word_between]
      dsimp only
      rw [Reader.runOn_bind, runOn_addressReader_unknown unknown]
  | @cutHeader tag rest count known few =>
      -- The cut is in the load address or behind it, in the size of the name.
      by_cases whole : count ≤ rest.length
      · obtain ⟨stored, later, address, stores, rfl⟩ := exists_storesAddress known whole
        have size := stores.addressSize?
        rw [known, Option.some_inj] at size
        rw [List.length_append] at few
        rw [runOn_reader stores, Reader.runOn_bind,
          Reader.runOn_word_short _ (show later.length < 4 by omega)]
      · unfold reader
        rw [Reader.runOn_bind, Reader.runOn_word_between]
        dsimp only
        rw [Reader.runOn_bind, runOn_addressReader_short known _ (Nat.not_le.1 whole)]
  | oversized stores few =>
      rw [runOn_reader stores, Reader.runOn_bind, Reader.runOn_word_between]
      dsimp only
      rw [Reader.runOn_bind, runOn_nameReader_oversized _ few]
  | record stores length =>
      rw [runOn_reader stores, Reader.runOn_bind, Reader.runOn_word_between]
      dsimp only
      rw [Reader.runOn_bind, ← length, runOn_nameReader]
      rfl

/-- Every byte string has an outcome. -/
theorem exists_yields (data : Bytes) : ∃ outcome, Yields data outcome := by
  by_cases few : data.length < 4
  · exact ⟨_, .short few⟩
  obtain ⟨tag, rest, rfl⟩ := Word.exists_eq_append UInt32 (Nat.not_lt.1 few)
  cases known : addressSize? tag with
  | none => exact ⟨_, .unknownTag known⟩
  | some count =>
      by_cases cut : rest.length < count + 4
      · exact ⟨_, .cutHeader known cut⟩
      have whole : count ≤ rest.length := by omega
      obtain ⟨stored, later, address, stores, rfl⟩ := exists_storesAddress known whole
      have size := stores.addressSize?
      rw [known, Option.some_inj] at size
      rw [List.length_append] at cut
      obtain ⟨declared, left, rfl⟩ :=
        Word.exists_eq_append UInt32 (show 4 ≤ later.length by omega)
      by_cases large : left.length < declared.toNat
      · exact ⟨_, .oversized stores large⟩
      · have length := List.length_take_of_le (Nat.not_lt.1 large)
        rw [← List.take_append_drop declared.toNat left]
        exact ⟨_, .record stores length⟩

theorem decode_eq_iff {data : Bytes} {outcome : Except Fault ModuleEntry} :
    decode data = outcome ↔ Yields data outcome := by
  constructor
  · intro decoded
    obtain ⟨other, yields⟩ := exists_yields data
    rw [← decoded, decode_of_yields yields]
    exact yields
  · exact decode_of_yields

/-! ## The three kinds of outcome -/

theorem decode_eq_ok_iff {data : Bytes} {entry : ModuleEntry} :
    decode data = .ok entry ↔
      ∃ (tag size : UInt32) (stored name rest : Bytes), StoresAddress tag stored entry.address ∧
        data = Word.toBytes tag ++ (stored ++ (Word.toBytes size ++ (name ++ rest))) ∧
        name.length = size.toNat ∧ Utf8.decode name.untilZero = entry.name := by
  rw [decode_eq_iff]
  constructor
  · intro yields
    cases yields with
    | record stores length => exact ⟨_, _, _, _, _, stores, rfl, length, rfl⟩
  · rintro ⟨tag, size, stored, name, rest, stores, rfl, length, named⟩
    obtain ⟨text, address⟩ := entry
    cases named
    exact .record stores length

theorem decode_eq_outOfBounds_iff {data : Bytes} :
    decode data = .error .outOfBounds ↔
      data.length < 4 ∨
        (∃ rest, data = Word.toBytes narrowTag ++ rest ∧ data.length < 12) ∨
        ∃ rest, data = Word.toBytes wideTag ++ rest ∧ data.length < 16 := by
  have size : ∀ (tag : UInt32) (rest : Bytes),
      (Word.toBytes tag ++ rest).length = 4 + rest.length := by
    intro tag rest
    rw [List.length_append, Word.length_toBytes]
    rfl
  rw [decode_eq_iff]
  constructor
  · intro yields
    cases yields with
    | short few => exact .inl few
    | @cutHeader tag rest count known few =>
        unfold addressSize? at known
        split at known
        · rename_i narrow
          cases known
          subst narrow
          exact .inr (.inl ⟨rest, rfl, by rw [size]; omega⟩)
        · split at known
          · rename_i wide
            cases known
            subst wide
            exact .inr (.inr ⟨rest, rfl, by rw [size]; omega⟩)
          · cases known
  · rintro (few | ⟨rest, rfl, few⟩ | ⟨rest, rfl, few⟩)
    · exact .short few
    · rw [size] at few
      exact .cutHeader (show addressSize? narrowTag = some 4 from rfl) (by omega)
    · rw [size] at few
      exact .cutHeader (show addressSize? wideTag = some 8 from rfl) (by omega)

theorem decode_eq_malformed_iff {data : Bytes} {why : Malformation} :
    decode data = .error (.malformed why) ↔
      (∃ tag rest, tag ≠ narrowTag ∧ tag ≠ wideTag ∧ data = Word.toBytes tag ++ rest ∧
        why = .moduleTag tag) ∨
      ∃ (tag size : UInt32) (stored rest : Bytes) (address : UInt64),
        StoresAddress tag stored address ∧
        data = Word.toBytes tag ++ (stored ++ (Word.toBytes size ++ rest)) ∧
        rest.length < size.toNat ∧ why = .moduleNameSize size.toNat rest.length := by
  rw [decode_eq_iff]
  constructor
  · intro yields
    cases yields with
    | @unknownTag tag rest unknown =>
        obtain ⟨notNarrow, notWide⟩ := addressSize?_eq_none_iff.1 unknown
        exact .inl ⟨tag, rest, notNarrow, notWide, rfl, rfl⟩
    | oversized stores few => exact .inr ⟨_, _, _, _, _, stores, rfl, few, rfl⟩
  · rintro (⟨tag, rest, notNarrow, notWide, rfl, rfl⟩ | ⟨_, _, _, _, _, stores, rfl, few, rfl⟩)
    · exact .unknownTag (addressSize?_eq_none_iff.2 ⟨notNarrow, notWide⟩)
    · exact .oversized stores few

/-- A record fails in one of two ways. -/
theorem fault_of_decode {data : Bytes} {fault : Fault} (failed : decode data = .error fault) :
    fault = .outOfBounds ∨ ∃ why, fault = .malformed why := by
  cases decode_eq_iff.1 failed with
  | short => exact .inl rfl
  | unknownTag => exact .inr ⟨_, rfl⟩
  | cutHeader => exact .inl rfl
  | oversized => exact .inr ⟨_, rfl⟩

/--
A byte string is accepted exactly when it is a known tag, a load address of the
tag's width, a size and at least as many bytes; the name is the decoded text in
front of the first zero byte among them, and the bytes behind them do not count.
A string that ends inside its header is out of bounds.  All others are
malformed: by another tag, whatever follows it, or by a size that exceeds what
is left.  Every load address and every name without a zero character read back.
-/
theorem decode_accepts_records :
    (∀ data entry, decode data = .ok entry ↔
      ∃ (tag size : UInt32) (stored name rest : Bytes), StoresAddress tag stored entry.address ∧
        data = Word.toBytes tag ++ (stored ++ (Word.toBytes size ++ (name ++ rest))) ∧
        name.length = size.toNat ∧ Utf8.decode name.untilZero = entry.name) ∧
    (∀ data, decode data = .error .outOfBounds ↔
      data.length < 4 ∨
        (∃ rest, data = Word.toBytes narrowTag ++ rest ∧ data.length < 12) ∨
        ∃ rest, data = Word.toBytes wideTag ++ rest ∧ data.length < 16) ∧
    (∀ data why, decode data = .error (.malformed why) ↔
      (∃ tag rest, tag ≠ narrowTag ∧ tag ≠ wideTag ∧ data = Word.toBytes tag ++ rest ∧
        why = .moduleTag tag) ∨
      ∃ (tag size : UInt32) (stored rest : Bytes) (address : UInt64),
        StoresAddress tag stored address ∧
        data = Word.toBytes tag ++ (stored ++ (Word.toBytes size ++ rest)) ∧
        rest.length < size.toNat ∧ why = .moduleNameSize size.toNat rest.length) ∧
    (∀ data fault, decode data = .error fault →
      fault = .outOfBounds ∨ ∃ why, fault = .malformed why) ∧
    (∀ data entry, decode data = .ok entry → ∀ tail, decode (data ++ tail) = .ok entry) ∧
    ∀ tag stored address, StoresAddress tag stored address → ∀ (name : String) (size : UInt32),
      '\x00' ∉ name.toList → (Utf8.encode name).length = size.toNat → ∀ tail,
        decode (Word.toBytes tag ++
          (stored ++ (Word.toBytes size ++ (Utf8.encode name ++ tail)))) =
            .ok ⟨name, address⟩ := by
  refine ⟨fun _ _ => decode_eq_ok_iff, fun _ => decode_eq_outOfBounds_iff,
    fun _ _ => decode_eq_malformed_iff, fun _ _ => fault_of_decode, ?_, ?_⟩
  · intro data entry decoded tail
    obtain ⟨tag, size, stored, name, rest, stores, rfl, length, named⟩ :=
      decode_eq_ok_iff.1 decoded
    refine decode_eq_ok_iff.2
      ⟨tag, size, stored, name, rest ++ tail, stores, ?_, length, named⟩
    simp only [List.append_assoc]
  · intro tag stored address stores name size clean length tail
    have whole : (Utf8.encode name).untilZero = Utf8.encode name :=
      Bytes.untilZero_of_notMem (Utf8.zero_notMem_encode clean)
    refine decode_eq_ok_iff.2
      ⟨tag, size, stored, Utf8.encode name, tail, stores, rfl, length, ?_⟩
    rw [whole, Utf8.decode_encode]

/-- The name of a record ends at its first zero byte, and what follows its last byte is not read. -/
theorem paddedRecord_decodes :
    StoresAddress wideTag [0, 0, 0, 0x40, 1, 0, 0, 0] 0x140000000 ∧
      decode [4, 0, 0, 0, 0, 0, 0, 0x40, 1, 0, 0, 0, 5, 0, 0, 0, 0x61, 0x2E, 0, 0xFF, 0xFF, 7] =
        .ok ⟨"a.", 0x140000000⟩ := by
  have stores : StoresAddress wideTag [0, 0, 0, 0x40, 1, 0, 0, 0] 0x140000000 :=
    .wide 0x140000000
  refine ⟨stores, ?_⟩
  exact (decode_accepts_records.1 _ _).2
    ⟨wideTag, 5, _, [0x61, 0x2E, 0, 0xFF, 0xFF], [7], stores, by decide, rfl, by decide +kernel⟩

end NtTarget.ModuleRecord
