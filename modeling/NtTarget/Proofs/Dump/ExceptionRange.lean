import NtTarget.Dump.Stop
import NtTarget.Proofs.Bytes.Ranges

/-!
# Reading the exception record in parts

A read on a narrow target is checked against the size of a narrow record before
the dump is looked at, and cut at the end of the narrowed record.  A read on a
wide target must lie inside the stored section, whatever its size.  On both, all
reads that succeed are ranges of one string.
-/

namespace NtTarget

/-! ## What a target sees of a stored record -/

namespace PointerWidth

/-- The bytes that a target of a width sees of a stored record. -/
def view (width : PointerWidth) (stored : Bytes) : Bytes :=
  match width with
  | .bits32 => RawRecord.narrowBytes stored
  | .bits64 => stored

/-- The record that a target of a width sees of a stored one. -/
def recordOf (width : PointerWidth) (stored : Bytes) (size : stored.length = 152) : RawRecord :=
  match width with
  | .bits32 => RawRecord.narrowed ⟨.bits64, stored, size⟩
  | .bits64 => ⟨.bits64, stored, size⟩

variable (width : PointerWidth) {stored : Bytes} (size : stored.length = 152)

@[simp] theorem width_recordOf : (width.recordOf stored size).width = width := by
  cases width <;> rfl

@[simp] theorem bytes_recordOf : (width.recordOf stored size).bytes = width.view stored := by
  cases width <;> rfl

include size in
theorem length_view : (width.view stored).length = width.recordSize := by
  have length := (width.recordOf stored size).length_bytes
  rwa [bytes_recordOf, width_recordOf] at length

end PointerWidth

theorem RawRecord.ofBytes_of_length {data : Bytes} (size : data.length = 152) :
    ofBytes data = .ok ⟨.bits64, data, size⟩ :=
  dif_pos size

/-- A part that may be refused, whose refusal is a fault. -/
def orOutOfBounds : Option Bytes → Except Fault Bytes
  | some part => .ok part
  | none => .error .outOfBounds

/-- A record reads as a range of its bytes, from an offset that is not past their end. -/
theorem RawRecord.read_eq_range (record : RawRecord) (offset length : Nat) :
    record.read offset length =
      if record.bytes.length < offset then .error .outOfBounds
      else .ok (record.bytes.range offset length) := by
  rw [Bytes.range_eq_take_drop]
  rfl

theorem RawRecord.read_whole (record : RawRecord) :
    record.read 0 record.bytes.length = .ok record.bytes := by
  rw [read_eq_range, if_neg (Nat.not_lt_zero _), Bytes.range_zero_length]

namespace CoreDump

/-! ## The stored record -/

/-- The first section of the exception record holds the given bytes. -/
def StoresException (dump : CoreDump) (stored : Bytes) : Prop :=
  ∃ before after, dump.sections = before ++ ⟨exceptionSection, stored⟩ :: after ∧
    ∀ entry ∈ before, entry.name ≠ exceptionSection

/-- No section of a dump is one of an exception record. -/
def LacksException (dump : CoreDump) : Prop :=
  ∀ entry ∈ dump.sections, entry.name ≠ exceptionSection

/--
The answer to a read of the exception record.  The two widths check different
things, and in a different order.
-/
inductive Serves (dump : CoreDump) (offset length : Nat) : Except Fault Bytes → Prop where
  | narrowPast (narrow : dump.profile.width = .bits32) (past : 80 < offset) :
      Serves dump offset length (.error .outOfBounds)
  | narrowLacking (narrow : dump.profile.width = .bits32) (inside : offset ≤ 80)
      (lacks : dump.LacksException) :
      Serves dump offset length (.error (.notFound (.namedSection exceptionSection)))
  | narrowMissized {stored : Bytes} (narrow : dump.profile.width = .bits32) (inside : offset ≤ 80)
      (stores : dump.StoresException stored) (missized : stored.length ≠ 152) :
      Serves dump offset length (.error (.malformed (.storedRecordSize stored.length)))
  | narrow {stored : Bytes} (narrow : dump.profile.width = .bits32) (inside : offset ≤ 80)
      (stores : dump.StoresException stored) (size : stored.length = 152) :
      Serves dump offset length
        (.ok ((RawRecord.narrowBytes stored).extract offset (min (offset + length) 80)))
  | wideLacking (wide : dump.profile.width = .bits64) (lacks : dump.LacksException) :
      Serves dump offset length (.error (.notFound (.namedSection exceptionSection)))
  | wideOutside {stored : Bytes} (wide : dump.profile.width = .bits64)
      (stores : dump.StoresException stored) (outside : stored.length < offset + length) :
      Serves dump offset length (.error .outOfBounds)
  | wide {stored : Bytes} (wide : dump.profile.width = .bits64)
      (stores : dump.StoresException stored) (inside : offset + length ≤ stored.length) :
      Serves dump offset length (.ok (stored.extract offset (offset + length)))

variable {dump : CoreDump} {stored : Bytes}

theorem exceptionBytes_of_stores (stores : dump.StoresException stored) :
    dump.exceptionBytes = .ok stored := by
  unfold exceptionBytes
  rw [SectionList.bytesOf?_eq_some_iff.2 stores]

theorem exceptionBytes_of_lacks (lacks : dump.LacksException) :
    dump.exceptionBytes = .error (.notFound (.namedSection exceptionSection)) := by
  unfold exceptionBytes
  rw [SectionList.bytesOf?_eq_none_iff.2 lacks]

theorem lacks_or_stores (dump : CoreDump) :
    dump.LacksException ∨ ∃ stored, dump.StoresException stored := by
  cases held : dump.sections.bytesOf? exceptionSection with
  | none => exact .inl (SectionList.bytesOf?_eq_none_iff.1 held)
  | some stored => exact .inr ⟨stored, SectionList.bytesOf?_eq_some_iff.1 held⟩

theorem rawException_of_lacks (lacks : dump.LacksException) :
    dump.rawException = .error (.notFound (.namedSection exceptionSection)) := by
  unfold rawException
  rw [exceptionBytes_of_lacks lacks]
  rfl

theorem rawException_of_missized (stores : dump.StoresException stored)
    (missized : stored.length ≠ 152) :
    dump.rawException = .error (.malformed (.storedRecordSize stored.length)) := by
  unfold rawException
  rw [exceptionBytes_of_stores stores]
  exact if_neg missized

theorem rawException_of_stores (stores : dump.StoresException stored)
    (size : stored.length = 152) :
    dump.rawException = .ok (dump.profile.width.recordOf stored size) := by
  have sized : stored.length = PointerWidth.bits64.recordSize := size
  unfold rawException
  rw [exceptionBytes_of_stores stores]
  refine (if_pos sized).trans ?_
  rw [RawRecord.ofBytes_of_length size]
  cases dump.profile.width <;> rfl

/-! ## Reads -/

section Width

variable {offset length : Nat}

theorem exceptionRange_of_past (narrow : dump.profile.width = .bits32) (past : 80 < offset) :
    dump.exceptionRange offset length = .error .outOfBounds := by
  unfold exceptionRange
  rw [narrow]
  exact if_pos past

theorem exceptionRange_of_narrow (narrow : dump.profile.width = .bits32) (inside : offset ≤ 80) :
    dump.exceptionRange offset length =
      dump.rawException.bind fun record => record.read offset length := by
  unfold exceptionRange
  rw [narrow]
  exact if_neg (Nat.not_lt.2 inside)

theorem exceptionRange_of_wide (wide : dump.profile.width = .bits64) :
    dump.exceptionRange offset length =
      dump.exceptionBytes.bind fun stored => orOutOfBounds (stored.slice? offset length) := by
  unfold exceptionRange
  rw [wide]
  rfl

/-- A narrow record reads up to its end. -/
theorem read_recordOf_narrow (size : stored.length = 152) (inside : offset ≤ 80) :
    (PointerWidth.bits32.recordOf stored size).read offset length =
      .ok ((RawRecord.narrowBytes stored).extract offset (min (offset + length) 80)) := by
  have bytes := PointerWidth.bits32.bytes_recordOf size
  have long : (PointerWidth.bits32.view stored).length = 80 := PointerWidth.bits32.length_view size
  have within : ¬ (PointerWidth.bits32.view stored).length < offset := by omega
  rw [RawRecord.read_eq_range, bytes, if_neg within, Bytes.range_eq_extract (by omega), long]
  rfl

theorem exceptionRange_of_serves {answer : Except Fault Bytes}
    (serves : dump.Serves offset length answer) : dump.exceptionRange offset length = answer := by
  cases serves with
  | narrowPast narrow past => exact exceptionRange_of_past narrow past
  | narrowLacking narrow inside lacks =>
      rw [exceptionRange_of_narrow narrow inside, rawException_of_lacks lacks]
      rfl
  | narrowMissized narrow inside stores missized =>
      rw [exceptionRange_of_narrow narrow inside, rawException_of_missized stores missized]
      rfl
  | narrow narrow inside stores size =>
      rw [exceptionRange_of_narrow narrow inside, rawException_of_stores stores size, narrow]
      exact read_recordOf_narrow size inside
  | wideLacking wide lacks =>
      rw [exceptionRange_of_wide wide, exceptionBytes_of_lacks lacks]
      rfl
  | wideOutside wide stores outside =>
      rw [exceptionRange_of_wide wide, exceptionBytes_of_stores stores]
      dsimp only [Except.bind]
      rw [Bytes.slice?_eq_none_iff.2 outside]
      rfl
  | wide wide stores inside =>
      rw [exceptionRange_of_wide wide, exceptionBytes_of_stores stores]
      dsimp only [Except.bind]
      rw [Bytes.slice?_eq_extract inside]
      rfl

theorem exists_serves (dump : CoreDump) (offset length : Nat) :
    ∃ answer, dump.Serves offset length answer := by
  cases width : dump.profile.width with
  | bits32 =>
      by_cases past : 80 < offset
      · exact ⟨_, .narrowPast width past⟩
      have inside := Nat.not_lt.1 past
      obtain lacks | ⟨stored, stores⟩ := dump.lacks_or_stores
      · exact ⟨_, .narrowLacking width inside lacks⟩
      by_cases size : stored.length = 152
      · exact ⟨_, .narrow width inside stores size⟩
      · exact ⟨_, .narrowMissized width inside stores size⟩
  | bits64 =>
      obtain lacks | ⟨stored, stores⟩ := dump.lacks_or_stores
      · exact ⟨_, .wideLacking width lacks⟩
      by_cases inside : offset + length ≤ stored.length
      · exact ⟨_, .wide width stores inside⟩
      · exact ⟨_, .wideOutside width stores (Nat.not_le.1 inside)⟩

theorem exceptionRange_eq_iff {answer : Except Fault Bytes} :
    dump.exceptionRange offset length = answer ↔ dump.Serves offset length answer := by
  constructor
  · intro served
    obtain ⟨other, serves⟩ := exists_serves dump offset length
    rw [← served, exceptionRange_of_serves serves]
    exact serves
  · exact exceptionRange_of_serves

/-- A read that succeeds is a range of what the target sees. -/
theorem eq_range_of_exceptionRange {part : Bytes}
    (served : dump.exceptionRange offset length = .ok part) :
    ∃ stored, dump.StoresException stored ∧
      part = (dump.profile.width.view stored).range offset length := by
  cases exceptionRange_eq_iff.1 served with
  | @narrow stored narrow inside stores size =>
      have long : (RawRecord.narrowBytes stored).length = 80 := RawRecord.length_narrowBytes size
      refine ⟨stored, stores, ?_⟩
      rw [narrow, PointerWidth.view, Bytes.range_eq_extract (by omega), long]
  | @wide stored wide stores inside =>
      refine ⟨stored, stores, ?_⟩
      rw [wide, PointerWidth.view, Bytes.range_eq_extract (by omega), Nat.min_eq_left inside]

end Width

/-- All reads of a dump that succeed are ranges of one string. -/
theorem exists_whole (dump : CoreDump) :
    ∃ whole : Bytes, ∀ offset length part, dump.exceptionRange offset length = .ok part →
      part = whole.range offset length := by
  obtain lacks | ⟨stored, stores⟩ := dump.lacks_or_stores
  · refine ⟨[], ?_⟩
    intro offset length part served
    obtain ⟨stored, stores, -⟩ := eq_range_of_exceptionRange served
    have held := exceptionBytes_of_stores stores
    rw [exceptionBytes_of_lacks lacks] at held
    cases held
  · refine ⟨dump.profile.width.view stored, ?_⟩
    intro offset length part served
    obtain ⟨other, otherStores, rfl⟩ := eq_range_of_exceptionRange served
    have held := exceptionBytes_of_stores otherStores
    rw [exceptionBytes_of_stores stores] at held
    rw [Except.ok.inj held]

/-- A record is what the target sees of a stored one. -/
theorem exists_recordOf {record : RawRecord} (held : dump.rawException = .ok record) :
    ∃ stored, ∃ size : stored.length = 152, dump.StoresException stored ∧
      record = dump.profile.width.recordOf stored size := by
  obtain lacks | ⟨stored, stores⟩ := dump.lacks_or_stores
  · rw [rawException_of_lacks lacks] at held
    cases held
  by_cases size : stored.length = 152
  · rw [rawException_of_stores stores size] at held
    exact ⟨stored, size, stores, (Except.ok.inj held).symm⟩
  · rw [rawException_of_missized stores size] at held
    cases held

theorem length_bytes_of_rawException {record : RawRecord} (held : dump.rawException = .ok record) :
    record.bytes.length = dump.profile.width.recordSize := by
  obtain ⟨stored, size, -, rfl⟩ := exists_recordOf held
  rw [RawRecord.length_bytes, PointerWidth.width_recordOf]

/-- On a narrow target the record that can be decoded is the one that is read in parts. -/
theorem exceptionRange_eq_read {record : RawRecord} (narrow : dump.profile.width = .bits32)
    (held : dump.rawException = .ok record) (offset length : Nat) :
    dump.exceptionRange offset length = record.read offset length := by
  have long : record.bytes.length = 80 := by
    rw [length_bytes_of_rawException held, narrow]
    rfl
  by_cases past : 80 < offset
  · rw [exceptionRange_of_past narrow past, RawRecord.read_eq_range, long, if_pos past]
  · rw [exceptionRange_of_narrow narrow (Nat.not_lt.1 past), held]
    rfl

/-- A read of the size of a record gives the whole record, on either width. -/
theorem exceptionRange_whole {record : RawRecord} (held : dump.rawException = .ok record) :
    dump.exceptionRange 0 dump.profile.width.recordSize = .ok record.bytes := by
  rw [← length_bytes_of_rawException held]
  cases width : dump.profile.width with
  | bits32 => rw [exceptionRange_eq_read width held, RawRecord.read_whole]
  | bits64 =>
      obtain ⟨stored, size, stores, rfl⟩ := exists_recordOf held
      rw [exceptionRange_of_wide width, exceptionBytes_of_stores stores, width]
      dsimp only [Except.bind, PointerWidth.recordOf]
      rw [Bytes.slice?_self]
      rfl

/-! ## Reads with machine words -/

/-- A read whose bounds are machine words: the end of a wide one must not wrap. -/
def wordExceptionRange {w : Nat} (dump : CoreDump) (offset length : BitVec w) :
    Except Fault Bytes :=
  match dump.profile.width with
  | .bits32 =>
      if BitVec.ofNat w PointerWidth.bits32.recordSize < offset then .error .outOfBounds
      else do
        let record ← dump.rawException
        orOutOfBounds (record.bytes.wordPart? offset length)
  | .bits64 => do
      let stored ← dump.exceptionBytes
      orOutOfBounds (stored.wordSlice? offset length)

theorem length_lt_of_stores {limit : Nat} (stores : dump.StoresException stored)
    (fits : ∀ entry ∈ dump.sections, entry.bytes.length < limit) : stored.length < limit := by
  obtain ⟨before, after, whole, -⟩ := stores
  refine fits ⟨exceptionSection, stored⟩ ?_
  rw [whole]
  exact List.mem_append_right before List.mem_cons_self

/-- In a dump that fits in memory no bound of a read that succeeds wraps. -/
theorem wordExceptionRange_eq {w : Nat} (room : 152 < 2 ^ w)
    (fits : ∀ entry ∈ dump.sections, entry.bytes.length < 2 ^ w) (offset length : BitVec w) :
    dump.wordExceptionRange offset length =
      dump.exceptionRange offset.toNat length.toNat := by
  unfold wordExceptionRange
  cases width : dump.profile.width with
  | bits32 =>
      have bound : (BitVec.ofNat w PointerWidth.bits32.recordSize).toNat = 80 := by
        rw [BitVec.toNat_ofNat]
        exact Nat.mod_eq_of_lt (Nat.lt_trans (by decide : 80 < 152) room)
      dsimp only
      by_cases past : BitVec.ofNat w PointerWidth.bits32.recordSize < offset
      · rw [if_pos past]
        rw [BitVec.lt_def, bound] at past
        exact (exceptionRange_of_past width past).symm
      rw [if_neg past]
      rw [BitVec.lt_def, bound] at past
      rw [exceptionRange_of_narrow width (Nat.not_lt.1 past)]
      cases held : dump.rawException with
      | error fault => rfl
      | ok record =>
          have long : record.bytes.length < 2 ^ w := by
            rw [length_bytes_of_rawException held, width]
            exact Nat.lt_trans (by decide : 80 < 152) room
          change orOutOfBounds (record.bytes.wordPart? offset length) =
            record.read offset.toNat length.toNat
          rw [Bytes.wordPart?_eq_range long, RawRecord.read_eq_range]
          exact apply_ite orOutOfBounds _ _ _
  | bits64 =>
      dsimp only
      rw [exceptionRange_of_wide width]
      obtain lacks | ⟨stored, stores⟩ := dump.lacks_or_stores
      · rw [exceptionBytes_of_lacks lacks]
        rfl
      · rw [exceptionBytes_of_stores stores]
        change orOutOfBounds (stored.wordSlice? offset length) =
          orOutOfBounds (stored.slice? offset.toNat length.toNat)
        rw [Bytes.wordSlice?_eq_slice? (length_lt_of_stores stores fits)]

/--
The answer to every read is settled by the width, the offset, the length and the
first section of the exception record.  On a narrow target with a record it is
the record's own answer.  All reads that succeed are ranges of one string, so
two consecutive ones make up the read of both, and a stored record reads as a
whole.  Machine words change no answer: a wide read whose end would wrap ends
behind the section.
-/
theorem exceptionRange_serves_one_string (dump : CoreDump) :
    (∀ offset length answer,
      dump.exceptionRange offset length = answer ↔ dump.Serves offset length answer) ∧
    (dump.profile.width = .bits32 → ∀ record, dump.rawException = .ok record →
      ∀ offset length, dump.exceptionRange offset length = record.read offset length) ∧
    (∃ whole : Bytes, ∀ offset length part, dump.exceptionRange offset length = .ok part →
      part = whole.range offset length) ∧
    (∀ offset first second both left right,
      dump.exceptionRange offset (first + second) = .ok both →
      dump.exceptionRange offset first = .ok left →
      dump.exceptionRange (offset + first) second = .ok right → both = left ++ right) ∧
    (∀ stored, dump.StoresException stored → stored.length = 152 →
      ∃ record, dump.rawException = .ok record ∧
        dump.exceptionRange 0 dump.profile.width.recordSize = .ok record.bytes) ∧
    ∀ (w : Nat) (offset length : BitVec w), 152 < 2 ^ w →
      (∀ entry ∈ dump.sections, entry.bytes.length < 2 ^ w) →
      dump.wordExceptionRange offset length =
        dump.exceptionRange offset.toNat length.toNat := by
  obtain ⟨whole, ranges⟩ := dump.exists_whole
  refine ⟨fun _ _ _ => exceptionRange_eq_iff,
    fun narrow _ held => exceptionRange_eq_read narrow held, ⟨whole, ranges⟩, ?_, ?_, ?_⟩
  · intro offset first second both left right bothServed leftServed rightServed
    rw [ranges _ _ _ bothServed, ranges _ _ _ leftServed, ranges _ _ _ rightServed]
    exact Bytes.range_add whole offset first second
  · intro stored stores size
    have held := rawException_of_stores stores size
    exact ⟨_, held, exceptionRange_whole held⟩
  · intro w offset length room fits
    exact wordExceptionRange_eq room fits offset length

/-- A narrow dump with a record whose bytes count up from 0. -/
def countingDump : CoreDump where
  sections := [⟨".text", [0x90]⟩, ⟨".coreexception", (List.range 152).map UInt8.ofNat⟩]
  profile := .windows32
  locator := none

/-- The last slot is read up to its end, alone and behind the slot in front of it. -/
theorem countingDump_serves :
    countingDump.StoresException ((List.range 152).map UInt8.ofNat) ∧
      countingDump.exceptionRange 72 8 = .ok [136, 137, 138, 139, 144, 145, 146, 147] ∧
      countingDump.exceptionRange 76 100 = .ok [144, 145, 146, 147] ∧
      countingDump.exceptionRange 80 1 = .ok [] ∧
      countingDump.exceptionRange 81 0 = .error .outOfBounds ∧
      countingDump.wordExceptionRange (76 : BitVec 64) (BitVec.allOnes 64) =
        .ok [144, 145, 146, 147] := by
  have stores : countingDump.StoresException ((List.range 152).map UInt8.ofNat) :=
    ⟨[⟨".text", [0x90]⟩], [], rfl, by decide⟩
  have narrow : countingDump.profile.width = .bits32 := rfl
  obtain ⟨answers, -, -, -, -, words⟩ := exceptionRange_serves_one_string countingDump
  have served : ∀ {offset length : Nat} {part : Bytes}, offset ≤ 80 →
      (RawRecord.narrowBytes ((List.range 152).map UInt8.ofNat)).extract offset
        (min (offset + length) 80) = part →
      countingDump.exceptionRange offset length = .ok part := by
    rintro offset length part inside rfl
    exact (answers offset length _).2 (.narrow narrow inside stores (by simp))
  refine ⟨stores, ?_, ?_, ?_, ?_, ?_⟩
  · exact served (by decide) (by decide +kernel)
  · exact served (by decide) (by decide +kernel)
  · exact served (by decide) (by decide +kernel)
  · exact (answers 81 0 _).2 (.narrowPast narrow (by decide))
  · rw [words 64 76 (BitVec.allOnes 64) (by decide) (by decide +kernel)]
    exact served (by decide) (by decide +kernel)

end CoreDump

end NtTarget
