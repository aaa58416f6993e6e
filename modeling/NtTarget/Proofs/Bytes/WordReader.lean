import Mathlib.Algebra.Group.Nat.Defs
import NtTarget.Binary.ImportDescriptor
import NtTarget.Proofs.Bytes.StoredNumber

/-!
# Reading with positions in machine words

A machine keeps the position of a cursor in a word.  A sum that is not checked
may leave the word there, and a range may leave the data; either ends the
program.  In data that a word can measure neither ever happens: every read has
an outcome, and it is the outcome of the reader whose positions are numbers.
-/

namespace NtTarget

/-- A position in a byte string that is kept in a machine word. -/
structure WordCursor (w : Nat) where
  data : Bytes
  position : BitVec w
  deriving DecidableEq

namespace WordCursor

variable {w : Nat}

def size (cursor : WordCursor w) : BitVec w :=
  BitVec.ofNat w cursor.data.length

/-- The number of bytes behind the position, by a difference that stops at 0. -/
def remaining (cursor : WordCursor w) : BitVec w :=
  if cursor.size ≤ cursor.position then 0 else cursor.size - cursor.position

def moveTo (cursor : WordCursor w) (position : BitVec w) : WordCursor w :=
  { cursor with position }

/-- The same position as a number. -/
def toCursor (cursor : WordCursor w) : Cursor :=
  ⟨cursor.data, cursor.position.toNat⟩

/-- The bytes between two positions, which must be in order and inside the data. -/
def between? (cursor : WordCursor w) (start stop : BitVec w) : Option Bytes :=
  if start ≤ stop ∧ stop ≤ cursor.size then
    cursor.data.slice? start.toNat (stop - start).toNat
  else none

/-- A word can measure the data, and the position is inside it. -/
structure Inside (cursor : WordCursor w) : Prop where
  measured : cursor.data.length < 2 ^ w
  bounded : cursor.position.toNat ≤ cursor.data.length

theorem toNat_size {cursor : WordCursor w} (measured : cursor.data.length < 2 ^ w) :
    cursor.size.toNat = cursor.data.length := by
  rw [size, BitVec.toNat_ofNat, Nat.mod_eq_of_lt measured]

theorem toNat_remaining {cursor : WordCursor w} (inside : cursor.Inside) :
    cursor.remaining.toNat = cursor.toCursor.remaining := by
  have size := toNat_size inside.measured
  unfold remaining
  split
  · rename_i ended
    rw [BitVec.le_def, size] at ended
    exact (Nat.sub_eq_zero_of_le ended).symm
  · rename_i open_
    rw [BitVec.le_def, size, Nat.not_le] at open_
    rw [BitVec.toNat_sub_of_le, size]
    · rfl
    · rw [BitVec.le_def, size]
      exact inside.bounded

theorem between?_eq_some {cursor : WordCursor w} {start stop : BitVec w}
    (measured : cursor.data.length < 2 ^ w) (ordered : start.toNat ≤ stop.toNat)
    (within : stop.toNat ≤ cursor.data.length) :
    cursor.between? start stop =
      some ((cursor.data.drop start.toNat).take (stop.toNat - start.toNat)) := by
  have order : start ≤ stop := BitVec.le_def.2 ordered
  have bound : stop ≤ cursor.size := by
    rw [BitVec.le_def, toNat_size measured]
    exact within
  unfold between?
  rw [if_pos ⟨order, bound⟩, BitVec.toNat_sub_of_le order, Bytes.slice?_eq_some_iff]
  exact ⟨by omega, rfl⟩

end WordCursor

/-! ## Sums of words -/

section Sum

variable {w : Nat} {a b : BitVec w}

/-- The sum of two words, when it is a word. -/
def checkedSum (a b : BitVec w) : Option (BitVec w) :=
  if a.uaddOverflow b then none else some (a + b)

theorem checkedSum_eq_none (overflow : 2 ^ w ≤ a.toNat + b.toNat) : checkedSum a b = none :=
  if_pos (decide_eq_true overflow)

theorem exists_checkedSum (fits : a.toNat + b.toNat < 2 ^ w) :
    ∃ sum, checkedSum a b = some sum ∧ sum.toNat = a.toNat + b.toNat := by
  have small : ¬ a.uaddOverflow b = true := fun large =>
    Nat.not_le.2 fits (of_decide_eq_true large)
  exact ⟨a + b, if_neg small, BitVec.toNat_add_of_not_uaddOverflow small⟩

end Sum

namespace WordCursor

variable {w : Nat} {cursor : WordCursor w}

@[simp] theorem toCursor_data : cursor.toCursor.data = cursor.data := rfl

@[simp] theorem toCursor_position : cursor.toCursor.position = cursor.position.toNat := rfl

/-- A step forward ends inside the data, or its checked sum is missing or past the end. -/
theorem step_cases (inside : cursor.Inside) (length : BitVec w) :
    (∃ stop, checkedSum cursor.position length = some stop ∧
        stop.toNat = cursor.position.toNat + length.toNat ∧ ¬ cursor.size < stop ∧
        (cursor.moveTo stop).Inside) ∨
      (cursor.data.length < cursor.position.toNat + length.toNat ∧
        ∀ stop, checkedSum cursor.position length = some stop → cursor.size < stop) := by
  have measured := inside.measured
  rcases Nat.lt_or_ge (cursor.position.toNat + length.toNat) (2 ^ w) with fits | overflow
  · obtain ⟨stop, found, sum⟩ := exists_checkedSum fits
    have order : cursor.size < stop ↔
        cursor.data.length < cursor.position.toNat + length.toNat := by
      rw [BitVec.lt_def, toNat_size measured, sum]
    by_cases past : cursor.size < stop
    · refine .inr ⟨order.1 past, fun other same => ?_⟩
      rw [found, Option.some_inj] at same
      exact same ▸ past
    · refine .inl ⟨stop, found, sum, past, measured, ?_⟩
      rw [moveTo, sum]
      exact Nat.not_lt.1 (mt order.2 past)
  · refine .inr ⟨by omega, fun stop found => ?_⟩
    rw [checkedSum_eq_none overflow] at found
    cases found

theorem toCursor_moveTo {stop length : BitVec w}
    (sum : stop.toNat = cursor.position.toNat + length.toNat) :
    (cursor.moveTo stop).toCursor =
      cursor.toCursor.moveTo (cursor.position.toNat + length.toNat) :=
  congrArg (Cursor.mk cursor.data) sum

/-- The position of the first zero byte of the rest, or the end of the data. -/
def textEnd? (cursor : WordCursor w) (rest : Bytes) : Option (BitVec w) :=
  match rest.findIdx? (· == 0) with
  | some offset => checkedSum cursor.position (BitVec.ofNat w offset)
  | none => some cursor.size

/-- The position behind the zero byte that ends a text. -/
def pastEnd? (cursor : WordCursor w) (stop : BitVec w) : Option (BitVec w) :=
  if stop < cursor.size then checkedSum stop 1 else some stop

theorem length_rest : cursor.toCursor.rest.length = cursor.data.length - cursor.position.toNat :=
  List.length_drop

/-- A text in front of a zero byte ends inside the data. -/
theorem untilZero_le_length (inside : cursor.Inside) :
    cursor.position.toNat + cursor.toCursor.rest.untilZero.length ≤ cursor.data.length := by
  have part : cursor.toCursor.rest.untilZero.length ≤ cursor.toCursor.rest.length :=
    (List.takeWhile_prefix _).length_le
  have bounded := inside.bounded
  rw [length_rest] at part
  omega

theorem between?_size (inside : cursor.Inside) :
    cursor.between? cursor.position cursor.size = some cursor.toCursor.rest := by
  have size := toNat_size inside.measured
  rw [between?_eq_some inside.measured (size.symm ▸ inside.bounded) (Nat.le_of_eq size), size,
    List.take_of_length_le (Nat.le_of_eq List.length_drop)]
  rfl

theorem between?_untilZero (inside : cursor.Inside) {stop : BitVec w}
    (place : stop.toNat = cursor.position.toNat + cursor.toCursor.rest.untilZero.length) :
    cursor.between? cursor.position stop = some cursor.toCursor.rest.untilZero := by
  have taken : stop.toNat - cursor.position.toNat = cursor.toCursor.rest.untilZero.length := by
    omega
  rw [between?_eq_some inside.measured (by omega) (place ▸ untilZero_le_length inside), taken]
  exact congrArg some (Bytes.take_length_untilZero cursor.toCursor.rest)

theorem exists_textEnd? (inside : cursor.Inside) :
    ∃ stop, cursor.textEnd? cursor.toCursor.rest = some stop ∧
      stop.toNat = cursor.position.toNat + cursor.toCursor.rest.untilZero.length := by
  have measured := inside.measured
  have bounded := inside.bounded
  have length := cursor.length_rest
  unfold textEnd?
  rw [Bytes.length_untilZero]
  cases found : cursor.toCursor.rest.findIdx? (· == 0) with
  | some offset =>
      obtain ⟨short, first⟩ := List.findIdx?_eq_some_iff_findIdx_eq.1 found
      have value : (BitVec.ofNat w offset).toNat = offset := by
        rw [BitVec.toNat_ofNat, Nat.mod_eq_of_lt (by omega)]
      obtain ⟨stop, sum, place⟩ :=
        exists_checkedSum (a := cursor.position) (b := BitVec.ofNat w offset) (by omega)
      exact ⟨stop, sum, by rw [place, value, first]⟩
  | none =>
      rw [List.findIdx?_eq_none_iff_findIdx_eq.1 found, length]
      exact ⟨cursor.size, rfl, by rw [toNat_size measured]; omega⟩

theorem exists_pastEnd? (measured : cursor.data.length < 2 ^ w) {stop : BitVec w}
    (within : stop.toNat ≤ cursor.data.length) :
    ∃ past, cursor.pastEnd? stop = some past ∧
      past.toNat = min (stop.toNat + 1) cursor.data.length := by
  unfold pastEnd?
  by_cases before : stop < cursor.size
  · have short : stop.toNat < cursor.data.length := by
      rwa [BitVec.lt_def, toNat_size measured] at before
    have counts : 1 < 2 ^ w := by omega
    have one : (1 : BitVec w).toNat = 1 := Nat.mod_eq_of_lt counts
    obtain ⟨past, sum, place⟩ := exists_checkedSum (a := stop) (b := 1) (by omega)
    rw [if_pos before]
    exact ⟨past, sum, by rw [place, one]; omega⟩
  · have end_ : ¬ stop.toNat < cursor.data.length := by
      rwa [BitVec.lt_def, toNat_size measured] at before
    rw [if_neg before]
    exact ⟨stop, rfl, by omega⟩

end WordCursor

/-- A reader over positions in words, which ends the program where it has no outcome. -/
abbrev WordReader (w : Nat) := ExceptT Fault (StateT (WordCursor w) Option)

namespace WordReader

variable {w : Nat} {α β : Type}

/-- The outcome of a reader and the cursor that it leaves, unless it ends the program. -/
def runOn (reader : WordReader w α) (cursor : WordCursor w) :
    Option (Except Fault α × WordCursor w) :=
  (ExceptT.run reader).run cursor

/-- A value without which the program ends. -/
def orEnd (value : Option α) : WordReader w α :=
  ExceptT.mk fun cursor => value.map fun found => (.ok found, cursor)

def seek (position : BitVec w) : WordReader w Unit := do
  let cursor ← get
  if cursor.size ≤ position then
    throw .outOfBounds
  else
    set (cursor.moveTo position)

def advance (step : BitVec w) : WordReader w Unit := do
  let cursor ← get
  match checkedSum cursor.position step with
  | some stop =>
      if stop ≤ cursor.size then
        set (cursor.moveTo stop)
      else
        throw .outOfBounds
  | none => throw .outOfBounds

def bytes (length : BitVec w) : WordReader w Bytes := do
  let cursor ← get
  match checkedSum cursor.position length with
  | some stop =>
      if cursor.size < stop then
        throw .outOfBounds
      else
        let part ← orEnd (cursor.between? cursor.position stop)
        set (cursor.moveTo stop)
        pure part
  | none => throw .outOfBounds

def word (α : Type) [Word α] : WordReader w α := do
  let stored ← bytes (BitVec.ofNat w (Word.size α))
  pure (Word.ofBytes stored)

def pointer (width : PointerWidth) : WordReader w UInt64 := do
  let stored ← bytes (BitVec.ofNat w width.bytes)
  pure (PointerWidth.addressOf stored)

def number : NumberKind → WordReader w StoredNumber
  | .word kind => do
      let value ← word kind.Value
      pure (.word kind value)
  | .pointer width => do
      let address ← pointer width
      pure (.pointer width address)

/-- Read with a copy of the position. -/
def peek (reader : WordReader w α) : WordReader w α :=
  ExceptT.mk fun cursor => (reader.runOn cursor).map fun step => (step.1, cursor)

def narrowText : WordReader w String := do
  let cursor ← get
  if cursor.size < cursor.position then
    throw .outOfBounds
  else
    let rest ← orEnd (cursor.between? cursor.position cursor.size)
    let stop ← orEnd (cursor.textEnd? rest)
    let text ← orEnd (cursor.between? cursor.position stop)
    let past ← orEnd (cursor.pastEnd? stop)
    set (cursor.moveTo past)
    pure (Utf8.decode text)

def wideText (length : BitVec w) : WordReader w String := do
  if length % 2 = 0 then
    let stored ← bytes length
    pure (Utf16.decode stored)
  else
    throw (.malformed (.oddUtf16Length length.toNat))

def importDescriptor : WordReader w ImportDescriptor := do
  let lookupTable ← word UInt32
  let timestamp ← word UInt32
  let forwarderChain ← word UInt32
  let nameRva ← word UInt32
  let addressTable ← word UInt32
  pure ⟨lookupTable, timestamp, forwarderChain, nameRva, addressTable⟩

/-! ## Words follow numbers -/

/-- Inside the data a reader over words has an outcome, which is that of a reader over numbers. -/
def Follows (words : WordReader w α) (numbers : Reader α) : Prop :=
  ∀ cursor : WordCursor w, cursor.Inside → ∃ outcome next,
    words.runOn cursor = some (outcome, next) ∧ next.Inside ∧
      numbers.runOn cursor.toCursor = (outcome, next.toCursor)

theorem runOn_bind (first : WordReader w α) (later : α → WordReader w β) (cursor : WordCursor w) :
    (first >>= later).runOn cursor =
      match first.runOn cursor with
      | some (.ok value, next) => (later value).runOn next
      | some (.error fault, next) => some (.error fault, next)
      | none => none := by
  simp only [runOn, ExceptT.run_bind, StateT.run_bind]
  cases (ExceptT.run first).run cursor with
  | none => rfl
  | some step =>
      obtain ⟨outcome, next⟩ := step
      cases outcome <;> rfl

@[simp] theorem runOn_get (cursor : WordCursor w) :
    (get : WordReader w (WordCursor w)).runOn cursor = some (.ok cursor, cursor) := rfl

/-- A value that exists is passed on. -/
theorem runOn_orEnd_bind {value : Option α} {found : α} (exists_ : value = some found)
    (later : α → WordReader w β) (cursor : WordCursor w) :
    (orEnd value >>= later).runOn cursor = (later found).runOn cursor := by
  rw [exists_, runOn_bind]
  rfl

theorem runOn_seek (position : BitVec w) (cursor : WordCursor w) :
    (seek position).runOn cursor =
      if cursor.size ≤ position then some (.error .outOfBounds, cursor)
      else some (.ok (), cursor.moveTo position) := by
  unfold seek
  rw [runOn_bind, runOn_get]
  dsimp only
  split <;> rfl

theorem runOn_advance (step : BitVec w) (cursor : WordCursor w) :
    (advance step).runOn cursor =
      match checkedSum cursor.position step with
      | some stop =>
          if stop ≤ cursor.size then some (.ok (), cursor.moveTo stop)
          else some (.error .outOfBounds, cursor)
      | none => some (.error .outOfBounds, cursor) := by
  unfold advance
  rw [runOn_bind, runOn_get]
  dsimp only
  cases checkedSum cursor.position step with
  | none => rfl
  | some stop =>
      dsimp only
      split <;> rfl

theorem runOn_bytes (length : BitVec w) (cursor : WordCursor w) :
    (bytes length).runOn cursor =
      match checkedSum cursor.position length with
      | some stop =>
          if cursor.size < stop then some (.error .outOfBounds, cursor)
          else (cursor.between? cursor.position stop).map fun part =>
            (.ok part, cursor.moveTo stop)
      | none => some (.error .outOfBounds, cursor) := by
  unfold bytes
  rw [runOn_bind, runOn_get]
  dsimp only
  cases checkedSum cursor.position length with
  | none => rfl
  | some stop =>
      dsimp only
      split
      · rfl
      · cases cursor.between? cursor.position stop <;> rfl

namespace Follows

theorem pure (value : α) : Follows (Pure.pure value : WordReader w α) (Pure.pure value) :=
  fun cursor inside => ⟨.ok value, cursor, rfl, inside, rfl⟩

theorem throw (fault : Fault) :
    Follows (MonadExcept.throw fault : WordReader w α) (MonadExcept.throw fault) :=
  fun cursor inside => ⟨.error fault, cursor, rfl, inside, rfl⟩

theorem bind {words : WordReader w α} {numbers : Reader α} {later : α → WordReader w β}
    {after : α → Reader β} (first : words.Follows numbers)
    (second : ∀ value, (later value).Follows (after value)) :
    (words >>= later).Follows (numbers >>= after) := by
  intro cursor inside
  obtain ⟨outcome, next, ran, within, same⟩ := first cursor inside
  rw [runOn_bind, Reader.runOn_bind, ran, same]
  cases outcome with
  | ok value => exact second value next within
  | error fault => exact ⟨.error fault, next, rfl, within, rfl⟩

theorem map {words : WordReader w α} {numbers : Reader α} (follows : words.Follows numbers)
    (f : α → β) : (f <$> words).Follows (f <$> numbers) := by
  rw [← bind_pure_comp, ← bind_pure_comp]
  exact follows.bind fun value => pure (f value)

end Follows

theorem seek_follows (position : BitVec w) :
    (seek position).Follows (Reader.seek position.toNat) := by
  intro cursor inside
  have size := WordCursor.toNat_size inside.measured
  rw [runOn_seek, Reader.runOn_seek]
  by_cases past : cursor.size ≤ position
  · rw [if_pos past]
    rw [BitVec.le_def, size] at past
    exact ⟨_, cursor, rfl, inside, if_neg (Nat.not_lt.2 past)⟩
  · rw [if_neg past]
    rw [BitVec.le_def, size, Nat.not_le] at past
    exact ⟨_, _, rfl, ⟨inside.measured, Nat.le_of_lt past⟩, if_pos past⟩

theorem advance_follows (step : BitVec w) :
    (advance step).Follows (Reader.advance step.toNat) := by
  intro cursor inside
  rw [runOn_advance, Reader.runOn_advance, WordCursor.toCursor_data, WordCursor.toCursor_position]
  rcases WordCursor.step_cases inside step with ⟨stop, found, sum, within, next⟩ | ⟨past, beyond⟩
  · have short := next.bounded
    change stop.toNat ≤ cursor.data.length at short
    rw [found, if_pos (sum ▸ short), ← WordCursor.toCursor_moveTo sum]
    dsimp only
    rw [if_pos (BitVec.not_lt.1 within)]
    exact ⟨_, _, rfl, next, rfl⟩
  · rw [if_neg (Nat.not_le.2 past)]
    refine ⟨.error .outOfBounds, cursor, ?_, inside, rfl⟩
    cases found : checkedSum cursor.position step with
    | none => rfl
    | some stop => exact if_neg (BitVec.not_le.2 (beyond stop found))

theorem bytes_follows (length : BitVec w) :
    (bytes length).Follows (Reader.bytes length.toNat) := by
  intro cursor inside
  rw [runOn_bytes, Reader.runOn_bytes, WordCursor.toCursor_data, WordCursor.toCursor_position]
  rcases WordCursor.step_cases inside length with ⟨stop, found, sum, within, next⟩ | ⟨past, beyond⟩
  · have short := next.bounded
    change stop.toNat ≤ cursor.data.length at short
    have part : cursor.between? cursor.position stop =
        some ((cursor.data.drop cursor.position.toNat).take length.toNat) := by
      have taken : stop.toNat - cursor.position.toNat = length.toNat := by omega
      rw [WordCursor.between?_eq_some inside.measured (by omega) short, taken]
    rw [found, Bytes.slice?_eq_some_iff.2 ⟨sum ▸ short, rfl⟩, ← WordCursor.toCursor_moveTo sum]
    dsimp only
    rw [if_neg within, part]
    exact ⟨_, _, rfl, next, rfl⟩
  · rw [Bytes.slice?_eq_none_iff.2 past]
    refine ⟨.error .outOfBounds, cursor, ?_, inside, rfl⟩
    cases found : checkedSum cursor.position length with
    | none => rfl
    | some stop => exact if_pos (beyond stop found)

theorem word_follows {α : Type} [Word α] (counts : Word.size α < 2 ^ w) :
    (word α : WordReader w α).Follows (Reader.word α) := by
  have taken := bytes_follows (BitVec.ofNat w (Word.size α))
  rw [BitVec.toNat_ofNat, Nat.mod_eq_of_lt counts] at taken
  exact taken.bind fun stored => .pure _

theorem pointer_follows {width : PointerWidth} (counts : width.bytes < 2 ^ w) :
    (pointer width : WordReader w UInt64).Follows (Reader.pointer width) := by
  have taken := bytes_follows (BitVec.ofNat w width.bytes)
  rw [BitVec.toNat_ofNat, Nat.mod_eq_of_lt counts] at taken
  exact taken.bind fun stored => .pure _

theorem number_follows {kind : NumberKind} (counts : kind.size < 2 ^ w) :
    (number kind : WordReader w StoredNumber).Follows kind.reader := by
  cases kind with
  | word kind => exact (word_follows (kind.size_eq ▸ counts)).bind fun value => .pure _
  | pointer width => exact (pointer_follows counts).bind fun address => .pure _

theorem peek_follows {words : WordReader w α} {numbers peeked : Reader α}
    (follows : words.Follows numbers)
    (copies : ∀ cursor, peeked.runOn cursor = ((numbers.runOn cursor).1, cursor)) :
    (peek words).Follows peeked := by
  intro cursor inside
  obtain ⟨outcome, next, ran, -, same⟩ := follows cursor inside
  refine ⟨outcome, cursor, ?_, inside, ?_⟩
  · exact congrArg (Option.map fun step => (step.1, cursor)) ran
  · rw [copies, same]

theorem narrowText_follows : (narrowText : WordReader w String).Follows Reader.narrowText := by
  intro cursor inside
  obtain ⟨stop, ends, place⟩ := WordCursor.exists_textEnd? inside
  have short : stop.toNat ≤ cursor.data.length :=
    place ▸ WordCursor.untilZero_le_length inside
  obtain ⟨past, passes, next⟩ := WordCursor.exists_pastEnd? inside.measured short
  have started : ¬ cursor.size < cursor.position := by
    rw [BitVec.lt_def, WordCursor.toNat_size inside.measured]
    exact Nat.not_lt.2 inside.bounded
  refine ⟨.ok (Utf8.decode cursor.toCursor.rest.untilZero), cursor.moveTo past, ?_,
    ⟨inside.measured, ?_⟩, ?_⟩
  · unfold narrowText
    rw [runOn_bind, runOn_get]
    dsimp only
    rw [if_neg started, runOn_orEnd_bind (WordCursor.between?_size inside),
      runOn_orEnd_bind ends, runOn_orEnd_bind (WordCursor.between?_untilZero inside place),
      runOn_orEnd_bind passes]
    rfl
  · exact next ▸ Nat.min_le_right _ _
  · rw [place] at next
    rw [Reader.runOn_narrowText, WordCursor.toCursor_data, WordCursor.toCursor_position,
      if_neg (Nat.not_lt.2 inside.bounded), ← next]
    rfl

theorem wideText_follows (length : BitVec w) (counts : 2 < 2 ^ w) :
    (wideText length).Follows (Reader.wideText length.toNat) := by
  have parity : length % 2 = 0 ↔ length.toNat % 2 = 0 := by
    have zero : (0 : BitVec w).toNat = 0 := Nat.zero_mod _
    have two : (2 : BitVec w).toNat = 2 := Nat.mod_eq_of_lt counts
    rw [← BitVec.toNat_inj, BitVec.toNat_umod, zero, two]
  unfold wideText Reader.wideText
  by_cases even : length.toNat % 2 = 0
  · rw [if_pos (parity.2 even), if_pos even]
    exact (bytes_follows length).bind fun stored => .pure _
  · rw [if_neg (mt parity.1 even), if_neg even]
    exact .throw _

theorem importDescriptor_follows (counts : 4 < 2 ^ w) :
    (importDescriptor : WordReader w ImportDescriptor).Follows ImportDescriptor.reader := by
  have word : (word UInt32 : WordReader w UInt32).Follows (Reader.word UInt32) :=
    word_follows counts
  exact word.bind fun _ => word.bind fun _ => word.bind fun _ => word.bind fun _ =>
    word.bind fun _ => .pure _

end WordReader

end NtTarget
