import NtTarget.Proofs.Bytes.WordReader

/-!
# Runs of a cursor

A decoder asks a cursor for one thing after another and may go on behind a
fault.  Whatever it asks for, with whatever lengths a machine word can hold,
the position stays inside the data, and one account tells how far each
operation moves it.
-/

namespace NtTarget

/-- What a decoder asks of a cursor; positions and lengths are of some type. -/
inductive CursorOperation (ι : Type) where
  | seek (position : ι)
  | advance (step : ι)
  | peek (kind : WordKind)
  | number (kind : NumberKind)
  | bytes (length : ι)
  | narrowText
  | wideText (length : ι)
  | importDescriptor
  deriving Repr, DecidableEq

inductive CursorAnswer where
  | done
  | number (number : StoredNumber)
  | bytes (bytes : Bytes)
  | text (text : String)
  | descriptor (descriptor : ImportDescriptor)
  deriving DecidableEq

namespace CursorOperation

variable {ι κ : Type} {w : Nat}

def map (f : ι → κ) : CursorOperation ι → CursorOperation κ
  | seek position => seek (f position)
  | advance step => advance (f step)
  | peek kind => peek kind
  | number kind => number kind
  | bytes length => bytes (f length)
  | narrowText => narrowText
  | wideText length => wideText (f length)
  | importDescriptor => importDescriptor

/-- Look at a word without moving. -/
def peekReader (kind : WordKind) : Reader StoredNumber := do
  let cursor ← get
  match cursor.peek kind.Value with
  | .ok value => pure (.word kind value)
  | .error fault => throw fault

def reader : CursorOperation Nat → Reader CursorAnswer
  | seek position => (fun _ => .done) <$> Reader.seek position
  | advance step => (fun _ => .done) <$> Reader.advance step
  | peek kind => .number <$> peekReader kind
  | number kind => .number <$> kind.reader
  | bytes length => .bytes <$> Reader.bytes length
  | narrowText => .text <$> Reader.narrowText
  | wideText length => .text <$> Reader.wideText length
  | importDescriptor => .descriptor <$> ImportDescriptor.reader

/-- The same operation with the position in a machine word. -/
def words : CursorOperation (BitVec w) → WordReader w CursorAnswer
  | seek position => (fun _ => .done) <$> WordReader.seek position
  | advance step => (fun _ => .done) <$> WordReader.advance step
  | peek kind => .number <$> WordReader.peek (WordReader.number (.word kind))
  | number kind => .number <$> WordReader.number kind
  | bytes length => .bytes <$> WordReader.bytes length
  | narrowText => .text <$> WordReader.narrowText
  | wideText length => .text <$> WordReader.wideText length
  | importDescriptor => .descriptor <$> WordReader.importDescriptor

/-- A look answers what a read would. -/
theorem runOn_peekReader (kind : WordKind) (cursor : Cursor) :
    (peekReader kind).runOn cursor =
      (((NumberKind.word kind).reader.runOn cursor).1, cursor) := by
  have looked : (peekReader kind).runOn cursor =
      ((cursor.peek kind.Value).map fun value => .word kind value, cursor) := by
    unfold peekReader
    rw [Reader.runOn_bind, Reader.runOn_get]
    dsimp only
    cases cursor.peek kind.Value <;> rfl
  rw [looked, NumberKind.runOn_reader, Cursor.peek, Word.at?, kind.size_eq, NumberKind.size]
  cases cursor.data.slice? cursor.position kind.size <;> rfl

/-- How many bytes an operation asks for, when that is known before it is done. -/
def extent? : CursorOperation Nat → Option Nat
  | advance step => some step
  | number kind => some kind.size
  | bytes length => some length
  | wideText length => some length
  | importDescriptor => some ImportDescriptor.size
  | seek _ | peek _ | narrowText => none

/-- Wide text is asked for in whole units. -/
def IsWhole : CursorOperation Nat → Prop
  | wideText length => length % 2 = 0
  | _ => True

end CursorOperation

open CursorOperation

/-- What one operation does to a cursor. -/
structure IsSafeStep (operation : CursorOperation Nat) (cursor : Cursor)
    (outcome : Except Fault CursorAnswer) (next : Cursor) : Prop where
  data_eq : next.data = cursor.data
  inside : next.position ≤ next.data.length
  /-- Only a seek goes back. -/
  forward : outcome.isOk → (∀ position, operation ≠ .seek position) →
    cursor.position ≤ next.position
  /-- What is counted succeeds exactly when it is there. -/
  isOk_iff : ∀ count, operation.extent? = some count →
    (outcome.isOk ↔ count ≤ cursor.remaining ∧ operation.IsWhole)
  moved : ∀ count, operation.extent? = some count → outcome.isOk →
    next = cursor.moveTo (cursor.position + count)
  kept : outcome.isOk = false → operation ≠ .importDescriptor → next = cursor
  /-- A descriptor that is cut takes the words of it that are there. -/
  cut : operation = .importDescriptor → cursor.remaining < ImportDescriptor.size →
    next = cursor.moveTo (cursor.position + 4 * (cursor.remaining / 4))
  peeked : ∀ kind, operation = .peek kind →
    outcome = ((number (.word kind)).reader.runOn cursor).1 ∧ next = cursor

namespace Reader

variable {α : Type}

/--
A reader that takes a number of words of four bytes one after the other.  Where
the data ends too early it has passed over the words that are still whole.
-/
def TakesWords (reader : Reader α) (count : Nat) : Prop :=
  ∀ cursor : Cursor, cursor.position ≤ cursor.data.length →
    if 4 * count ≤ cursor.remaining then
      ∃ value, reader.runOn cursor = (.ok value, cursor.moveTo (cursor.position + 4 * count))
    else
      reader.runOn cursor =
        (.error .outOfBounds, cursor.moveTo (cursor.position + 4 * (cursor.remaining / 4)))

theorem TakesWords.pure (value : α) : (Pure.pure value : Reader α).TakesWords 0 := by
  intro cursor _
  rw [if_pos (Nat.zero_le _)]
  exact ⟨value, rfl⟩

theorem TakesWords.word_bind {later : UInt32 → Reader α} {count : Nat}
    (rest : ∀ value, (later value).TakesWords count) :
    (Reader.word UInt32 >>= later).TakesWords (count + 1) := by
  intro cursor bounded
  have four : Word.size UInt32 = 4 := rfl
  have split : cursor.remaining = cursor.data.length - cursor.position := rfl
  rw [runOn_bind, runOn_word, Word.at?_eq_ite, four]
  by_cases fits : cursor.position + 4 ≤ cursor.data.length
  · rw [if_pos fits]
    dsimp only
    have left : (cursor.moveTo (cursor.position + 4)).remaining + 4 = cursor.remaining := by
      change cursor.data.length - (cursor.position + 4) + 4 = _
      omega
    have later := rest (Word.ofBytes ((cursor.data.drop cursor.position).take 4))
      (cursor.moveTo (cursor.position + 4)) fits
    by_cases whole : 4 * (count + 1) ≤ cursor.remaining
    · rw [if_pos (by omega)] at later
      obtain ⟨value, ran⟩ := later
      rw [if_pos whole]
      refine ⟨value, ran.trans (congrArg (fun place => (_, cursor.moveTo place)) ?_)⟩
      change cursor.position + 4 + 4 * count = _
      omega
    · rw [if_neg (by omega)] at later
      rw [if_neg whole]
      refine later.trans (congrArg (fun place => (_, cursor.moveTo place)) ?_)
      change cursor.position + 4 + 4 * ((cursor.moveTo (cursor.position + 4)).remaining / 4) = _
      omega
  · rw [if_neg fits, if_neg (by omega)]
    have none_ : cursor.remaining / 4 = 0 := by omega
    rw [none_]
    rfl

theorem importDescriptor_takesWords : ImportDescriptor.reader.TakesWords 5 :=
  .word_bind fun _ => .word_bind fun _ => .word_bind fun _ => .word_bind fun _ =>
    .word_bind fun _ => .pure _

end Reader

/-! ## One operation -/

namespace IsSafeStep

variable {operation : CursorOperation Nat} {cursor : Cursor} {count : Nat}

/-- What is counted and there is passed over. -/
theorem taken {answer : CursorAnswer} (extent : operation.extent? = some count)
    (bounded : cursor.position ≤ cursor.data.length) (fits : count ≤ cursor.remaining)
    (whole : operation.IsWhole) :
    IsSafeStep operation cursor (.ok answer) (cursor.moveTo (cursor.position + count)) where
  data_eq := rfl
  inside := by
    unfold Cursor.remaining at fits
    change cursor.position + count ≤ cursor.data.length
    omega
  forward _ _ := Nat.le_add_right _ _
  isOk_iff other same := by
    rw [extent, Option.some_inj] at same
    exact ⟨fun _ => ⟨same ▸ fits, whole⟩, fun _ => rfl⟩
  moved other same _ := by
    rw [extent, Option.some_inj] at same
    rw [same]
  kept failed := nomatch failed
  cut descriptor short := by
    subst descriptor
    cases extent
    omega
  peeked kind peek := by
    subst peek
    cases extent

/-- What is counted and is not there, or is not whole, is not touched. -/
theorem refused {fault : Fault} (extent : operation.extent? = some count)
    (bounded : cursor.position ≤ cursor.data.length)
    (missing : ¬ (count ≤ cursor.remaining ∧ operation.IsWhole))
    (other : operation ≠ .importDescriptor) :
    IsSafeStep operation cursor (.error fault) cursor where
  data_eq := rfl
  inside := bounded
  forward succeeded := nomatch succeeded
  isOk_iff other same := by
    rw [extent, Option.some_inj] at same
    exact ⟨fun succeeded => (nomatch succeeded), fun present => absurd (same ▸ present) missing⟩
  moved _ _ succeeded := nomatch succeeded
  kept _ _ := rfl
  cut descriptor := absurd descriptor other
  peeked kind peek := by
    subst peek
    cases extent

/-- An operation that takes a slice of its extent. -/
theorem of_slice (answer : Bytes → CursorAnswer) (extent : operation.extent? = some count)
    (bounded : cursor.position ≤ cursor.data.length) (whole : operation.IsWhole)
    (other : operation ≠ .importDescriptor)
    (runs : operation.reader.runOn cursor =
      match cursor.data.slice? cursor.position count with
      | some part => (.ok (answer part), cursor.moveTo (cursor.position + count))
      | none => (.error .outOfBounds, cursor)) :
    IsSafeStep operation cursor (operation.reader.runOn cursor).1
      (operation.reader.runOn cursor).2 := by
  rw [runs]
  cases found : cursor.data.slice? cursor.position count with
  | some part =>
      have fits := (Bytes.slice?_eq_some_iff.1 found).1
      exact taken extent bounded (Nat.le_sub_of_add_le' fits) whole
  | none =>
      have short := Bytes.slice?_eq_none_iff.1 found
      refine refused extent bounded (fun present => ?_) other
      have fits : count ≤ cursor.data.length - cursor.position := present.1
      omega

/-- An operation that is not counted in advance and is more than a look. -/
theorem of_uncounted {outcome : Except Fault CursorAnswer} {next : Cursor}
    (extent : operation.extent? = none) (moves : ∀ kind, operation ≠ .peek kind)
    (data_eq : next.data = cursor.data) (inside : next.position ≤ next.data.length)
    (forward : (∀ position, operation ≠ .seek position) → cursor.position ≤ next.position)
    (kept : outcome.isOk = false → next = cursor) :
    IsSafeStep operation cursor outcome next where
  data_eq := data_eq
  inside := inside
  forward _ := forward
  isOk_iff count same := by
    rw [extent] at same
    cases same
  moved count same := by
    rw [extent] at same
    cases same
  kept failed _ := kept failed
  cut descriptor := by
    subst descriptor
    cases extent
  peeked kind peek := absurd peek (moves kind)

end IsSafeStep

namespace CursorOperation

variable {w : Nat}

/-- From every position inside the data the operation makes a safe step. -/
def IsSafe (operation : CursorOperation Nat) : Prop :=
  ∀ cursor : Cursor, cursor.position ≤ cursor.data.length →
    IsSafeStep operation cursor (operation.reader.runOn cursor).1
      (operation.reader.runOn cursor).2

theorem isSafe_seek (position : Nat) : (seek position).IsSafe := by
  intro cursor bounded
  rw [reader, Reader.runOn_map, Reader.runOn_seek]
  split
  · rename_i within
    exact .of_uncounted rfl (fun _ => (nomatch ·)) rfl (Nat.le_of_lt within)
      (fun other => absurd rfl (other position)) (nomatch ·)
  · exact .of_uncounted rfl (fun _ => (nomatch ·)) rfl bounded (fun _ => Nat.le_refl _)
      (fun _ => rfl)

theorem isSafe_advance (step : Nat) : (advance step).IsSafe := by
  intro cursor bounded
  rw [reader, Reader.runOn_map, Reader.runOn_advance]
  split
  · rename_i fits
    exact .taken rfl bounded (Nat.le_sub_of_add_le' fits) trivial
  · rename_i past
    refine .refused rfl bounded (fun present => ?_) (nomatch ·)
    have fits : step ≤ cursor.data.length - cursor.position := present.1
    omega

theorem isSafe_peek (kind : WordKind) : (peek kind).IsSafe := by
  intro cursor bounded
  rw [reader, Reader.runOn_map, runOn_peekReader]
  exact {
    data_eq := rfl
    inside := bounded
    forward := fun _ _ => Nat.le_refl _
    isOk_iff := fun _ => (nomatch ·)
    moved := fun _ => (nomatch ·)
    kept := fun _ _ => rfl
    cut := (nomatch ·)
    peeked := fun other same => by
      cases same
      rw [reader, Reader.runOn_map]
      exact ⟨rfl, rfl⟩ }

theorem isSafe_number (kind : NumberKind) : (number kind).IsSafe := by
  intro cursor bounded
  refine .of_slice (fun part => .number (kind.ofBytes part)) rfl bounded trivial (nomatch ·) ?_
  rw [reader, Reader.runOn_map, kind.runOn_reader]
  cases cursor.data.slice? cursor.position kind.size <;> rfl

theorem isSafe_bytes (length : Nat) : (bytes length).IsSafe := by
  intro cursor bounded
  refine .of_slice .bytes rfl bounded trivial (nomatch ·) ?_
  rw [reader, Reader.runOn_map, Reader.runOn_bytes]
  cases cursor.data.slice? cursor.position length <;> rfl

theorem isSafe_narrowText : narrowText.IsSafe := by
  intro cursor bounded
  rw [reader, Reader.runOn_map, Reader.runOn_narrowText, if_neg (Nat.not_lt.2 bounded)]
  refine .of_uncounted rfl (fun _ => (nomatch ·)) rfl (Nat.min_le_right _ _) (fun _ => ?_)
    (nomatch ·)
  exact Nat.le_min.2 ⟨by omega, bounded⟩

theorem isSafe_wideText (length : Nat) : (wideText length).IsSafe := by
  intro cursor bounded
  by_cases whole : length % 2 = 0
  · refine .of_slice (fun part => .text (Utf16.decode part)) rfl bounded whole (nomatch ·) ?_
    rw [reader, Reader.runOn_map, Reader.runOn_wideText, if_pos whole]
    cases cursor.data.slice? cursor.position length <;> rfl
  · rw [reader, Reader.runOn_map, Reader.runOn_wideText, if_neg whole]
    exact .refused rfl bounded (fun present => whole present.2) (nomatch ·)

theorem isSafe_importDescriptor : importDescriptor.IsSafe := by
  intro cursor bounded
  have five := Reader.importDescriptor_takesWords cursor bounded
  have left : cursor.remaining = cursor.data.length - cursor.position := rfl
  rw [reader, Reader.runOn_map]
  split at five
  · rename_i fits
    obtain ⟨descriptor, ran⟩ := five
    rw [ran]
    exact .taken rfl bounded fits trivial
  · rename_i short
    rw [five]
    exact {
      data_eq := rfl
      inside := by
        change cursor.position + 4 * (cursor.remaining / 4) ≤ cursor.data.length
        omega
      forward := fun _ _ => Nat.le_add_right _ _
      isOk_iff := fun count same => by
        cases same
        exact ⟨(nomatch ·), fun present => absurd present.1 short⟩
      moved := fun _ _ => (nomatch ·)
      kept := fun _ other => absurd rfl other
      cut := fun _ _ => rfl
      peeked := fun _ => (nomatch ·) }

theorem isSafe : (operation : CursorOperation Nat) → operation.IsSafe
  | seek position => isSafe_seek position
  | advance step => isSafe_advance step
  | peek kind => isSafe_peek kind
  | number kind => isSafe_number kind
  | bytes length => isSafe_bytes length
  | narrowText => isSafe_narrowText
  | wideText length => isSafe_wideText length
  | importDescriptor => isSafe_importDescriptor

/-- An operation on words does what the one on numbers does. -/
theorem words_follows (counts : 8 < 2 ^ w) :
    (operation : CursorOperation (BitVec w)) →
      operation.words.Follows (operation.map BitVec.toNat).reader
  | seek position => (WordReader.seek_follows position).map _
  | advance step => (WordReader.advance_follows step).map _
  | peek kind =>
      (WordReader.peek_follows
        (WordReader.number_follows (Nat.lt_of_le_of_lt (NumberKind.size_le _) counts))
        (runOn_peekReader kind)).map _
  | number kind =>
      (WordReader.number_follows (Nat.lt_of_le_of_lt kind.size_le counts)).map _
  | bytes length => (WordReader.bytes_follows length).map _
  | narrowText => WordReader.narrowText_follows.map _
  | wideText length => (WordReader.wideText_follows length (by omega)).map _
  | importDescriptor => (WordReader.importDescriptor_follows (by omega)).map _

end CursorOperation

/-! ## Operations one after the other -/

namespace Cursor

/-- The cursor after some operations; one that fails does not end the run. -/
def after (cursor : Cursor) (operations : List (CursorOperation Nat)) : Cursor :=
  operations.foldl (fun cursor operation => (operation.reader.runOn cursor).2) cursor

end Cursor

namespace WordCursor

variable {w : Nat}

def start (data : Bytes) : WordCursor w :=
  ⟨data, 0⟩

/-- The cursor after some operations, none of which ends the program. -/
def after? (cursor : WordCursor w) (operations : List (CursorOperation (BitVec w))) :
    Option (WordCursor w) :=
  operations.foldlM (fun cursor operation => (operation.words.runOn cursor).map Prod.snd) cursor

theorem inside_start {data : Bytes} (measured : data.length < 2 ^ w) :
    (start data : WordCursor w).Inside :=
  ⟨measured, Nat.zero_le _⟩

theorem exists_after? (counts : 8 < 2 ^ w) (operations : List (CursorOperation (BitVec w)))
    {cursor : WordCursor w} (inside : cursor.Inside) :
    ∃ next, cursor.after? operations = some next ∧ next.Inside ∧ next.data = cursor.data ∧
      next.toCursor = cursor.toCursor.after (operations.map (·.map BitVec.toNat)) := by
  induction operations generalizing cursor with
  | nil => exact ⟨cursor, rfl, inside, rfl, rfl⟩
  | cons operation rest ih =>
      -- Success or not, the cursor stays inside the data, where the next operation has an outcome.
      obtain ⟨outcome, middle, ran, within, same⟩ :=
        operation.words_follows counts cursor inside
      obtain ⟨next, found, ends, kept, agrees⟩ := ih within
      have data_eq := ((operation.map BitVec.toNat).isSafe cursor.toCursor inside.bounded).data_eq
      rw [same] at data_eq
      refine ⟨next, ?_, ends, kept.trans data_eq, ?_⟩
      · rw [after?, List.foldlM_cons, ran]
        exact found
      · rw [agrees, Cursor.after, Cursor.after, List.map_cons, List.foldl_cons, same]

/--
After any operations, with any positions and lengths that words can hold, the
program has not ended and the position is inside the data.  The next operation
then has the outcome that it has on numbers, and its step is a safe one.
-/
theorem run_stays_inside (counts : 8 < 2 ^ w) {data : Bytes} (measured : data.length < 2 ^ w)
    (operations : List (CursorOperation (BitVec w))) (operation : CursorOperation (BitVec w)) :
    ∃ (cursor next : WordCursor w) (outcome : Except Fault CursorAnswer),
      (start data).after? operations = some cursor ∧
        operation.words.runOn cursor = some (outcome, next) ∧
        cursor.toCursor = (Cursor.start data).after (operations.map (·.map BitVec.toNat)) ∧
        (operation.map BitVec.toNat).reader.runOn cursor.toCursor = (outcome, next.toCursor) ∧
        cursor.data = data ∧
        cursor.position.toNat ≤ data.length ∧
        cursor.position.toNat + cursor.remaining.toNat = data.length ∧
        IsSafeStep (operation.map BitVec.toNat) cursor.toCursor outcome next.toCursor := by
  obtain ⟨cursor, found, inside, data_eq, agrees⟩ :=
    exists_after? counts operations (inside_start measured)
  change cursor.data = data at data_eq
  obtain ⟨outcome, next, ran, -, same⟩ := operation.words_follows counts cursor inside
  have bounded : cursor.position.toNat ≤ data.length := data_eq ▸ inside.bounded
  have safe := (operation.map BitVec.toNat).isSafe cursor.toCursor inside.bounded
  rw [same] at safe
  refine ⟨cursor, next, outcome, found, ran, agrees, same, data_eq, bounded, ?_, safe⟩
  rw [toNat_remaining inside]
  change cursor.position.toNat + (cursor.data.length - cursor.position.toNat) = data.length
  rw [data_eq, Nat.add_sub_cancel' bounded]

/-- Fourteen bytes, no more than a word of 64 bits measures. -/
def fourteen : Bytes :=
  List.replicate 14 0x41

/-- Operations at the limits of a word of 64 bits, of which only the first and the third succeed. -/
def attempts : List (CursorOperation (BitVec 64)) :=
  [.seek 3, .advance (-1), .number (.word .u32), .wideText 3, .bytes (-2), .seek 14, .peek .u64]

theorem after?_attempts : (start fourteen).after? attempts = some ⟨fourteen, 7⟩ := by
  decide +kernel

/-- Of a descriptor seven bytes before the end one word is taken. -/
theorem attempts_then_importDescriptor :
    8 < 2 ^ 64 ∧ fourteen.length < 2 ^ 64 ∧
      ∃ (cursor next : WordCursor 64) (outcome : Except Fault CursorAnswer),
        (start fourteen).after? attempts = some cursor ∧
          importDescriptor.words.runOn cursor = some (outcome, next) ∧
          cursor.position.toNat = 7 ∧ outcome.isOk = false ∧ next.position.toNat = 11 := by
  have counts : 8 < 2 ^ 64 := by decide
  have measured : fourteen.length < 2 ^ 64 := by decide
  refine ⟨counts, measured, ?_⟩
  obtain ⟨cursor, next, outcome, found, ran, -, -, -, -, -, safe⟩ :=
    run_stays_inside counts measured attempts .importDescriptor
  refine ⟨cursor, next, outcome, found, ran, ?_⟩
  rw [after?_attempts, Option.some_inj] at found
  subst found
  have failed : ¬ outcome.isOk = true := fun succeeded =>
    absurd ((safe.isOk_iff 20 rfl).1 succeeded).1 (by decide)
  have taken := safe.cut rfl (by decide)
  exact ⟨rfl, Bool.eq_false_iff.2 failed, congrArg Cursor.position taken⟩

end WordCursor

end NtTarget
