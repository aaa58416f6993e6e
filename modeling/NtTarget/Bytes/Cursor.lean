import NtTarget.Fault
import NtTarget.PointerWidth
import NtTarget.Text.Utf8
import NtTarget.Text.Utf16

/-!
# Reading under a cursor

A cursor is a position in a byte string.  A reader either yields a value or a
fault, and in both cases leaves a cursor: one that fails keeps whatever its
completed steps consumed.  Every step checks its range before it moves.
-/

namespace NtTarget

/-- A position in a byte string. -/
structure Cursor where
  data : Bytes
  position : Nat
  deriving Repr, DecidableEq

namespace Cursor

def start (data : Bytes) : Cursor :=
  ⟨data, 0⟩

/-- The cursor behind some bytes and in front of the rest. -/
def between (before rest : Bytes) : Cursor :=
  ⟨before ++ rest, before.length⟩

def remaining (cursor : Cursor) : Nat :=
  cursor.data.length - cursor.position

def hasMore (cursor : Cursor) : Bool :=
  cursor.position < cursor.data.length

def rest (cursor : Cursor) : Bytes :=
  cursor.data.drop cursor.position

theorem remaining_between (before rest : Bytes) :
    (between before rest).remaining = rest.length := by
  simp [remaining, between]

/-- The same string at another position. -/
def moveTo (cursor : Cursor) (position : Nat) : Cursor :=
  { cursor with position }

/-- The word at the position, without moving. -/
def peek (α : Type) [Word α] (cursor : Cursor) : Except Fault α :=
  match Word.at? α cursor.data cursor.position with
  | some word => .ok word
  | none => .error .outOfBounds

end Cursor

/-- A computation that reads under a cursor and may fail where it stands. -/
abbrev Reader := ExceptT Fault (StateM Cursor)

namespace Reader

/-- The outcome of a reader and the cursor that it leaves. -/
def runOn {α : Type} (reader : Reader α) (cursor : Cursor) : Except Fault α × Cursor :=
  (ExceptT.run reader).run cursor

/-- The outcome of a reader at the start of a byte string. -/
def outcome {α : Type} (reader : Reader α) (data : Bytes) : Except Fault α :=
  (reader.runOn (Cursor.start data)).1

/-- Move to a position that has a byte. -/
def seek (position : Nat) : Reader Unit := do
  let cursor ← get
  if position < cursor.data.length then
    set (cursor.moveTo position)
  else
    throw .outOfBounds

/-- Move forward, at most to the end. -/
def advance (step : Nat) : Reader Unit := do
  let cursor ← get
  if cursor.position + step ≤ cursor.data.length then
    set (cursor.moveTo (cursor.position + step))
  else
    throw .outOfBounds

def bytes (length : Nat) : Reader Bytes := do
  let cursor ← get
  match cursor.data.slice? cursor.position length with
  | some part =>
      set (cursor.moveTo (cursor.position + length))
      pure part
  | none => throw .outOfBounds

def word (α : Type) [Word α] : Reader α := do
  let stored ← bytes (Word.size α)
  pure (Word.ofBytes stored)

def pointer (width : PointerWidth) : Reader UInt64 := do
  let stored ← bytes width.bytes
  pure (PointerWidth.addressOf stored)

/-- Take `count` pointers in a row. -/
def pointers (width : PointerWidth) : Nat → Reader (List UInt64)
  | 0 => pure []
  | count + 1 => do
      let head ← pointer width
      let tail ← pointers width count
      pure (head :: tail)

/--
Take a narrow text up to its zero byte and pass over that byte.  A text that no
zero byte ends reaches to the end of the data.
-/
def narrowText : Reader String := do
  let cursor ← get
  if cursor.data.length < cursor.position then
    throw .outOfBounds
  else
    let text := cursor.rest.untilZero
    let past := cursor.position + text.length + 1
    set (cursor.moveTo (min past cursor.data.length))
    pure (Utf8.decode text)

/-- Take `length` bytes of wide text, which must be whole units. -/
def wideText (length : Nat) : Reader String := do
  if length % 2 = 0 then
    let stored ← bytes length
    pure (Utf16.decode stored)
  else
    throw (.malformed (.oddUtf16Length length))

/-! ## What each step leaves -/

@[simp] theorem runOn_pure {α : Type} (value : α) (cursor : Cursor) :
    (pure value : Reader α).runOn cursor = (.ok value, cursor) := rfl

@[simp] theorem runOn_throw {α : Type} (fault : Fault) (cursor : Cursor) :
    (throw fault : Reader α).runOn cursor = (.error fault, cursor) := rfl

@[simp] theorem runOn_get (cursor : Cursor) :
    (get : Reader Cursor).runOn cursor = (.ok cursor, cursor) := rfl

/-- A reader that goes on does so from the cursor that the first part left. -/
theorem runOn_bind {α β : Type} (first : Reader α) (later : α → Reader β) (cursor : Cursor) :
    (first >>= later).runOn cursor =
      match first.runOn cursor with
      | (.ok value, next) => (later value).runOn next
      | (.error fault, next) => (.error fault, next) := by
  simp only [runOn, ExceptT.run_bind, StateT.run_bind]
  rcases (ExceptT.run first).run cursor with ⟨outcome, next⟩
  cases outcome <;> rfl

theorem runOn_map {α β : Type} (f : α → β) (reader : Reader α) (cursor : Cursor) :
    (f <$> reader).runOn cursor =
      ((reader.runOn cursor).1.map f, (reader.runOn cursor).2) := by
  rw [← bind_pure_comp, runOn_bind]
  rcases reader.runOn cursor with ⟨outcome, next⟩
  cases outcome <;> rfl

/-- Bytes are taken exactly when they exist; otherwise the cursor stays. -/
theorem runOn_bytes (length : Nat) (cursor : Cursor) :
    (bytes length).runOn cursor =
      match cursor.data.slice? cursor.position length with
      | some part => (.ok part, cursor.moveTo (cursor.position + length))
      | none => (.error .outOfBounds, cursor) := by
  unfold bytes
  rw [runOn_bind, runOn_get]
  dsimp only
  cases cursor.data.slice? cursor.position length <;> rfl

theorem runOn_word (α : Type) [Word α] (cursor : Cursor) :
    (word α).runOn cursor =
      match Word.at? α cursor.data cursor.position with
      | some value => (.ok value, cursor.moveTo (cursor.position + Word.size α))
      | none => (.error .outOfBounds, cursor) := by
  unfold word Word.at?
  rw [runOn_bind, runOn_bytes]
  cases cursor.data.slice? cursor.position (Word.size α) <;> rfl

theorem runOn_pointer (width : PointerWidth) (cursor : Cursor) :
    (pointer width).runOn cursor =
      match width.pointerAt? cursor.data cursor.position with
      | some address => (.ok address, cursor.moveTo (cursor.position + width.bytes))
      | none => (.error .outOfBounds, cursor) := by
  unfold pointer PointerWidth.pointerAt?
  rw [runOn_bind, runOn_bytes]
  cases cursor.data.slice? cursor.position width.bytes <;> rfl

theorem runOn_advance (step : Nat) (cursor : Cursor) :
    (advance step).runOn cursor =
      if cursor.position + step ≤ cursor.data.length then
        (.ok (), cursor.moveTo (cursor.position + step))
      else (.error .outOfBounds, cursor) := by
  unfold advance
  rw [runOn_bind, runOn_get]
  dsimp only
  split <;> rfl

theorem runOn_seek (position : Nat) (cursor : Cursor) :
    (seek position).runOn cursor =
      if position < cursor.data.length then (.ok (), cursor.moveTo position)
      else (.error .outOfBounds, cursor) := by
  unfold seek
  rw [runOn_bind, runOn_get]
  dsimp only
  split <;> rfl

theorem runOn_narrowText (cursor : Cursor) :
    narrowText.runOn cursor =
      if cursor.data.length < cursor.position then (.error .outOfBounds, cursor)
      else (.ok (Utf8.decode cursor.rest.untilZero),
        cursor.moveTo
          (min (cursor.position + cursor.rest.untilZero.length + 1) cursor.data.length)) := by
  unfold narrowText
  rw [runOn_bind, runOn_get]
  dsimp only
  split <;> rfl

/-- Wide text is the decoded text of the bytes that are taken, which must be whole units. -/
theorem runOn_wideText (length : Nat) (cursor : Cursor) :
    (wideText length).runOn cursor =
      if length % 2 = 0 then
        match cursor.data.slice? cursor.position length with
        | some part => (.ok (Utf16.decode part), cursor.moveTo (cursor.position + length))
        | none => (.error .outOfBounds, cursor)
      else (.error (.malformed (.oddUtf16Length length)), cursor) := by
  unfold wideText
  split
  · rw [runOn_bind, runOn_bytes]
    cases cursor.data.slice? cursor.position length <;> rfl
  · rfl

/-! ## Reading at a position -/

section Position

variable {data : Bytes} {position : Nat}

theorem runOn_word_at (α : Type) [Word α] (fits : position + Word.size α ≤ data.length) :
    (word α).runOn ⟨data, position⟩ =
      (.ok (Word.ofBytes ((data.drop position).take (Word.size α))),
        ⟨data, position + Word.size α⟩) := by
  rw [runOn_word, Word.at?_eq_ite, if_pos fits]
  rfl

theorem runOn_pointer_at {width : PointerWidth} (fits : position + width.bytes ≤ data.length) :
    (pointer width).runOn ⟨data, position⟩ =
      (.ok (PointerWidth.addressOf ((data.drop position).take width.bytes)),
        ⟨data, position + width.bytes⟩) := by
  have found : width.pointerAt? data position =
      some (PointerWidth.addressOf ((data.drop position).take width.bytes)) :=
    Option.map_eq_some_iff.2 ⟨_, Bytes.slice?_eq_some_iff.2 ⟨fits, rfl⟩, rfl⟩
  rw [runOn_pointer, found]
  rfl

theorem runOn_advance_at {step : Nat} (fits : position + step ≤ data.length) :
    (advance step).runOn ⟨data, position⟩ = (.ok (), ⟨data, position + step⟩) := by
  rw [runOn_advance, if_pos fits]
  rfl

/-- Pointers in a row are read one after the other. -/
theorem runOn_pointers_at {width : PointerWidth} {count : Nat}
    (fits : position + count * width.bytes ≤ data.length) :
    (pointers width count).runOn ⟨data, position⟩ =
      (.ok ((List.range count).map fun index =>
          PointerWidth.addressOf ((data.drop (position + index * width.bytes)).take width.bytes)),
        ⟨data, position + count * width.bytes⟩) := by
  induction count generalizing position with
  | zero => simp [pointers]
  | succ count ih =>
      rw [Nat.succ_mul] at fits
      have later : position + width.bytes + count * width.bytes ≤ data.length := by omega
      have next : ∀ index, position + width.bytes + index * width.bytes =
          position + (index + 1) * width.bytes := by
        intro index
        rw [Nat.succ_mul]
        omega
      rw [pointers, runOn_bind, runOn_pointer_at (by omega)]
      dsimp only
      rw [runOn_bind, ih later]
      dsimp only
      rw [runOn_pure, List.range_succ_eq_map, List.map_cons, List.map_map, next count]
      simp only [Function.comp_def, next, Nat.zero_mul, Nat.add_zero, Nat.succ_eq_add_one]

end Position

/-! ## Reading what stands in front of the cursor -/

theorem between_append (before part after : Bytes) :
    (Cursor.between before (part ++ after)).moveTo (before.length + part.length) =
      .between (before ++ part) after := by
  simp [Cursor.between, Cursor.moveTo]

@[simp] theorem runOn_bytes_between (before part after : Bytes) :
    (bytes part.length).runOn (.between before (part ++ after)) =
      (.ok part, .between (before ++ part) after) := by
  have found : (Cursor.between before (part ++ after)).data.slice?
      (Cursor.between before (part ++ after)).position part.length = some part :=
    Bytes.slice?_between before part after
  rw [runOn_bytes, found]
  exact congrArg _ (between_append before part after)

@[simp] theorem runOn_word_between {α : Type} [Word α] (before : Bytes) (value : α)
    (after : Bytes) :
    (word α).runOn (.between before (Word.toBytes value ++ after)) =
      (.ok value, .between (before ++ Word.toBytes value) after) := by
  unfold word
  rw [← Word.length_toBytes value, runOn_bind, runOn_bytes_between]
  dsimp only
  rw [runOn_pure, Word.ofBytes_toBytes]

/-- A word of which too few bytes are left is not read. -/
theorem runOn_word_short {α : Type} [Word α] (before : Bytes) {rest : Bytes}
    (short : rest.length < Word.size α) :
    (word α).runOn (.between before rest) = (.error .outOfBounds, .between before rest) := by
  have past : ¬ before.length + Word.size α ≤ (before ++ rest).length := by
    rw [List.length_append]
    omega
  rw [runOn_word, Word.at?_eq_ite, Cursor.between, if_neg past]

@[simp] theorem runOn_pointer_between (width : PointerWidth) (before : Bytes) (address : UInt64)
    (after : Bytes) :
    (pointer width).runOn (.between before (width.pointerBytes address ++ after)) =
      (.ok (PointerWidth.addressOf (width.pointerBytes address)),
        .between (before ++ width.pointerBytes address) after) := by
  unfold pointer
  rw [← width.length_pointerBytes address, runOn_bind, runOn_bytes_between]
  dsimp only
  rw [runOn_pure]

/-- Pointers that fit their width read back, wherever they stand in a row. -/
theorem runOn_pointers_between {width : PointerWidth} (before : Bytes) {addresses : List UInt64}
    (fits : ∀ address ∈ addresses, width.Fits address) (after : Bytes) :
    (pointers width addresses.length).runOn
        (.between before (addresses.flatMap width.pointerBytes ++ after)) =
      (.ok addresses, .between (before ++ addresses.flatMap width.pointerBytes) after) := by
  induction addresses generalizing before with
  | nil =>
      rw [List.flatMap_nil, List.append_nil]
      rfl
  | cons address rest ih =>
      obtain ⟨first, later⟩ := List.forall_mem_cons.1 fits
      rw [List.flatMap_cons, List.append_assoc, List.length_cons, pointers, runOn_bind,
        runOn_pointer_between]
      dsimp only
      rw [runOn_bind, ih _ later]
      dsimp only
      rw [runOn_pure, PointerWidth.addressOf_pointerBytes first, List.append_assoc]

@[simp] theorem runOn_advance_between (before part after : Bytes) :
    (advance part.length).runOn (.between before (part ++ after)) =
      (.ok (), .between (before ++ part) after) := by
  have fits : (Cursor.between before (part ++ after)).position + part.length ≤
      (Cursor.between before (part ++ after)).data.length := by
    simp [Cursor.between]
  rw [runOn_advance, if_pos fits]
  exact congrArg _ (between_append before part after)

end Reader

end NtTarget
