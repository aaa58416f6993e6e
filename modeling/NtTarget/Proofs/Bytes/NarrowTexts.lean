import NtTarget.Bytes.Cursor

/-!
# Narrow texts in a row

Zero bytes cut a byte string into pieces, and narrow texts that are read one
after the other are these pieces.  No read fails inside the data: behind the
last piece stands an empty text that takes no bytes.  Reading while bytes are
left therefore ends with the last piece, and reading until a fault never ends.
-/

namespace NtTarget

/--
The pieces of a byte string: what stands in front of each zero byte, and what
stands behind the last one unless there is nothing.
-/
inductive Bytes.Pieces : Bytes → List Bytes → Prop where
  | nothing : Pieces [] []
  | unterminated {piece : Bytes} (nonempty : piece ≠ []) (clean : (0 : UInt8) ∉ piece) :
      Pieces piece [piece]
  | terminated {piece rest : Bytes} {later : List Bytes} (clean : (0 : UInt8) ∉ piece)
      (others : Pieces rest later) : Pieces (piece ++ 0 :: rest) (piece :: later)

namespace Bytes

theorem exists_pieces (data : Bytes) : ∃ pieces, data.Pieces pieces := by
  -- What follows a zero byte is shorter, so the induction is on the length.
  induction length : data.length using Nat.strongRecOn generalizing data with
  | _ size ih =>
    cases cut : data.zeroTerminated? with
    | some piece =>
        obtain ⟨rest, rfl, clean⟩ := zeroTerminated?_eq_some_iff.1 cut
        have shorter : rest.length < size := by
          rw [← length, List.length_append, List.length_cons]
          omega
        obtain ⟨later, others⟩ := ih rest.length shorter rest rfl
        exact ⟨piece :: later, .terminated clean others⟩
    | none =>
        have clean : (0 : UInt8) ∉ data := by
          intro inside
          simp [zeroTerminated?, inside] at cut
        by_cases nonempty : data = []
        · exact ⟨[], nonempty ▸ .nothing⟩
        · exact ⟨[data], .unterminated nonempty clean⟩

theorem Pieces.eq_nil_iff {data : Bytes} {pieces : List Bytes} (cut : data.Pieces pieces) :
    data = [] ↔ pieces = [] := by
  cases cut with
  | nothing => simp
  | unterminated nonempty clean => simpa using nonempty
  | terminated clean others => simp

theorem untilZero_append_zero {piece : Bytes} (clean : (0 : UInt8) ∉ piece) (rest : Bytes) :
    untilZero (piece ++ 0 :: rest) = piece := by
  have found := zeroTerminated?_eq_some_iff.2 ⟨rest, rfl, clean⟩
  unfold zeroTerminated? at found
  rw [if_pos (by simp)] at found
  exact Option.some.inj found

end Bytes

theorem Cursor.hasMore_between {before rest : Bytes} :
    (between before rest).hasMore = true ↔ rest ≠ [] := by
  simp [hasMore, between, List.length_pos_iff]

namespace Reader

/-- Take `count` narrow texts in a row. -/
def narrowTexts : Nat → Reader (List String)
  | 0 => pure []
  | count + 1 => do
      let head ← narrowText
      let tail ← narrowTexts count
      pure (head :: tail)

/--
The end of the data is the one place in it that refuses a text, and everywhere
else a text takes at least one byte.
-/
structure RefusesAtEnd (cursor : Cursor) : Prop where
  refused : (narrowText.runOn cursor).1 = .error .outOfBounds ↔
    cursor.position = cursor.data.length
  moves : cursor.position ≠ cursor.data.length → ∃ text next,
    narrowText.runOn cursor = (.ok text, next) ∧ cursor.position < next.position

/-! ## One text -/

/-- The one fault of a narrow text is a position that is not in the data. -/
theorem narrowText_eq_error_iff {cursor : Cursor} {fault : Fault} :
    (narrowText.runOn cursor).1 = .error fault ↔
      cursor.data.length < cursor.position ∧ fault = .outOfBounds := by
  rw [runOn_narrowText]
  by_cases outside : cursor.data.length < cursor.position
  · rw [if_pos outside, and_iff_right outside]
    exact ⟨fun same => (Except.error.inj same).symm, fun same => same ▸ rfl⟩
  · rw [if_neg outside]
    exact ⟨nofun, fun both => absurd both.1 outside⟩

theorem runOn_narrowText_terminated (before : Bytes) {piece : Bytes}
    (clean : (0 : UInt8) ∉ piece) (rest : Bytes) :
    narrowText.runOn (.between before (piece ++ 0 :: rest)) =
      (.ok (Utf8.decode piece), .between (before ++ (piece ++ [0])) rest) := by
  have ahead : (Cursor.between before (piece ++ 0 :: rest)).rest = piece ++ 0 :: rest :=
    List.drop_left
  rw [runOn_narrowText, ahead, Bytes.untilZero_append_zero clean, if_neg]
  · simp [Cursor.between, Cursor.moveTo]
    omega
  · simp [Cursor.between]

theorem runOn_narrowText_unterminated (before : Bytes) {piece : Bytes}
    (clean : (0 : UInt8) ∉ piece) :
    narrowText.runOn (.between before piece) =
      (.ok (Utf8.decode piece), .between (before ++ piece) []) := by
  have ahead : (Cursor.between before piece).rest = piece := List.drop_left
  rw [runOn_narrowText, ahead, Bytes.untilZero_of_notMem clean, if_neg]
  · simp [Cursor.between, Cursor.moveTo]
  · simp [Cursor.between]

/-- At the end of the data an empty text is read, without moving. -/
theorem runOn_narrowText_end {cursor : Cursor} (ended : cursor.position = cursor.data.length) :
    narrowText.runOn cursor = (.ok "", cursor) := by
  have same : cursor = .between cursor.data [] := by
    rw [Cursor.between, List.append_nil, ← ended]
  have read : narrowText.runOn (.between cursor.data []) =
      (.ok "", .between (cursor.data ++ []) []) :=
    runOn_narrowText_unterminated cursor.data List.not_mem_nil
  rw [List.append_nil] at read
  rw [same]
  exact read

/-- In front of a byte a text is read and takes it. -/
theorem narrowText_moves {cursor : Cursor} (more : cursor.position < cursor.data.length) :
    ∃ text next, narrowText.runOn cursor = (.ok text, next) ∧
      cursor.position < next.position := by
  rw [runOn_narrowText, if_neg (Nat.not_lt.2 (Nat.le_of_lt more))]
  refine ⟨_, _, rfl, ?_⟩
  change cursor.position < min _ _
  omega

/-- Inside the data the end is never refused, and every other place is as it should be. -/
theorem refusesAtEnd_iff (cursor : Cursor) (inside : cursor.position ≤ cursor.data.length) :
    RefusesAtEnd cursor ↔ cursor.position < cursor.data.length := by
  have accepted : ¬ (narrowText.runOn cursor).1 = .error .outOfBounds := fun refused =>
    Nat.not_lt.2 inside (narrowText_eq_error_iff.1 refused).1
  constructor
  · intro refuses
    exact Nat.lt_of_le_of_ne inside fun ended => accepted (refuses.refused.2 ended)
  · intro more
    exact ⟨iff_of_false accepted (Nat.ne_of_lt more), fun _ => narrowText_moves more⟩

/-! ## Texts in a row -/

/--
Texts in a row are the pieces of what is left, and empty texts behind them.
What they leave has the other pieces.
-/
theorem runOn_narrowTexts_between (before : Bytes) {rest : Bytes} {pieces : List Bytes}
    (cut : rest.Pieces pieces) (count : Nat) :
    ∃ passed left, rest = passed ++ left ∧ left.Pieces (pieces.drop count) ∧
      (narrowTexts count).runOn (.between before rest) =
        (.ok ((pieces.map Utf8.decode).take count ++ List.replicate (count - pieces.length) ""),
          .between (before ++ passed) left) := by
  induction count generalizing before rest pieces with
  | zero => exact ⟨[], rest, rfl, cut, by simp [narrowTexts]⟩
  | succ count ih =>
      rw [narrowTexts, runOn_bind]
      cases cut with
      | nothing =>
          obtain ⟨passed, left, whole, others, ran⟩ := ih before .nothing
          rw [runOn_narrowText_end (by simp [Cursor.between])]
          dsimp only
          rw [runOn_bind, ran]
          refine ⟨passed, left, whole, by simpa using others, ?_⟩
          simp [List.replicate_succ]
      | unterminated nonempty clean =>
          obtain ⟨passed, left, whole, others, ran⟩ := ih (before ++ rest) .nothing
          rw [runOn_narrowText_unterminated before clean]
          dsimp only
          rw [runOn_bind, ran]
          obtain ⟨rfl, rfl⟩ := List.append_eq_nil_iff.1 whole.symm
          refine ⟨rest, [], by simp, by simpa using others, ?_⟩
          simp
      | @terminated piece rest later clean following =>
          obtain ⟨passed, left, rfl, others, ran⟩ := ih (before ++ (piece ++ [0])) following
          rw [runOn_narrowText_terminated before clean]
          dsimp only
          rw [runOn_bind, ran]
          refine ⟨piece ++ 0 :: passed, left, by simp, others, ?_⟩
          simp

/--
A narrow text is refused only at a position that is not in the data, so not at
its end, where it is empty; everywhere else in the data it takes at least one
byte.  Texts that are read in a row from the start are the pieces of the data,
and none of them is refused: bytes are left exactly in front of the last piece,
and every text behind that is empty.
-/
theorem narrowTexts_read_pieces (data : Bytes) :
    (∀ position fault, (narrowText.runOn ⟨data, position⟩).1 = .error fault ↔
      data.length < position ∧ fault = .outOfBounds) ∧
    (∀ position, position ≤ data.length →
      (RefusesAtEnd ⟨data, position⟩ ↔ position < data.length)) ∧
    narrowText.runOn ⟨data, data.length⟩ = (.ok "", ⟨data, data.length⟩) ∧
    (∃ pieces, data.Pieces pieces) ∧ ∀ pieces, data.Pieces pieces → ∀ count, ∃ next,
      (narrowTexts count).runOn (.start data) =
          (.ok ((pieces.map Utf8.decode).take count ++ List.replicate (count - pieces.length) ""),
            next) ∧
        (next.hasMore = true ↔ count < pieces.length) := by
  refine ⟨fun _ _ => narrowText_eq_error_iff,
    fun position => refusesAtEnd_iff ⟨data, position⟩, runOn_narrowText_end rfl,
    data.exists_pieces, ?_⟩
  intro pieces cut count
  obtain ⟨passed, left, -, others, ran⟩ := runOn_narrowTexts_between [] cut count
  refine ⟨_, ran, ?_⟩
  rw [Cursor.hasMore_between, ne_eq, others.eq_nil_iff, List.drop_eq_nil_iff, Nat.not_le]

/-- A text that ends the data without a zero byte, behind an empty one. -/
def unendedText : Bytes :=
  [0, 0x41, 0xFF]

theorem unendedText_pieces : unendedText.Pieces [[], [0x41, 0xFF]] :=
  @Bytes.Pieces.terminated [] [0x41, 0xFF] _ List.not_mem_nil
    (.unterminated (by decide) (by decide))

/-- Both texts are read, and a third one that is empty. -/
theorem unendedText_read :
    unendedText.Pieces [[], [0x41, 0xFF]] ∧
      RefusesAtEnd ⟨unendedText, 1⟩ ∧
      ∃ next, (narrowTexts 3).runOn (.start unendedText) = (.ok ["", "A\uFFFD", ""], next) ∧
        next.hasMore = false := by
  obtain ⟨-, refuses, -, -, rows⟩ := narrowTexts_read_pieces unendedText
  obtain ⟨next, ran, left⟩ := rows _ unendedText_pieces 3
  refine ⟨unendedText_pieces, (refuses 1 (by decide)).2 (by decide), next, ?_, ?_⟩
  · rw [ran]
    exact congrArg (fun texts => (Except.ok texts, next)) (by decide +kernel)
  · exact Bool.eq_false_iff.2 fun more => absurd (left.1 more) (by decide)

/-- The end of the data refuses no text, and reading texts of one byte string never fails. -/
theorem narrowText_not_refused_at_end :
    ¬ (∀ cursor : Cursor, cursor.position ≤ cursor.data.length → RefusesAtEnd cursor) ∧
      ¬ ∃ count fault, ((narrowTexts count).runOn (.start unendedText)).1 = .error fault := by
  constructor
  · intro refused
    have failed := (refused ⟨unendedText, 3⟩ (by decide)).refused.2 rfl
    rw [runOn_narrowText_end rfl] at failed
    cases failed
  · rintro ⟨count, fault, failed⟩
    obtain ⟨_, _, -, -, ran⟩ := runOn_narrowTexts_between [] unendedText_pieces count
    change ((narrowTexts count).runOn (.between [] unendedText)).1 = _ at failed
    rw [ran] at failed
    cases failed

end Reader

end NtTarget
