/-!
# Scanning text

Names carry fields behind fixed keys.  A scan finds what follows a key, at the
start of a text or at the key's first occurrence.
-/

namespace NtTarget.Scan

/-- What follows a key at the start of a text. -/
def afterLead? (key text : List Char) : Option (List Char) :=
  if key.isPrefixOf text then some (text.drop key.length) else none

/-- What follows the first occurrence of a key in a text. -/
def afterFirst? (key : List Char) : List Char → Option (List Char)
  | [] => afterLead? key []
  | c :: rest =>
      match afterLead? key (c :: rest) with
      | some tail => some tail
      | none => afterFirst? key rest

/-- Whether a text starts with a key. -/
def startsWith (key text : String) : Bool :=
  key.toList.isPrefixOf text.toList

/-- A text starts with a key exactly when the key is followed by something. -/
theorem afterLead?_eq_some_iff {key text tail : List Char} :
    afterLead? key text = some tail ↔ text = key ++ tail := by
  unfold afterLead?
  constructor
  · intro found
    split at found
    · rename_i starts
      obtain ⟨rest, rfl⟩ := List.isPrefixOf_iff_prefix.1 starts
      simp at found
      rw [found]
    · cases found
  · rintro rfl
    simp

@[simp] theorem afterLead?_append (key tail : List Char) :
    afterLead? key (key ++ tail) = some tail :=
  afterLead?_eq_some_iff.2 rfl

/-- A text starts with a key exactly when its characters are the key's and some more. -/
theorem startsWith_iff {key text : String} :
    startsWith key text = true ↔ ∃ tail, text.toList = key.toList ++ tail := by
  unfold startsWith
  rw [List.isPrefixOf_iff_prefix]
  constructor
  · rintro ⟨tail, whole⟩
    exact ⟨tail, whole.symm⟩
  · rintro ⟨tail, whole⟩
    exact ⟨tail, whole.symm⟩

theorem afterLead?_eq_none_iff {key text : List Char} :
    afterLead? key text = none ↔ ∀ tail, text ≠ key ++ tail := by
  rw [Option.eq_none_iff_forall_ne_some]
  exact forall_congr' fun tail => not_congr afterLead?_eq_some_iff

/-- What follows the first occurrence of a key stands behind the shortest front of the text. -/
theorem afterFirst?_eq_some_iff {key text tail : List Char} :
    afterFirst? key text = some tail ↔
      ∃ before, text = before ++ (key ++ tail) ∧
        ∀ earlier rest, text = earlier ++ (key ++ rest) → before.length ≤ earlier.length := by
  induction text with
  | nil =>
      rw [afterFirst?, afterLead?_eq_some_iff]
      constructor
      · intro whole
        exact ⟨[], whole, fun _ _ _ => Nat.zero_le _⟩
      · rintro ⟨before, whole, -⟩
        exact (List.append_eq_nil_iff.1 whole.symm).2.symm
  | cons c rest ih =>
      rw [afterFirst?]
      cases lead : afterLead? key (c :: rest) with
      | some found =>
          have here := afterLead?_eq_some_iff.1 lead
          constructor
          · rintro ⟨rfl⟩
            exact ⟨[], here, fun _ _ _ => Nat.zero_le _⟩
          · rintro ⟨before, whole, first⟩
            have none_before : before = [] :=
              List.length_eq_zero_iff.1 (Nat.le_zero.1 (first [] found here))
            rw [none_before, List.nil_append, here] at whole
            rw [List.append_cancel_left whole]
      | none =>
          have notHere := afterLead?_eq_none_iff.1 lead
          dsimp only
          rw [ih]
          constructor
          · rintro ⟨before, rfl, first⟩
            refine ⟨c :: before, rfl, ?_⟩
            intro earlier later whole
            cases earlier with
            | nil => exact absurd whole (notHere later)
            | cons d earlier =>
                obtain ⟨rfl, behind⟩ := List.cons.inj whole
                exact Nat.succ_le_succ (first earlier later behind)
          · rintro ⟨before, whole, first⟩
            cases before with
            | nil => exact absurd whole (notHere tail)
            | cons d before =>
                obtain ⟨rfl, behind⟩ := List.cons.inj whole
                refine ⟨before, behind, ?_⟩
                intro earlier later another
                exact Nat.le_of_succ_le_succ
                  (first (c :: earlier) later (congrArg (c :: ·) another))

end NtTarget.Scan
