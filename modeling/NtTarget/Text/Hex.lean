/-!
# Hexadecimal text

Addresses are printed in lowercase hexadecimal without leading zeros, behind
`0x` or padded to a fixed width.  Reading accepts either letter case and stops
at the first character that is no digit.
-/

namespace NtTarget.Hex

/-- The lowercase hexadecimal digits of a number, without leading zeros. -/
def digits (number : Nat) : List Char :=
  Nat.toDigits 16 number

def text (number : Nat) : String :=
  String.ofList (digits number)

/-- A number in lowercase hexadecimal behind the mark `0x`. -/
def marked (number : Nat) : String :=
  "0x" ++ text number

/-- A number in at least `width` hexadecimal digits; a longer one is printed in full. -/
def padded (width number : Nat) : String :=
  String.ofList ((digits number).leftpad width '0')

/-- The value of a hexadecimal digit of either case. -/
def digitValue? (c : Char) : Option Nat :=
  if '0' ≤ c ∧ c ≤ '9' then some (c.toNat - 48)
  else if 'a' ≤ c ∧ c ≤ 'f' then some (c.toNat - 87)
  else if 'A' ≤ c ∧ c ≤ 'F' then some (c.toNat - 55)
  else none

def isDigit (c : Char) : Bool :=
  (digitValue? c).isSome

/-- The number that a list of hexadecimal digits writes, most significant first. -/
def value (run : List Char) : Nat :=
  run.foldl (fun number c => 16 * number + (digitValue? c).getD 0) 0

/-- The value of the longest run of digits that a text starts with, unless it is empty. -/
def leading? (line : List Char) : Option Nat :=
  match line.takeWhile isDigit with
  | [] => none
  | run => some (value run)

/-- What is read is the value of a nonempty run of digits that no further digit continues. -/
theorem leading?_eq_some_iff {line : List Char} {number : Nat} :
    leading? line = some number ↔
      ∃ run tail, line = run ++ tail ∧ run ≠ [] ∧ (∀ c ∈ run, isDigit c = true) ∧
        (∀ c ∈ tail.head?, isDigit c = false) ∧ value run = number := by
  constructor
  · intro found
    unfold leading? at found
    split at found
    · cases found
    · rename_i run nonempty
      refine ⟨line.takeWhile isDigit, line.dropWhile isDigit, ?_, nonempty, ?_, ?_, ?_⟩
      · exact List.takeWhile_append_dropWhile.symm
      · exact List.all_eq_true.1 List.all_takeWhile
      · intro c first
        have stopped := List.head?_dropWhile_not isDigit line
        rw [Option.mem_def.1 first] at stopped
        exact stopped
      · exact Option.some.inj found
  · rintro ⟨run, tail, rfl, nonempty, digits, maximal, rfl⟩
    have taken : (run ++ tail).takeWhile isDigit = run := by
      rw [List.takeWhile_append_of_pos digits]
      cases tail with
      | nil => exact List.append_nil run
      | cons c rest =>
          rw [List.takeWhile_cons_of_neg (by simp [maximal c rfl])]
          exact List.append_nil run
    unfold leading?
    rw [taken]
    cases run with
    | nil => exact absurd rfl nonempty
    | cons c rest => rfl

/-- Each digit that is printed reads back as its own value. -/
theorem digitValue?_digitChar {number : Nat} (small : number < 16) :
    digitValue? (Nat.digitChar number) = some number := by
  have all : ∀ n ∈ List.range 16, digitValue? (Nat.digitChar n) = some n := by decide
  exact all number (List.mem_range.2 small)

/-- Reading a run and one more digit appends that digit's value. -/
theorem value_append_singleton (run : List Char) (c : Char) :
    value (run ++ [c]) = 16 * value run + (digitValue? c).getD 0 := by
  simp [value]

theorem digits_of_lt {number : Nat} (small : number < 16) :
    digits number = [Nat.digitChar number] := by
  unfold digits
  rw [Nat.toDigits_eq_if (by decide), if_pos small]

theorem digits_of_le {number : Nat} (large : 16 ≤ number) :
    digits number = digits (number / 16) ++ [Nat.digitChar (number % 16)] := by
  unfold digits
  rw [Nat.toDigits_eq_if (by decide), if_neg (Nat.not_lt.2 large)]

theorem digits_ne_nil (number : Nat) : digits number ≠ [] := by
  by_cases small : number < 16
  · rw [digits_of_lt small]
    exact List.cons_ne_nil _ _
  · rw [digits_of_le (Nat.not_lt.1 small)]
    exact List.append_ne_nil_of_right_ne_nil _ (List.cons_ne_nil _ _)

/-- Printing a number and reading the digits gives the number back. -/
@[simp] theorem value_digits (number : Nat) : value (digits number) = number := by
  induction number using Nat.strongRecOn with
  | _ number ih =>
    by_cases small : number < 16
    · rw [digits_of_lt small]
      simp [value, digitValue?_digitChar small]
    · rw [digits_of_le (Nat.not_lt.1 small), value_append_singleton, ih (number / 16) (by omega),
        digitValue?_digitChar (Nat.mod_lt number (by decide : 0 < 16)), Option.getD_some]
      omega

/-! ## The one plain form of a number -/

def lowercaseDigits : List Char :=
  ['0', '1', '2', '3', '4', '5', '6', '7', '8', '9', 'a', 'b', 'c', 'd', 'e', 'f']

/-- Lowercase digits without leading zeros that write a number. -/
structure IsPlain (run : List Char) (number : Nat) : Prop where
  nonempty : run ≠ []
  lowercase : ∀ c ∈ run, c ∈ lowercaseDigits
  unpadded : run.head? = some '0' → run = ['0']
  reads : value run = number

theorem lowercaseDigits_eq : lowercaseDigits = (List.range 16).map Nat.digitChar := by decide

theorem digitChar_mem_lowercaseDigits {number : Nat} (small : number < 16) :
    Nat.digitChar number ∈ lowercaseDigits := by
  rw [lowercaseDigits_eq]
  exact List.mem_map_of_mem (List.mem_range.2 small)

/-- A lowercase digit is the one that is printed for its value. -/
theorem exists_of_mem_lowercaseDigits {c : Char} (lowercase : c ∈ lowercaseDigits) :
    ∃ number, number < 16 ∧ digitValue? c = some number ∧ Nat.digitChar number = c := by
  rw [lowercaseDigits_eq] at lowercase
  obtain ⟨number, inside, rfl⟩ := List.mem_map.1 lowercase
  have small := List.mem_range.1 inside
  exact ⟨number, small, digitValue?_digitChar small, rfl⟩

theorem head?_append_of_ne_nil {run : List Char} (nonempty : run ≠ []) (tail : List Char) :
    (run ++ tail).head? = run.head? := by
  cases run with
  | nil => exact absurd rfl nonempty
  | cons c rest => rfl

theorem isPlain_digits (number : Nat) : IsPlain (digits number) number := by
  induction number using Nat.strongRecOn with
  | _ number ih =>
    refine ⟨digits_ne_nil number, ?_, ?_, value_digits number⟩
    · intro c inside
      by_cases small : number < 16
      · rw [digits_of_lt small, List.mem_singleton] at inside
        rw [inside]
        exact digitChar_mem_lowercaseDigits small
      · rw [digits_of_le (Nat.not_lt.1 small)] at inside
        rcases List.mem_append.1 inside with earlier | last
        · exact (ih (number / 16) (by omega)).lowercase c earlier
        · rw [List.mem_singleton.1 last]
          exact digitChar_mem_lowercaseDigits (Nat.mod_lt number (by decide))
    · intro zero
      by_cases small : number < 16
      · rw [digits_of_lt small] at zero ⊢
        rw [Option.some.inj zero]
      · -- The digits of a quotient that is not 0 do not begin with a zero.
        have earlier := ih (number / 16) (by omega)
        rw [digits_of_le (Nat.not_lt.1 small), head?_append_of_ne_nil earlier.nonempty] at zero
        have nothing : number / 16 = 0 := by
          rw [← earlier.reads, earlier.unpadded zero]
          rfl
        omega

/-- Only what is printed for a number is its plain form. -/
theorem eq_digits_of_isPlain {run : List Char} {number : Nat} (plain : IsPlain run number) :
    run = digits number := by
  obtain ⟨nonempty, lowercase, unpadded, rfl⟩ := plain
  -- The number of a shorter run need not be smaller, so the induction is on the length.
  induction length : run.length using Nat.strongRecOn generalizing run with
  | _ size ih =>
    obtain ⟨init, c, rfl⟩ : ∃ init c, run = init ++ [c] :=
      ⟨_, _, (List.dropLast_concat_getLast nonempty).symm⟩
    obtain ⟨last, small, valued, rfl⟩ := exists_of_mem_lowercaseDigits
      (lowercase c (List.mem_append_right _ (List.mem_singleton_self c)))
    have whole : value (init ++ [Nat.digitChar last]) = 16 * value init + last := by
      rw [value_append_singleton, valued, Option.getD_some]
    by_cases single : init = []
    · subst single
      rw [whole, digits_of_lt (by simpa [value] using small)]
      simp [value]
    · have shorter : init.length < size := by
        rw [← length, List.length_append]
        exact Nat.lt_succ_self _
      have noZero : init.head? ≠ some '0' := by
        intro zero
        rw [← head?_append_of_ne_nil single [Nat.digitChar last]] at zero
        have one := congrArg List.length (unpadded zero)
        rw [List.length_append, List.length_singleton, List.length_singleton] at one
        exact single (List.length_eq_zero_iff.1 (Nat.succ.inj one))
      have earlier : init = digits (value init) :=
        ih init.length shorter single
          (fun d inside => lowercase d (List.mem_append_left _ inside))
          (fun zero => absurd zero noZero) rfl
      have positive : value init ≠ 0 := by
        intro zero
        rw [zero] at earlier
        exact noZero (by rw [earlier]; rfl)
      have quotient : (16 * value init + last) / 16 = value init := by omega
      have remainder : (16 * value init + last) % 16 = last := by omega
      rw [whole, digits_of_le (by omega), quotient, remainder, ← earlier]

/-- Every digit that is printed is a hexadecimal digit. -/
theorem isDigit_of_mem_digits {number : Nat} {c : Char} (inside : c ∈ digits number) :
    isDigit c = true := by
  obtain ⟨digit, -, valued, -⟩ :=
    exists_of_mem_lowercaseDigits ((isPlain_digits number).lowercase c inside)
  unfold isDigit
  rw [valued]
  rfl

/-! ## Every form of a number -/

/-- A run of digits, of either case and with any leading zeros, that writes a number. -/
structure Writes (run : List Char) (number : Nat) : Prop where
  nonempty : run ≠ []
  digits : ∀ c ∈ run, isDigit c = true
  reads : value run = number

/-- What is printed for a number writes it. -/
theorem writes_digits (number : Nat) : Writes (digits number) number :=
  ⟨digits_ne_nil number, fun _ => isDigit_of_mem_digits, value_digits number⟩

theorem Writes.notMem {run : List Char} {number : Nat} (writes : Writes run number) {c : Char}
    (other : isDigit c = false) : c ∉ run := by
  intro inside
  rw [writes.digits c inside] at other
  cases other

theorem Writes.cons_zero {run : List Char} {number : Nat} (writes : Writes run number) :
    Writes ('0' :: run) number :=
  ⟨List.cons_ne_nil _ _, List.forall_mem_cons.2 ⟨by decide, writes.digits⟩, writes.reads⟩

theorem Writes.replicate_zero_append {run : List Char} {number : Nat} (writes : Writes run number)
    (count : Nat) : Writes (List.replicate count '0' ++ run) number := by
  induction count with
  | zero => exact writes
  | succ count ih => exact ih.cons_zero

/-- Padding does not change the number. -/
theorem writes_padded (width number : Nat) : Writes (padded width number).toList number := by
  unfold padded
  rw [String.toList_ofList]
  exact (writes_digits number).replicate_zero_append _

theorem length_padded (width number : Nat) :
    (padded width number).toList.length = max width (digits number).length := by
  unfold padded
  rw [String.toList_ofList, List.length_leftpad]

end NtTarget.Hex
