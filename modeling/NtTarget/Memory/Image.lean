import NtTarget.Memory.Target

/-!
# Memory images

A sparse snapshot of an address space: regions in the order of their starts,
no two at the same start.  Only the last region that starts at or below an
address is asked for it, and a read succeeds exactly when that one region holds
the whole range.
-/

namespace NtTarget

structure Region where
  start : UInt64
  bytes : Bytes
  deriving Repr, DecidableEq

namespace Region

def Precedes (left right : Region) : Prop :=
  left.start.toNat < right.start.toNat

def stop (region : Region) : Nat :=
  region.start.toNat + region.bytes.length

/-- Put a region at its place, instead of one with the same start. -/
def insert (region : Region) : List Region → List Region
  | [] => [region]
  | head :: rest =>
      if region.start.toNat < head.start.toNat then region :: head :: rest
      else if region.start = head.start then region :: rest
      else head :: insert region rest

/-- A region of the result is the new one or an old one. -/
theorem mem_insert {region other : Region} {regions : List Region}
    (inside : other ∈ insert region regions) : other = region ∨ other ∈ regions := by
  induction regions with
  | nil => exact Or.inl (List.mem_singleton.1 inside)
  | cons head rest ih =>
      simp only [insert] at inside
      split at inside
      · rcases List.mem_cons.1 inside with rfl | old
        · exact Or.inl rfl
        · exact Or.inr old
      · split at inside
        · rcases List.mem_cons.1 inside with rfl | old
          · exact Or.inl rfl
          · exact Or.inr (List.mem_cons_of_mem _ old)
        · rcases List.mem_cons.1 inside with rfl | old
          · exact Or.inr List.mem_cons_self
          · rcases ih old with rfl | old
            · exact Or.inl rfl
            · exact Or.inr (List.mem_cons_of_mem _ old)

/-- A region that starts elsewhere stays. -/
theorem mem_insert_of_ne {region other : Region} {regions : List Region} (inside : other ∈ regions)
    (elsewhere : other.start ≠ region.start) : other ∈ insert region regions := by
  induction regions with
  | nil => cases inside
  | cons head rest ih =>
      simp only [insert]
      split
      · exact List.mem_cons_of_mem _ inside
      · split
        · rename_i same
          rcases List.mem_cons.1 inside with rfl | later
          · exact absurd same.symm elsewhere
          · exact List.mem_cons_of_mem _ later
        · rcases List.mem_cons.1 inside with rfl | later
          · exact List.mem_cons_self
          · exact List.mem_cons_of_mem _ (ih later)

/-- Putting a region at its place keeps the order of starts. -/
theorem pairwise_insert (region : Region) {regions : List Region}
    (ordered : regions.Pairwise Precedes) : (insert region regions).Pairwise Precedes := by
  induction regions with
  | nil => exact List.pairwise_singleton _ _
  | cons head rest ih =>
      obtain ⟨first, later⟩ := List.pairwise_cons.1 ordered
      simp only [insert]
      split
      · rename_i below
        refine List.pairwise_cons.2 ⟨?_, ordered⟩
        intro other inside
        rcases List.mem_cons.1 inside with rfl | inside
        · exact below
        · exact Nat.lt_trans below (first other inside)
      · rename_i notBelow
        split
        · rename_i same
          refine List.pairwise_cons.2 ⟨?_, later⟩
          intro other inside
          have := first other inside
          unfold Precedes at this ⊢
          rw [same]
          exact this
        · rename_i different
          refine List.pairwise_cons.2 ⟨?_, ih later⟩
          intro other inside
          rcases mem_insert inside with rfl | inside
          · have apart : other.start.toNat ≠ head.start.toNat :=
              fun equal => different (UInt64.toNat_inj.1 equal)
            unfold Precedes
            omega
          · exact first other inside

end Region

/-- A sparse snapshot of the memory and threads of one target. -/
structure MemoryImage where
  regions : List Region
  ordered : regions.Pairwise Region.Precedes
  threads : List (UInt64 × UInt64)
  live : Bool

namespace MemoryImage

/-- The image of a target that is not executing and has no memory. -/
def empty : MemoryImage :=
  ⟨[], .nil, [], false⟩

/-- Map bytes at an address, instead of a region with the same start. -/
def map (image : MemoryImage) (start : UInt64) (bytes : Bytes) : MemoryImage :=
  { image with
    regions := Region.insert ⟨start, bytes⟩ image.regions
    ordered := Region.pairwise_insert _ image.ordered }

/-- Record the block address of a thread, instead of an earlier one. -/
def withThread (image : MemoryImage) (thread base : UInt64) : MemoryImage :=
  { image with threads := (thread, base) :: image.threads }

/-- The same memory of a target that is executing or not. -/
def withLive (image : MemoryImage) (live : Bool) : MemoryImage :=
  { image with live }

def regionFor? (image : MemoryImage) (address : UInt64) : Option Region :=
  (image.regions.takeWhile fun region => region.start.toNat ≤ address.toNat).getLast?

/-- The bytes at an address, when one region holds the whole range. -/
def bytesAt? (image : MemoryImage) (address : UInt64) (length : Nat) : Option Bytes :=
  (image.regionFor? address).bind fun region =>
    region.bytes.slice? (address.toNat - region.start.toNat) length

/-- The block address recorded last for a thread. -/
def threadBase? (image : MemoryImage) (thread : UInt64) : Option UInt64 :=
  (image.threads.find? fun entry => entry.1 == thread).map (·.2)

/-- Read memory; a refused read names the whole range that was asked for. -/
def read (image : MemoryImage) (address : UInt64) (length : Nat) : Except Fault Bytes :=
  match image.bytesAt? address length with
  | some bytes => .ok bytes
  | none => .error (.unreadable address length)

def threadBase (image : MemoryImage) (thread : UInt64) : Except Fault UInt64 :=
  match image.threadBase? thread with
  | some base => .ok base
  | none => .error (.notFound (.threadBase thread))

def target (image : MemoryImage) : TargetMemory :=
  ⟨image.read, image.threadBase, image.live⟩

/-- No region reaches past the start of the next one. -/
def Disjoint (image : MemoryImage) : Prop :=
  image.regions.Pairwise fun left right => left.stop ≤ right.start.toNat

instance (image : MemoryImage) : Decidable image.Disjoint :=
  inferInstanceAs (Decidable (List.Pairwise _ _))

theorem read_eq_ok_iff_bytesAt? {image : MemoryImage} {address : UInt64} {length : Nat}
    {bytes : Bytes} :
    image.read address length = .ok bytes ↔ image.bytesAt? address length = some bytes := by
  unfold read
  cases image.bytesAt? address length <;> simp

theorem read_eq_error_iff {image : MemoryImage} {address : UInt64} {length : Nat} {fault : Fault} :
    image.read address length = .error fault ↔
      image.bytesAt? address length = none ∧ fault = .unreadable address length := by
  unfold read
  cases image.bytesAt? address length <;> simp [eq_comm]

theorem threadBase_eq_ok_iff {image : MemoryImage} {thread base : UInt64} :
    image.threadBase thread = .ok base ↔ image.threadBase? thread = some base := by
  unfold threadBase
  cases image.threadBase? thread <;> simp

theorem threadBase_eq_error_iff {image : MemoryImage} {thread : UInt64} {fault : Fault} :
    image.threadBase thread = .error fault ↔
      image.threadBase? thread = none ∧ fault = .notFound (.threadBase thread) := by
  unfold threadBase
  cases image.threadBase? thread <;> simp [eq_comm]

end MemoryImage

end NtTarget
