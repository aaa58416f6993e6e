import NtTarget.Breakpoint.Table
import NtTarget.Proofs.Session.Run

/-!
# Where the symbols sit over a whole run

The symbols of the executable move by every shift that a session asks for.
Each shift is the distance of the load address from the linked base, whatever
was asked for before, so distances add up.  The symbols follow the executable
exactly as long as it was never elsewhere before.
-/

namespace NtTarget

namespace Run

/-- Where symbols that make every shift sit after a run. -/
def symbolBase (run : Run) (binary : BinaryView) : UInt64 :=
  run.shifts.foldl (· + ·) binary.imageBase

end Run

namespace Session

/-- A resolved load address moves loaded symbols by its distance from the linked base. -/
theorem foldl_shift (session : Session) {event : CreationEvent}
    (loaded : event.symbolsLoaded = true) (place : UInt64) :
    (session.resolution event).shift.toList.foldl (· + ·) place =
      if (session.resolution event).executable.base = 0 then place
      else place + ((session.resolution event).executable.base - event.binary.imageBase) := by
  unfold resolution Chain.resolve
  rw [loaded]
  generalize (session.chain event.memory).loadAddress event.thread event.dump = base
  dsimp only
  by_cases unknown : base = 0
  · rw [if_pos unknown]
    rfl
  · rw [if_neg unknown]
    dsimp only
    rw [if_neg unknown]
    by_cases linked : event.binary.imageBase = base
    · -- No shift is asked for, which is the distance 0.
      rw [if_neg (fun moved => moved.2 linked), linked, UInt64.sub_self, UInt64.add_zero]
      rfl
    · rw [if_pos ⟨rfl, linked⟩]
      rfl

end Session

namespace Operation

variable {σ : Type}

/-- Whether an operation creates processes of one executable with loaded symbols only. -/
def Concerns (binary : BinaryView) : Operation σ → Prop
  | .processCreated event _ _ => event.binary = binary ∧ event.symbolsLoaded = true
  | _ => True

def resolvedBase? (profile : Profile) : Operation σ → Option UInt64
  | .processCreated event _ _ =>
      if ((Session.new profile).resolution event).executable.base = 0 then none
      else some ((Session.new profile).resolution event).executable.base
  | _ => none

theorem resolvedBase?_processCreated (session : Session) (event : CreationEvent)
    (host : BreakpointHost σ) (state : σ) :
    (processCreated event host state).resolvedBase? session.profile =
      if (session.resolution event).executable.base = 0 then none
      else some (session.resolution event).executable.base := rfl

end Operation

namespace Run

variable {σ : Type}

/--
The symbols follow the executable: after every created process that resolves a
load address, they sit there.
-/
def SymbolsFollow (run : Run) (binary : BinaryView) (operations : List (Operation σ)) : Prop :=
  ∀ earlier event host state later,
    operations = earlier ++ .processCreated event host state :: later →
    ∀ executable,
      (run.extend (earlier ++ [.processCreated event host state])).session.executable =
        some executable →
      executable.base ≠ 0 →
      (run.extend (earlier ++ [.processCreated event host state])).symbolBase binary =
        executable.base

theorem step_shifts (run : Run) (event : CreationEvent) (host : BreakpointHost σ) (state : σ) :
    (run.step (.processCreated event host state)).shifts =
      run.shifts ++ (run.session.resolution event).shift.toList := by
  obtain ⟨-, -, shift⟩ := run.session.processCreated_resolves host.recording event
    ⟨state, run.requests⟩
  rw [← shift]
  rfl

theorem step_symbolBase (run : Run) {binary : BinaryView} {operation : Operation σ}
    (concerns : operation.Concerns binary) :
    (run.step operation).symbolBase binary =
      match operation.resolvedBase? run.session.profile with
      | none => run.symbolBase binary
      | some base => run.symbolBase binary + (base - binary.imageBase) := by
  cases operation with
  | processCreated event host state =>
      obtain ⟨rfl, loaded⟩ := concerns
      unfold symbolBase
      rw [Operation.resolvedBase?_processCreated, step_shifts, List.foldl_append,
        Session.foldl_shift _ loaded]
      split <;> rfl
  | breakpointHit | libraryList | libraryRange | invalidate | threadBlock => rfl

/-- What is asked of a sequence splits into what its first operation and the others are asked. -/
theorem symbolsFollow_cons {run : Run} {binary : BinaryView} {operation : Operation σ}
    {later : List (Operation σ)} :
    run.SymbolsFollow binary (operation :: later) ↔
      (∀ base, operation.resolvedBase? run.session.profile = some base →
        (run.step operation).symbolBase binary = base) ∧
      (run.step operation).SymbolsFollow binary later := by
  constructor
  · intro follow
    constructor
    · intro base resolved
      cases operation with
      | processCreated event host state =>
          obtain ⟨-, recorded, -⟩ := run.session.processCreated_resolves host.recording event
            ⟨state, run.requests⟩
          rw [Operation.resolvedBase?_processCreated] at resolved
          split at resolved
          · cases resolved
          · rename_i known
            exact (follow [] event host state later rfl _ recorded known).trans
              (Option.some.inj resolved)
      | breakpointHit | libraryList | libraryRange | invalidate | threadBlock => cases resolved
    · intro earlier event host state rest whole
      exact follow (operation :: earlier) event host state rest (congrArg _ whole)
  · rintro ⟨first, others⟩ earlier event host state rest whole
    cases earlier with
    | nil =>
        obtain ⟨rfl, rfl⟩ := List.cons.inj whole
        intro executable recorded known
        obtain ⟨-, resolved, -⟩ := run.session.processCreated_resolves host.recording event
          ⟨state, run.requests⟩
        cases resolved.symm.trans recorded
        refine first _ ?_
        rw [Operation.resolvedBase?_processCreated, if_neg known]
    | cons head tail =>
        obtain ⟨rfl, rfl⟩ := List.cons.inj whole
        exact others tail event host state rest rfl

/-- Adding a distance to a place gives its end exactly when the place is its start. -/
theorem add_distance_eq_iff (base : UInt64) {place start : UInt64} :
    place + (base - start) = base ↔ place = start := by
  constructor
  · intro same
    grind
  · rintro rfl
    grind

/--
From any run on, the symbols follow exactly when nothing is resolved any more,
or they sit at the linked base and only the last load address differs from it.
-/
theorem symbolsFollow_iff {binary : BinaryView} (run : Run) {operations : List (Operation σ)}
    (concerns : ∀ operation ∈ operations, operation.Concerns binary) :
    run.SymbolsFollow binary operations ↔
      operations.filterMap (Operation.resolvedBase? run.session.profile) = [] ∨
      run.symbolBase binary = binary.imageBase ∧
        ∀ base ∈ (operations.filterMap
          (Operation.resolvedBase? run.session.profile)).dropLast, base = binary.imageBase := by
  induction operations generalizing run with
  | nil =>
      refine ⟨fun _ => .inl rfl, ?_⟩
      intro _ earlier event host state later whole
      cases earlier <;> cases whole
  | cons operation later ih =>
      obtain ⟨here, there⟩ := List.forall_mem_cons.1 concerns
      have moved := step_symbolBase run here
      rw [symbolsFollow_cons, ih (run.step operation) there, step_profile]
      cases resolved : operation.resolvedBase? run.session.profile with
      | none =>
          rw [resolved] at moved
          rw [List.filterMap_cons_none resolved, moved]
          exact and_iff_right fun base impossible => nomatch impossible
      | some base =>
          rw [resolved] at moved
          dsimp only at moved
          rw [List.filterMap_cons_some resolved]
          have arrived : (∀ other, some base = some other →
              (run.step operation).symbolBase binary = other) ↔
              run.symbolBase binary = binary.imageBase := by
            rw [moved, ← add_distance_eq_iff base]
            exact ⟨fun all => all base rfl,
              fun same other this => same.trans (Option.some.inj this)⟩
          rw [arrived]
          cases later.filterMap (Operation.resolvedBase? run.session.profile) with
          | nil => simp
          | cons next others =>
              rw [moved]
              constructor
              · rintro ⟨linked, impossible | ⟨still, all⟩⟩
                · cases impossible
                · -- Symbols that sat at the linked base sit at the resolved one now.
                  rw [linked, (add_distance_eq_iff base).2 rfl] at still
                  exact .inr ⟨linked, List.forall_mem_cons.2 ⟨still, all⟩⟩
              · rintro (impossible | ⟨linked, all⟩)
                · cases impossible
                · obtain ⟨still, all⟩ := List.forall_mem_cons.1 all
                  rw [linked, (add_distance_eq_iff base).2 rfl]
                  exact ⟨rfl, .inr ⟨still, all⟩⟩

/-- The symbols sit at the linked base plus every distance that was ever resolved. -/
theorem symbolBase_extend {binary : BinaryView} (run : Run) {operations : List (Operation σ)}
    (concerns : ∀ operation ∈ operations, operation.Concerns binary) :
    (run.extend operations).symbolBase binary =
      (operations.filterMap (Operation.resolvedBase? run.session.profile)).foldl
        (fun place base => place + (base - binary.imageBase)) (run.symbolBase binary) := by
  induction operations generalizing run with
  | nil => rfl
  | cons operation later ih =>
      obtain ⟨here, there⟩ := List.forall_mem_cons.1 concerns
      rw [extend_cons, ih (run.step operation) there, step_profile, step_symbolBase run here]
      cases resolved : operation.resolvedBase? run.session.profile with
      | none => rw [List.filterMap_cons_none resolved]
      | some base => rw [List.filterMap_cons_some resolved, List.foldl_cons]

/--
Over a run of a new session with one executable, the distances of all resolved
load addresses from the linked base add up.  The symbols therefore follow the
executable exactly when every load address but the last is the linked base.
-/
theorem symbols_follow_iff_moved_once (profile : Profile) (binary : BinaryView)
    (operations : List (Operation σ))
    (concerns : ∀ operation ∈ operations, operation.Concerns binary) :
    (of profile operations).symbolBase binary =
      (operations.filterMap (Operation.resolvedBase? profile)).foldl
        (fun place base => place + (base - binary.imageBase)) binary.imageBase ∧
    ((start profile).SymbolsFollow binary operations ↔
      ∀ base ∈ (operations.filterMap (Operation.resolvedBase? profile)).dropLast,
        base = binary.imageBase) := by
  refine ⟨symbolBase_extend (start profile) concerns, ?_⟩
  rw [symbolsFollow_iff (start profile) concerns]
  constructor
  · rintro (nothing | ⟨-, all⟩)
    · intro base inside
      change base ∈ (operations.filterMap
        (Operation.resolvedBase? (start profile).session.profile)).dropLast at inside
      rw [nothing] at inside
      cases inside
    · exact all
  · intro all
    exact .inr ⟨rfl, all⟩

/-! ## A process that is created at two places -/

def linkedImage : BinaryView where
  imageBase := 0x400000
  entryPoint := 0x1000
  importTable := none
  bytesOf? _ := none
  addressOf? _ := none

/-- An executing target in which every pointer is a given load address. -/
def residentAt (base : UInt64) : TargetMemory where
  read _ length := .ok (LittleEndian.encode length base.toNat)
  threadBase _ := .ok 0
  executing := true

/-- The linked image is created at a load address, under a table that refuses nothing. -/
def createdAt (base : UInt64) : Operation BreakpointTable :=
  .processCreated ⟨residentAt base, 1, none, linkedImage, true⟩ BreakpointTable.host .empty

/-- Symbols follow an executable that stays at its linked base and then moves once. -/
theorem symbols_follow_one_move :
    (∀ operation ∈ [createdAt 0x400000, createdAt 0x500000], operation.Concerns linkedImage) ∧
      (start .windows64).SymbolsFollow linkedImage [createdAt 0x400000, createdAt 0x500000] := by
  have concerns : ∀ operation ∈ [createdAt 0x400000, createdAt 0x500000],
      operation.Concerns linkedImage :=
    List.forall_mem_cons.2 ⟨⟨rfl, rfl⟩, List.forall_mem_singleton.2 ⟨rfl, rfl⟩⟩
  have bases : [createdAt 0x400000, createdAt 0x500000].filterMap
      (Operation.resolvedBase? .windows64) = [0x400000, 0x500000] := by decide +kernel
  refine ⟨concerns, (symbols_follow_iff_moved_once .windows64 linkedImage _ concerns).2.2 ?_⟩
  rw [bases]
  exact List.forall_mem_singleton.2 rfl

/-- Symbols overshoot an executable that is created at one place and then at another. -/
theorem symbols_overshoot_second_move :
    (∀ operation ∈ [createdAt 0x500000, createdAt 0x600000], operation.Concerns linkedImage) ∧
      ¬ (start .windows64).SymbolsFollow linkedImage
        [createdAt 0x500000, createdAt 0x600000] := by
  refine ⟨List.forall_mem_cons.2 ⟨⟨rfl, rfl⟩, List.forall_mem_singleton.2 ⟨rfl, rfl⟩⟩, ?_⟩
  intro follow
  have arrived := follow [createdAt 0x500000] ⟨residentAt 0x600000, 1, none, linkedImage, true⟩
    BreakpointTable.host .empty [] rfl ⟨0x600000, some 0x601000⟩ (by decide +kernel) (by decide)
  -- The second shift covers the first move again: the symbols sit at 0x700000.
  have overshot : ((start .windows64).extend
      [createdAt 0x500000, createdAt 0x600000]).symbolBase linkedImage = 0x700000 := by
    decide +kernel
  cases overshot.symm.trans arrived

end Run

end NtTarget
