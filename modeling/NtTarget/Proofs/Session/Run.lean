import NtTarget.Session.Basic

/-!
# Runs of a session

A debugger drives a session by a sequence of operations.  Nothing is assumed of
the hosts that serve it: each operation may find its host in any state, so a
host accepts and refuses as it likes.  A run keeps what is visible from
outside, the requests that hosts received and the shifts that the symbols of
the executable were asked for.
-/

namespace NtTarget

namespace HostRequest

def installed? : HostRequest → Option UInt64
  | .install _ (.ok id) => some id
  | _ => none

/-- The address to which the host agreed to bring a breakpoint. -/
def placedAt? (breakpoint : UInt64) : HostRequest → Option UInt64
  | .install address (.ok id) => if id = breakpoint then some address else none
  | .relocate id address (.ok ()) => if id = breakpoint then some address else none
  | _ => none

/-- The fault with which the host refused to install or move a breakpoint. -/
def refusal? : HostRequest → Option Fault
  | .install _ (.error fault) => some fault
  | .relocate _ _ (.error fault) => some fault
  | _ => none

def isAboutLocation : HostRequest → Bool
  | .remove _ _ => true
  | .insert _ _ => true
  | _ => false

theorem installed?_of_isAboutLocation {request : HostRequest}
    (location : request.isAboutLocation = true) : request.installed? = none := by
  cases request with
  | install | relocate => cases location
  | remove | insert => rfl

theorem placedAt?_of_isAboutLocation {request : HostRequest}
    (location : request.isAboutLocation = true) (breakpoint : UInt64) :
    request.placedAt? breakpoint = none := by
  cases request with
  | install | relocate => cases location
  | remove | insert => rfl

end HostRequest

/-- What a debugger asks of a session, and the host that serves it. -/
inductive Operation (σ : Type) where
  | processCreated (event : CreationEvent) (host : BreakpointHost σ) (state : σ)
  | breakpointHit (id space : UInt64) (host : BreakpointHost σ) (state : σ)
  | libraryList (dump : CoreDump)
  | libraryRange (dump : CoreDump) (offset length : Nat)
  | invalidate
  | threadBlock (memory : TargetMemory) (thread : UInt64)

/-- A session, the requests that its hosts received and the shifts of its symbols, in order. -/
structure Run where
  session : Session
  requests : List HostRequest
  shifts : List UInt64

namespace Session

/-- What a created process resolves to under the session's pointer width. -/
def resolution (session : Session) (event : CreationEvent) : Resolution :=
  (session.chain event.memory).resolve event.thread event.dump event.binary event.symbolsLoaded

end Session

namespace Run

variable {σ : Type}

def start (profile : Profile) : Run :=
  ⟨.new profile, [], []⟩

def step (run : Run) : Operation σ → Run
  | .processCreated event host state =>
      let creation := run.session.processCreated host.recording event ⟨state, run.requests⟩
      ⟨creation.session, creation.host.requests, run.shifts ++ creation.shift.toList⟩
  | .breakpointHit id space host state =>
      let (_, _, served) :=
        run.session.breakpointHit host.recording id space ⟨state, run.requests⟩
      { run with requests := served.requests }
  | .libraryList dump => { run with session := (run.session.libraryList dump).1 }
  | .libraryRange dump offset length =>
      { run with session := (run.session.libraryRange dump offset length).1 }
  | .invalidate => { run with session := run.session.invalidate }
  | .threadBlock _ _ => run

def extend (run : Run) (operations : List (Operation σ)) : Run :=
  operations.foldl step run

/-- What a new session comes to by a sequence of operations. -/
def of (profile : Profile) (operations : List (Operation σ)) : Run :=
  (start profile).extend operations

@[simp] theorem extend_cons (run : Run) (operation : Operation σ) (later : List (Operation σ)) :
    run.extend (operation :: later) = (run.step operation).extend later := rfl

/-- What every operation preserves holds after every run. -/
theorem extend_induction {P : Run → Prop}
    (preserved : ∀ (run : Run) (operation : Operation σ), P run → P (run.step operation))
    {run : Run} (holds : P run) (operations : List (Operation σ)) :
    P (run.extend operations) := by
  induction operations generalizing run with
  | nil => exact holds
  | cons operation later ih => exact ih (preserved run operation holds)

end Run

/-! ## What each operation does to a session -/

namespace Session

variable {σ : Type}

/-- The session after its executable was resolved and before its breakpoint is armed. -/
def resolved (session : Session) (event : CreationEvent) : Session :=
  { session.invalidate with executable := some (session.resolution event).executable }

theorem processCreated_of_noEntry (session : Session) (host : BreakpointHost σ)
    {event : CreationEvent} (noEntry : (session.resolution event).executable.entry = none)
    (state : σ) :
    session.processCreated host event state =
      ⟨session.resolved event, state, (session.resolution event).shift,
        .ok (session.resolution event).executable⟩ := by
  unfold resolution at noEntry
  simp only [processCreated, noEntry]
  rfl

theorem processCreated_of_entry (session : Session) (host : BreakpointHost σ)
    {event : CreationEvent} {address : UInt64}
    (entry : (session.resolution event).executable.entry = some address) (state : σ) :
    session.processCreated host event state =
      match session.armEntry host address state with
      | (.ok breakpoint, next) =>
          ⟨{ session.resolved event with entryBreakpoint := some breakpoint }, next,
            (session.resolution event).shift, .ok (session.resolution event).executable⟩
      | (.error fault, next) =>
          ⟨session.resolved event, next, (session.resolution event).shift, .error fault⟩ := by
  unfold resolution at entry
  simp only [processCreated, entry]
  rfl

/-- Whatever the host answers, the executable and the shift are those that were resolved. -/
theorem processCreated_resolves (session : Session) (host : BreakpointHost σ)
    (event : CreationEvent) (state : σ) :
    (session.processCreated host event state).session.profile = session.profile ∧
      (session.processCreated host event state).session.executable =
        some (session.resolution event).executable ∧
      (session.processCreated host event state).shift = (session.resolution event).shift := by
  cases entry : (session.resolution event).executable.entry with
  | none =>
      rw [processCreated_of_noEntry session host entry]
      exact ⟨rfl, rfl, rfl⟩
  | some address =>
      rw [processCreated_of_entry session host entry]
      rcases session.armEntry host address state with ⟨answer, next⟩
      cases answer <;> exact ⟨rfl, rfl, rfl⟩

/-- The library list is dropped even when the breakpoint is refused. -/
theorem processCreated_cachedList (session : Session) (host : BreakpointHost σ)
    (event : CreationEvent) (state : σ) :
    (session.processCreated host event state).session.cachedList = none := by
  cases entry : (session.resolution event).executable.entry with
  | none =>
      rw [processCreated_of_noEntry session host entry]
      rfl
  | some address =>
      rw [processCreated_of_entry session host entry]
      rcases session.armEntry host address state with ⟨answer, next⟩
      cases answer <;> rfl

theorem libraryList_entryBreakpoint (session : Session) (dump : CoreDump) :
    (session.libraryList dump).1.entryBreakpoint = session.entryBreakpoint := by
  unfold libraryList
  split <;> rfl

theorem libraryList_profile (session : Session) (dump : CoreDump) :
    (session.libraryList dump).1.profile = session.profile := by
  unfold libraryList
  split <;> rfl

end Session

namespace Run

variable {σ : Type}

theorem step_profile (run : Run) (operation : Operation σ) :
    (run.step operation).session.profile = run.session.profile := by
  cases operation with
  | processCreated event host state => exact (run.session.processCreated_resolves _ event _).1
  | libraryList dump => exact run.session.libraryList_profile dump
  | libraryRange dump offset length => exact run.session.libraryList_profile dump
  | breakpointHit id space host state | invalidate | threadBlock memory thread => rfl

end Run

end NtTarget
