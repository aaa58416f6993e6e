import NtTarget.Proofs.Session.Run

/-!
# The entry point breakpoint over a whole run

A session keeps its own copy of the one breakpoint that it asks a host to
install.  Creating the process can do one of six things to it; from these it
follows that the copy always tells what the hosts agreed to: whether the
breakpoint exists, its id and its address.
-/

namespace NtTarget

namespace Session

variable {σ : Type}

/--
What arming an entry point can come to under a host in some state: the requests
that are made, the breakpoint that the session keeps, and the refusal if any.
-/
inductive Arming (session : Session) (host : BreakpointHost σ) (state : σ) :
    Option UInt64 → List HostRequest → Option EntryBreakpoint → Option Fault → Prop where
  | noEntry : Arming session host state none [] session.entryBreakpoint none
  | inPlace {breakpoint : EntryBreakpoint} (present : session.entryBreakpoint = some breakpoint) :
      Arming session host state (some breakpoint.address) [] (some breakpoint) none
  | installed {address id : UInt64} (absent : session.entryBreakpoint = none)
      (accepted : (host.install address state).1 = .ok id) :
      Arming session host state (some address) [.install address (.ok id)]
        (some ⟨id, address⟩) none
  | installRefused {address : UInt64} {fault : Fault} (absent : session.entryBreakpoint = none)
      (refused : (host.install address state).1 = .error fault) :
      Arming session host state (some address) [.install address (.error fault)] none (some fault)
  | moved {breakpoint : EntryBreakpoint} {address : UInt64}
      (present : session.entryBreakpoint = some breakpoint)
      (elsewhere : breakpoint.address ≠ address)
      (accepted : (host.relocate breakpoint.id address state).1 = .ok ()) :
      Arming session host state (some address) [.relocate breakpoint.id address (.ok ())]
        (some { breakpoint with address }) none
  | moveRefused {breakpoint : EntryBreakpoint} {address : UInt64} {fault : Fault}
      (present : session.entryBreakpoint = some breakpoint)
      (elsewhere : breakpoint.address ≠ address)
      (refused : (host.relocate breakpoint.id address state).1 = .error fault) :
      Arming session host state (some address) [.relocate breakpoint.id address (.error fault)]
        (some breakpoint) (some fault)

/-- The outcome of a created process, given the refusal of its one request. -/
def outcomeOf (executable : ExecutableEntry) : Option Fault → Except Fault ExecutableEntry
  | none => .ok executable
  | some fault => .error fault

/-- Arming an entry point makes at most one request, and keeps the breakpoint when it is refused. -/
theorem armEntry_arming (session : Session) (host : BreakpointHost σ) (address : UInt64)
    (state : σ) (past : List HostRequest) :
    ∃ requests breakpoint refusal,
      session.Arming host state (some address) requests breakpoint refusal ∧
      (session.armEntry host.recording address ⟨state, past⟩).2.requests = past ++ requests ∧
      ((∃ armed, (session.armEntry host.recording address ⟨state, past⟩).1 = .ok armed ∧
          breakpoint = some armed ∧ refusal = none) ∨
        ∃ fault, (session.armEntry host.recording address ⟨state, past⟩).1 = .error fault ∧
          breakpoint = session.entryBreakpoint ∧ refusal = some fault) := by
  unfold armEntry
  cases present : session.entryBreakpoint with
  | none =>
      simp only [EntryBreakpoint.create, BreakpointHost.recording_install]
      cases answer : (host.install address state).1 with
      | ok id => exact ⟨_, _, _, .installed present answer, rfl, .inl ⟨_, rfl, rfl, rfl⟩⟩
      | error fault =>
          exact ⟨_, _, _, .installRefused present answer, rfl, .inr ⟨fault, rfl, rfl, rfl⟩⟩
  | some breakpoint =>
      simp only [EntryBreakpoint.moveTo, BreakpointHost.recording_relocate]
      by_cases same : breakpoint.address = address
      · subst same
        rw [if_pos rfl]
        exact ⟨_, _, _, .inPlace present, (List.append_nil past).symm, .inl ⟨_, rfl, rfl, rfl⟩⟩
      · rw [if_neg same]
        cases answer : (host.relocate breakpoint.id address state).1 with
        | ok done =>
            exact ⟨_, _, _, .moved present same answer, rfl, .inl ⟨_, rfl, rfl, rfl⟩⟩
        | error fault =>
            exact ⟨_, _, _, .moveRefused present same answer, rfl, .inr ⟨fault, rfl, rfl, rfl⟩⟩

/-- A created process does one of the six things that arming can come to, and nothing else. -/
theorem processCreated_arming (session : Session) (host : BreakpointHost σ)
    (event : CreationEvent) (state : σ) (past : List HostRequest) :
    ∃ requests refusal,
      session.Arming host state (session.resolution event).executable.entry requests
        (session.processCreated host.recording event ⟨state, past⟩).session.entryBreakpoint
        refusal ∧
      (session.processCreated host.recording event ⟨state, past⟩).host.requests =
        past ++ requests ∧
      (session.processCreated host.recording event ⟨state, past⟩).outcome =
        outcomeOf (session.resolution event).executable refusal := by
  cases entry : (session.resolution event).executable.entry with
  | none =>
      rw [processCreated_of_noEntry session _ entry]
      exact ⟨[], none, .noEntry, (List.append_nil past).symm, rfl⟩
  | some address =>
      rw [processCreated_of_entry session _ entry]
      obtain ⟨requests, breakpoint, refusal, arming, recorded, outcome⟩ :=
        armEntry_arming session host address state past
      rcases served : session.armEntry host.recording address ⟨state, past⟩ with ⟨answer, next⟩
      rw [served] at recorded outcome
      rcases outcome with ⟨armed, accepted, rfl, rfl⟩ | ⟨fault, refused, rfl, rfl⟩
      · change answer = _ at accepted
        subst accepted
        exact ⟨requests, none, arming, recorded, rfl⟩
      · change answer = _ at refused
        subst refused
        exact ⟨requests, some fault, arming, recorded, rfl⟩

/-! ## What an arming tells -/

/--
The one request that arming an entry point makes: to install the breakpoint
when there is none, and to move it when it is elsewhere.
-/
def armingRequest? (session : Session) (host : BreakpointHost σ) (state : σ) :
    Option UInt64 → Option HostRequest
  | none => none
  | some address =>
      match session.entryBreakpoint with
      | none => some (.install address (host.install address state).1)
      | some breakpoint =>
          if breakpoint.address = address then none
          else some
            (.relocate breakpoint.id address (host.relocate breakpoint.id address state).1)

namespace Arming

variable {session : Session} {host : BreakpointHost σ} {state : σ} {entry : Option UInt64}
  {requests : List HostRequest} {breakpoint : Option EntryBreakpoint} {refusal : Option Fault}

theorem requests_eq (arming : session.Arming host state entry requests breakpoint refusal) :
    requests = (session.armingRequest? host state entry).toList := by
  cases arming with
  | noEntry => rfl
  | inPlace present => simp [armingRequest?, present]
  | installed absent accepted => simp [armingRequest?, absent, accepted]
  | installRefused absent refused => simp [armingRequest?, absent, refused]
  | moved present elsewhere accepted => simp [armingRequest?, present, elsewhere, accepted]
  | moveRefused present elsewhere refused => simp [armingRequest?, present, elsewhere, refused]

theorem refusal_eq (arming : session.Arming host state entry requests breakpoint refusal) :
    refusal = (session.armingRequest? host state entry).bind HostRequest.refusal? := by
  have request : (session.armingRequest? host state entry) = requests.head? := by
    rw [arming.requests_eq, Option.head?_toList]
  rw [request]
  cases arming <;> rfl

theorem kept_of_refused {fault : Fault}
    (arming : session.Arming host state entry requests breakpoint (some fault)) :
    breakpoint = session.entryBreakpoint := by
  cases arming with
  | installRefused absent refused => exact absent.symm
  | moveRefused present elsewhere refused => exact present.symm

theorem kept_of_noEntry (arming : session.Arming host state none requests breakpoint refusal) :
    breakpoint = session.entryBreakpoint := by
  cases arming
  rfl

theorem placed {address : UInt64}
    (arming : session.Arming host state (some address) requests breakpoint none) :
    breakpoint.map (·.address) = some address := by
  cases arming <;> rfl

/-- The id of a breakpoint is never given up. -/
theorem id_kept {present : EntryBreakpoint}
    (arming : session.Arming host state entry requests breakpoint refusal)
    (before : session.entryBreakpoint = some present) :
    ∃ address, breakpoint = some ⟨present.id, address⟩ := by
  cases arming with
  | noEntry => exact ⟨present.address, before⟩
  | inPlace same =>
      rw [before] at same
      cases same
      exact ⟨present.address, rfl⟩
  | installed absent accepted | installRefused absent refused =>
      rw [before] at absent
      cases absent
  | @moved _ address same elsewhere accepted =>
      rw [before] at same
      cases same
      exact ⟨address, rfl⟩
  | moveRefused same elsewhere refused =>
      rw [before] at same
      cases same
      exact ⟨present.address, rfl⟩

end Arming

/-! ## What a created process comes to -/

section Creation

variable (session : Session) (host : BreakpointHost σ) (event : CreationEvent) (state : σ)
  (past : List HostRequest)

/-- A created process makes the one request of arming, and no other. -/
theorem processCreated_requests :
    (session.processCreated host.recording event ⟨state, past⟩).host.requests =
      past ++ (session.armingRequest? host state
        (session.resolution event).executable.entry).toList := by
  obtain ⟨requests, refusal, arming, recorded, -⟩ :=
    processCreated_arming session host event state past
  rw [recorded, arming.requests_eq]

/-- It fails exactly when that request is refused, with the fault of the host. -/
theorem processCreated_outcome :
    (session.processCreated host.recording event ⟨state, past⟩).outcome =
      outcomeOf (session.resolution event).executable
        ((session.armingRequest? host state (session.resolution event).executable.entry).bind
          HostRequest.refusal?) := by
  obtain ⟨requests, refusal, arming, -, outcome⟩ :=
    processCreated_arming session host event state past
  rw [outcome, arming.refusal_eq]

theorem processCreated_kept_of_error {fault : Fault}
    (failed : (session.processCreated host.recording event ⟨state, past⟩).outcome =
      .error fault) :
    (session.processCreated host.recording event ⟨state, past⟩).session.entryBreakpoint =
      session.entryBreakpoint := by
  obtain ⟨requests, refusal, arming, -, outcome⟩ :=
    processCreated_arming session host event state past
  rw [failed] at outcome
  cases refusal with
  | none => cases outcome
  | some fault => exact arming.kept_of_refused

theorem processCreated_placed_of_ok {resolved : ExecutableEntry} {address : UInt64}
    (succeeded : (session.processCreated host.recording event ⟨state, past⟩).outcome =
      .ok resolved) (entry : resolved.entry = some address) :
    (session.processCreated host.recording event ⟨state, past⟩).session.entryBreakpoint.map
      (·.address) = some address := by
  obtain ⟨requests, refusal, arming, -, outcome⟩ :=
    processCreated_arming session host event state past
  rw [succeeded] at outcome
  cases refusal with
  | none =>
      cases outcome
      rw [entry] at arming
      exact arming.placed
  | some fault => cases outcome

theorem processCreated_kept_of_noEntry {resolved : ExecutableEntry}
    (succeeded : (session.processCreated host.recording event ⟨state, past⟩).outcome =
      .ok resolved) (noEntry : resolved.entry = none) :
    (session.processCreated host.recording event ⟨state, past⟩).session.entryBreakpoint =
      session.entryBreakpoint := by
  obtain ⟨requests, refusal, arming, -, outcome⟩ :=
    processCreated_arming session host event state past
  rw [succeeded] at outcome
  cases refusal with
  | none =>
      cases outcome
      rw [noEntry] at arming
      exact arming.kept_of_noEntry
  | some fault => cases outcome

end Creation

theorem outcomeOf_eq_error_iff {executable : ExecutableEntry} {refusal : Option Fault}
    {fault : Fault} : outcomeOf executable refusal = .error fault ↔ refusal = some fault := by
  cases refusal <;> simp [outcomeOf]

theorem eq_of_outcomeOf_eq_ok {executable resolved : ExecutableEntry} {refusal : Option Fault}
    (succeeded : outcomeOf executable refusal = .ok resolved) : resolved = executable := by
  cases refusal with
  | none => exact (Except.ok.inj succeeded).symm
  | some fault => cases succeeded

/-! ## The session's copy tells what the hosts agreed to -/

/--
The breakpoint of a session is the one that hosts agreed to install, if any, at
the last address to which they agreed to bring it.
-/
structure Tracks (session : Session) (requests : List HostRequest) : Prop where
  installs : requests.filterMap HostRequest.installed? =
    (session.entryBreakpoint.map (·.id)).toList
  places : ∀ breakpoint, session.entryBreakpoint = some breakpoint →
    (requests.filterMap (HostRequest.placedAt? breakpoint.id)).getLast? = some breakpoint.address

namespace Tracks

variable {session next : Session} {past requests : List HostRequest}

theorem new (profile : Profile) : Tracks (.new profile) [] := by
  refine ⟨rfl, ?_⟩
  intro breakpoint present
  cases present

theorem congr (tracks : Tracks session past)
    (same : next.entryBreakpoint = session.entryBreakpoint) : Tracks next past := by
  constructor
  · rw [same]
    exact tracks.installs
  · intro breakpoint present
    rw [same] at present
    exact tracks.places breakpoint present

theorem append_aboutLocation (tracks : Tracks session past)
    (locations : ∀ request ∈ requests, request.isAboutLocation = true) :
    Tracks session (past ++ requests) := by
  constructor
  · have none_installed : requests.filterMap HostRequest.installed? = [] :=
      List.filterMap_eq_nil_iff.2 fun request inside =>
        HostRequest.installed?_of_isAboutLocation (locations request inside)
    rw [List.filterMap_append, none_installed, List.append_nil]
    exact tracks.installs
  · intro breakpoint present
    have none_placed : requests.filterMap (HostRequest.placedAt? breakpoint.id) = [] :=
      List.filterMap_eq_nil_iff.2 fun request inside =>
        HostRequest.placedAt?_of_isAboutLocation (locations request inside) breakpoint.id
    rw [List.filterMap_append, none_placed, List.append_nil]
    exact tracks.places breakpoint present

/-- Each of the six things that arming can come to keeps the copy true. -/
theorem append_arming {host : BreakpointHost σ} {state : σ} {entry : Option UInt64}
    {breakpoint : Option EntryBreakpoint} {refusal : Option Fault} (tracks : Tracks session past)
    (arming : session.Arming host state entry requests breakpoint refusal)
    (kept : next.entryBreakpoint = breakpoint) : Tracks next (past ++ requests) := by
  have installs := tracks.installs
  cases arming with
  | noEntry =>
      rw [List.append_nil]
      exact tracks.congr kept
  | inPlace present =>
      rw [List.append_nil]
      exact tracks.congr (kept.trans present.symm)
  | @installed address id absent accepted =>
      constructor
      · rw [List.filterMap_append, installs, absent, kept]
        rfl
      · intro breakpoint present
        rw [kept] at present
        cases present
        simp [HostRequest.placedAt?]
  | installRefused absent refused =>
      constructor
      · rw [List.filterMap_append, installs, absent, kept]
        rfl
      · intro breakpoint present
        rw [kept] at present
        cases present
  | @moved breakpoint address present elsewhere accepted =>
      constructor
      · rw [List.filterMap_append, installs, present, kept]
        rfl
      · intro armed same
        rw [kept] at same
        cases same
        simp [HostRequest.placedAt?]
  | @moveRefused breakpoint address fault present elsewhere refused =>
      constructor
      · rw [List.filterMap_append, installs, present, kept]
        rfl
      · intro armed same
        rw [kept] at same
        cases same
        rw [List.filterMap_append]
        exact (congrArg List.getLast? (List.append_nil _)).trans (tracks.places breakpoint present)

end Tracks

end Session

/-! ## Hits -/

namespace EntryBreakpoint

variable {σ : Type}

/-- Rearming asks the host about locations only. -/
theorem rearm_requests (host : BreakpointHost σ) (locations : List Location) (state : σ)
    (past : List HostRequest) :
    ∃ requests, (rearm host.recording locations ⟨state, past⟩).2.requests = past ++ requests ∧
      ∀ request ∈ requests, request.isAboutLocation = true := by
  induction locations generalizing state past with
  | nil => exact ⟨[], (List.append_nil past).symm, fun _ inside => nomatch inside⟩
  | cons location rest ih =>
      rw [rearm, BreakpointHost.recording_remove]
      cases (host.remove location state).1 with
      | error fault =>
          obtain ⟨requests, recorded, locations⟩ := ih (host.remove location state).2
            (past ++ [.remove location (.error fault)])
          refine ⟨.remove location (.error fault) :: requests, recorded.trans ?_, ?_⟩
          · exact List.append_assoc _ _ _
          · exact List.forall_mem_cons.2 ⟨rfl, locations⟩
      | ok done =>
          -- The walk goes on in the same state whether the host puts the location back or not.
          obtain ⟨requests, recorded, locations⟩ :=
            ih (host.insert location (host.remove location state).2).2
              (past ++ [.remove location (.ok ())] ++
                [.insert location (host.insert location (host.remove location state).2).1])
          refine ⟨.remove location (.ok ()) ::
            .insert location (host.insert location (host.remove location state).2).1 :: requests,
            Eq.trans ?_ (recorded.trans ?_), ?_⟩
          · dsimp only
            rw [BreakpointHost.recording_insert]
            cases (host.insert location (host.remove location state).2).1 <;> rfl
          · simp only [List.append_assoc, List.cons_append, List.nil_append]
          · exact List.forall_mem_cons.2 ⟨rfl, List.forall_mem_cons.2 ⟨rfl, locations⟩⟩

end EntryBreakpoint

/-! ## Runs -/

namespace Session

variable {σ : Type}

theorem breakpointHit_requests (session : Session) (host : BreakpointHost σ) (id space : UInt64)
    (state : σ) (past : List HostRequest) :
    ∃ requests,
      (session.breakpointHit host.recording id space ⟨state, past⟩).2.2.requests =
        past ++ requests ∧ ∀ request ∈ requests, request.isAboutLocation = true := by
  unfold breakpointHit
  cases session.entryBreakpoint with
  | none => exact ⟨[], (List.append_nil past).symm, fun _ inside => nomatch inside⟩
  | some breakpoint =>
      dsimp only
      split
      · exact EntryBreakpoint.rearm_requests host _ state past
      · exact ⟨[], (List.append_nil past).symm, fun _ inside => nomatch inside⟩

end Session

namespace Run

variable {σ : Type}

/-- Only a created process touches the breakpoint; a hit asks the host about locations. -/
theorem step_cases (run : Run) (operation : Operation σ) :
    (∃ event host state, operation = .processCreated event host state) ∨
      (run.step operation).session.entryBreakpoint = run.session.entryBreakpoint ∧
        ∃ requests, (run.step operation).requests = run.requests ++ requests ∧
          ∀ request ∈ requests, request.isAboutLocation = true := by
  have nothing : ∃ requests, run.requests = run.requests ++ requests ∧
      ∀ request ∈ requests, request.isAboutLocation = true :=
    ⟨[], (List.append_nil run.requests).symm, fun _ inside => nomatch inside⟩
  cases operation with
  | processCreated event host state => exact .inl ⟨event, host, state, rfl⟩
  | breakpointHit id space host state =>
      exact .inr ⟨rfl, run.session.breakpointHit_requests host id space state run.requests⟩
  | libraryList dump => exact .inr ⟨run.session.libraryList_entryBreakpoint dump, nothing⟩
  | libraryRange dump offset length =>
      exact .inr ⟨run.session.libraryList_entryBreakpoint dump, nothing⟩
  | invalidate | threadBlock => exact .inr ⟨rfl, nothing⟩

theorem step_tracks (run : Run) (operation : Operation σ)
    (tracks : run.session.Tracks run.requests) :
    (run.step operation).session.Tracks (run.step operation).requests := by
  obtain ⟨event, host, state, rfl⟩ | ⟨kept, requests, recorded, locations⟩ :=
    run.step_cases operation
  · obtain ⟨requests, refusal, arming, recorded, -⟩ :=
      run.session.processCreated_arming host event state run.requests
    have after := tracks.append_arming arming rfl
    rw [← recorded] at after
    exact after
  · rw [recorded]
    exact (tracks.append_aboutLocation locations).congr kept

theorem of_tracks (profile : Profile) (operations : List (Operation σ)) :
    (of profile operations).session.Tracks (of profile operations).requests :=
  extend_induction (P := fun run => run.session.Tracks run.requests) step_tracks
    (.new profile) operations

theorem step_id_kept {id : UInt64} (run : Run) (operation : Operation σ)
    (before : ∃ address, run.session.entryBreakpoint = some ⟨id, address⟩) :
    ∃ address, (run.step operation).session.entryBreakpoint = some ⟨id, address⟩ := by
  obtain ⟨address, present⟩ := before
  obtain ⟨event, host, state, rfl⟩ | ⟨kept, -⟩ := run.step_cases operation
  · obtain ⟨requests, refusal, arming, -, -⟩ :=
      run.session.processCreated_arming host event state run.requests
    exact arming.id_kept present
  · exact ⟨address, kept.trans present⟩

/-! ## The breakpoint of a run -/

section Breakpoint

variable (profile : Profile) (operations : List (Operation σ))

theorem entryBreakpoint_eq_none_iff :
    (of profile operations).session.entryBreakpoint = none ↔
      ∀ request ∈ (of profile operations).requests, request.installed? = none := by
  rw [← List.filterMap_eq_nil_iff, (of_tracks profile operations).installs]
  cases (of profile operations).session.entryBreakpoint <;> simp

theorem length_installed_le_one :
    ((of profile operations).requests.filterMap HostRequest.installed?).length ≤ 1 := by
  rw [(of_tracks profile operations).installs]
  cases (of profile operations).session.entryBreakpoint <;> simp

theorem installed_of_present {breakpoint : EntryBreakpoint}
    (present : (of profile operations).session.entryBreakpoint = some breakpoint) :
    (of profile operations).requests.filterMap HostRequest.installed? = [breakpoint.id] := by
  rw [(of_tracks profile operations).installs, present]
  rfl

end Breakpoint

/--
After any operations, served by hosts that accept and refuse as they like, the
entry point breakpoint is missing exactly as long as no host agreed to install
one, and at most one is ever installed.  It keeps the id that the host gave it,
and its address is the last one to which a host agreed to bring it.  A created
process makes at most one request, fails exactly when that is refused, and then
leaves the breakpoint as it was; otherwise the breakpoint is at the entry point.
Either way the executable is recorded and the library list dropped.  No other
operation touches the breakpoint.
-/
theorem entryBreakpoint_of_run (profile : Profile) (operations : List (Operation σ)) :
    let run := of profile operations
    (run.session.entryBreakpoint = none ↔
      ∀ request ∈ run.requests, request.installed? = none) ∧
    (run.requests.filterMap HostRequest.installed?).length ≤ 1 ∧
    (∀ breakpoint, run.session.entryBreakpoint = some breakpoint →
      run.requests.filterMap HostRequest.installed? = [breakpoint.id] ∧
      (run.requests.filterMap (HostRequest.placedAt? breakpoint.id)).getLast? =
        some breakpoint.address ∧
      ∀ later : List (Operation σ), ∃ address,
        (run.extend later).session.entryBreakpoint = some ⟨breakpoint.id, address⟩) ∧
    (∀ (event : CreationEvent) (host : BreakpointHost σ) (state : σ),
      let creation := run.session.processCreated host.recording event ⟨state, run.requests⟩
      let executable := (run.session.resolution event).executable
      let request := run.session.armingRequest? host state executable.entry
      creation.host.requests = run.requests ++ request.toList ∧
      (∀ fault, creation.outcome = .error fault ↔
        request.bind HostRequest.refusal? = some fault) ∧
      (∀ fault, creation.outcome = .error fault →
        creation.session.entryBreakpoint = run.session.entryBreakpoint) ∧
      (∀ resolved, creation.outcome = .ok resolved → resolved = executable) ∧
      (∀ resolved address, creation.outcome = .ok resolved → resolved.entry = some address →
        creation.session.entryBreakpoint.map (·.address) = some address) ∧
      (∀ resolved, creation.outcome = .ok resolved → resolved.entry = none →
        creation.session.entryBreakpoint = run.session.entryBreakpoint) ∧
      creation.session.executable = some executable ∧ creation.session.cachedList = none) ∧
    ∀ operation : Operation σ,
      (∃ event host state, operation = .processCreated event host state) ∨
        (run.step operation).session.entryBreakpoint = run.session.entryBreakpoint ∧
          ∃ requests, (run.step operation).requests = run.requests ++ requests ∧
            ∀ request ∈ requests, request.isAboutLocation = true := by
  intro run
  refine ⟨entryBreakpoint_eq_none_iff profile operations,
    length_installed_le_one profile operations, ?_, ?_, run.step_cases⟩
  · intro breakpoint present
    refine ⟨installed_of_present profile operations present,
      (of_tracks profile operations).places breakpoint present, ?_⟩
    intro later
    exact extend_induction step_id_kept ⟨breakpoint.address, present⟩ later
  · intro event host state creation executable request
    have outcome : creation.outcome =
        Session.outcomeOf executable (request.bind HostRequest.refusal?) :=
      run.session.processCreated_outcome host event state run.requests
    obtain ⟨-, recorded, -⟩ :=
      run.session.processCreated_resolves host.recording event ⟨state, run.requests⟩
    refine ⟨run.session.processCreated_requests host event state run.requests, ?_, ?_, ?_, ?_, ?_,
      recorded, run.session.processCreated_cachedList host.recording event ⟨state, run.requests⟩⟩
    · intro fault
      rw [outcome]
      exact Session.outcomeOf_eq_error_iff
    · intro fault failed
      exact run.session.processCreated_kept_of_error host event state run.requests failed
    · intro resolved succeeded
      rw [outcome] at succeeded
      exact Session.eq_of_outcomeOf_eq_ok succeeded
    · intro resolved address succeeded entry
      exact run.session.processCreated_placed_of_ok host event state run.requests succeeded entry
    · intro resolved succeeded noEntry
      exact run.session.processCreated_kept_of_noEntry host event state run.requests succeeded
        noEntry

end Run

end NtTarget
