import NtTarget.Breakpoint.Table
import NtTarget.Proofs.Session.SymbolBase

/-!
# Hits under a breakpoint table

A hit of the entry point breakpoint takes out what it found in the debug
registers and puts it back, one location after the other, and every answer
changes the list that the locations came from.  As long as no two locations are
the same place of the same breakpoint, none is lost, added or inserted by
accident: only one that is taken out and then refused stays out.
-/

namespace NtTarget

namespace Location

theorem sameSite_self (location : Location) : location.sameSite location = true := by
  simp [sameSite]

end Location

namespace BreakpointTable

/-- No two locations are the same place of the same breakpoint. -/
def HasDistinctSites (table : BreakpointTable) : Prop :=
  table.locations.Pairwise fun first second => first.sameSite second = false

/-- The same table with other locations. -/
def holding (table : BreakpointTable) (locations : List Location) : BreakpointTable :=
  { table with locations }

/-! ## What becomes of the locations -/

/-- Whether a location is taken out and then not put back. -/
def loses (table : BreakpointTable) (location : Location) : Bool :=
  !table.refusesRemove location.address && table.refusesInsert location.address

/-- What is asked about one location: to put it back only if it was taken out. -/
def rearmRequests (table : BreakpointTable) (location : Location) : List HostRequest :=
  if table.refusesRemove location.address then
    [.remove location (.error (.unavailable .debugRegister))]
  else if table.refusesInsert location.address then
    [.remove location (.ok ()), .insert location (.error (.unavailable .debugRegister))]
  else
    [.remove location (.ok ()), .insert location (.ok ())]

def rearmWarnings (table : BreakpointTable) (location : Location) : List Warning :=
  if table.loses location then
    [.locationNotReinserted location.address (.unavailable .debugRegister)]
  else []

/-- A location after a hit in a space: only one that is lost is no longer inserted. -/
def settled (table : BreakpointTable) (space : UInt64) (location : Location) : Location :=
  { location with
    inserted := location.inserted && !(location.isVolatile space && table.loses location) }

/-- The locations that a hit in a space finds in the debug registers. -/
def volatile (table : BreakpointTable) (space : UInt64) : List Location :=
  table.locations.filter (Location.isVolatile space)

/-- The table after a hit in a space. -/
def afterHit (table : BreakpointTable) (space : UInt64) : BreakpointTable :=
  table.holding (table.locations.map (table.settled space))

/-! ## One location -/

section One

variable {before after : List Location} {location : Location}

/-- A mark is set at the only location of its site. -/
theorem markFirst_append_cons {found : Location}
    (apart : ∀ earlier ∈ before, earlier.sameSite location = false)
    (same : found.sameSite location = true) (inserted : Bool) :
    markFirst location inserted (before ++ found :: after) =
      before ++ { found with inserted } :: after := by
  induction before with
  | nil => exact if_pos same
  | cons earlier rest ih =>
      obtain ⟨first, others⟩ := List.forall_mem_cons.1 apart
      rw [List.cons_append, markFirst, first, if_neg Bool.false_ne_true, ih others]
      rfl

section Answers

variable {table : BreakpointTable} {locations : List Location}

theorem remove_of_refused (refused : table.refusesRemove location.address = true) :
    host.remove location (table.holding locations) =
      (.error (.unavailable .debugRegister), table.holding locations) :=
  if_pos refused

theorem remove_of_accepted (accepted : table.refusesRemove location.address = false) :
    host.remove location (table.holding locations) =
      (.ok (), table.holding (markFirst location false locations)) :=
  if_neg (ne_true_of_eq_false accepted)

theorem insert_of_refused (refused : table.refusesInsert location.address = true) :
    host.insert location (table.holding locations) =
      (.error (.unavailable .debugRegister), table.holding locations) :=
  if_pos refused

theorem insert_of_accepted (accepted : table.refusesInsert location.address = false) :
    host.insert location (table.holding locations) =
      (.ok (), table.holding (markFirst location true locations)) :=
  if_neg (ne_true_of_eq_false accepted)

end Answers

/-- One location is rearmed between those before it and those after it. -/
theorem rearm_cons (table : BreakpointTable)
    (apart : ∀ earlier ∈ before, earlier.sameSite location = false)
    (inserted : location.inserted = true) (pending : List Location) (past : List HostRequest) :
    EntryBreakpoint.rearm host.recording (location :: pending)
        ⟨table.holding (before ++ location :: after), past⟩ =
      let later := EntryBreakpoint.rearm host.recording pending
        ⟨table.holding (before ++ { location with inserted := !table.loses location } :: after),
          past ++ table.rearmRequests location⟩
      (table.rearmWarnings location ++ later.1, later.2) := by
  have taken : markFirst location false (before ++ location :: after) =
      before ++ { location with inserted := false } :: after :=
    markFirst_append_cons apart location.sameSite_self false
  have back : markFirst location true (before ++ { location with inserted := false } :: after) =
      before ++ location :: after := by
    have out : { location with inserted := false }.sameSite location = true :=
      location.sameSite_self
    rw [markFirst_append_cons apart out true, ← inserted]
  have whole : { location with inserted := true } = location := by rw [← inserted]
  rw [EntryBreakpoint.rearm, BreakpointHost.recording_remove]
  cases remove : table.refusesRemove location.address with
  | true =>
      have kept : table.loses location = false := by rw [loses, remove]; rfl
      rw [remove_of_refused remove, rearmRequests, rearmWarnings, kept, remove, Bool.not_false,
        whole]
      rfl
  | false =>
      rw [remove_of_accepted remove, taken]
      dsimp only
      rw [BreakpointHost.recording_insert, List.append_assoc]
      cases insert : table.refusesInsert location.address with
      | true =>
          have lost : table.loses location = true := by rw [loses, remove, insert]; rfl
          rw [insert_of_refused insert, rearmRequests, rearmWarnings, lost, remove, insert]
          rfl
      | false =>
          have kept : table.loses location = false := by rw [loses, remove, insert]; rfl
          rw [insert_of_accepted insert, back, rearmRequests, rearmWarnings, kept, remove, insert,
            Bool.not_false, whole]
          rfl

end One

/-! ## All locations of a hit -/

/-- While a hit is handled, the locations in front are settled and those behind are as they were. -/
theorem rearm_filter (table : BreakpointTable) (space : UInt64) {done pending : List Location}
    (apart : ∀ earlier ∈ done, ∀ later ∈ pending, earlier.sameSite later = false)
    (distinct : pending.Pairwise fun first second => first.sameSite second = false)
    (past : List HostRequest) :
    EntryBreakpoint.rearm host.recording (pending.filter (Location.isVolatile space))
        ⟨table.holding (done ++ pending), past⟩ =
      ((pending.filter (Location.isVolatile space)).flatMap table.rearmWarnings,
        ⟨table.holding (done ++ pending.map (table.settled space)),
          past ++ (pending.filter (Location.isVolatile space)).flatMap table.rearmRequests⟩) := by
  induction pending generalizing done past with
  | nil =>
      rw [List.filter_nil, List.flatMap_nil, List.flatMap_nil, List.map_nil, List.append_nil,
        List.append_nil]
      rfl
  | cons location rest ih =>
      obtain ⟨others, later⟩ := List.pairwise_cons.1 distinct
      -- A settled location keeps its site, so no later mark can fall on it.
      have apart_rest : ∀ earlier ∈ done ++ [table.settled space location], ∀ later ∈ rest,
          earlier.sameSite later = false := by
        intro earlier member later inside
        rcases List.mem_append.1 member with before | here
        · exact apart earlier before later (List.mem_cons_of_mem _ inside)
        · exact List.mem_singleton.1 here ▸ others later inside
      have apart_here : ∀ earlier ∈ done, earlier.sameSite location = false :=
        fun earlier before => apart earlier before location List.mem_cons_self
      rw [List.map_cons, List.append_cons done (table.settled space location)]
      cases found : location.isVolatile space with
      | false =>
          have settled : table.settled space location = location := by
            rw [BreakpointTable.settled, found, Bool.false_and, Bool.not_false, Bool.and_true]
          rw [List.filter_cons_of_neg (ne_true_of_eq_false found), List.append_cons done location]
          rw [settled] at apart_rest ⊢
          exact ih apart_rest later past
      | true =>
          have inserted : location.inserted = true := by
            rw [Location.isVolatile, Bool.and_eq_true, Bool.and_eq_true] at found
            exact found.1.1
          have settled : table.settled space location =
              { location with inserted := !table.loses location } := by
            rw [BreakpointTable.settled, found, inserted, Bool.true_and, Bool.true_and]
          rw [List.filter_cons_of_pos found, rearm_cons table apart_here inserted, ← settled,
            List.append_cons done (table.settled space location)]
          dsimp only
          rw [ih apart_rest later, List.flatMap_cons, List.flatMap_cons, List.append_assoc past]

/-- A hit asks about the volatile locations, in order, and settles every location. -/
theorem hit_eq {table : BreakpointTable} (distinct : table.HasDistinctSites) (space : UInt64)
    (past : List HostRequest) :
    EntryBreakpoint.hit host.recording space ⟨table, past⟩ =
      ((table.volatile space).flatMap table.rearmWarnings,
        ⟨table.afterHit space, past ++ (table.volatile space).flatMap table.rearmRequests⟩) := by
  have none_ : ∀ earlier ∈ ([] : List Location), ∀ later ∈ table.locations,
      earlier.sameSite later = false := fun _ member => absurd member List.not_mem_nil
  exact table.rearm_filter space none_ distinct past

end BreakpointTable

/-! ## Hits in a run -/

namespace Run

variable {σ : Type}

/--
After any operations, a hit of another breakpoint than the one on the entry
point stops the target and asks no host for anything.  A hit of that one
resumes it: every volatile location is taken out and, if the table agrees, put
back, in order.  Only a location that is taken out and refused afterwards is no
longer inserted, and each of these is reported.  The session stays as it was.
-/
theorem breakpointHit_of_run (profile : Profile) (operations : List (Operation σ))
    (id space : UInt64) {table : BreakpointTable} (distinct : table.HasDistinctSites) :
    let run := of profile operations
    ((∀ breakpoint, run.session.entryBreakpoint = some breakpoint → breakpoint.id ≠ id) →
      ∀ {τ : Type} (host : BreakpointHost τ) (state : τ),
        run.session.breakpointHit host id space state = (.stop, [], state) ∧
          run.step (.breakpointHit id space host state) = run) ∧
    ∀ breakpoint, run.session.entryBreakpoint = some breakpoint → breakpoint.id = id →
      let requests := run.requests ++ (table.volatile space).flatMap table.rearmRequests
      run.session.breakpointHit BreakpointTable.host.recording id space ⟨table, run.requests⟩ =
          (.resume, (table.volatile space).flatMap table.rearmWarnings,
            ⟨table.afterHit space, requests⟩) ∧
        run.step (.breakpointHit id space BreakpointTable.host table) = { run with requests } := by
  intro run
  constructor
  · intro other τ host state
    have stops : ∀ {τ : Type} (host : BreakpointHost τ) (state : τ),
        run.session.breakpointHit host id space state = (.stop, [], state) := by
      intro τ host state
      unfold Session.breakpointHit
      cases present : run.session.entryBreakpoint with
      | none => rfl
      | some breakpoint => exact if_neg (other breakpoint present)
    refine ⟨stops host state, ?_⟩
    rw [step, stops]
  · intro breakpoint present same requests
    have resumes : run.session.breakpointHit BreakpointTable.host.recording id space
        ⟨table, run.requests⟩ = (.resume, (table.volatile space).flatMap table.rearmWarnings,
          ⟨table.afterHit space, requests⟩) := by
      unfold Session.breakpointHit
      rw [present]
      dsimp only
      rw [if_pos same, BreakpointTable.hit_eq distinct]
    refine ⟨resumes, ?_⟩
    rw [step, resumes]

/-- Places at shared addresses; the watchpoint at the last of them is inserted or not. -/
def watchedLocations (inserted : Bool) : List Location :=
  [⟨1, 1, 0x1000, .hardware, true⟩, ⟨1, 1, 0x1000, .watchpoint, true⟩,
    ⟨2, 2, 0x1000, .hardware, true⟩, ⟨3, 1, 0x2000, .hardware, true⟩,
    ⟨4, 1, 0x3000, .watchpoint, inserted⟩, ⟨5, 1, 0x3000, .hardware, false⟩,
    ⟨6, 1, 0x3000, .software, true⟩]

def watchedTable : BreakpointTable :=
  { BreakpointTable.empty with
    locations := watchedLocations true
    refusesRemove := (· == 0x2000)
    refusesInsert := (· == 0x3000) }

/-- Only the watchpoint is lost. -/
theorem watchedTable_hit :
    watchedTable.HasDistinctSites ∧
      let run := of .windows64 [createdAt 0x500000]
      run.session.entryBreakpoint = some ⟨1, 0x501000⟩ ∧
      run.session.breakpointHit BreakpointTable.host.recording 1 1 ⟨watchedTable, run.requests⟩ =
        (.resume, [.locationNotReinserted 0x3000 (.unavailable .debugRegister)],
          ⟨watchedTable.holding (watchedLocations false),
            run.requests ++ [
              .remove ⟨1, 1, 0x1000, .hardware, true⟩ (.ok ()),
              .insert ⟨1, 1, 0x1000, .hardware, true⟩ (.ok ()),
              .remove ⟨1, 1, 0x1000, .watchpoint, true⟩ (.ok ()),
              .insert ⟨1, 1, 0x1000, .watchpoint, true⟩ (.ok ()),
              .remove ⟨3, 1, 0x2000, .hardware, true⟩ (.error (.unavailable .debugRegister)),
              .remove ⟨4, 1, 0x3000, .watchpoint, true⟩ (.ok ()),
              .insert ⟨4, 1, 0x3000, .watchpoint, true⟩
                (.error (.unavailable .debugRegister))]⟩) := by
  have distinct : watchedTable.HasDistinctSites := by
    unfold BreakpointTable.HasDistinctSites
    decide
  have present : (of .windows64 [createdAt 0x500000]).session.entryBreakpoint =
      some ⟨1, 0x501000⟩ := by decide +kernel
  have hit := (breakpointHit_of_run .windows64 [createdAt 0x500000] 1 1 distinct).2 _ present rfl
  exact ⟨distinct, present, hit.1⟩

end Run

end NtTarget
