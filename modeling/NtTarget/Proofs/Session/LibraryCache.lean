import Mathlib.Algebra.Group.Nat.Defs
import NtTarget.Proofs.Bytes.Ranges
import NtTarget.Proofs.Session.Run

/-!
# The library list between two invalidations

A session renders the library list once and serves it until it is invalidated.
Every call in between gets the document of the first call, whatever dump it
brings, and a client that reads piece by piece puts that document together.
-/

namespace NtTarget

/-! ## Calls for the library list -/

/-- What a client asks of the library list: all of it, or a range of its bytes. -/
inductive LibraryRequest where
  | document
  | range (offset length : Nat)
  deriving Repr, DecidableEq

inductive LibraryAnswer where
  | document (text : String)
  | range (bytes : Bytes)
  deriving Repr, DecidableEq

/-- A call for the library list, with the dump that it brings. -/
structure LibraryCall where
  dump : CoreDump
  request : LibraryRequest

/-- The answer to a request from a document. -/
def LibraryRequest.answer (document : String) : LibraryRequest → LibraryAnswer
  | .document => .document document
  | .range offset length => .range ((Utf8.encode document).range offset length)

namespace LibraryCall

/--
What a sequence of calls gets of a session without a list: the document of the
first dump, with the queries that were made for it in the first answer alone.
-/
def served : List LibraryCall → List (Traced LibraryAnswer)
  | [] => []
  | first :: later =>
      let document := first.dump.libraryList
      ⟨first.request.answer document.value, document.lookups⟩ ::
        later.map fun call => .silent (call.request.answer document.value)

end LibraryCall

namespace Session

def answer (session : Session) (call : LibraryCall) : Traced LibraryAnswer :=
  match call.request with
  | .document => (session.libraryList call.dump).2.map .document
  | .range offset length => (session.libraryRange call.dump offset length).2.map .range

theorem libraryList_of_cached {session : Session} {document : String}
    (cached : session.cachedList = some document) (dump : CoreDump) :
    session.libraryList dump = (session, .silent document) := by
  unfold libraryList
  rw [cached]

theorem libraryList_of_empty {session : Session} (empty : session.cachedList = none)
    (dump : CoreDump) :
    session.libraryList dump =
      ({ session with cachedList := some dump.libraryList.value }, dump.libraryList) := by
  unfold libraryList
  rw [empty]

theorem libraryRange_eq (session : Session) (dump : CoreDump) (offset length : Nat) :
    session.libraryRange dump offset length =
      ((session.libraryList dump).1, (session.libraryList dump).2.map fun document =>
        (Utf8.encode document).range offset length) := by
  simp only [Bytes.range_eq_take_drop]
  rfl

theorem libraryList_cachedList (session : Session) (dump : CoreDump) :
    (session.libraryList dump).1.cachedList =
      session.cachedList.or (some dump.libraryList.value) := by
  cases cached : session.cachedList with
  | none => rw [libraryList_of_empty cached, Option.none_or]
  | some document => rw [libraryList_of_cached cached, cached, Option.some_or]

theorem libraryList_value (session : Session) (dump : CoreDump) :
    (session.libraryList dump).2.value = session.cachedList.getD dump.libraryList.value := by
  cases cached : session.cachedList with
  | none => rw [libraryList_of_empty cached, Option.getD_none]
  | some document => rw [libraryList_of_cached cached, Option.getD_some, Traced.silent]

theorem answer_eq (session : Session) (call : LibraryCall) :
    session.answer call = (session.libraryList call.dump).2.map call.request.answer := by
  unfold answer
  cases call.request with
  | document => rfl
  | range offset length =>
      dsimp only
      rw [libraryRange_eq]
      rfl

theorem answer_of_cached {session : Session} {document : String}
    (cached : session.cachedList = some document) (call : LibraryCall) :
    session.answer call = .silent (call.request.answer document) := by
  rw [answer_eq, libraryList_of_cached cached]
  rfl

theorem answer_of_empty {session : Session} (empty : session.cachedList = none)
    (call : LibraryCall) :
    session.answer call =
      ⟨call.request.answer call.dump.libraryList.value, call.dump.libraryList.lookups⟩ := by
  rw [answer_eq, libraryList_of_empty empty]
  rfl

end Session

namespace Operation

variable {σ : Type}

/-- The two operations after which the library list is made anew. -/
def invalidates : Operation σ → Bool
  | .processCreated _ _ _ => true
  | .invalidate => true
  | _ => false

def libraryCall? : Operation σ → Option LibraryCall
  | .libraryList dump => some ⟨dump, .document⟩
  | .libraryRange dump offset length => some ⟨dump, .range offset length⟩
  | _ => none

end Operation

namespace Run

variable {σ : Type}

/-- The answers to the calls for the library list among some operations, in order. -/
def answers (run : Run) : List (Operation σ) → List (Traced LibraryAnswer)
  | [] => []
  | operation :: later =>
      (operation.libraryCall?.map run.session.answer).toList ++ (run.step operation).answers later

/-- The runs whose session has no library list: new ones, and those that just dropped it. -/
inductive IsFresh : Run → Prop where
  | started (profile : Profile) : IsFresh (start profile)
  | invalidated {σ : Type} (run : Run) {operation : Operation σ}
      (drops : operation.invalidates = true) : IsFresh (run.step operation)

theorem IsFresh.cachedList {run : Run} (fresh : run.IsFresh) : run.session.cachedList = none := by
  cases fresh with
  | started profile => rfl
  | @invalidated _ run operation drops =>
      cases operation with
      | processCreated event host state => exact run.session.processCreated_cachedList _ event _
      | invalidate => rfl
      | breakpointHit | libraryList | libraryRange | threadBlock => cases drops

/-- Only a call for the library list fills the cache, and nothing else changes it. -/
theorem step_cachedList (run : Run) {operation : Operation σ}
    (keeps : operation.invalidates = false) :
    (run.step operation).session.cachedList = run.session.cachedList.or
      (operation.libraryCall?.map fun call => call.dump.libraryList.value) := by
  cases operation with
  | processCreated | invalidate => cases keeps
  | libraryList dump => exact run.session.libraryList_cachedList dump
  | libraryRange dump offset length => exact run.session.libraryList_cachedList dump
  | breakpointHit | threadBlock => exact (Option.or_none).symm

theorem answers_cons (run : Run) (operation : Operation σ) (later : List (Operation σ)) :
    run.answers (operation :: later) =
      (operation.libraryCall?.map run.session.answer).toList ++
        (run.step operation).answers later := rfl

section Between

variable {run : Run} {between : List (Operation σ)}

/-- Once there is a document, it is served whatever the calls bring. -/
theorem answers_of_cached {document : String} (cached : run.session.cachedList = some document)
    (quiet : ∀ operation ∈ between, operation.invalidates = false) :
    run.answers between = (between.filterMap Operation.libraryCall?).map fun call =>
      .silent (call.request.answer document) := by
  induction between generalizing run with
  | nil => rfl
  | cons operation later ih =>
      obtain ⟨keeps, rest⟩ := List.forall_mem_cons.1 quiet
      have kept := run.step_cachedList keeps
      rw [cached, Option.some_or] at kept
      rw [answers_cons, ih kept rest]
      cases called : operation.libraryCall? with
      | none =>
          rw [List.filterMap_cons_none called]
          rfl
      | some call =>
          rw [List.filterMap_cons_some called, List.map_cons, Option.map_some,
            Session.answer_of_cached cached]
          rfl

/-- Up to the first call nothing changes, and behind it there is a document. -/
theorem answers_of_empty (empty : run.session.cachedList = none)
    (quiet : ∀ operation ∈ between, operation.invalidates = false) :
    run.answers between = LibraryCall.served (between.filterMap Operation.libraryCall?) := by
  induction between generalizing run with
  | nil => rfl
  | cons operation later ih =>
      obtain ⟨keeps, rest⟩ := List.forall_mem_cons.1 quiet
      have next := run.step_cachedList keeps
      rw [empty, Option.none_or] at next
      rw [answers_cons]
      cases called : operation.libraryCall? with
      | none =>
          rw [called] at next
          rw [List.filterMap_cons_none called, ih next rest]
          rfl
      | some call =>
          rw [called] at next
          rw [List.filterMap_cons_some called, Option.map_some, Session.answer_of_empty empty,
            answers_of_cached next rest]
          rfl

end Between

end Run

/-! ## Reading the library list piece by piece -/

/-- A read of a client: what else is asked of the session before, the dump and the length. -/
structure ReadStep (σ : Type) where
  before : List (Operation σ)
  dump : CoreDump
  length : Nat

namespace Operation

variable {σ : Type}

/-- The dumps that calls for the library list bring, in order. -/
def dumps (operations : List (Operation σ)) : List CoreDump :=
  (operations.filterMap libraryCall?).map LibraryCall.dump

end Operation

namespace ReadStep

variable {σ : Type}

/-- The read asks for something, and what comes before it keeps the library list. -/
structure IsAdmissible (read : ReadStep σ) : Prop where
  quiet : ∀ operation ∈ read.before, operation.invalidates = false
  positive : 0 < read.length

def dumps (read : ReadStep σ) : List CoreDump :=
  Operation.dumps read.before ++ [read.dump]

end ReadStep

namespace Session

/-- The document that a session serves to calls that bring the given dumps. -/
def document? (session : Session) (dumps : List CoreDump) : Option String :=
  session.cachedList.or (dumps.head?.map fun dump => dump.libraryList.value)

theorem document?_of_cached {session : Session} {document : String}
    (cached : session.cachedList = some document) (dumps : List CoreDump) :
    session.document? dumps = some document := by
  unfold document?
  rw [cached, Option.some_or]

/-- The next call is answered from the document, which the session then keeps. -/
theorem libraryList_of_document? {session : Session} {dump : CoreDump} {later : List CoreDump}
    {document : String} (serves : session.document? (dump :: later) = some document) :
    (session.libraryList dump).2.value = document ∧
      (session.libraryList dump).1.cachedList = some document := by
  unfold document? at serves
  rw [List.head?_cons, Option.map_some] at serves
  refine ⟨?_, by rw [libraryList_cachedList, serves]⟩
  rw [Option.or_some] at serves
  rw [libraryList_value, Option.some.inj serves]

end Session

namespace Run

variable {σ : Type}

/--
The bytes that a client reads from an offset on until an answer is empty.  There
are none when the reads are used up before.
-/
def readFrom : Run → Nat → List (ReadStep σ) → Option Bytes
  | _, _, [] => none
  | run, offset, read :: later =>
      let reached := run.extend read.before
      let piece := (reached.session.libraryRange read.dump offset read.length).2.value
      if piece = [] then some []
      else
        (readFrom (reached.step (.libraryRange read.dump offset read.length : Operation σ))
          (offset + piece.length) later).map (piece ++ ·)

theorem step_document? (run : Run) {operation : Operation σ}
    (keeps : operation.invalidates = false) (later : List CoreDump) :
    (run.step operation).session.document? later =
      run.session.document? (Operation.dumps [operation] ++ later) := by
  unfold Session.document? Operation.dumps
  rw [run.step_cachedList keeps, Option.or_assoc]
  cases called : operation.libraryCall? with
  | none =>
      rw [List.filterMap_cons_none called]
      rfl
  | some call =>
      rw [List.filterMap_cons_some called]
      rfl

/-- The document is the same before and after operations that keep it. -/
theorem extend_document? {run : Run} {before : List (Operation σ)}
    (quiet : ∀ operation ∈ before, operation.invalidates = false) (later : List CoreDump) :
    (run.extend before).session.document? later =
      run.session.document? (Operation.dumps before ++ later) := by
  induction before generalizing run with
  | nil => rfl
  | cons operation rest ih =>
      obtain ⟨keeps, others⟩ := List.forall_mem_cons.1 quiet
      rw [extend_cons, ih others, run.step_document? keeps, ← List.append_assoc]
      unfold Operation.dumps
      rw [← List.map_append, ← List.filterMap_append, List.singleton_append]

/-- One read gets its range of the document and leaves a session that keeps the document. -/
theorem readFrom_cons {document : String} {read : ReadStep σ} {later : List (ReadStep σ)}
    {run : Run} (serves : run.session.document? ((read :: later).flatMap ReadStep.dumps) =
      some document)
    (quiet : ∀ operation ∈ read.before, operation.invalidates = false) (offset : Nat) :
    ∃ next : Run, next.session.cachedList = some document ∧
      run.readFrom offset (read :: later) =
        let piece := (Utf8.encode document).range offset read.length
        if piece = [] then some []
        else (next.readFrom (offset + piece.length) later).map (piece ++ ·) := by
  have reached : (run.extend read.before).session.document?
      (read.dump :: later.flatMap ReadStep.dumps) = some document := by
    rw [extend_document? quiet, ← serves, List.flatMap_cons, ReadStep.dumps, List.append_assoc,
      List.singleton_append]
  obtain ⟨value, kept⟩ := Session.libraryList_of_document? reached
  have piece : ((run.extend read.before).session.libraryRange read.dump offset
      read.length).2.value = (Utf8.encode document).range offset read.length := by
    rw [Session.libraryRange_eq, Traced.map, value]
  refine ⟨(run.extend read.before).step
    (.libraryRange read.dump offset read.length : Operation σ), kept, ?_⟩
  rw [← piece]
  rfl

/--
What is read from an offset on is the rest of the document, and every read but
the last one brings the end of the document nearer.
-/
theorem readFrom_of_document? {document : String} {reads : List (ReadStep σ)} {run : Run}
    (serves : run.session.document? (reads.flatMap ReadStep.dumps) = some document)
    (admissible : ∀ read ∈ reads, read.IsAdmissible) (offset : Nat) :
    ((Utf8.encode document).length - offset < reads.length →
        (run.readFrom offset reads).isSome) ∧
      ∀ bytes, run.readFrom offset reads = some bytes →
        bytes = (Utf8.encode document).drop offset := by
  induction reads generalizing run offset with
  | nil => exact ⟨fun enough => absurd enough (Nat.not_lt_zero _), fun bytes found => nomatch found⟩
  | cons read later ih =>
      obtain ⟨here, others⟩ := List.forall_mem_cons.1 admissible
      obtain ⟨next, kept, same⟩ := readFrom_cons serves here.quiet offset
      rw [same]
      dsimp only
      by_cases done : (Utf8.encode document).range offset read.length = []
      · rw [if_pos done]
        have past := (Bytes.range_eq_nil_iff here.positive).1 done
        refine ⟨fun _ => rfl, fun bytes found => ?_⟩
        rw [List.drop_of_length_le past, Option.some.inj found]
      · rw [if_neg done]
        have inside := mt (Bytes.range_eq_nil_iff here.positive).2 done
        have progress := List.length_pos_iff.2 done
        obtain ⟨ends, gathers⟩ := ih (Session.document?_of_cached kept _) others
          (offset + ((Utf8.encode document).range offset read.length).length)
        constructor
        · intro enough
          rw [Option.isSome_map]
          rw [List.length_cons] at enough
          exact ends (by omega)
        · intro bytes found
          obtain ⟨rest, foundRest, rfl⟩ := Option.map_eq_some_iff.1 found
          rw [gathers rest foundRest]
          exact Bytes.range_append_drop _ offset read.length

/--
Between two invalidations a session serves one library list.  From a new
session, or one that was just invalidated or created its process anew, with
success or without, all calls get the document of the first one's dump, and
only that first call makes queries.  A range is cut at the end of the document,
also as machine words compute it.  Reading from the start, with any positive
lengths, ends after at most one read more than the document has bytes, and what
was read is the document.
-/
theorem serves_one_document {run : Run} (fresh : run.IsFresh) :
    (∀ between : List (Operation σ), (∀ operation ∈ between, operation.invalidates = false) →
      run.answers between = LibraryCall.served (between.filterMap Operation.libraryCall?)) ∧
    (∀ (session : Session) (dump : CoreDump) (w : Nat) (offset length : BitVec w),
      (Utf8.encode (session.libraryList dump).2.value).length < 2 ^ w →
      (Utf8.encode (session.libraryList dump).2.value).wordRange? offset length =
        some (session.libraryRange dump offset.toNat length.toNat).2.value) ∧
    ∀ reads : List (ReadStep σ), (∀ read ∈ reads, read.IsAdmissible) →
      ∀ first, (reads.flatMap ReadStep.dumps).head? = some first →
        ((Utf8.encode first.libraryList.value).length < reads.length →
          run.readFrom 0 reads = some (Utf8.encode first.libraryList.value)) ∧
        ∀ bytes, run.readFrom 0 reads = some bytes →
          bytes = Utf8.encode first.libraryList.value := by
  refine ⟨fun between quiet => answers_of_empty fresh.cachedList quiet, ?_, ?_⟩
  · intro session dump w offset length fits
    rw [Bytes.wordRange?_eq_some fits, Session.libraryRange_eq]
    rfl
  · intro reads admissible first firstDump
    have serves : run.session.document? (reads.flatMap ReadStep.dumps) =
        some first.libraryList.value := by
      unfold Session.document?
      rw [fresh.cachedList, firstDump]
      rfl
    obtain ⟨ends, gathers⟩ := readFrom_of_document? serves admissible 0
    rw [Nat.sub_zero] at ends
    rw [List.drop_zero] at gathers
    refine ⟨fun enough => ?_, gathers⟩
    obtain ⟨bytes, found⟩ := Option.isSome_iff_exists.1 (ends enough)
    rw [found, gathers bytes found]

/-- A dump with a library behind its executable, and a locator that knows nothing. -/
def listedDump : CoreDump where
  sections := [⟨".coremodule/1000", [0x61, 0]⟩, ⟨".coremodule/2000", [0x62, 0]⟩]
  profile := { Profile.windows64 with useSymbolServer := true }
  locator := some fun _ => none

def bareDump : CoreDump :=
  ⟨[], .windows64, none⟩

def listing : String :=
  "<library-list>\n<library name=\"b\"><segment address=\"0x2000\"/></library></library-list>\n"

/-- A session that served the list of another dump and dropped it. -/
def renewed : Run :=
  ((start .windows64).step (.libraryList bareDump : Operation Unit)).step
    (.invalidate : Operation Unit)

/-- Reads of 16 bytes of which only the first one brings the dump that is listed. -/
def pagedReads : List (ReadStep Unit) :=
  ⟨[], listedDump, 16⟩ :: List.replicate 100 ⟨[.libraryList bareDump], bareDump, 16⟩

/-- The renewed session asks about one module once, and its list is read in pieces. -/
theorem renewed_serves_listing :
    renewed.IsFresh ∧
      renewed.answers [.libraryRange listedDump 1 12, (.libraryList bareDump : Operation Unit)] =
        [⟨.range (Utf8.encode "library-list"), [⟨⟨"b", 0, 0, none⟩, none, none⟩]⟩,
          .silent (.document listing)] ∧
      (Utf8.encode listing).wordRange? (1 : BitVec 64) (BitVec.allOnes 64) =
        some (((Session.new .windows64).libraryRange listedDump 1 (2 ^ 64 - 1)).2.value) ∧
      renewed.readFrom 0 pagedReads = some (Utf8.encode listing) := by
  have fresh : renewed.IsFresh := .invalidated _ rfl
  have document : listedDump.libraryList = ⟨listing, [⟨⟨"b", 0, 0, none⟩, none, none⟩]⟩ := by
    decide +kernel
  have listed : listedDump.libraryList.value = listing := congrArg Traced.value document
  obtain ⟨small, part⟩ : (Utf8.encode listing).length < pagedReads.length ∧
      (Utf8.encode listing).range 1 12 = Utf8.encode "library-list" := by
    decide +kernel
  obtain ⟨answers, words, reads⟩ := serves_one_document (σ := Unit) fresh
  refine ⟨fresh, ?_, ?_, ?_⟩
  · rw [answers _ (by decide), ← part]
    simp only [List.filterMap_cons, List.filterMap_nil, Operation.libraryCall?, LibraryCall.served,
      document]
    rfl
  · rw [← listed] at small ⊢
    exact words (.new .windows64) listedDump 64 1 (BitVec.allOnes 64)
      (Nat.lt_trans small (by decide))
  · have admissible : ∀ read ∈ pagedReads, read.IsAdmissible := by
      refine List.forall_mem_cons.2 ⟨⟨by decide, by decide⟩, fun read inside => ?_⟩
      rw [List.eq_of_mem_replicate inside]
      exact ⟨by decide, by decide⟩
    rw [← listed] at small ⊢
    exact (reads pagedReads admissible listedDump rfl).1 small

end Run

end NtTarget
