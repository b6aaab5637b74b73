import GitOnCloudflare.Repo.Shared

/-!
# Snapshot projections

The two calls that move the current snapshot of a ref, the plan that tells
the reconciler which of them is due, and the call that replaces all refs.
Every call here is one transaction or one read.
-/

namespace GitOnCloudflare.Repo

open Foundations
open Receive

/-- The object id of a ref; a missing ref is at the zero object id. -/
def authoritativeOid (refs : List Ref) (name : String) : String :=
  ((refs.find? fun ref => ref.name = name).map Ref.oid).getD zeroOid

/-! ## Leases and pins of a projection -/

/-- Whether the token holds a live projection lease.  The check drops expired
read leases as it goes. -/
def hasActiveProjectionLease (repo : RepoState) (now : Nat)
    (token : Option String) : Bool × RepoState :=
  match token with
  | none => (false, repo)
  | some token =>
    if token = "" then
      (false, repo)
    else
      let leases :=
        repo.repositoryReadLeases.filter fun lease => now < lease.expiresAt
      (leases.any fun lease =>
          lease.token = token && lease.operation = .snapshotProjection,
        { repo with repositoryReadLeases := leases })

inductive ProjectionRefusal where
  | stale
  | repositoryDeleting
  | invalidSnapshot
  | projectionLeaseExpired
deriving DecidableEq

structure SnapshotProjectionResult where
  snapshotCreated : Bool
  pointerAdvanced : Bool
  current : Option SnapshotCurrent
deriving DecidableEq

inductive ProjectionResult where
  | projected (result : SnapshotProjectionResult)
  | refused (reason : ProjectionRefusal)
deriving DecidableEq

/-- What a projection carries besides the ref it projects. -/
structure ProjectionInput where
  commitSha : String
  treeSha : String
  materializedAt : Nat
  readerToken : Option String

/-- A projection retains the pin without moving the pointer itself. -/
def ProjectionInput.pin (input : ProjectionInput) : SnapshotPinInput :=
  { commitSha := input.commitSha
    treeSha := input.treeSha
    materializedAt := input.materializedAt
    advanceCurrent := false
    qualificationOwned := false }

/-- The lease check of a projection; a pinned commit needs no lease. -/
def projectionLease (repo : RepoState) (now : Nat) (input : ProjectionInput) :
    Bool × RepoState :=
  if (repo.snapshotPins.find? input.commitSha).isSome then
    (true, repo)
  else
    hasActiveProjectionLease repo now input.readerToken

/-- Pin the projected commit: either whether its snapshot is new, or why it
is refused.  The projection of a deletion pins nothing. -/
def pinProjection (repo : RepoState) (now sequence : Nat)
    (fact : SnapshotPinFact) (input : ProjectionInput) :
    Except RepoFailure (Except ProjectionRefusal Bool × RepoState) :=
  if input.commitSha = zeroOid then
    .ok (.ok false, repo)
  else if !isValidPinnedObjectSha input.treeSha then
    .ok (.error .invalidSnapshot, repo)
  else
    let lease := projectionLease repo now input
    if !lease.1 then
      .ok (.error .projectionLeaseExpired, lease.2)
    else
      match retainSnapshotPin lease.2 sequence fact input.pin with
      | .error failure => .error failure
      | .ok (false, refused) => .ok (.error .invalidSnapshot, refused)
      | .ok (true, retained) =>
        .ok
          (.ok (lease.2.materializedSnapshot input.commitSha).isNone,
            retained)

/-- Move the pointer of a ref after its commit is pinned. -/
def projectPointer (repo : RepoState) (ref : String) (sequence : Nat)
    (snapshotCreated : Bool) (input : ProjectionInput) :
    Except RepoFailure (ProjectionResult × RepoState) :=
  match advanceSnapshotCurrent repo ref input.commitSha sequence
      input.materializedAt with
  | .error failure => .error failure
  | .ok (pointerAdvanced, advanced) =>
    .ok
      (.projected
        ⟨snapshotCreated, pointerAdvanced, advanced.snapshotCurrent ref⟩,
        advanced)

/-! ## The two projections -/

structure ProjectAcceptedWriteArgs extends ProjectionInput where
  entryId : AcceptedWriteJournalId

/-- Note the first materialization of a journal entry. -/
def markMaterialized (repo : RepoState) (entryId : AcceptedWriteJournalId)
    (entry : AcceptedWriteJournalEntry) (materializedAt : Nat) : RepoState :=
  if entry.materializedAt.getD 0 = 0 then
    { repo with
      acceptedWriteJournal :=
        Function.update repo.acceptedWriteJournal entryId
          (some { entry with materializedAt := some materializedAt }) }
  else
    repo

def projectAcceptedWriteState (current : World)
    (args : ProjectAcceptedWriteArgs) :
    Except RepoFailure (ProjectionResult × RepoState) :=
  let repo := current.repo
  if repo.repositoryDeleting then
    .ok (.refused .repositoryDeleting, repo)
  else
    match repo.acceptedWriteJournal args.entryId with
    | none => .error .journalEntryMismatch
    | some entry =>
      if entry.fact.afterSha ≠ args.commitSha then
        .error .journalEntryMismatch
      else
        match pinProjection repo current.now entry.sequence
            entry.fact.pinFact args.toProjectionInput with
        | .error failure => .error failure
        | .ok (.error reason, refused) => .ok (.refused reason, refused)
        | .ok (.ok created, pinned) =>
          projectPointer
            (markMaterialized pinned args.entryId entry
              args.materializedAt)
            entry.fact.ref entry.sequence created args.toProjectionInput

structure ProjectReconciledHeadArgs extends ProjectionInput where
  ref : String
  sequence : Nat

/-- The sequence number of a ref: that of its accepted write when the ref is
where the write left it, else the version of all refs. -/
def refSequence (repo : RepoState) (ref : String) : Nat :=
  match repo.acceptedWriteHead ref with
  | some acceptedHead =>
    if acceptedHead.afterSha = authoritativeOid repo.refs ref then
      acceptedHead.sequence
    else
      repo.refsVersion
  | none => repo.refsVersion

/-- The provenance a reconciled head is pinned under. -/
def reconciledPinFact (ref commitSha : String) : SnapshotPinFact :=
  { ref := ref
    beforeSha := zeroOid
    commitSha := commitSha
    actor := "reconcile"
    sourceSurface := .reconcile
    idempotencyKey := none }

def projectReconciledHeadState (current : World)
    (args : ProjectReconciledHeadArgs) :
    Except RepoFailure (ProjectionResult × RepoState) :=
  let repo := current.repo
  if repo.repositoryDeleting then
    .ok (.refused .repositoryDeleting, repo)
  else if authoritativeOid repo.refs args.ref ≠ args.commitSha ||
      refSequence repo args.ref ≠ args.sequence then
    .ok (.refused .stale, repo)
  else
    match pinProjection repo current.now args.sequence
        (reconciledPinFact args.ref args.commitSha)
        args.toProjectionInput with
    | .error failure => .error failure
    | .ok (.error reason, refused) => .ok (.refused reason, refused)
    | .ok (.ok created, pinned) =>
      projectPointer pinned args.ref args.sequence created
        args.toProjectionInput

/-! ## The reconcile plan -/

inductive SnapshotReconcilePlan where
  | upToDate (current : SnapshotCurrent)
  | deliver (entry : AcceptedWriteJournalEntry)
  | headOnly
      (ref afterSha : String)
      (sequence : Nat)
      (beforeSha : String)
  | unborn (ref : String)

/-- The journal entry of a ref at a sequence number.  An entry is stored under
its sequence number and ref, so the search of the whole journal has at most
this candidate. -/
def findJournalEntry (repo : RepoState) (ref afterSha : String) (sequence : Nat) :
    Option AcceptedWriteJournalEntry :=
  (repo.acceptedWriteJournal ⟨sequence, ref⟩).filter fun candidate =>
    candidate.sequence = sequence && candidate.fact.ref = ref &&
      candidate.fact.afterSha = afterSha

def getSnapshotReconcilePlanState (repo : RepoState) (ref : String) :
    SnapshotReconcilePlan :=
  let afterSha := authoritativeOid repo.refs ref
  if repo.acceptedWriteHead ref = none ∧ afterSha = zeroOid then
    .unborn ref
  else
    let sequence := refSequence repo ref
    match (repo.snapshotCurrent ref).filter fun current =>
        current.commitSha = afterSha && current.sequence = sequence with
    | some current => .upToDate current
    | none =>
      match findJournalEntry repo ref afterSha sequence with
      | some entry => .deliver entry
      | none =>
        .headOnly ref afterSha sequence
          (((repo.snapshotCurrent ref).map
            SnapshotCurrent.commitSha).getD zeroOid)

/-! ## Executing a plan -/

/-- The tree the reconciler materializes: that of the commit, or the zero
object id for a deletion. -/
def materializedTree (treeOf : String → String) (commitSha : String) : String :=
  if commitSha = zeroOid then zeroOid else treeOf commitSha

/-- What the reconciler does with a plan.  The tree of a commit is read from
the object store. -/
def executeReconcilePlan (treeOf : String → String) (current : World)
    (materializedAt : Nat) (readerToken : Option String) :
    SnapshotReconcilePlan →
      Except RepoFailure (Option ProjectionResult × RepoState)
  | .upToDate _ => .ok (none, current.repo)
  | .unborn _ => .ok (none, current.repo)
  | .deliver entry =>
    (projectAcceptedWriteState current
      { entryId := ⟨entry.sequence, entry.fact.ref⟩
        commitSha := entry.fact.afterSha
        treeSha := materializedTree treeOf entry.fact.afterSha
        materializedAt := materializedAt
        readerToken := readerToken }).map fun result =>
      (some result.1, result.2)
  | .headOnly ref afterSha sequence _ =>
    (projectReconciledHeadState current
      { ref := ref
        commitSha := afterSha
        treeSha := materializedTree treeOf afterSha
        sequence := sequence
        materializedAt := materializedAt
        readerToken := readerToken }).map fun result =>
      (some result.1, result.2)

/-! ## Replacing the refs -/

/-- Whether a receive may still change the refs.  A receive lease that neither
lives nor has an intent is dropped once nothing else is active. -/
def hasActiveReceiveMutation (repo : RepoState) (now : Nat) :
    Bool × RepoState :=
  if repo.receiveLease.any fun lease => lease.live now then
    (true, repo)
  else if repo.receiveLease.any fun lease =>
      (repo.receiveFinalizeIntent lease.token).isSome then
    (true, repo)
  else if activeStockReceivePreparationLeases
      repo.stockReceivePreparationLeases now ≠ [] then
    (true, repo)
  else if listActiveNativeReceiveOperations repo ≠ [] then
    (true, repo)
  else
    (false, { repo with receiveLease := none })

def setRefs (current : World) (refs : List Ref) : Bool × RepoState :=
  let repo := current.repo
  if repo.repositoryDeleting then
    (false, repo)
  else if gcOwnsSource repo.gcOperation then
    (false, repo)
  else
    let mutation := hasActiveReceiveMutation repo current.now
    if mutation.1 then
      (false, mutation.2)
    else if (activeLeaseOrUndefined mutation.2.compactLease current.now).any
        fun lease => lease.operation = some .reachabilityGc then
      (false, mutation.2)
    else
      (true,
        { mutation.2 with
          refs := refs
          refsVersion := mutation.2.refsVersion + 1 })

end GitOnCloudflare.Repo
