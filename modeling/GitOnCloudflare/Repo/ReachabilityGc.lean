import GitOnCloudflare.Repo.Shared

/-!
# The catalog side of garbage collection

Recording the staged output of a collection and the catalog commit of a
collection that excludes every other writer.  The commit is a chain of
separate writes: the fence, the catalog replacement, the version, the
publication request, the receipt and the release of the attempt.
-/

namespace GitOnCloudflare.Repo

open Foundations
open Receive

/-- A text that is present and not empty. -/
def truthy (text : Option String) : Bool :=
  text.any fun value => value ≠ ""

/-! ## The staged output -/

/-- Drop the pending output and the lease of a collection attempt. -/
def RepoState.clearGcAttempt (repo : RepoState) (token : String) : RepoState :=
  let cleared :=
    if repo.reachabilityGcPending.any fun pending => pending.token = token then
      repo.setReachabilityGcPending none
    else
      repo
  if cleared.compactLease.any fun lease => lease.token = token then
    cleared.setCompactLease none
  else
    cleared

def clearGcAttemptState (token : String) : RepoProgram Unit :=
  transaction fun current => .ok ((), current.repo.clearGcAttempt token)

inductive RecordGcPendingResult where
  | recorded
  | leaseMismatch
  | repositoryDeleting
deriving DecidableEq

/-- Whether a collection's lease is on record and live. -/
def RepoState.holdsGcLease (repo : RepoState) (token : String) (now : Nat) :
    Bool :=
  repo.compactLease.any fun lease =>
    decide (lease.operation = some .reachabilityGc) &&
      decide (lease.token = token) && decide (lease.live now)

def recordReachabilityGcPendingState (token packKey : String) :
    RepoProgram RecordGcPendingResult :=
  transaction fun current =>
    let repo := current.repo
    if repo.repositoryDeleting then
      .ok (.repositoryDeleting, repo)
    else if repo.holdsGcLease token current.now then
      .ok
        (.recorded,
          repo.setReachabilityGcPending
            (some ⟨token, packKey, .staged, none⟩))
    else
      .ok (.leaseMismatch, repo)

/-! ## The exclusive commit -/

/-- Why a collection has to start again. -/
inductive GcRetryReason where
  | leaseMismatch
  | receiveActive
  | refsChanged
  | pinsChanged
  | packsetChanged
  | sourceChanged
  | catalogReplacementFailed
  | pendingMismatch
  | repositoryDeleting
deriving DecidableEq

inductive CommitReachabilityGcResult where
  | committed (commit : GcCommit)
  | retry (reason : GcRetryReason)

/-- The output a collection puts in place of its sources. -/
structure GcOutputPack where
  packKey : String
  packBytes : Nat
  idxBytes : Nat
  objectCount : Nat

/-- What a collection sends to commit. -/
structure CommitReachabilityGcArgs where
  token : String
  refsVersion : Nat
  packsetVersion : Nat
  snapshotPinVersion : Nat
  sourcePacks : List PackCatalogRow
  retainedPackKey : Option String
  stagedPack : Option GcOutputPack
  gcOperationId : Option String
  gcClaimId : Option String

namespace CommitReachabilityGcArgs

def retainedSource (args : CommitReachabilityGcArgs) : Option PackCatalogRow :=
  if truthy args.retainedPackKey then
    args.sourcePacks.find? fun row => some row.packKey = args.retainedPackKey
  else
    none

/-- The sources the commit supersedes. -/
def sourcePackKeys (args : CommitReachabilityGcArgs) : List String :=
  (args.sourcePacks.map PackCatalogRow.packKey).filter fun key =>
    some key ≠ args.retainedPackKey

def expectedTargetKey (args : CommitReachabilityGcArgs) : Option String :=
  match args.stagedPack with
  | some pack => some pack.packKey
  | none => args.retainedPackKey

/-- The row of the staged output. -/
def stagedRow (args : CommitReachabilityGcArgs) (pack : GcOutputPack)
    (now : Nat) : PackCatalogRow :=
  { packKey := pack.packKey
    kind := .compact
    state := .active
    tier :=
      args.sourcePacks.foldl
        (fun tier row => if tier ≤ row.tier then row.tier + 1 else tier) 1
    seqLo :=
      args.sourcePacks.foldl
        (fun low row => if row.seqLo < low then row.seqLo else low)
        ((args.sourcePacks.head?.map PackCatalogRow.seqLo).getD 0)
    seqHi :=
      args.sourcePacks.foldl
        (fun high row => if high < row.seqHi then row.seqHi else high)
        ((args.sourcePacks.head?.map PackCatalogRow.seqHi).getD 0)
    objectCount := pack.objectCount
    packBytes := pack.packBytes
    idxBytes := pack.idxBytes
    createdAt := now
    supersededBy := none }

/-- The row the commit activates: the staged output or the retained source. -/
def targetPack (args : CommitReachabilityGcArgs) (now : Nat) :
    Option PackCatalogRow :=
  match args.stagedPack with
  | some pack => some (args.stagedRow pack now)
  | none => args.retainedSource

/-- Whether the catalog already shows the outcome of this commit. -/
def alreadyCommitted (args : CommitReachabilityGcArgs) (catalog : PackCatalog) :
    Bool :=
  let currentRows := currentSourceRows catalog args.sourcePacks
  decide (currentRows.length = args.sourcePacks.length) &&
    decide (args.sourcePackKeys ≠ []) &&
    (currentRows.all fun row =>
      if some row.packKey = args.retainedPackKey then
        decide (row.state = .active) &&
          args.retainedSource.any fun source =>
            rowsMatchForCommit [source] [row]
      else
        decide (row.state = .superseded) &&
          decide (row.supersededBy = args.expectedTargetKey)) &&
    if truthy args.expectedTargetKey then
      args.expectedTargetKey.any fun key =>
        (getPackCatalogRow catalog key).isSome
    else
      true

end CommitReachabilityGcArgs

/-- The receipt written beside an operation that has none. -/
def GcOperation.retainReceipt (operation : GcOperation) (commit : GcCommit)
    (now : Nat) : GcOperation :=
  { operation with
    commit := some commit
    phase := .reclaim
    updatedAt := now
    measurements :=
      Function.update operation.measurements .publish
        ((operation.measurements .publish).map fun measurement =>
          { measurement with
            completedAt := some now
            elapsedMs := some (now - measurement.startedAt) })
    claim := none }

def retainGcCommitReceipt (operationId : Option String) (token : String)
    (committed : GcCommit) : RepoProgram Unit :=
  match operationId with
  | none => return ()
  | some id =>
    if id = "" then
      return ()
    else
      transaction fun current =>
        match current.repo.gcOperation with
        | none => .error .gcCommitWithoutOwner
        | some operation =>
          if operation.id ≠ id ||
              (operation.snapshot.map GcSnapshot.token) ≠ some token then
            .error .gcCommitWithoutOwner
          else if operation.commit.isSome then
            .ok ((), current.repo)
          else
            .ok
              ((),
                current.repo.setGcOperation
                  (some (operation.retainReceipt committed current.now)))

/-- Finish the bookkeeping of a commit the catalog already shows. -/
def reconcileCommittedGc (args : CommitReachabilityGcArgs) :
    RepoProgram CommitReachabilityGcResult := do
  let repo ← get
  let packCatalogVersion ←
    if args.packsetVersion < repo.packsetVersion then
      pure repo.packsetVersion
    else
      bumpPacksetVersion
  put fun repo =>
    repo.setGenerationPublicationPending
      (some
        ⟨packCatalogVersion,
          (listActivePackCatalog repo.packCatalog).map
            PackCatalogRow.packKey⟩)
  if repo.packsetVersion ≤ args.packsetVersion + 1 then
    clearCompactionSchedule
  let committed : GcCommit :=
    ⟨packCatalogVersion, args.sourcePackKeys, args.expectedTargetKey⟩
  retainGcCommitReceipt args.gcOperationId args.token committed
  clearGcAttemptState args.token
  return .committed committed

/-- The operation that owns a commit still holds its execution claim. -/
def GcOperation.ownsPublication (operation : GcOperation)
    (operationId claimId : Option String) (now : Nat) : Bool :=
  decide (some operation.id = operationId) &&
    decide (operation.phase = .publish) &&
    operation.claim.any fun claim =>
      decide (some claim.id = claimId) && decide (now < claim.expiresAt)

/-- Why the fence of a commit does not hold, and the state it leaves. -/
def RepoState.gcCommitFence (repo : RepoState) (now : Nat)
    (args : CommitReachabilityGcArgs) : Option GcRetryReason × RepoState :=
  if repo.repositoryDeleting then
    (some .repositoryDeleting, repo)
  else if truthy args.gcOperationId &&
      !(repo.gcOperation.any fun operation =>
        operation.ownsPublication args.gcOperationId args.gcClaimId now) then
    (some .leaseMismatch, repo)
  else if truthy args.gcOperationId &&
      decide (repo.refsVersion ≠ args.refsVersion) then
    (some .refsChanged, repo)
  else if truthy args.gcOperationId &&
      decide (repo.snapshotPinVersion ≠ args.snapshotPinVersion) then
    (some .pinsChanged, repo)
  else if truthy args.gcOperationId &&
      decide (repo.packsetVersion ≠ args.packsetVersion) then
    (some .packsetChanged, repo)
  else if !repo.holdsGcLease args.token now then
    (some .leaseMismatch,
      if repo.compactLease.any fun lease => lease.token = args.token then
        repo.setCompactLease none
      else
        repo)
  else
    let renewed :=
      repo.setCompactLease
        (repo.compactLease.map fun lease =>
          { lease with expiresAt := now + compactLeaseTtlMs })
    match args.stagedPack with
    | none => (none, renewed)
    | some pack =>
      match repo.reachabilityGcPending with
      | none => (some .pendingMismatch, repo)
      | some pending =>
        if pending.token ≠ args.token ∨
            pending.packKey ≠ pack.packKey then
          (some .pendingMismatch, repo)
        else
          (none,
            renewed.setReachabilityGcPending
              (some
                { pending with
                  state := .committing
                  safeCleanupAt :=
                    some
                      (now + compactLeaseTtlMs +
                        expiredWriterDrainMs) }))

/-- The checks between the fence and the catalog replacement. -/
def RepoState.gcCommitRefusal (repo : RepoState) (now : Nat)
    (args : CommitReachabilityGcArgs) : Option GcRetryReason :=
  if (activeLeaseOrUndefined repo.receiveLease now).isSome then
    some .receiveActive
  else if activeStockReceivePreparationLeases
      repo.stockReceivePreparationLeases now ≠ [] then
    some .receiveActive
  else if repo.repositoryReadLeases.any fun reader =>
      decide (reader.operation = .snapshotProjection) &&
        decide (now < reader.expiresAt) then
    some .receiveActive
  else if repo.refsVersion ≠ args.refsVersion then
    some .refsChanged
  else if repo.snapshotPinVersion ≠ args.snapshotPinVersion then
    some .pinsChanged
  else if repo.packsetVersion ≠ args.packsetVersion then
    some .packsetChanged
  else if !rowsMatchForCommit args.sourcePacks
      (currentSourceRows repo.packCatalog args.sourcePacks) then
    some .sourceChanged
  else
    none

/-- Replace the catalog and record the commit. -/
def replaceGcCatalog (args : CommitReachabilityGcArgs) :
    RepoProgram CommitReachabilityGcResult := do
  let current ← world
  let targetPack := args.targetPack current.now
  put fun repo =>
    repo.setPackCatalog
      (replaceActivePackCatalog repo.packCatalog args.sourcePackKeys
        targetPack)
  let replaced ← get
  let active := listActivePackCatalog replaced.packCatalog
  if active.length ≠ (if targetPack.isSome then 1 else 0) then
    throw .gcInvalidActivePackCount
  else
    let packCatalogVersion ← bumpPacksetVersion
    put fun repo =>
      repo.setGenerationPublicationPending
        (some ⟨packCatalogVersion, active.map PackCatalogRow.packKey⟩)
    clearCompactionSchedule
    let committed : GcCommit :=
      ⟨packCatalogVersion, args.sourcePackKeys,
        targetPack.map PackCatalogRow.packKey⟩
    retainGcCommitReceipt args.gcOperationId args.token committed
    clearGcAttemptState args.token
    return .committed committed

/-- The commit once its fence is held. -/
def commitHeldGc (args : CommitReachabilityGcArgs) :
    RepoProgram CommitReachabilityGcResult := do
  let current ← world
  match current.repo.gcCommitRefusal current.now args with
  | some reason =>
    clearGcAttemptState args.token
    return .retry reason
  | none =>
    if args.sourcePackKeys = [] ∧ args.stagedPack = none then
      let committed : GcCommit :=
        ⟨args.packsetVersion, [],
          args.retainedSource.map PackCatalogRow.packKey⟩
      retainGcCommitReceipt args.gcOperationId args.token committed
      clearGcAttemptState args.token
      return .committed committed
    else
      replaceGcCatalog args

/-- Commit a collection, or report the commit again. -/
def commitReachabilityGcState (args : CommitReachabilityGcArgs) :
    RepoProgram CommitReachabilityGcResult := do
  if truthy args.retainedPackKey &&
      (args.retainedSource.isNone || args.stagedPack.isSome) then
    return .retry .sourceChanged
  else
    let repo ← get
    if args.alreadyCommitted repo.packCatalog then
      reconcileCommittedGc args
    else
      match ← transaction fun current =>
          .ok (current.repo.gcCommitFence current.now args) with
      | some reason => return .retry reason
      | none => commitHeldGc args

end GitOnCloudflare.Repo
