import GitOnCloudflare.Repo.GcOperation

/-!
# Publishing and discarding a garbage collection

The commit of a collection that ran beside receives replaces the fixed source
rows and keeps every row a receive added since; catalog, versions, receipt
and release are one transaction.  An operation of an older snapshot uses the
exclusive commit.  Outputs that were never published may be deleted.
-/

namespace GitOnCloudflare.Repo

open Foundations
open Receive

/-- The operation is ready to publish under a claim. -/
def GcOperation.publishes (operation : GcOperation) (claimId : String)
    (now : Nat) : Bool :=
  decide (operation.phase = .publish) &&
    operation.claim.any fun claim =>
      decide (claim.id = claimId) && decide (now < claim.expiresAt)

/-- Whether a receive forbids a coordinated commit. -/
def RepoState.receiveForbidsGc (repo : RepoState) (now : Nat) : Bool :=
  (repo.receiveLease.any fun lease =>
      decide (now < lease.expiresAt + expiredWriterDrainMs) ||
        (repo.receiveFinalizeIntent lease.token).isSome) ||
    decide
      (activeStockReceivePreparationLeases
        repo.stockReceivePreparationLeases now ≠ []) ||
    decide (listActiveNativeReceiveOperations repo ≠ []) ||
    repo.repositoryReadLeases.any fun reader =>
      decide (reader.operation = .snapshotProjection) &&
        decide (now < reader.expiresAt)

/-- The row of the output of a coordinated collection. -/
def GcSnapshot.outputRow (source : GcSnapshot) (packKey : String)
    (result : NativeProcessResult) (now : Nat) : PackCatalogRow :=
  { packKey := packKey
    kind := .compact
    state := .active
    tier := (source.sourcePacks.map PackCatalogRow.tier).foldl max 0 + 1
    seqLo :=
      (source.sourcePacks.map PackCatalogRow.seqLo).foldl min
        ((source.sourcePacks.head?.map PackCatalogRow.seqLo).getD 0)
    seqHi := (source.sourcePacks.map PackCatalogRow.seqHi).foldl max 0
    objectCount := result.objectCount
    packBytes := result.packBytes
    idxBytes := result.idxBytes
    createdAt := now
    supersededBy := none }

/-- The row a coordinated commit keeps or activates. -/
def GcOperation.targetRow (operation : GcOperation) (source : GcSnapshot)
    (now : Nat) : Option PackCatalogRow :=
  match operation.nativeResult with
  | some result => some (source.outputRow operation.outputPackKey result now)
  | none =>
    source.sourcePacks.find? fun row =>
      some row.packKey = operation.retainedPackKey

def GcOperation.supersededKeys (source : GcSnapshot)
    (coordination : GcCoordination) (target : Option PackCatalogRow) :
    List String :=
  (source.sourcePacks.map PackCatalogRow.packKey).filter fun key =>
    decide (some key ≠ target.map PackCatalogRow.packKey) &&
      decide (key ∉ coordination.retainedSourcePackKeys)

/-- Why a coordinated commit is put off. -/
def RepoState.coordinatedRefusal (repo : RepoState) (now : Nat)
    (operation : GcOperation) (source : GcSnapshot)
    (coordination : GcCoordination) (closure : GcClosure) :
    Option GcRetryReason :=
  if repo.receiveForbidsGc now then
    some .receiveActive
  else if repo.refsVersion ≠ coordination.refsVersion then
    some .refsChanged
  else if repo.snapshotPinVersion ≠ coordination.snapshotPinVersion then
    some .pinsChanged
  else if repo.packsetVersion ≠ coordination.packsetVersion then
    some .packsetChanged
  else if !rowsMatchForCommit source.sourcePacks
      (currentSourceRows repo.packCatalog source.sourcePacks) then
    some .sourceChanged
  else if operation.nativeResult.isSome &&
      !(repo.reachabilityGcPending.any fun pending =>
        decide (pending.token = source.token) &&
          decide (pending.packKey = operation.outputPackKey)) then
    some .pendingMismatch
  else if (operation.targetRow source now).isNone &&
      decide (closure.objectCount ≠ 0) then
    some .sourceChanged
  else
    none

/-- The operation with its receipt, its claim and publication given up. -/
def GcOperation.published (operation : GcOperation)
    (coordination : GcCoordination) (commit : GcCommit) (now : Nat) :
    GcOperation :=
  { operation.retainReceipt commit now with
    coordination := some { coordination with publicationClaimId := none } }

/-- The catalog, the versions, the receipt and the release of a commit. -/
def RepoState.publishGc (repo : RepoState) (now : Nat) (operation : GcOperation)
    (source : GcSnapshot) (coordination : GcCoordination) :
    GcCommit × RepoState :=
  let target := operation.targetRow source now
  let superseded := GcOperation.supersededKeys source coordination target
  let changed :=
    decide (superseded ≠ []) || operation.nativeResult.isSome
  let generation := coordination.packsetVersion + if changed then 1 else 0
  let replaced :=
    if changed then
      let catalog :=
        replaceActivePackCatalog repo.packCatalog superseded target
      ((repo.setPackCatalog catalog).setPacksetVersion
        generation).setGenerationPublicationPending
          (some
            ⟨generation,
              (listActivePackCatalog catalog).map PackCatalogRow.packKey⟩)
    else
      repo
  let commit : GcCommit :=
    ⟨generation, superseded, target.map PackCatalogRow.packKey⟩
  (commit,
    ((replaced.setGcOperation
      (some (operation.published coordination commit now))).setCompactLease
        none).setReachabilityGcPending none)

def commitCoordinatedGc (operationId claimId : String) :
    RepoProgram CommitReachabilityGcResult :=
  transaction fun current =>
    let repo := current.repo
    let now := current.now
    match repo.gcOperation with
    | none => .ok (.retry .leaseMismatch, repo)
    | some operation =>
      if operation.id ≠ operationId then
        .ok (.retry .leaseMismatch, repo)
      else
        match operation.commit with
        | some commit => .ok (.committed commit, repo)
        | none =>
          if repo.repositoryDeleting then
            .ok (.retry .repositoryDeleting, repo)
          else
            match operation.snapshot, operation.coordination,
                operation.closure with
            | some source, some coordination, some closure =>
              if !operation.publishes claimId now ||
                  decide
                    (coordination.publicationClaimId ≠
                      some claimId) ||
                  !repo.holdsGcLease source.token now then
                .ok (.retry .leaseMismatch, repo)
              else
                match repo.coordinatedRefusal now operation source
                    coordination closure with
                | some reason => .ok (.retry reason, repo)
                | none =>
                  let published :=
                    repo.publishGc now operation source coordination
                  .ok (.committed published.1, published.2)
            | _, _, _ => .ok (.retry .leaseMismatch, repo)

/-- A prepared publication gets a turn before the next receive. -/
def helpPreparedGcPublication : RepoProgram Unit := do
  let current ← world
  match current.repo.gcOperation with
  | none => return ()
  | some operation =>
    match operation.coordination.bind GcCoordination.publicationClaimId with
    | none => return ()
    | some claimId =>
      if claimId ≠ "" ∧ operation.publishes claimId current.now then
        let _ ← commitCoordinatedGc operation.id claimId
        return ()

/-- Arm the publication of an operation that still holds its claim. -/
def armGcPublication (operationId claimId : String) : RepoProgram Unit :=
  transaction fun current =>
    match current.repo.gcOperation with
    | none => .ok ((), current.repo)
    | some operation =>
      match operation.coordination with
      | none => .ok ((), current.repo)
      | some coordination =>
        if operation.id = operationId ∧
            operation.publishes claimId current.now then
          .ok
            ((),
              current.repo.setGcOperation
                (some
                  { operation with
                    coordination :=
                      some
                        { coordination with
                          publicationClaimId := some claimId } }))
        else
          .ok ((), current.repo)

/-- The operands an older operation passes to the exclusive commit. -/
def GcOperation.commitArgs (operation : GcOperation) (source : GcSnapshot)
    (claimId : String) : CommitReachabilityGcArgs :=
  { token := source.token
    refsVersion := source.refsVersion
    packsetVersion := source.packsetVersion
    snapshotPinVersion := source.snapshotPinVersion
    sourcePacks := source.sourcePacks
    retainedPackKey := operation.retainedPackKey
    stagedPack :=
      operation.nativeResult.map fun result =>
        { packKey := operation.outputPackKey
          packBytes := result.packBytes
          idxBytes := result.idxBytes
          objectCount := result.objectCount }
    gcOperationId := some operation.id
    gcClaimId := some claimId }

/-- Record the output before a commit; a deletion stops it. -/
def stageGcOutput (operation : GcOperation) (source : GcSnapshot) :
    RepoProgram Bool := do
  match operation.nativeResult with
  | none => return true
  | some _ =>
    let pending ←
      recordReachabilityGcPendingState source.token operation.outputPackKey
    return decide (pending ≠ .repositoryDeleting)

def commitGcOperation (operationId claimId : String) :
    RepoProgram CommitReachabilityGcResult := do
  let current ← world
  match current.repo.gcOperation with
  | none => return .retry .leaseMismatch
  | some operation =>
    if operation.id ≠ operationId then
      return .retry .leaseMismatch
    else
      match operation.commit with
      | some commit => return .committed commit
      | none =>
        match operation.snapshot with
        | none => return .retry .leaseMismatch
        | some source =>
          if operation.closure.isNone ||
              !operation.publishes claimId current.now then
            return .retry .leaseMismatch
          else if ← stageGcOutput operation source then
            if operation.coordination.isSome then
              armGcPublication operationId claimId
              commitCoordinatedGc operationId claimId
            else
              commitReachabilityGcState
                (operation.commitArgs source claimId)
          else
            return .retry .repositoryDeleting

/-! ## Discarding and waking -/

/-- The run-owned keys of an operation. -/
def GcOperation.discardKeys (operation : GcOperation) : List String :=
  [operation.inputPackKey, operation.outputPackKey,
    packIndexKey operation.outputPackKey, packRefsKey operation.outputPackKey,
    operation.outputResultKey]

/-- The keys a claim holder may delete, if any. -/
def World.gcDiscardKeys (current : World) (operationId claimId : String) :
    Option (List String) :=
  let repo := current.repo
  let now := current.now
  match repo.gcOperation with
  | none => none
  | some operation =>
    if repo.repositoryDeleting || decide (operation.id ≠ operationId) ||
        decide (operation.phase ≠ .discard) || operation.commit.isSome ||
        !(operation.claim.any fun claim =>
          decide (claim.id = claimId) && decide (now < claim.expiresAt)) ||
        !(operation.discardAfter.any fun time => decide (time ≤ now)) then
      none
    else if (getPackCatalogRow repo.packCatalog
        operation.outputPackKey).isSome then
      none
    else if repo.reachabilityGcPending.any fun pending =>
        decide
            (some pending.token =
              operation.snapshot.map GcSnapshot.token) &&
          decide (pending.state = .committing) &&
          !(pending.safeCleanupAt.any fun time => decide (time ≤ now)) then
      none
    else
      some operation.discardKeys

def gcDiscardKeys (operationId claimId : String) :
    RepoProgram (Option (List String)) := do
  let current ← world
  return current.gcDiscardKeys operationId claimId

/-- The alarm renews the source lease of the running operation. -/
def resumeGcFromAlarm : RepoProgram Bool :=
  transaction fun current =>
    let repo := current.repo
    if repo.repositoryDeleting then
      .ok (false, repo)
    else
      match repo.gcOperation with
      | none => .ok (false, repo)
      | some operation =>
        if isGcTerminal operation then
          .ok (false, repo)
        else
          .ok
            (true,
              repo.setCompactLease
                (repo.compactLease.map fun lease =>
                  if some lease.token =
                        operation.snapshot.map GcSnapshot.token ∧
                      lease.operation = some .reachabilityGc then
                    { lease with
                      expiresAt := current.now + compactLeaseTtlMs }
                  else
                    lease))

end GitOnCloudflare.Repo
