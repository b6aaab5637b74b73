import GitOnCloudflare.Repo.Shared

/-!
# Compaction passes of a repository

A pass begins with a plan and a lease and ends with a commit.  The commit
checks the lease and that neither a receive nor a change of the catalog came
between, and then puts one row in the place of the sources.
-/

namespace GitOnCloudflare.Compaction

open Foundations
open Repo

/-! ## Begin -/

inductive CompactionBusyReason where
  | receiveActive
  | compactActive
  | recentActivity
  | repositoryDeleting
deriving DecidableEq

inductive CompactionNoWorkReason where
  | notRequested
  | belowThreshold
deriving DecidableEq

/-- What a pass works with. -/
structure CompactionPass where
  lease : RepoLease
  packsetVersion : Nat
  activeCatalog : List PackCatalogRow
  sourcePacks : List PackCatalogRow
  targetTier : Nat

inductive BeginCompactionResult where
  | ok (pass : CompactionPass)
  | busy (retryAfter : Nat) (reason : CompactionBusyReason) (message : String)
  | noWork (reason : CompactionNoWorkReason) (message : String)

inductive CompactionLeaseAcquisition where
  | acquired
  | busy (reason : CompactionBusyReason) (retryAfter : Nat)
  | noWork
deriving DecidableEq

def compactionLease (token : String) (now : Nat) : RepoLease where
  token := token
  createdAt := now
  expiresAt := now + compactLeaseTtlMs
  operation := some .compaction

/-- The transaction of `beginCompactionState`. -/
def acquireCompactionLease (lease : RepoLease) (now : Nat) (repo : RepoState) :
    CompactionLeaseAcquisition × RepoState :=
  if repo.repositoryDeleting then
    (.busy .repositoryDeleting leaseRetryAfterSeconds, repo)
  else if gcOwnsMaintenance repo.gcOperation then
    (.busy .compactActive leaseRetryAfterSeconds, repo)
  else if (activeLeaseOrUndefined repo.receiveLease now).isSome then
    (.busy .receiveActive leaseRetryAfterSeconds, repo)
  else if activeStockReceivePreparationLeases repo.stockReceivePreparationLeases
      now ≠ [] then
    (.busy .receiveActive leaseRetryAfterSeconds, repo)
  else if listActiveStockReceiveOperations repo ≠ [] then
    (.busy .receiveActive leaseRetryAfterSeconds, repo)
  else if (activeLeaseOrUndefined repo.compactLease now).isSome then
    (.busy .compactActive leaseRetryAfterSeconds, repo)
  else
    match repo.compactionWantedAt with
    | none => (.noWork, repo)
    | some wantedAt =>
      let startAt :=
        compactionStartAt wantedAt (repo.compactionPendingSince.getD wantedAt)
      if now < startAt then
        (.busy .recentActivity (max 1 ((startAt - now + 999) / 1000)), repo)
      else
        (.acquired, repo.setCompactLease (some lease))

def CompactionBusyReason.message : CompactionBusyReason → String
  | .repositoryDeleting =>
    "Repository deletion has started, so compaction cannot begin."
  | .receiveActive => "A receive lease is active, so compaction must retry later."
  | .recentActivity =>
    "Repository activity is still inside the bounded compaction quiet period."
  | .compactActive =>
    "A compaction lease is already active for this repository."

def notRequested : BeginCompactionResult :=
  .noWork .notRequested
    "No compaction request is currently recorded for this repository."

/-- Forget the request that was observed, unless a newer one has come in. -/
def clearObservedRequest (observedWantedAt : Nat) (repo : RepoState) :
    RepoState :=
  if repo.repositoryDeleting = false ∧
      repo.compactionWantedAt = some observedWantedAt then
    (repo.setCompactionWantedAt none).setCompactionPendingSince none
  else
    repo

/-- `token` is the random token of the lease. -/
def beginCompactionState (token : String) :
    RepoProgram BeginCompactionResult := do
  let repo ← get
  if repo.repositoryDeleting then
    return .busy leaseRetryAfterSeconds .repositoryDeleting
      CompactionBusyReason.repositoryDeleting.message
  else if gcOwnsMaintenance repo.gcOperation then
    return .busy leaseRetryAfterSeconds .compactActive
      "GC still owns its source catalog; compaction remains queued."
  else
    match repo.compactionWantedAt with
    | none => return notRequested
    | some observedWantedAt =>
      let now ← dateNow
      let activeCatalog := listActivePackCatalog repo.packCatalog
      match selectCompactionPlan activeCatalog with
      | none =>
        transaction fun current =>
          .ok ((), clearObservedRequest observedWantedAt current.repo)
        return .noWork .belowThreshold
          "The active pack catalog is already within the compaction policy."
      | some plan =>
        let lease := compactionLease token now
        match ← transaction fun current =>
            .ok (acquireCompactionLease lease now current.repo) with
        | .noWork => return notRequested
        | .busy reason retryAfter =>
          return .busy retryAfter reason reason.message
        | .acquired =>
          let repo ← get
          return .ok
            { lease
              packsetVersion := repo.packsetVersion
              activeCatalog
              sourcePacks := plan.sourcePacks
              targetTier := plan.targetTier }

/-! ## Commit -/

inductive CommitRetryReason where
  | receiveActive
  | leaseMismatch
  | packsetChanged
  | repositoryDeleting
  | sourceChanged
deriving DecidableEq

/-- What a commit answers. -/
structure CommittedCompaction where
  packCatalogVersion : Nat
  shouldRequeue : Bool
  supersededPackKeys : List String
  targetPackKey : String

inductive CommitCompactionResult where
  | committed (commit : CommittedCompaction)
  | retry (reason : CommitRetryReason) (message : String)

/-- The pack that was uploaded for the pass. -/
structure StagedCompaction where
  packKey : String
  packBytes : Nat
  idxBytes : Nat
  objectCount : Nat

/-- What a worker sends to commit its pass. -/
structure CommitCompactionArgs where
  token : String
  sourcePacks : List PackCatalogRow
  targetTier : Nat
  packsetVersion : Nat
  stagedPack : StagedCompaction

def CompactionPass.args (pass : CompactionPass) (stagedPack : StagedCompaction) :
    CommitCompactionArgs where
  token := pass.lease.token
  sourcePacks := pass.sourcePacks
  targetTier := pass.targetTier
  packsetVersion := pass.packsetVersion
  stagedPack := stagedPack

/-- Whether a commit may go on. -/
inductive CompactionFence where
  | held
  | leaseMismatch
  | repositoryDeleting
deriving DecidableEq

/-- The transaction that renews the lease of the pass. -/
def commitFence (token : String) (now : Nat) (repo : RepoState) :
    CompactionFence × RepoState :=
  if repo.repositoryDeleting then
    (.repositoryDeleting, repo)
  else if gcOwnsMaintenance repo.gcOperation then
    (.leaseMismatch, repo)
  else
    match repo.compactLease with
    | none => (.leaseMismatch, repo)
    | some lease =>
      if lease.token ≠ token ∨ lease.expiresAt ≤ now then
        (.leaseMismatch,
          if lease.token = token then repo.setCompactLease none else repo)
      else
        (.held,
          repo.setCompactLease
            (some { lease with expiresAt := now + compactLeaseTtlMs }))

/-- The checks behind the fence; each gives the lease up. -/
def commitConflict (args : CommitCompactionArgs) (now : Nat) (repo : RepoState) :
    Option (CommitRetryReason × String) :=
  if (activeLeaseOrUndefined repo.receiveLease now).isSome then
    some (.receiveActive,
      "A receive lease became active before compaction could commit.")
  else if activeStockReceivePreparationLeases repo.stockReceivePreparationLeases
      now ≠ [] then
    some (.receiveActive,
      "Stock receive input staging became active before compaction could commit.")
  else if listActiveStockReceiveOperations repo ≠ [] then
    some (.receiveActive,
      "Stock receive preparation became active before compaction could commit.")
  else if repo.packsetVersion ≠ args.packsetVersion then
    some (.packsetChanged,
      "The active pack catalog changed before compaction could commit.")
  else if !rowsMatchForCommit args.sourcePacks
      (currentSourceRows repo.packCatalog args.sourcePacks) then
    some (.sourceChanged,
      "One or more source packs changed before compaction could commit.")
  else
    none

/-- The row of the staged pack. -/
def CommitCompactionArgs.targetRow (args : CommitCompactionArgs) (now : Nat) :
    PackCatalogRow where
  packKey := args.stagedPack.packKey
  kind := .compact
  state := .active
  tier := args.targetTier
  seqLo :=
    (args.sourcePacks.map PackCatalogRow.seqLo).foldl min
      ((args.sourcePacks.head?.map PackCatalogRow.seqLo).getD 0)
  seqHi :=
    (args.sourcePacks.map PackCatalogRow.seqHi).foldl max
      ((args.sourcePacks.head?.map PackCatalogRow.seqHi).getD 0)
  objectCount := args.stagedPack.objectCount
  packBytes := args.stagedPack.packBytes
  idxBytes := args.stagedPack.idxBytes
  createdAt := now
  supersededBy := none

/-- Keep or clear the request, by what is left to do. -/
def rescheduleCompaction (shouldRequeue : Bool) : RepoProgram Unit := do
  if shouldRequeue then
    let repo ← get
    match repo.compactionWantedAt with
    | none =>
      let now ← dateNow
      markCompactionActivity now
    | some wantedAt =>
      if repo.compactionPendingSince = none then
        put fun repo => repo.setCompactionPendingSince (some wantedAt)
  else
    clearCompactionSchedule

/-- Everything behind the checks. -/
def activateTarget (args : CommitCompactionArgs) :
    RepoProgram CommitCompactionResult := do
  let sourceKeys := args.sourcePacks.map PackCatalogRow.packKey
  let now ← dateNow
  put fun repo =>
    repo.setPackCatalog
      (upsertPackCatalogRow repo.packCatalog (args.targetRow now))
  put fun repo =>
    repo.setPackCatalog
      (supersedePackCatalogRows repo.packCatalog sourceKeys
        (some args.stagedPack.packKey))
  let repo ← get
  let activeCatalog := listActivePackCatalog repo.packCatalog
  let nextPackCatalogVersion ← bumpPacksetVersion
  put fun repo =>
    repo.setGenerationPublicationPending
      (some
        { generation := nextPackCatalogVersion
          activePackKeys := activeCatalog.map PackCatalogRow.packKey })
  let shouldRequeue := catalogNeedsCompaction activeCatalog
  rescheduleCompaction shouldRequeue
  put fun repo => repo.setCompactLease none
  return .committed
    { packCatalogVersion := nextPackCatalogVersion
      shouldRequeue
      supersededPackKeys := sourceKeys
      targetPackKey := args.stagedPack.packKey }

/-- Check the fence and sources, then switch the rows. -/
def commitCompactionState (args : CommitCompactionArgs) :
    RepoProgram CommitCompactionResult := do
  match ← transaction fun current =>
      .ok (commitFence args.token current.now current.repo) with
  | .repositoryDeleting =>
    return .retry .repositoryDeleting
      "Repository deletion started before compaction could commit."
  | .leaseMismatch =>
    return .retry .leaseMismatch
      "Compaction lease is no longer active for this request."
  | .held =>
    let repo ← get
    let now ← dateNow
    match commitConflict args now repo with
    | some (reason, message) =>
      put fun repo => repo.setCompactLease none
      return .retry reason message
    | none => activateTarget args

end GitOnCloudflare.Compaction
