import GitOnCloudflare.Repo.ReceiveFinalize

/-!
# The ref transaction of a stock receive

A stock receive publishes its refs in one transaction together with the
versions, the accepted writes, the outcome and its own next state.
-/

namespace GitOnCloudflare.Repo

open Receive

/-- What a stock receive brings to its ref transaction.  The refs were read
before the proof of the prepared output was checked. -/
structure StockRefUpdate where
  operation : NativeReceiveOperation
  finalizing : NativeReceiveOperation
  commands : List ReceiveCommand
  acceptedWrites : List AcceptedWriteFact
  currentRefs : List Ref
  refsVersion : Nat
  packSequence : Nat
  packsetVersion : Nat
  stagedPack : Option StagedPack
  intent : ReceiveFinalizeIntent
  outcome : ReceiveCommitOutcome
  committedAt : Nat

def StockRefUpdate.nextRefs (update : StockRefUpdate) : List Ref :=
  applyReceiveCommands update.currentRefs update.commands

/-- The checks of the finalizing call before its transaction. -/
def StockRefUpdate.admitted (update : StockRefUpdate) : Bool :=
  update.commands.length = 1 &&
    update.commands.all (fun command => isValidRefName command.ref) &&
    acceptedWritesMatchCommands update.commands update.acceptedWrites &&
    update.intent.expectedRefsVersion = update.refsVersion &&
    update.intent.nextRefsVersion = update.refsVersion + 1

/-- The durable state the transaction was prepared for. -/
def stockAuthorityHolds (repo : RepoState) (update : StockRefUpdate) : Bool :=
  ((repo.nativeReceiveOperation update.operation.id).any fun durable =>
      durable.state = .ready &&
        durable.fingerprint = update.operation.fingerprint &&
        durable.claimId = update.operation.claimId) &&
    ((repo.receiveFinalizeIntent update.operation.leaseToken).any
      fun durableIntent =>
        durableIntent.createdAt = update.intent.createdAt) &&
    repo.refsVersion = update.refsVersion &&
    (validateReceiveCommands repo.refs update.commands).all
      (fun status => status.ok)

def storeStockRefs (repo : RepoState) (update : StockRefUpdate) : RepoState :=
  { repo with
    refs := update.nextRefs
    head := some update.intent.nextHead
    refsVersion := update.intent.nextRefsVersion
    nextPackSeq :=
      if update.stagedPack.isSome then update.packSequence + 1
      else repo.nextPackSeq
    packsetVersion :=
      if update.stagedPack.isSome then update.packsetVersion + 1
      else repo.packsetVersion }

/-- The records that follow the accepted writes. -/
def finishStockRefs (repo : RepoState) (update : StockRefUpdate) : RepoState :=
  { repo with
    receiveOutcome :=
      Function.update repo.receiveOutcome update.operation.leaseToken
        (some update.outcome)
    nativeReceiveOperation :=
      Function.update repo.nativeReceiveOperation update.operation.id
        (some update.finalizing)
    receiveLease :=
      repo.receiveLease.filter fun lease =>
        lease.token ≠ update.operation.leaseToken
    compactionWantedAt :=
      if update.outcome.shouldQueueCompaction then some update.committedAt
      else repo.compactionWantedAt
    compactionPendingSince :=
      if update.outcome.shouldQueueCompaction then
        some (repo.compactionPendingSince.getD update.committedAt)
      else repo.compactionPendingSince }

def commitStockRefs (repo : RepoState) (update : StockRefUpdate) :
    Except RepoFailure (Bool × RepoState) :=
  if !stockAuthorityHolds repo update then
    .ok (false, repo)
  else
    let stored := storeStockRefs repo update
    match advanceGcReceiveVersions stored update.refsVersion
        update.intent.nextRefsVersion
        (update.stagedPack.map fun _ => update.packsetVersion + 1)
        repo.snapshotPinVersion repo.snapshotPinVersion with
    | .error failure => .error failure
    | .ok advanced =>
      match recordAcceptedWrites advanced update.intent.nextRefsVersion
          update.acceptedWrites update.intent.createdAt true none with
      | .error failure => .error failure
      | .ok (_, recorded) => .ok (true, finishStockRefs recorded update)

end GitOnCloudflare.Repo
