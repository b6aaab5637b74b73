import GitOnCloudflare.Repo.ReceiveFinalize

/-!
# Reconciling and resuming a receive

A worker that lost the answer of a finalization asks `reconcileReceiveState`
for its outcome, and the alarm resumes an interrupted finalization from its
durable intent.
-/

namespace GitOnCloudflare.Repo

open Foundations
open Receive

structure ReconcileReceiveArgs where
  token : String
  commands : List ReceiveCommand
  stagedPackKey : Option String
  ingestionReceipt : Option IngestionReceipt

inductive ReconcileReceiveResult where
  | committed (result : CommittedReceive)
  | aborted
  | unknown
deriving DecidableEq

/-- The arguments with which a durable intent is resumed. -/
def ReceiveFinalizeIntent.args (intent : ReceiveFinalizeIntent) :
    FinalizeReceiveArgs :=
  { token := intent.token
    commands := intent.commands
    stagedPack := intent.stagedPack
    ingestionReceipt := intent.ingestionReceipt
    acceptedWrites := acceptedWriteFactsForIntent intent }

/-- An outcome without the publication, as reconciliation reports it. -/
def ReceiveCommitOutcome.reconciled (outcome : ReceiveCommitOutcome) :
    CommittedReceive :=
  { outcome.result with refPublication := none }

def reconcileCommitted (args : ReconcileReceiveArgs)
    (outcome : ReceiveCommitOutcome) :
    RepoProgram ReconcileReceiveResult := do
  storeReceiveOutcome outcome
  storeOptionalReceipt args.ingestionReceipt
  queueCompaction outcome.shouldQueueCompaction
  clearMatchingReceiveLease args.token
  return .committed outcome.reconciled

def reconcileIntent (intent : ReceiveFinalizeIntent) :
    RepoProgram ReconcileReceiveResult := do
  match ← finalizeReceiveState intent.args with
  | .committed result => return .committed result
  | .refConflict _ _ => return .aborted
  | .leaseMismatch _ => return .unknown

/-- Whether the refs already are where the commands would put them. -/
def refsMatchCommands (refs : List Ref) (commands : List ReceiveCommand) :
    Bool :=
  commands.all fun command =>
    let current :=
      (refs.find? fun ref => ref.name = command.ref).map Ref.oid
    if isZeroOid command.newOid then
      decide (current = none)
    else
      decide (current = some command.newOid)

def reconciledResult (repo : RepoState) (commands : List ReceiveCommand) :
    CommittedReceive :=
  { statuses := commands.map fun command => ⟨command.ref, true, none⟩
    changed := commands ≠ []
    empty := repo.refs = []
    shouldQueueCompaction :=
      catalogNeedsCompaction (listActivePackCatalog repo.packCatalog)
    outputValidationBytes := 0
    outputValidationRequests := 0
    outputEtags := none
    refPublication := none }

/-- Decide a receive that left neither an outcome nor an intent. -/
def reconcileWithoutIntent (args : ReconcileReceiveArgs) :
    RepoProgram ReconcileReceiveResult := do
  let repo ← get
  if !repo.receiveLease.any fun lease => lease.token = args.token then
    return .unknown
  else
    let stagedPackActive :=
      match args.stagedPackKey with
      | some key =>
        (listActivePackCatalog repo.packCatalog).any fun pack =>
          pack.packKey = key
      | none => true
    if refsMatchCommands repo.refs args.commands && stagedPackActive then
      let result := reconciledResult repo args.commands
      storeReceiveOutcome (result.outcome args.token)
      storeOptionalReceipt args.ingestionReceipt
      deleteReceiveLease
      return .committed result
    else if args.stagedPackKey.isSome && stagedPackActive then
      return .unknown
    else
      deleteReceiveLease
      return .aborted

def reconcileReceiveState (args : ReconcileReceiveArgs) :
    RepoProgram ReconcileReceiveResult := do
  let repo ← get
  let outcome := repo.receiveOutcome args.token
  let intent := repo.receiveFinalizeIntent args.token
  let held ←
    holdReceiveCompletionFence args.token (intent.isSome || outcome.isSome)
  if !held then
    return .unknown
  else
    match outcome, intent with
    | some outcome, _ => reconcileCommitted args outcome
    | none, some intent => reconcileIntent intent
    | none, none => reconcileWithoutIntent args

/-! ## The alarm -/

def recoveryEscalationAttempts : Nat := 5

/-- Count a failed recovery on the intent that is still durable. -/
def countRecoveryAttempt (token : String) : RepoProgram Unit :=
  transaction fun current =>
    match current.repo.receiveFinalizeIntent token with
    | none => .ok ((), current.repo)
    | some intent =>
      let attempts := intent.recoveryAttempts + 1
      .ok
        ((),
          current.repo.setFinalizeIntent token
            (some
              { intent with
                recoveryAttempts := attempts
                recoveryEscalated :=
                  intent.recoveryEscalated ||
                    recoveryEscalationAttempts ≤ attempts }))

def resumeReceiveFinalizeFromAlarm : RepoProgram Bool := do
  let repo ← get
  match repo.receiveLease with
  | none => return false
  | some lease =>
    match repo.receiveFinalizeIntent lease.token with
    | none => return false
    | some intent =>
      Program.handle
        (do
          let _ ← finalizeReceiveState intent.args
          return ())
        (fun _ => countRecoveryAttempt intent.token)
      return true

end GitOnCloudflare.Repo
