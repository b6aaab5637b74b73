import Mathlib.Logic.Function.Basic
import GitOnCloudflare.Foundations.ObjectRuntime
import GitOnCloudflare.Receive.Commands

/-!
# Durable state of one repository

The typed storage schema of the repository object and its pack catalog table.
Keys of a template family are functions of the template's argument, and a
version counter that was never written reads as the default every reader of
it uses.  Alarms, logs and the fields no modelled function reads are left
out.
-/

namespace GitOnCloudflare.Repo

open Foundations
open Receive

/-! ## Leases -/

inductive LeaseOperation where
  | receive
  | compaction
  | reachabilityGc
  | packRefBackfill
  | generationPublication
deriving DecidableEq

structure RepoLease where
  token : String
  createdAt : Nat
  expiresAt : Nat
  operation : Option LeaseOperation := none

structure StockReceiveRecoveryLease extends RepoLease where
  operationId : String

inductive RepositoryReadOperation where
  | gitFetch
  | snapshotRead
  | snapshotProjection
deriving DecidableEq

structure RepositoryReadLease where
  token : String
  createdAt : Nat
  expiresAt : Nat
  operation : RepositoryReadOperation

structure NativeCatalogReaderLease where
  token : String
  createdAt : Nat
  expiresAt : Nat
  generation : Nat

/-! ## Pack catalog rows -/

inductive PackKind where
  | receive
  | compact
  | legacy
deriving DecidableEq

inductive PackState where
  | active
  | superseded
deriving DecidableEq

structure PackCatalogRow where
  packKey : String
  kind : PackKind
  state : PackState
  tier : Nat
  seqLo : Nat
  seqHi : Nat
  objectCount : Nat
  packBytes : Nat
  idxBytes : Nat
  createdAt : Nat
  supersededBy : Option String
deriving DecidableEq

/-- The catalog table: at most one row for each pack key. -/
abbrev PackCatalog := KeyedList PackCatalogRow.packKey

/-! ## Accepted writes and snapshots -/

inductive AcceptedWriteSource where
  | gitPush
  | ingestion
  | importSource
deriving DecidableEq

structure AcceptedWriteFact where
  repositoryId : String
  ref : String
  beforeSha : String
  afterSha : String
  actor : String
  sourceSurface : AcceptedWriteSource
  idempotencyKey : Option String

structure AcceptedWriteContext where
  repositoryId : String
  actor : String
  sourceSurface : AcceptedWriteSource
  idempotencyKey : Option String
deriving DecidableEq

/-- The journal key of a write: its sequence number and its ref. -/
structure AcceptedWriteJournalId where
  sequence : Nat
  ref : String
deriving DecidableEq

structure AcceptedWriteJournalEntry where
  sequence : Nat
  fact : AcceptedWriteFact
  acceptedAt : Nat
  materializedAt : Option Nat

structure AcceptedWriteHead where
  ref : String
  beforeSha : String
  afterSha : String
  sequence : Nat

structure MaterializedSnapshot where
  commitSha : String
  firstSequence : Nat
  materializedAt : Nat

/-- Where a pinned snapshot came from. -/
inductive SnapshotPinSource where
  | accepted (source : AcceptedWriteSource)
  | reconcile
deriving DecidableEq

structure SnapshotPin where
  commitSha : String
  treeSha : String
  ref : String
  beforeSha : String
  firstSequence : Nat
  acceptedAt : Nat
  actor : String
  sourceSurface : SnapshotPinSource
  idempotencyKey : Option String
  qualificationOwned : Bool

structure ReleasedSnapshot where
  commitSha : String
  releasedAt : Nat
  qualificationOwned : Bool

structure SnapshotCurrent where
  ref : String
  commitSha : String
  sequence : Nat
  updatedAt : Nat
deriving DecidableEq

/-! ## Receive finalization -/

structure IngestionReceipt where
  keyHash : String
  fingerprint : String
  acceptedWrite : AcceptedWriteFact
  treeSha : String
  createdAt : Nat

structure StagedPackIntegrity where
  packSha256 : String
  idxSha256 : String
  refsSha256 : String
  refsBytes : Nat
  packEtag : Option String
  idxEtag : Option String
  refsEtag : Option String
deriving DecidableEq

structure StagedPack where
  packKey : String
  packBytes : Nat
  idxBytes : Nat
  objectCount : Nat
  integrity : Option StagedPackIntegrity

structure OutputEtags where
  pack : String
  idx : String
  refs : String
deriving DecidableEq

structure Head where
  target : String
  oid : Option String
  unborn : Bool

structure ReceiveRefPublication where
  publishedAt : Nat
  refsVersion : Nat
deriving DecidableEq

structure ReceiveCommitOutcome where
  token : String
  statuses : List ReceiveStatus
  changed : Bool
  empty : Bool
  shouldQueueCompaction : Bool
  outputValidationBytes : Nat
  outputValidationRequests : Nat
  outputEtags : Option OutputEtags
  refPublication : Option ReceiveRefPublication

structure ReceiveFinalizeIntent where
  token : String
  refPublication : Option ReceiveRefPublication
  commands : List ReceiveCommand
  expectedRefsVersion : Nat
  nextHead : Head
  nextRefsVersion : Nat
  stagedPack : Option StagedPack
  packSequence : Option Nat
  nextPacksetVersion : Option Nat
  ingestionReceipt : Option IngestionReceipt
  acceptedWriteContext : Option AcceptedWriteContext
  recoveryAttempts : Nat
  recoveryEscalated : Bool
  createdAt : Nat

/-! ## Native receive operations -/

inductive NativeReceiveState where
  | staged
  | processing
  | ready
  | finalizing
  | committed
  | aborted
  | failed
deriving DecidableEq

structure NativeReceiveOperation where
  id : String
  leaseToken : String
  fingerprint : String
  state : NativeReceiveState
  stockReceive : Bool
  activeCatalog : List PackCatalogRow
  catalogGeneration : Nat
  createdAt : Nat
  updatedAt : Nat
  attempts : Nat
  claimId : Option String
  claimExpiresAt : Option Nat
  errorCode : Option String

def isNativeReceiveTerminal (state : NativeReceiveState) : Bool :=
  state = .committed || state = .aborted || state = .failed

/-! ## Garbage collection operations -/

inductive GcPhase where
  | queued
  | rewrite
  | index
  | publish
  | reclaim
  | discard
  | complete
  | blocked
deriving DecidableEq

inductive GcFault where
  | afterRewrite
  | duringNative
  | beforePublication
  | afterPublication
deriving DecidableEq

/-- The deadline, the planned faults and whether a reader is held. -/
structure GcQualificationState where
  deadlineAt : Nat
  faults : List GcFault
  reader : Bool

structure GcSnapshot where
  token : String
  refs : List Ref
  snapshotPinOids : List String
  snapshotPinVersion : Nat
  refsVersion : Nat
  packsetVersion : Nat
  sourcePacks : List PackCatalogRow

structure GcClosure where
  objectCount : Int
  objectSetSha256 : String

structure GcRewriteIdentity where
  packBytes : Int
  packSha1 : String
deriving DecidableEq

structure GcRewrite extends GcRewriteIdentity where
  etag : String

/-- The part of the native processor's result that garbage collection reads. -/
structure NativeProcessResult where
  operationId : String
  packSha1 : String
  packBytes : Nat
  idxBytes : Nat
  objectCount : Nat
  maintenanceObjectSetSha256 : Option String

structure GcCommit where
  packCatalogVersion : Nat
  supersededPackKeys : List String
  targetPackKey : Option String

structure GcClaim where
  id : String
  expiresAt : Nat
  safeRetryAt : Nat

inductive GcRetentionReason where
  | newSourceReachability
  | metadataUnavailable
deriving DecidableEq

structure GcCoordination where
  refsVersion : Nat
  packsetVersion : Nat
  snapshotPinVersion : Nat
  retainedSourcePackKeys : List String
  conservativeRetentionReason : Option GcRetentionReason
  publicationClaimId : Option String
  acceptedReceives : Nat

structure GcPhaseMeasurement where
  attempts : Nat
  startedAt : Nat
  completedAt : Option Nat
  elapsedMs : Option Nat

inductive GcStep where
  | closurePlanning
  | rewriteSelection
  | rewriteUpload
  | outputValidation
  | generationPublication
deriving DecidableEq

structure GcStepMeasurement where
  completedAttempts : Nat
  elapsedMs : Int
  observedRequests : Option Int
  writtenBytes : Option Int

/-- Why an operation was given up. -/
inductive GcBlockedReason where
  | sourceChanged
  | nativeRejected
  | rewriteRejected
  | qualificationDeadline
  | operationDeadline
  | reported (reason : String)
deriving DecidableEq

structure GcOperation where
  id : String
  repositoryId : String
  phase : GcPhase
  createdAt : Nat
  updatedAt : Nat
  claim : Option GcClaim
  snapshot : Option GcSnapshot
  coordination : Option GcCoordination
  closure : Option GcClosure
  retainedPackKey : Option String
  inputPackKey : String
  outputPackKey : String
  outputResultKey : String
  rewriteIntent : Option GcRewriteIdentity
  rewrite : Option GcRewrite
  nativeResult : Option NativeProcessResult
  commit : Option GcCommit
  blockedReason : Option GcBlockedReason
  discardAfter : Option Nat
  qualification : Option GcQualificationState
  measurements : GcPhase → Option GcPhaseMeasurement
  stepMeasurements : GcStep → Option GcStepMeasurement

inductive GcPendingState where
  | staged
  | committing
  | cleanup
deriving DecidableEq

structure ReachabilityGcPending where
  token : String
  packKey : String
  state : GcPendingState
  safeCleanupAt : Option Nat

structure GenerationPublicationPending where
  generation : Nat
  activePackKeys : List String

/-! ## The repository -/

structure RepoState where
  refs : List Ref := []
  head : Option Head := none
  refsVersion : Nat := 0
  packsetVersion : Nat := 0
  nextPackSeq : Nat := 1
  snapshotPinVersion : Nat := 0
  packCatalog : PackCatalog := KeyedList.empty
  generationPublicationPending : Option GenerationPublicationPending := none
  nativeCatalogReaderGenerationFloor : Option Nat := none
  receiveLease : Option RepoLease := none
  stockReceivePreparationLeases : List RepoLease := []
  stockReceivePublicationLease : Option RepoLease := none
  stockReceiveRecoveryLease : Option StockReceiveRecoveryLease := none
  nativeCatalogReaderLease : Option NativeCatalogReaderLease := none
  repositoryReadLeases : List RepositoryReadLease := []
  compactLease : Option RepoLease := none
  snapshotMaterializationLeases : List RepoLease := []
  repositoryDeleting : Bool := false
  compactionWantedAt : Option Nat := none
  compactionPendingSince : Option Nat := none
  receiveFinalizeIntent : String → Option ReceiveFinalizeIntent :=
    fun _ => none
  receiveOutcome : String → Option ReceiveCommitOutcome := fun _ => none
  receiveOutcomeIndex : List String := []
  ingestionReceipt : String → Option IngestionReceipt := fun _ => none
  ingestionReceiptIndex : List String := []
  acceptedWriteHead : String → Option AcceptedWriteHead := fun _ => none
  acceptedWriteJournal :
      AcceptedWriteJournalId → Option AcceptedWriteJournalEntry :=
    fun _ => none
  snapshotPins : KeyedList SnapshotPin.commitSha := KeyedList.empty
  releasedSnapshot : String → Option ReleasedSnapshot := fun _ => none
  materializedSnapshot : String → Option MaterializedSnapshot :=
    fun _ => none
  snapshotCurrent : String → Option SnapshotCurrent := fun _ => none
  nativeReceiveOperation : String → Option NativeReceiveOperation :=
    fun _ => none
  nativeReceiveOperationIndex : List String := []
  gcOperation : Option GcOperation := none
  gcAdmission : List String := []
  reachabilityGcPending : Option ReachabilityGcPending := none

/-- The identity of the object and the two settings the receive path reads. -/
structure DeploymentSettings where
  doId : String := ""
  snapshotEventProbeEnabled : Bool := false
  qualificationMode : Bool := false

/--
The repository at one time of its clock.  A stretch of a call between two
waits on the bucket runs at one clock reading.
-/
structure World where
  repo : RepoState
  now : Nat
  settings : DeploymentSettings := {}

/-- One storage write leaves the clock and the settings alone. -/
def World.withRepo (current : World) (repo : RepoState) : World :=
  { current with repo := repo }

def World.update (current : World) (write : RepoState → RepoState) : World :=
  current.withRepo (write current.repo)

@[simp]
theorem World.withRepo_repo (current : World) (repo : RepoState) :
    (current.withRepo repo).repo = repo :=
  rfl

@[simp]
theorem World.withRepo_now (current : World) (repo : RepoState) :
    (current.withRepo repo).now = current.now :=
  rfl

/-! ## Single writes -/

namespace RepoState

def setReceiveLease (repo : RepoState) (lease : Option RepoLease) : RepoState :=
  { repo with receiveLease := lease }

def setCompactLease (repo : RepoState) (lease : Option RepoLease) : RepoState :=
  { repo with compactLease := lease }

def setPackCatalog (repo : RepoState) (catalog : PackCatalog) : RepoState :=
  { repo with packCatalog := catalog }

def setNextPackSeq (repo : RepoState) (next : Nat) : RepoState :=
  { repo with nextPackSeq := next }

def setPacksetVersion (repo : RepoState) (version : Nat) : RepoState :=
  { repo with packsetVersion := version }

def setCompactionWantedAt (repo : RepoState) (time : Option Nat) : RepoState :=
  { repo with compactionWantedAt := time }

def setCompactionPendingSince (repo : RepoState) (time : Option Nat) :
    RepoState :=
  { repo with compactionPendingSince := time }

def setGenerationPublicationPending (repo : RepoState)
    (pending : Option GenerationPublicationPending) : RepoState :=
  { repo with generationPublicationPending := pending }

def setFinalizeIntent (repo : RepoState) (token : String)
    (intent : Option ReceiveFinalizeIntent) : RepoState :=
  { repo with
    receiveFinalizeIntent :=
      Function.update repo.receiveFinalizeIntent token intent }

def setReceiveOutcomes (repo : RepoState)
    (outcomes : String → Option ReceiveCommitOutcome) (index : List String) :
    RepoState :=
  { repo with receiveOutcome := outcomes, receiveOutcomeIndex := index }

def setIngestionReceipts (repo : RepoState)
    (receipts : String → Option IngestionReceipt) (index : List String) :
    RepoState :=
  { repo with ingestionReceipt := receipts, ingestionReceiptIndex := index }

def setGcOperation (repo : RepoState) (operation : Option GcOperation) :
    RepoState :=
  { repo with gcOperation := operation }

def setGcAdmission (repo : RepoState) (admission : List String) : RepoState :=
  { repo with gcAdmission := admission }

def setReachabilityGcPending (repo : RepoState)
    (pending : Option ReachabilityGcPending) : RepoState :=
  { repo with reachabilityGcPending := pending }

def setRepositoryReadLeases (repo : RepoState)
    (leases : List RepositoryReadLease) : RepoState :=
  { repo with repositoryReadLeases := leases }

end RepoState

/-! ## Failures and bucket requests -/

inductive OutputRole where
  | pack
  | index
  | references
deriving DecidableEq

/-- The errors thrown by the modelled calls. -/
inductive RepoFailure where
  | outputExceedsBound (role : OutputRole)
  | outputIntegrityMismatch (role : OutputRole)
  | outputExceededDeclaredSize (role : OutputRole)
  | outputTruncated (role : OutputRole)
  | outputDigestMismatch (role : OutputRole)
  | acceptedWriteContextMixed
  | acceptedWritesMismatch
  | retryDoesNotMatchIntent
  | packMetadataMismatch
  | missingPackSequence
  | refsDiverged
  | snapshotPinMismatch
  | journalIdentityConflict
  | snapshotCurrentConflict
  | receiptFingerprintConflict
  | gcProtectionChanged
  | gcVersionsDiverged
  | journalEntryMismatch
  | gcCommitWithoutOwner
  | gcInvalidActivePackCount
  | storage
deriving DecidableEq

/-- One object of the bucket as a reader sees it. -/
structure R2Object where
  size : Nat
  sha256Metadata : Option String
  etag : String
  bodyBytes : Nat
  bodySha256 : String

/-- One entry of a pack as its index, its reference sidecar and its header
describe it. -/
structure PackObjectView where
  oid : String
  refs : List String
  baseOid : Option String

/-- The logical view of one pack. -/
structure PackRefView where
  packKey : String
  objects : List PackObjectView

/-- What a repository call asks the bucket. -/
inductive R2Request where
  | get (key : String)
  | delete (keys : List String)
  | packRefViews (packKeys : List String)
deriving DecidableEq

/-- The answers: an object, whether a delete succeeded, or every view. -/
def R2Answer : R2Request → Type
  | .get _ => Option R2Object
  | .delete _ => Bool
  | .packRefViews _ => Option (List PackRefView)

/-- A call on the repository object. -/
abbrev RepoProgram := Program World R2Request R2Answer RepoFailure

/-- Read the repository and the clock. -/
def world : RepoProgram World := Program.observe id

/-- Read the repository. -/
def get : RepoProgram RepoState := Program.observe World.repo

/-- The current time. -/
def dateNow : RepoProgram Nat := Program.observe World.now

/-- One separately committed storage write. -/
def put (write : RepoState → RepoState) : RepoProgram Unit :=
  Program.modify fun current => current.update write

/-- A storage transaction: it fails without a write or commits at once. -/
def transaction {Value : Type}
    (body : World → Except RepoFailure (Value × RepoState)) :
    RepoProgram Value :=
  Program.transaction fun current =>
    match body current with
    | .ok (value, repo) => .ok (value, current.withRepo repo)
    | .error failure => .error failure

/-- Read one object of the bucket. -/
def r2Get (key : String) : RepoProgram (Option R2Object) :=
  Program.ask (R2Request.get key)

/-- Load the logical views of packs, or fail to load one of them. -/
def r2PackRefViews (packKeys : List String) :
    RepoProgram (Option (List PackRefView)) :=
  Program.ask (R2Request.packRefViews packKeys)

def throw {Value : Type} (failure : RepoFailure) : RepoProgram Value :=
  Program.fail failure

/-- While a call waits alone, only the clock moves. -/
def ClockDrift (current later : World) : Prop :=
  later.repo = current.repo ∧ later.settings = current.settings ∧
    current.now ≤ later.now

/-- Every answer of the bucket is possible. -/
def AnyAnswer (request : R2Request) (_ : R2Answer request) (_ : World) : Prop :=
  True

/-- The runs of one call that no other call interferes with. -/
abbrev RunsAlone {Value : Type} (program : RepoProgram Value)
    (current last : World) (result : Option (Except RepoFailure Value)) :
    Prop :=
  program.Runs AnyAnswer ClockDrift current last result

variable {Value : Type}

theorem runs_transaction_inv
    {body : World → Except RepoFailure (Value × RepoState)}
    {current last : World} {value : Value}
    (ran : RunsAlone (transaction body) current last (some (.ok value))) :
    ∃ repo, body current = .ok (value, repo) ∧
      last = current.withRepo repo := by
  cases ran with
  | read ran =>
    cases outcome : body current with
    | error failure =>
      simp only [outcome] at ran
      cases ran
    | ok result =>
      obtain ⟨output, repo⟩ := result
      simp only [outcome] at ran
      cases ran with
      | commit ran =>
        cases ran with
        | done value state => exact ⟨repo, rfl, rfl⟩

/-- Every wait of a call can be answered. -/
theorem exists_runAlone (program : RepoProgram Value) (current : World) :
    ∃ last result, RunsAlone program current last (some result) := by
  refine Program.exists_run (fun state => ⟨rfl, rfl, le_refl _⟩) ?_ program
    current
  intro request state
  cases request with
  | get key => exact ⟨(none : Option R2Object), trivial⟩
  | delete keys => exact ⟨true, trivial⟩
  | packRefViews keys => exact ⟨(none : Option (List PackRefView)), trivial⟩

/-! ## The calculus at repository programs -/

section Calculus

variable {honest : (request : R2Request) → R2Answer request → World → Prop}
variable {keeps rely : World → World → Prop}
variable {failed : RepoFailure → World → Prop}
variable {Value : Type}

@[simp]
theorem ensures_world (post : World → World → Prop) (current : World) :
    world.Ensures honest keeps rely post failed current ↔
      post current current :=
  Iff.rfl

@[simp]
theorem ensures_get (post : RepoState → World → Prop) (current : World) :
    get.Ensures honest keeps rely post failed current ↔
      post current.repo current :=
  Iff.rfl

@[simp]
theorem ensures_dateNow (post : Nat → World → Prop) (current : World) :
    dateNow.Ensures honest keeps rely post failed current ↔
      post current.now current :=
  Iff.rfl

@[simp]
theorem ensures_put (write : RepoState → RepoState) (post : Unit → World → Prop)
    (current : World) :
    (put write).Ensures honest keeps rely post failed current ↔
      keeps current (current.withRepo (write current.repo)) ∧
        post () (current.withRepo (write current.repo)) :=
  Iff.rfl

@[simp]
theorem ensures_done (value : Value) (post : Value → World → Prop)
    (current : World) :
    (Program.done value : RepoProgram Value).Ensures honest keeps rely post
        failed current ↔
      post value current :=
  Iff.rfl

theorem ensures_r2PackRefViews (packKeys : List String)
    (post : Option (List PackRefView) → World → Prop) (current : World) :
    (r2PackRefViews packKeys).Ensures honest keeps rely post failed
        current ↔
      ∀ later, rely current later →
        ∀ answer, honest (.packRefViews packKeys) answer later →
          post answer later :=
  Iff.rfl

theorem ensures_repoTransaction
    (body : World → Except RepoFailure (Value × RepoState))
    (post : Value → World → Prop) (current : World) :
    (transaction body).Ensures honest keeps rely post failed current ↔
      match body current with
      | .ok (value, repo) =>
        keeps current (current.withRepo repo) ∧
          post value (current.withRepo repo)
      | .error failure => failed failure current := by
  unfold transaction
  rw [Program.ensures_transaction]
  cases body current with
  | ok result => rfl
  | error failure => rfl

end Calculus

end GitOnCloudflare.Repo
