import GitOnCloudflare.Repo.Shared

/-!
# Finalizing a receive

`finalizeReceiveState` turns a staged push into refs.  Its durable steps are
an intent, the catalog row, the sequence and version counters, the ref
transaction, the outcome, the receipt and the release of intent and lease.
Each is a separate write, and a repeated call resumes from the intent.
-/

namespace GitOnCloudflare.Repo

open Foundations
open Receive

def maxIngestionReceipts : Nat := 128

def maxReceiveOutcomes : Nat := 128

structure FinalizeReceiveArgs where
  token : String
  commands : List ReceiveCommand
  stagedPack : Option StagedPack
  ingestionReceipt : Option IngestionReceipt
  acceptedWrites : Option (List AcceptedWriteFact)

structure CommittedReceive where
  statuses : List ReceiveStatus
  changed : Bool
  empty : Bool
  shouldQueueCompaction : Bool
  outputValidationBytes : Nat
  outputValidationRequests : Nat
  outputEtags : Option OutputEtags
  refPublication : Option ReceiveRefPublication
deriving DecidableEq

inductive FinalizeReceiveResult where
  | committed (result : CommittedReceive)
  | refConflict (statuses : List ReceiveStatus) (message : String)
  | leaseMismatch (message : String)
deriving DecidableEq

def ReceiveCommitOutcome.result (outcome : ReceiveCommitOutcome) :
    CommittedReceive :=
  { statuses := outcome.statuses
    changed := outcome.changed
    empty := outcome.empty
    shouldQueueCompaction := outcome.shouldQueueCompaction
    outputValidationBytes := outcome.outputValidationBytes
    outputValidationRequests := outcome.outputValidationRequests
    outputEtags := outcome.outputEtags
    refPublication := outcome.refPublication }

def CommittedReceive.outcome (result : CommittedReceive) (token : String) :
    ReceiveCommitOutcome :=
  { token := token
    statuses := result.statuses
    changed := result.changed
    empty := result.empty
    shouldQueueCompaction := result.shouldQueueCompaction
    outputValidationBytes := result.outputValidationBytes
    outputValidationRequests := result.outputValidationRequests
    outputEtags := result.outputEtags
    refPublication := result.refPublication }

def leaseMismatchMessage : String :=
  "Receive lease is no longer active for this request."

/-! ## Output verification -/

structure OutputVerification where
  bytes : Nat
  requests : Nat
  etags : Option OutputEtags

structure OutputArtifact where
  role : OutputRole
  key : String
  bytes : Nat
  sha256 : String
  expectedEtag : Option String

/-- Read one artifact back and compare it with its declaration. -/
def verifyArtifact (artifact : OutputArtifact) : RepoProgram String := do
  if artifact.bytes = 0 ∨ 32 * 1024 * 1024 < artifact.bytes then
    throw (.outputExceedsBound artifact.role)
  else
    match ← r2Get artifact.key with
    | none => throw (.outputIntegrityMismatch artifact.role)
    | some object =>
      if object.size ≠ artifact.bytes ∨
          object.sha256Metadata ≠ some artifact.sha256 ∨
          (artifact.expectedEtag.any fun etag => etag ≠ object.etag) then
        throw (.outputIntegrityMismatch artifact.role)
      else if artifact.bytes < object.bodyBytes then
        throw (.outputExceededDeclaredSize artifact.role)
      else if object.bodyBytes ≠ artifact.bytes then
        throw (.outputTruncated artifact.role)
      else if object.bodySha256 ≠ artifact.sha256 then
        throw (.outputDigestMismatch artifact.role)
      else
        return object.etag

def verifyReceiveOutputIntegrity (stagedPack : Option StagedPack) :
    RepoProgram OutputVerification := do
  match stagedPack.bind fun pack =>
      pack.integrity.map fun integrity => (pack, integrity) with
  | none => return ⟨0, 0, none⟩
  | some (pack, integrity) =>
    let packEtag ←
      verifyArtifact
        ⟨.pack, pack.packKey, pack.packBytes, integrity.packSha256,
          integrity.packEtag⟩
    let idxEtag ←
      verifyArtifact
        ⟨.index, packIndexKey pack.packKey, pack.idxBytes,
          integrity.idxSha256, integrity.idxEtag⟩
    let refsEtag ←
      verifyArtifact
        ⟨.references, packRefsKey pack.packKey, integrity.refsBytes,
          integrity.refsSha256, integrity.refsEtag⟩
    return ⟨pack.packBytes + pack.idxBytes + integrity.refsBytes, 3,
      some ⟨packEtag, idxEtag, refsEtag⟩⟩

/-! ## Small durable records -/

/-- Keep the newest tokens of an index and drop the records of the others. -/
def recordBounded {Record : Type} (limit : Nat)
    (records : String → Option Record) (index : List String) (key : String)
    (record : Record) : (String → Option Record) × List String :=
  let extended := (index.filter fun other => other ≠ key) ++ [key]
  let dropped := extended.take (extended.length - limit)
  (fun other =>
      if other ∈ dropped ∧ other ≠ "" then none
      else Function.update records key (some record) other,
    extended.drop (extended.length - limit))

def RepoState.storeOutcome (repo : RepoState) (outcome : ReceiveCommitOutcome) :
    RepoState :=
  let stored :=
    recordBounded maxReceiveOutcomes repo.receiveOutcome
      repo.receiveOutcomeIndex outcome.token outcome
  repo.setReceiveOutcomes stored.1 stored.2

def storeReceiveOutcome (outcome : ReceiveCommitOutcome) : RepoProgram Unit :=
  put fun repo => repo.storeOutcome outcome

def storeIngestionReceipt (receipt : IngestionReceipt) : RepoProgram Unit :=
  transaction fun current =>
    let repo := current.repo
    let existing := repo.ingestionReceipt receipt.keyHash
    if existing.any fun stored => stored.fingerprint ≠ receipt.fingerprint then
      .error .receiptFingerprintConflict
    else
      let stored :=
        recordBounded maxIngestionReceipts repo.ingestionReceipt
          repo.ingestionReceiptIndex receipt.keyHash
          (existing.getD receipt)
      .ok ((), repo.setIngestionReceipts stored.1 stored.2)

def storeOptionalReceipt : Option IngestionReceipt → RepoProgram Unit
  | some receipt => storeIngestionReceipt receipt
  | none => return ()

/-- Record compaction activity when the catalog asks for it. -/
def queueCompaction (wanted : Bool) : RepoProgram Unit := do
  if wanted then
    let now ← dateNow
    markCompactionActivity now

def clearMatchingReceiveLease (token : String) : RepoProgram Unit := do
  let repo ← get
  if repo.receiveLease.any fun lease => lease.token = token then
    put fun repo => repo.setReceiveLease none

def deleteReceiveLease : RepoProgram Unit :=
  put fun repo => repo.setReceiveLease none

def deleteFinalizeIntent (token : String) : RepoProgram Unit :=
  put fun repo => repo.setFinalizeIntent token none

/-! ## The completion fence -/

/-- Whether a completing call may hold the receive lease. -/
def RepoState.fenceAllows (repo : RepoState) (now : Nat) (token : String)
    (allowRecovery : Bool) : Bool :=
  if repo.repositoryDeleting then false
  else
    match repo.receiveLease with
    | some lease =>
      if lease.token = token then
        decide (lease.live now) || allowRecovery
      else
        !decide (lease.live now) && allowRecovery
    | none => allowRecovery

/-- The lease a completing call writes. -/
def RepoState.fenceLease (repo : RepoState) (now : Nat) (token : String) :
    RepoLease :=
  { token := token
    createdAt :=
      match repo.receiveLease with
      | some lease => if lease.token = token then lease.createdAt else now
      | none => now
    expiresAt := now + receiveLeaseTtlMs }

def holdReceiveCompletionFence (token : String) (allowRecovery : Bool) :
    RepoProgram Bool :=
  transaction fun current =>
    if current.repo.fenceAllows current.now token allowRecovery then
      .ok
        (true,
          current.repo.setReceiveLease
            (some (current.repo.fenceLease current.now token)))
    else
      .ok (false, current.repo)

/-! ## The durable intent -/

def defaultHead : Head := ⟨"refs/heads/main", none, true⟩

def resolveHeadAfterReceive (storedHead : Option Head) (refs : List Ref) :
    Head :=
  let stored := (storedHead.map Head.target).getD ""
  let target := if stored = "" then defaultHead.target else stored
  match refs.find? fun ref => ref.name = target with
  | some found => ⟨target, some found.oid, false⟩
  | none => ⟨target, none, true⟩

/-- The tags observed by the verification are stored with the pack. -/
def StagedPack.withEtags (pack : StagedPack) (etags : Option OutputEtags) :
    StagedPack :=
  match pack.integrity, etags with
  | some integrity, some observed =>
    { pack with
      integrity :=
        some
          { integrity with
            packEtag := some observed.pack
            idxEtag := some observed.idx
            refsEtag := some observed.refs } }
  | _, _ => pack

/-- `current || 1`. -/
def RepoState.packSequence (repo : RepoState) : Nat :=
  if repo.nextPackSeq = 0 then 1 else repo.nextPackSeq

/-- The intent of a validated push, from the state after verification. -/
def RepoState.finalizeIntent (repo : RepoState) (now : Nat)
    (args : FinalizeReceiveArgs) (nextRefs : List Ref)
    (expectedRefsVersion : Nat) (etags : Option OutputEtags)
    (context : Option AcceptedWriteContext) : ReceiveFinalizeIntent :=
  { token := args.token
    refPublication := none
    commands := args.commands
    expectedRefsVersion := expectedRefsVersion
    nextHead := resolveHeadAfterReceive repo.head nextRefs
    nextRefsVersion := expectedRefsVersion + 1
    stagedPack := args.stagedPack.map fun pack => pack.withEtags etags
    packSequence := args.stagedPack.map fun _ => repo.packSequence
    nextPacksetVersion :=
      args.stagedPack.map fun _ => repo.packsetVersion + 1
    ingestionReceipt := args.ingestionReceipt
    acceptedWriteContext := context
    recoveryAttempts := 0
    recoveryEscalated := false
    createdAt := now }

/-- Write the intent together with the protection it relies on. -/
def writeFinalizeIntent (intent : ReceiveFinalizeIntent)
    (protection : Option GcReceiveProtection) : RepoProgram Unit :=
  transaction fun current =>
    match retainGcReceiveProtection current.repo intent.token protection with
    | .error failure => .error failure
    | .ok protectedRepo =>
      .ok ((), protectedRepo.setFinalizeIntent intent.token (some intent))

def invalidRefStatuses (commands : List ReceiveCommand) : List ReceiveStatus :=
  (commands.filter fun command => !isValidRefName command.ref).map
    fun command => ⟨command.ref, false, some "invalid"⟩

/-- The intent of a push that validates, after its waits on the bucket. -/
def recordFinalizeIntent (args : FinalizeReceiveArgs) (currentRefs : List Ref)
    (expectedRefsVersion : Nat) :
    RepoProgram (ReceiveFinalizeIntent × OutputVerification) := do
  let nextRefs := applyReceiveCommands currentRefs args.commands
  let verification ← verifyReceiveOutputIntegrity args.stagedPack
  let current ← world
  match acceptedWriteContextForFacts args.acceptedWrites with
  | .error failure => throw failure
  | .ok context =>
    let intent :=
      current.repo.finalizeIntent current.now args nextRefs
        expectedRefsVersion verification.etags context
    let protection ←
      prepareGcReceiveProtection currentRefs expectedRefsVersion
        args.commands (args.stagedPack.map StagedPack.packKey)
    writeFinalizeIntent intent protection
    return (intent, verification)

/-- Validate a push that has no durable intent and record one. -/
def prepareFinalizeIntent (args : FinalizeReceiveArgs) :
    RepoProgram
      (FinalizeReceiveResult ⊕
        (ReceiveFinalizeIntent × OutputVerification)) := do
  let current ← world
  let repo := current.repo
  if !repo.receiveLease.any fun lease =>
      lease.token = args.token && lease.live current.now then
    clearMatchingReceiveLease args.token
    return .inl (.leaseMismatch leaseMismatchMessage)
  else if invalidRefStatuses args.commands ≠ [] then
    deleteReceiveLease
    return .inl (.refConflict (invalidRefStatuses args.commands)
      "Receive finalization rejected invalid refs.")
  else if !(validateReceiveCommands repo.refs args.commands).all
      (fun status => status.ok) then
    deleteReceiveLease
    return .inl (.refConflict (validateReceiveCommands repo.refs args.commands)
      "Ref expectations changed before the receive could be committed.")
  else if args.acceptedWrites.any fun facts =>
      !acceptedWritesMatchCommands args.commands facts then
    throw .acceptedWritesMismatch
  else
    let recorded ← recordFinalizeIntent args repo.refs repo.refsVersion
    return .inr recorded

/-! ## The retry check -/

/-- The durable declaration without the tags the verification added. -/
def StagedPackIntegrity.withoutEtags (integrity : StagedPackIntegrity) :
    StagedPackIntegrity :=
  { integrity with packEtag := none, idxEtag := none, refsEtag := none }

def stagedPackMatchesRequest (durable requested : Option StagedPack) : Bool :=
  match durable, requested with
  | none, none => true
  | some durable, some requested =>
    durable.packKey = requested.packKey &&
      durable.packBytes = requested.packBytes &&
      durable.idxBytes = requested.idxBytes &&
      durable.objectCount = requested.objectCount &&
      decide
        (durable.integrity.map StagedPackIntegrity.withoutEtags =
          requested.integrity)
  | _, _ => false

/-- Whether a repeated call asks for what the intent records. -/
def retryMatchesIntent (intent : ReceiveFinalizeIntent)
    (args : FinalizeReceiveArgs) : Except RepoFailure Bool :=
  if intent.commands ≠ args.commands ||
      !stagedPackMatchesRequest intent.stagedPack args.stagedPack then
    .ok false
  else
    match acceptedWriteContextForFacts args.acceptedWrites with
    | .error failure => .error failure
    | .ok context => .ok (decide (intent.acceptedWriteContext = context))

/-! ## Activation, ref update and completion -/

def receiveRow (pack : StagedPack) (packSequence now : Nat) : PackCatalogRow :=
  { packKey := pack.packKey
    kind := .receive
    state := .active
    tier := 0
    seqLo := packSequence
    seqHi := packSequence
    objectCount := pack.objectCount
    packBytes := pack.packBytes
    idxBytes := pack.idxBytes
    createdAt := now
    supersededBy := none }

/-- Whether an active row is the row this intent would write. -/
def rowMatchesIntent (row : PackCatalogRow) (pack : StagedPack)
    (packSequence : Option Nat) : Bool :=
  row.packBytes = pack.packBytes && row.idxBytes = pack.idxBytes &&
    row.objectCount = pack.objectCount &&
    decide (some row.seqLo = packSequence) &&
    decide (some row.seqHi = packSequence)

/-- Write the row of a staged pack unless it is already active. -/
def activateReceiveRow (pack : StagedPack) (packSequence : Nat)
    (existing : Option PackCatalogRow) : RepoProgram Unit := do
  if existing = none then
    let now ← dateNow
    put fun repo =>
      repo.setPackCatalog
        (upsertPackCatalogRow repo.packCatalog
          (receiveRow pack packSequence now))

def raiseNextPackSeq (packSequence : Nat) : RepoProgram Unit := do
  let repo ← get
  if repo.packSequence ≤ packSequence then
    put fun repo => repo.setNextPackSeq (packSequence + 1)

def raisePacksetVersion (nextPacksetVersion : Nat) : RepoProgram Unit := do
  let repo ← get
  if repo.packsetVersion < nextPacksetVersion then
    put fun repo => repo.setPacksetVersion nextPacksetVersion

/-- Activate the staged pack and raise the two counters to the values the
intent fixed. -/
def activateStagedPack (intent : ReceiveFinalizeIntent) :
    RepoProgram Bool := do
  match intent.stagedPack with
  | none => return false
  | some pack =>
    let repo ← get
    let existing :=
      (listActivePackCatalog repo.packCatalog).find? fun row =>
        row.packKey = pack.packKey
    if existing.any fun row =>
        !rowMatchesIntent row pack intent.packSequence then
      throw .packMetadataMismatch
    else
      match intent.packSequence, intent.nextPacksetVersion with
      | some packSequence, some nextPacksetVersion =>
        activateReceiveRow pack packSequence existing
        let activated ← get
        raiseNextPackSeq packSequence
        raisePacksetVersion nextPacksetVersion
        return catalogNeedsCompaction
          (listActivePackCatalog activated.packCatalog)
      | _, _ => throw .missingPackSequence

def receiveSnapshotPin (intent : ReceiveFinalizeIntent)
    (settings : DeploymentSettings) : Option SnapshotPinInput :=
  intent.ingestionReceipt.map fun receipt =>
    { commitSha := receipt.acceptedWrite.afterSha
      treeSha := receipt.treeSha
      materializedAt := intent.createdAt
      advanceCurrent := !settings.snapshotEventProbeEnabled
      qualificationOwned := settings.qualificationMode }

/-- The refs the transaction stores and the publication it records. -/
def resolveRefUpdate (repo : RepoState) (now : Nat)
    (intent : ReceiveFinalizeIntent) :
    Except RepoFailure (List Ref × Option ReceiveRefPublication) :=
  let applied := applyReceiveCommands repo.refs intent.commands
  if repo.refsVersion = intent.expectedRefsVersion then
    .ok
      (applied,
        some (intent.refPublication.getD ⟨now, intent.nextRefsVersion⟩))
  else if repo.refsVersion = intent.nextRefsVersion ∧ applied = repo.refs then
    .ok (repo.refs, intent.refPublication)
  else
    .error .refsDiverged

/-- Store the resolved refs, HEAD, version and publication. -/
def storeRefUpdate (repo : RepoState) (token : String)
    (intent : ReceiveFinalizeIntent) (refs : List Ref)
    (refPublication : Option ReceiveRefPublication) : RepoState :=
  { repo with
    refs := refs
    head := some intent.nextHead
    refsVersion := intent.nextRefsVersion
    receiveFinalizeIntent :=
      match refPublication with
      | some publication =>
        Function.update repo.receiveFinalizeIntent token
          (some { intent with refPublication := some publication })
      | none => repo.receiveFinalizeIntent }

/-- Record the accepted writes beside the stored refs. -/
def recordIntentWrites (repo : RepoState) (intent : ReceiveFinalizeIntent)
    (settings : DeploymentSettings) : Except RepoFailure RepoState :=
  match acceptedWriteFactsForIntent intent with
  | none => .ok repo
  | some facts =>
    match recordAcceptedWrites repo intent.nextRefsVersion facts
        intent.createdAt settings.snapshotEventProbeEnabled
        (receiveSnapshotPin intent settings) with
    | .error failure => .error failure
    | .ok (_, recorded) => .ok recorded

/-- The ref transaction of an intent. -/
def applyRefUpdate (current : World) (token : String)
    (intent : ReceiveFinalizeIntent) :
    Except RepoFailure
      ((List Ref × Option ReceiveRefPublication) × RepoState) :=
  match resolveRefUpdate current.repo current.now intent with
  | .error failure => .error failure
  | .ok (refs, publication) =>
    let stored := storeRefUpdate current.repo token intent refs publication
    match recordIntentWrites stored intent current.settings with
    | .error failure => .error failure
    | .ok recorded =>
      match advanceGcReceiveVersions recorded
          intent.expectedRefsVersion intent.nextRefsVersion
          intent.nextPacksetVersion stored.snapshotPinVersion
          recorded.snapshotPinVersion with
      | .error failure => .error failure
      | .ok advanced => .ok ((refs, publication), advanced)

def committedResult (intent : ReceiveFinalizeIntent)
    (verification : OutputVerification) (shouldQueueCompaction : Bool)
    (refs : List Ref) (refPublication : Option ReceiveRefPublication) :
    CommittedReceive :=
  { statuses :=
      intent.commands.map fun command => ⟨command.ref, true, none⟩
    changed := intent.commands ≠ []
    empty := refs = []
    shouldQueueCompaction := shouldQueueCompaction
    outputValidationBytes := verification.bytes
    outputValidationRequests := verification.requests
    outputEtags := verification.etags
    refPublication := refPublication }

/-- Everything after the durable intent. -/
def commitFinalizeIntent (token : String) (intent : ReceiveFinalizeIntent)
    (verification : OutputVerification) :
    RepoProgram FinalizeReceiveResult := do
  let shouldQueueCompaction ← activateStagedPack intent
  let (refs, publication) ←
    transaction fun current => applyRefUpdate current token intent
  let result :=
    committedResult intent verification shouldQueueCompaction refs publication
  storeReceiveOutcome (result.outcome token)
  storeOptionalReceipt intent.ingestionReceipt
  queueCompaction shouldQueueCompaction
  deleteFinalizeIntent token
  deleteReceiveLease
  return .committed result

/-- A call for a receive whose outcome is already recorded. -/
def repeatCommittedReceive (args : FinalizeReceiveArgs)
    (outcome : ReceiveCommitOutcome) : RepoProgram FinalizeReceiveResult := do
  storeReceiveOutcome outcome
  storeOptionalReceipt args.ingestionReceipt
  queueCompaction outcome.shouldQueueCompaction
  deleteFinalizeIntent args.token
  clearMatchingReceiveLease args.token
  return .committed outcome.result

/-- Resume an intent that is already durable. -/
def resumeFinalizeIntent (args : FinalizeReceiveArgs)
    (intent : ReceiveFinalizeIntent) :
    RepoProgram FinalizeReceiveResult := do
  match retryMatchesIntent intent args with
  | .error failure => throw failure
  | .ok false => throw .retryDoesNotMatchIntent
  | .ok true =>
    let verification ← verifyReceiveOutputIntegrity intent.stagedPack
    commitFinalizeIntent args.token intent verification

def finalizeReceiveState (args : FinalizeReceiveArgs) :
    RepoProgram FinalizeReceiveResult := do
  let repo ← get
  let intent := repo.receiveFinalizeIntent args.token
  let priorOutcome := repo.receiveOutcome args.token
  let held ←
    holdReceiveCompletionFence args.token
      (intent.isSome || priorOutcome.isSome)
  if !held then
    return .leaseMismatch leaseMismatchMessage
  else
    match priorOutcome, intent with
    | some outcome, _ => repeatCommittedReceive args outcome
    | none, some intent => resumeFinalizeIntent args intent
    | none, none =>
      match ← prepareFinalizeIntent args with
      | .inl result => return result
      | .inr (intent, verification) =>
        commitFinalizeIntent args.token intent verification

end GitOnCloudflare.Repo
