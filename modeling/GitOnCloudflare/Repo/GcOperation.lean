import GitOnCloudflare.Repo.ReachabilityGc

/-!
# The durable garbage collection operation

One record per repository holds the collection that is running: its phase,
its execution claim, the identities of its outputs and its commit receipt.
Admission, claims, the eleven kinds of progress, the two commits, the discard
of unpublished outputs and the alarm each edit this record in one
transaction.
-/

namespace GitOnCloudflare.Repo

open Foundations
open Receive

def gcUnpublishedLifetimeMs : Nat := 24 * 60 * 60000

def maxSafeInteger : Int := 9007199254740991

/-- `Number.isSafeInteger` of an integer. -/
def isSafeInteger (value : Int) : Bool :=
  decide (-maxSafeInteger ≤ value) && decide (value ≤ maxSafeInteger)

def isGcTerminal (operation : GcOperation) : Bool :=
  operation.phase = .complete || operation.phase = .blocked

inductive GcRejection where
  | repositoryDeleting
  | operationMismatch
  | claimMismatch
  | phaseMismatch
  | sourceChanged
  | invalidInput
deriving DecidableEq

inductive GcOperationResult where
  | ready (operation : GcOperation)
  | busy (retryAt : Nat)
  | rejected (reason : GcRejection)

/-! ## Admission -/

def gcInputPackKey (doId operationId : String) : String :=
  r2PackKey (doPrefix doId) ("gc-" ++ operationId ++ "-input.pack")

def gcOutputPackKey (doId operationId : String) : String :=
  r2PackKey (doPrefix doId) ("gc-" ++ operationId ++ "-output.pack")

def gcOutputResultKey (doId operationId : String) : String :=
  r2PackKey (doPrefix doId) ("gc-" ++ operationId ++ "-result.json")

def isOperationIdChar (char : Char) : Bool :=
  ('A' ≤ char && char ≤ 'Z') || ('a' ≤ char && char ≤ 'z') ||
    ('0' ≤ char && char ≤ '9') || char = '_' || char = '-'

structure GcQualificationOptions where
  faults : List GcFault
  holdReader : Bool
  deadlineAt : Int

structure RegisterGcArgs where
  repositoryId : String
  operationId : String
  qualification : Option GcQualificationOptions

def RegisterGcArgs.valid (args : RegisterGcArgs) (now : Nat) : Bool :=
  Text.matchesClass isOperationIdChar 1 100 args.operationId &&
    decide (args.repositoryId ≠ "") &&
    args.qualification.all fun qualification =>
      isSafeInteger qualification.deadlineAt &&
        decide ((now : Int) < qualification.deadlineAt) &&
        decide
          (qualification.deadlineAt ≤ (now : Int) + gcUnpublishedLifetimeMs)

/-- Whether a repeated admission asks for the qualification on record. -/
def RegisterGcArgs.matchesQualification (args : RegisterGcArgs)
    (current : GcOperation) : Bool :=
  args.qualification.all fun qualification =>
    match current.qualification with
    | none => false
    | some stored =>
      decide ((stored.deadlineAt : Int) = qualification.deadlineAt) &&
        decide (stored.faults.Perm qualification.faults) &&
        decide (stored.reader = qualification.holdReader)

def RegisterGcArgs.operation (args : RegisterGcArgs) (doId : String) (now : Nat) :
    GcOperation :=
  { id := args.operationId
    repositoryId := args.repositoryId
    phase := .queued
    createdAt := now
    updatedAt := now
    claim := none
    snapshot := none
    coordination := none
    closure := none
    retainedPackKey := none
    inputPackKey := gcInputPackKey doId args.operationId
    outputPackKey := gcOutputPackKey doId args.operationId
    outputResultKey := gcOutputResultKey doId args.operationId
    rewriteIntent := none
    rewrite := none
    nativeResult := none
    commit := none
    blockedReason := none
    discardAfter := none
    qualification :=
      args.qualification.map fun qualification =>
        { deadlineAt := qualification.deadlineAt.toNat
          faults := qualification.faults.dedup
          reader := qualification.holdReader }
    measurements := fun _ => none
    stepMeasurements := fun _ => none }

def gcWakeDelayMs : Nat := 30000

/-- Put a new operation on record and remember its id. -/
def RepoState.admitGc (repo : RepoState) (args : RegisterGcArgs) (doId : String)
    (now : Nat) : GcOperationResult × RepoState :=
  let operation := args.operation doId now
  (.ready operation,
    (repo.setGcOperation (some operation)).setGcAdmission
      (repo.gcAdmission ++ [args.operationId]))

/-- Admit an operation, or find the one that was admitted. -/
def registerGcOperation (args : RegisterGcArgs) :
    RepoProgram GcOperationResult := do
  let now ← dateNow
  if !args.valid now then
    return .rejected .invalidInput
  else
    transaction fun current =>
      let repo := current.repo
      if repo.repositoryDeleting then
        .ok (.rejected .repositoryDeleting, repo)
      else
        match repo.gcOperation with
        | some running =>
          if running.id = args.operationId then
            if running.repositoryId ≠ args.repositoryId ||
                !args.matchesQualification running then
              .ok (.rejected .operationMismatch, repo)
            else
              .ok (.ready running, repo)
          else if args.operationId ∈ repo.gcAdmission then
            .ok (.rejected .operationMismatch, repo)
          else if !isGcTerminal running then
            .ok (.busy (current.now + gcWakeDelayMs), repo)
          else
            .ok (repo.admitGc args current.settings.doId current.now)
        | none =>
          if args.operationId ∈ repo.gcAdmission then
            .ok (.rejected .operationMismatch, repo)
          else
            .ok (repo.admitGc args current.settings.doId current.now)

/-! ## Claims -/

def GcOperation.deadlineAt (operation : GcOperation) : Nat :=
  (operation.qualification.map GcQualificationState.deadlineAt).getD
    (operation.createdAt + gcUnpublishedLifetimeMs)

/-- Give an unpublished operation up, with a reason, from now on. -/
def GcOperation.giveUp (operation : GcOperation) (reason : GcBlockedReason)
    (now : Nat) : GcOperation :=
  { operation with
    phase := .discard
    blockedReason := some reason
    discardAfter := some now }

/-- Unpublished work past its deadline is discarded. -/
def GcOperation.expire (operation : GcOperation) (now : Nat) : GcOperation :=
  if operation.deadlineAt ≤ now ∧ operation.commit = none ∧
      operation.phase ∈ [.queued, .rewrite, .index] then
    operation.giveUp
      (if operation.qualification.isSome then .qualificationDeadline
        else .operationDeadline)
      now
  else
    operation

/-- A writer that may still be draining beside the operation. -/
def RepoState.otherWriter (repo : RepoState) (operation : GcOperation)
    (snapshot : GcSnapshot) (now : Nat) : Option RepoLease :=
  let receive :=
    if operation.coordination.isSome then none else repo.receiveLease
  let compact :=
    repo.compactLease.filter fun lease => lease.token ≠ snapshot.token
  (receive.toList ++ compact.toList).find? fun lease =>
    decide (now < lease.expiresAt + expiredWriterDrainMs)

/-- The versions an operation accounts for are the repository's. -/
def RepoState.gcVersionsCurrent (repo : RepoState) (operation : GcOperation)
    (snapshot : GcSnapshot) : Bool :=
  decide
      (repo.refsVersion =
        (operation.coordination.map GcCoordination.refsVersion).getD
          snapshot.refsVersion) &&
    decide
      (repo.packsetVersion =
        (operation.coordination.map GcCoordination.packsetVersion).getD
          snapshot.packsetVersion) &&
    decide
      (repo.snapshotPinVersion =
        (operation.coordination.map GcCoordination.snapshotPinVersion).getD
          snapshot.snapshotPinVersion)

/-- Renew the source lease, or give the operation up when its source has
changed. -/
def RepoState.renewGcSource (repo : RepoState) (operation : GcOperation)
    (snapshot : GcSnapshot) (now : Nat) : GcOperation × RepoState :=
  if (operation.coordination.isSome && repo.receiveLease.isSome) ||
      repo.gcVersionsCurrent operation snapshot then
    (operation,
      repo.setCompactLease
        (some
          { token := snapshot.token
            createdAt := (repo.compactLease.map RepoLease.createdAt).getD now
            expiresAt := now + compactLeaseTtlMs
            operation := some .reachabilityGc }))
  else if operation.phase ≠ .publish then
    (operation.giveUp .sourceChanged now, repo)
  else
    (operation, repo)

def GcOperation.startAttempt (operation : GcOperation) (now : Nat) :
    GcPhaseMeasurement :=
  match operation.measurements operation.phase with
  | some measurement =>
    { measurement with attempts := measurement.attempts + 1 }
  | none => ⟨1, now, none, none⟩

/-- Issue an execution claim. -/
def GcOperation.issueClaim (operation : GcOperation) (claimId : String)
    (now : Nat) : GcOperation :=
  { operation with
    claim :=
      some
        ⟨claimId, now + compactLeaseTtlMs,
          now + compactLeaseTtlMs + expiredWriterDrainMs⟩
    updatedAt := now
    measurements :=
      Function.update operation.measurements operation.phase
        (some (operation.startAttempt now)) }

/-- The claim of an operation that is not waiting, from its source on. -/
def RepoState.claimGc (repo : RepoState) (operation : GcOperation)
    (claimId : String) (now : Nat) : GcOperationResult × RepoState :=
  let claimed (operation : GcOperation) (repo : RepoState) :
      GcOperationResult × RepoState :=
    let issued := operation.issueClaim claimId now
    (.ready issued, repo.setGcOperation (some issued))
  match operation.snapshot with
  | none => claimed operation repo
  | some snapshot =>
    if operation.phase ∈ [.rewrite, .index, .publish] then
      match repo.otherWriter operation snapshot now with
      | some writer => (.busy (writer.expiresAt + expiredWriterDrainMs), repo)
      | none =>
        let renewed := repo.renewGcSource operation snapshot now
        claimed renewed.1 renewed.2
    else
      claimed operation repo

def claimGcOperation (operationId claimId : String) :
    RepoProgram GcOperationResult :=
  transaction fun current =>
    let repo := current.repo
    let now := current.now
    if repo.repositoryDeleting then
      .ok (.rejected .repositoryDeleting, repo)
    else
      match repo.gcOperation with
      | none => .ok (.rejected .operationMismatch, repo)
      | some operation =>
        if operation.id ≠ operationId then
          .ok (.rejected .operationMismatch, repo)
        else if isGcTerminal operation then
          .ok (.ready operation, repo)
        else if operation.discardAfter.any fun time => now < time then
          .ok (.busy (operation.discardAfter.getD 0), repo)
        else if operation.claim.any fun claim => now < claim.safeRetryAt then
          .ok
            (.busy ((operation.claim.map GcClaim.safeRetryAt).getD 0), repo)
        else
          .ok (repo.claimGc (operation.expire now) claimId now)

/-! ## Progress -/

/-- The eleven transitions a claim holder may report. -/
inductive GcProgress where
  | step
      (step : GcStep)
      (elapsedMs : Int)
      (observedRequests writtenBytes : Option Int)
  | snapshot (snapshot : GcSnapshot)
  | plan (closure : GcClosure) (retainedPackKey : Option String)
  | rewriteIntent (identity : GcRewriteIdentity)
  | rewriteComplete (identity : GcRewriteIdentity) (etag : String)
  | nativeComplete (result : NativeProcessResult)
  | reclaimed
  | discard (reason : GcBlockedReason)
  | discarded
  | yield
  | blocked (reason : String)

def GcStep.phase : GcStep → GcPhase
  | closurePlanning => .rewrite
  | rewriteSelection => .rewrite
  | rewriteUpload => .rewrite
  | outputValidation => .index
  | generationPublication => .reclaim

def isCount (value : Int) : Bool := isSafeInteger value && decide (0 ≤ value)

/-- A sum that is unknown once one of its parts is. -/
def addKnown (previous : Option (Option Int)) (value : Option Int) :
    Option Int :=
  match previous, value with
  | some none, _ => none
  | _, none => none
  | some (some total), some value => some (total + value)
  | none, some value => some value

def GcOperation.addStep (operation : GcOperation) (step : GcStep)
    (elapsedMs : Int) (observedRequests writtenBytes : Option Int) :
    GcOperation :=
  let previous := operation.stepMeasurements step
  { operation with
    stepMeasurements :=
      Function.update operation.stepMeasurements step
        (some
          { completedAttempts :=
              (previous.map GcStepMeasurement.completedAttempts).getD 0 + 1
            elapsedMs :=
              (previous.map GcStepMeasurement.elapsedMs).getD 0 + elapsedMs
            observedRequests :=
              addKnown (previous.map GcStepMeasurement.observedRequests)
                observedRequests
            writtenBytes :=
              addKnown (previous.map GcStepMeasurement.writtenBytes)
                writtenBytes }) }

def GcSnapshot.coordination (snapshot : GcSnapshot) : GcCoordination :=
  { refsVersion := snapshot.refsVersion
    packsetVersion := snapshot.packsetVersion
    snapshotPinVersion := snapshot.snapshotPinVersion
    retainedSourcePackKeys := []
    conservativeRetentionReason := none
    publicationClaimId := none
    acceptedReceives := 0 }

/-- The source lease is held and no version has moved since the snapshot. -/
def RepoState.snapshotHolds (repo : RepoState) (snapshot : GcSnapshot)
    (now : Nat) : Bool :=
  repo.holdsGcLease snapshot.token now &&
    decide (repo.refsVersion = snapshot.refsVersion) &&
    decide (repo.packsetVersion = snapshot.packsetVersion) &&
    decide (repo.snapshotPinVersion = snapshot.snapshotPinVersion)

def isHexDigest (length : Nat) (text : String) : Bool :=
  Text.matchesClass isLowerHex length length text

/-- The retained pack of a plan is one of the sources. -/
def GcOperation.retains (operation : GcOperation)
    (retainedPackKey : Option String) : Bool :=
  !truthy retainedPackKey ||
    operation.snapshot.any fun snapshot =>
      snapshot.sourcePacks.any fun row => some row.packKey = retainedPackKey

def NativeProcessResult.fits (result : NativeProcessResult)
    (operation : GcOperation) (rewrite : GcRewrite) (closure : GcClosure) :
    Bool :=
  decide (result.operationId = operation.id) &&
    decide (result.packSha1 = rewrite.packSha1) &&
    decide ((result.packBytes : Int) = rewrite.packBytes) &&
    decide ((result.objectCount : Int) = closure.objectCount) &&
    decide (result.maintenanceObjectSetSha256 = some closure.objectSetSha256)

/-- The operation after one transition, before its bookkeeping. -/
def GcOperation.progress (operation : GcOperation) (claim : GcClaim)
    (repo : RepoState) (now : Nat) : GcProgress → Except GcRejection GcOperation
  | .step step elapsedMs observedRequests writtenBytes =>
    if step.phase ≠ operation.phase || !isCount elapsedMs ||
        !observedRequests.all isCount || !writtenBytes.all isCount then
      .error .invalidInput
    else
      .ok (operation.addStep step elapsedMs observedRequests writtenBytes)
  | .yield => .ok { operation with claim := none }
  | .snapshot snapshot =>
    if operation.phase ≠ .queued then
      .error .phaseMismatch
    else if !repo.snapshotHolds snapshot now then
      .error .sourceChanged
    else
      .ok
        { operation with
          snapshot := some snapshot
          coordination := some snapshot.coordination
          phase := .rewrite }
  | .plan closure retainedPackKey =>
    if operation.phase ≠ .rewrite || operation.closure.isSome then
      .error .phaseMismatch
    else if !isCount closure.objectCount ||
        !isHexDigest 64 closure.objectSetSha256 ||
        !operation.retains retainedPackKey then
      .error .invalidInput
    else
      .ok
        { operation with
          closure := some closure
          retainedPackKey := retainedPackKey
          phase :=
            if truthy retainedPackKey ∨ closure.objectCount = 0 then
              .publish
            else
              operation.phase }
  | .rewriteIntent identity =>
    if operation.phase ≠ .rewrite || operation.closure.isNone then
      .error .phaseMismatch
    else if !isSafeInteger identity.packBytes ||
        decide (identity.packBytes < 32) ||
        !isHexDigest 40 identity.packSha1 then
      .error .invalidInput
    else if operation.rewriteIntent.any fun known => known ≠ identity then
      .error .invalidInput
    else
      .ok { operation with rewriteIntent := some identity }
  | .rewriteComplete identity etag =>
    match operation.phase, operation.rewriteIntent with
    | .rewrite, some intent =>
      if intent ≠ identity ∨ etag = "" then
        .error .invalidInput
      else
        .ok
          { operation with
            rewrite := some { identity with etag := etag }
            phase := .index }
    | _, _ => .error .phaseMismatch
  | .nativeComplete result =>
    match operation.phase, operation.rewrite, operation.closure with
    | .index, some rewrite, some closure =>
      if result.fits operation rewrite closure then
        .ok
          { operation with
            nativeResult := some result
            phase := .publish }
      else
        .error .invalidInput
    | _, _, _ => .error .phaseMismatch
  | .reclaimed =>
    if operation.phase ≠ .reclaim || operation.commit.isNone then
      .error .phaseMismatch
    else
      .ok { operation with phase := .complete }
  | .discard reason =>
    if operation.phase ∉ [GcPhase.rewrite, .index, .publish] ∨
        operation.commit.isSome then
      .error .phaseMismatch
    else
      .ok
        { operation with
          discardAfter := some claim.safeRetryAt
          phase := .discard
          blockedReason := some reason }
  | .discarded =>
    if operation.phase ≠ .discard || operation.commit.isSome ||
        !operation.discardAfter.any fun time => decide (time ≤ now) then
      .error .phaseMismatch
    else
      .ok { operation with phase := .blocked }
  | .blocked reason =>
    if operation.rewriteIntent.isSome || operation.rewrite.isSome ||
        operation.nativeResult.isSome || operation.commit.isSome then
      .error .phaseMismatch
    else
      .ok
        { operation with
          phase := .blocked
          blockedReason := some (.reported reason) }

/-- Close the measurement of a phase that was left. -/
def closeMeasurement (measurements : GcPhase → Option GcPhaseMeasurement)
    (phase : GcPhase) (now : Nat) : GcPhase → Option GcPhaseMeasurement :=
  match measurements phase with
  | none => measurements
  | some measurement =>
    Function.update measurements phase
      (some
        { measurement with
          completedAt := some now
          elapsedMs := some (now - measurement.startedAt) })

/-- A phase change ends the claim, except that a snapshot continues with its
rewrite under the same claim. -/
def GcOperation.settle (operation : GcOperation) (previous : GcPhase)
    (progress : GcProgress) (now : Nat) : GcOperation :=
  if operation.phase = previous then
    { operation with updatedAt := now }
  else
    let measurements :=
      closeMeasurement operation.measurements previous now
    match progress with
    | .snapshot _ =>
      { operation with
        updatedAt := now
        measurements :=
          Function.update measurements .rewrite
            (some ⟨1, now, none, none⟩) }
    | _ =>
      { operation with
        updatedAt := now
        measurements := measurements
        claim := none }

/-- A blocked operation releases its source lease and pending output. -/
def RepoState.releaseBlocked (repo : RepoState) (operation : GcOperation) :
    RepoState :=
  if operation.phase = .blocked then
    let token := operation.snapshot.map GcSnapshot.token
    let released :=
      if repo.compactLease.map RepoLease.token = token then
        repo.setCompactLease none
      else
        repo
    if released.reachabilityGcPending.map ReachabilityGcPending.token =
        token then
      released.setReachabilityGcPending none
    else
      released
  else
    repo

def recordGcProgress (operationId claimId : String) (progress : GcProgress) :
    RepoProgram GcOperationResult :=
  transaction fun current =>
    let repo := current.repo
    let now := current.now
    if repo.repositoryDeleting then
      .ok (.rejected .repositoryDeleting, repo)
    else
      match repo.gcOperation with
      | none => .ok (.rejected .operationMismatch, repo)
      | some operation =>
        if operation.id ≠ operationId then
          .ok (.rejected .operationMismatch, repo)
        else
          match operation.claim with
          | none => .ok (.rejected .claimMismatch, repo)
          | some claim =>
            if claim.id ≠ claimId ∨ claim.expiresAt ≤ now then
              .ok (.rejected .claimMismatch, repo)
            else
              match operation.progress claim repo now progress with
              | .error reason => .ok (.rejected reason, repo)
              | .ok moved =>
                let settled := moved.settle operation.phase progress now
                .ok
                  (.ready settled,
                    (repo.releaseBlocked settled).setGcOperation
                      (some settled))

end GitOnCloudflare.Repo
