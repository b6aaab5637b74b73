import GitOnCloudflare.Foundations.FencedLanes
import GitOnCloudflare.Repo.Shared

/-!
# Native executions

The repository coordinator hands out identities for work in a container.  An
identity carries a generation and belongs to a lane; the record of a lane
says whether its last identity may still act.  Authority also needs the claim
of the operation the identity was issued for, which other calls keep.  The
transactions note what they did in a history that no program reads.
-/

namespace GitOnCloudflare.Native

open Foundations
open Repo

def nativeExecutionTimeoutMs : Nat := 14 * 60000

inductive NativeExecutionLane where
  | foreground
  | maintenance
deriving DecidableEq

structure NativeExecutionIdentity where
  repositoryId : String
  lane : NativeExecutionLane
  generation : Nat
  operationId : String
  claimId : String
  expiresAt : Nat
  grantSha256 : String

inductive NativeExecutionState where
  | active
  | completed
  | revoked
deriving DecidableEq

structure NativeExecutionRecord where
  identity : NativeExecutionIdentity
  state : NativeExecutionState
  drainUntil : Nat
  stopPending : Bool := false
  dispatchedAt : Option Nat := none
  completedAt : Option Nat := none
  inputReadStartedAt : Option Nat := none
  readRequests : Nat := 0
  declaredReadBytes : Nat := 0
  writeRequests : Nat := 0
  completedWriteBytes : Nat := 0

structure BridgeReadKey where
  key : String
  expectedBytes : Nat
  expectedEtag : Option String

structure BridgeWriteKey where
  key : String
  maxBytes : Nat

/-- What a container may read and write for an operation. -/
structure RepositoryContainerBridgeProps where
  operationId : String
  readKeys : List BridgeReadKey
  writeKeys : List BridgeWriteKey
  requireWriteSha256 : Bool
  durableOutputOwner : Bool

def sameNativeExecution (a b : NativeExecutionIdentity) : Bool :=
  a.repositoryId = b.repositoryId && a.lane = b.lane &&
    a.generation = b.generation && a.operationId = b.operationId &&
    a.claimId = b.claimId && a.expiresAt = b.expiresAt &&
    a.grantSha256 = b.grantSha256

theorem sameNativeExecution_iff {a b : NativeExecutionIdentity} :
    sameNativeExecution a b = true ↔ a = b := by
  cases a
  cases b
  simp [sameNativeExecution, and_assoc]

/-! ## The coordinator -/

/-- How an execution is settled. -/
inductive NativeOutcome where
  | completed
  | revoked
deriving DecidableEq

def NativeOutcome.state : NativeOutcome → NativeExecutionState
  | .completed => .completed
  | .revoked => .revoked

/-- Identities issued, settled and acknowledged, and the clearing. -/
abbrev NativeEvent := FencedLanes.Event NativeExecutionIdentity

/-- The coordinator at one time of its clock.  The history holds the newest
event first. -/
structure NativeWorld where
  id : String
  repo : RepoState
  nativeExecution : NativeExecutionLane → Option NativeExecutionRecord
  nativeExecutionGeneration : Nat
  now : Nat
  history : List NativeEvent

namespace NativeWorld

def note (current : NativeWorld) (event : NativeEvent) : NativeWorld :=
  { current with history := event :: current.history }

def putRecord (current : NativeWorld) (lane : NativeExecutionLane)
    (record : NativeExecutionRecord) : NativeWorld :=
  { current with
    nativeExecution :=
      Function.update current.nativeExecution lane (some record) }

/-- The claim of the operation is the live claim of its lane. -/
def ownsClaim (current : NativeWorld) (lane : NativeExecutionLane)
    (operationId claimId : String) : Bool :=
  if current.repo.repositoryDeleting then false
  else
    match lane with
    | .maintenance =>
      current.repo.gcOperation.any fun operation =>
        operation.id = operationId && operation.phase = .index &&
          operation.claim.any fun claim =>
            claim.id = claimId && current.now < claim.expiresAt
    | .foreground =>
      (current.repo.nativeReceiveOperation operationId).any
        fun operation =>
          operation.state = .processing &&
            operation.claimId = some claimId &&
            current.now < operation.claimExpiresAt.getD 0

/-- The last execution of a lane keeps it from starting another. -/
def laneBusy (current : NativeWorld) (lane : NativeExecutionLane) : Bool :=
  (current.nativeExecution lane).any fun previous =>
    previous.state = .active || previous.stopPending ||
      current.now < previous.drainUntil

/-- The identity that the next execution of a lane gets. -/
def nextIdentity (current : NativeWorld) (lane : NativeExecutionLane)
    (operationId claimId grantSha256 : String) : NativeExecutionIdentity :=
  { repositoryId := current.id
    lane := lane
    generation := current.nativeExecutionGeneration + 1
    operationId := operationId
    claimId := claimId
    expiresAt := current.now + nativeExecutionTimeoutMs
    grantSha256 := grantSha256 }

/-- Store the record of a new identity. -/
def issue (current : NativeWorld) (identity : NativeExecutionIdentity) :
    NativeWorld :=
  ({ current with
    nativeExecutionGeneration := identity.generation }.putRecord
      identity.lane
      { identity := identity
        state := .active
        drainUntil := 0
        dispatchedAt := some current.now }).note
    (.issued identity current.now)

def authorizes (current : NativeWorld) (identity : NativeExecutionIdentity) :
    Bool :=
  if identity.repositoryId ≠ current.id ∨
      identity.expiresAt ≤ current.now then
    false
  else
    (current.nativeExecution identity.lane).any fun record =>
      record.state = .active &&
        sameNativeExecution record.identity identity &&
        current.ownsClaim identity.lane identity.operationId
          identity.claimId

/-- A completion is refused once the authority is lost. -/
def mayFinish (current : NativeWorld) (identity : NativeExecutionIdentity)
    (outcome : NativeOutcome) : Bool :=
  match outcome with
  | .revoked => true
  | .completed =>
    identity.repositoryId = current.id &&
      current.now < identity.expiresAt &&
      current.ownsClaim identity.lane identity.operationId
        identity.claimId

/-- The record after settlement.  A revocation keeps its writer drain. -/
def settledRecord (current : NativeWorld) (record : NativeExecutionRecord)
    (outcome : NativeOutcome) : NativeExecutionRecord :=
  { record with
    state := outcome.state
    stopPending := outcome = .revoked
    completedAt := some current.now
    drainUntil :=
      if outcome = .revoked then current.now + expiredWriterDrainMs else 0 }

end NativeWorld

/-! ## Programs -/

/-- The failures a caller tells apart. -/
inductive NativeFailure where
  | processor (code : String)
  | authorityExpired
  | stopFailed
  | fenceRequired
deriving DecidableEq

/-- Settle a failed execution as completed: the container has answered. -/
def NativeFailure.answered : NativeFailure → Bool
  | .processor code =>
    code ∉ ["container_transport_failure", "native_execution_busy"]
  | _ => false

/-- What a call waits for outside the store. -/
inductive NativeRequest where
  | ready (identity : NativeExecutionIdentity)
  | process (identity : NativeExecutionIdentity)
  | stopSlot (identity : NativeExecutionIdentity)
  | deleteSlots

/-- A container is ready, or running already, or fails with a code; a
processor answers with a result or a code; a stop succeeds or not. -/
def NativeAnswer : NativeRequest → Type
  | .ready _ => Except String Bool
  | .process _ => Except String NativeProcessResult
  | .stopSlot _ => Bool
  | .deleteSlots => Bool

abbrev NativeProgram :=
  Program NativeWorld NativeRequest NativeAnswer NativeFailure

/-- One storage transaction that cannot fail. -/
def storageTransaction {Value : Type}
    (body : NativeWorld → Value × NativeWorld) : NativeProgram Value :=
  Program.transaction fun current => .ok (body current)

def getRecord (lane : NativeExecutionLane) :
    NativeProgram (Option NativeExecutionRecord) :=
  Program.observe fun current => current.nativeExecution lane

def beginNativeExecution
    (nativeBridgeGrantDigest : RepositoryContainerBridgeProps → String)
    (lane : NativeExecutionLane) (operationId claimId : String)
    (props : RepositoryContainerBridgeProps) :
    NativeProgram (Option NativeExecutionIdentity) :=
  if props.operationId ≠ operationId then
    return none
  else
    storageTransaction fun current =>
      if !current.ownsClaim lane operationId claimId then
        (none, current)
      else if current.laneBusy lane then
        (none, current)
      else
        let identity :=
          current.nextIdentity lane operationId claimId
            (nativeBridgeGrantDigest props)
        (some identity, current.issue identity)

def authorizeNativeExecution (identity : NativeExecutionIdentity) :
    NativeProgram Bool :=
  storageTransaction fun current => (current.authorizes identity, current)

def finishNativeExecution (identity : NativeExecutionIdentity)
    (outcome : NativeOutcome) : NativeProgram Bool :=
  storageTransaction fun current =>
    match current.nativeExecution identity.lane with
    | none => (false, current)
    | some record =>
      if !sameNativeExecution record.identity identity then
        (false, current)
      else if record.state ≠ .active then
        (false, current)
      else if !current.mayFinish identity outcome then
        (false, current)
      else
        (true,
          (current.putRecord identity.lane
            (current.settledRecord record outcome)).note
            (.settled identity (outcome = .revoked) current.now))

inductive NativeBridgeIo where
  | read
  | write
deriving DecidableEq

def NativeExecutionRecord.countBridgeIo (record : NativeExecutionRecord)
    (now : Nat) (kind : NativeBridgeIo) (bytes : Nat) : NativeExecutionRecord :=
  match kind with
  | .read =>
    { record with
      inputReadStartedAt := some (record.inputReadStartedAt.getD now)
      readRequests := record.readRequests + 1
      declaredReadBytes := record.declaredReadBytes + bytes }
  | .write =>
    { record with
      writeRequests := record.writeRequests + 1
      completedWriteBytes := record.completedWriteBytes + bytes }

/-- Counts that are no safe integers are dropped. -/
def noteNativeBridgeIo (identity : NativeExecutionIdentity)
    (kind : NativeBridgeIo) (bytes : Int) : NativeProgram Unit :=
  if 9007199254740991 < bytes ∨ bytes < 0 then
    .done ()
  else
    storageTransaction fun current =>
      match current.nativeExecution identity.lane with
      | none => ((), current)
      | some record =>
        if !sameNativeExecution record.identity identity then
          ((), current)
        else
          ((),
            current.putRecord identity.lane
              (record.countBridgeIo current.now kind bytes.toNat))

def acknowledgeNativeStop (identity : NativeExecutionIdentity) :
    NativeProgram Unit :=
  storageTransaction fun current =>
    match current.nativeExecution identity.lane with
    | none => ((), current)
    | some record =>
      if record.state = .revoked &&
          sameNativeExecution record.identity identity then
        ((),
          (current.putRecord identity.lane
            { record with stopPending := false }).note
            (.acknowledged identity))
      else
        ((), current)

/-! ## Callers -/

/-- Wait for a stop; a caller fails when the stop does. -/
def stopOrFail (stopped : NativeProgram Bool) : NativeProgram Unit := do
  if !(← stopped) then
    Program.fail .stopFailed

def cancelNativeExecution (identity : NativeExecutionIdentity) :
    NativeProgram Unit := do
  let _ ← finishNativeExecution identity .revoked
  stopOrFail (Program.ask (NativeRequest.stopSlot identity))
  acknowledgeNativeStop identity

def reconcileNativeExecutionLeases (lane : NativeExecutionLane) :
    NativeProgram Unit := do
  match ← getRecord lane with
  | none => return ()
  | some record =>
    if record.stopPending then
      cancelNativeExecution record.identity
    else if record.state = .active then
      if !(← authorizeNativeExecution record.identity) then
        cancelNativeExecution record.identity

/-- The container runs the request of an issued identity. -/
def processExecution (identity : NativeExecutionIdentity) :
    NativeProgram NativeProcessResult := do
  match ← (Program.ask (NativeRequest.ready identity) :
      NativeProgram (Except String Bool)) with
  | .error code => Program.fail (.processor code)
  | .ok _ =>
    if !(← authorizeNativeExecution identity) then
      Program.fail .authorityExpired
    else
      match ← (Program.ask (NativeRequest.process identity) :
          NativeProgram (Except String NativeProcessResult)) with
      | .error code => Program.fail (.processor code)
      | .ok result =>
        if !(← finishNativeExecution identity .completed) then
          Program.fail .authorityExpired
        else
          return result

/-- What a failed run does before it fails again. -/
def settleFailure (identity : NativeExecutionIdentity) (failure : NativeFailure) :
    NativeProgram NativeProcessResult := do
  if failure.answered then
    let _ ← finishNativeExecution identity .completed
    Program.fail failure
  else
    cancelNativeExecution identity
    Program.fail failure

def runNativeExecution
    (nativeBridgeGrantDigest : RepositoryContainerBridgeProps → String)
    (lane : NativeExecutionLane) (operationId claimId : String)
    (bridgeProps : RepositoryContainerBridgeProps) :
    NativeProgram NativeProcessResult := do
  match ← beginNativeExecution nativeBridgeGrantDigest lane operationId
      claimId bridgeProps with
  | none => Program.fail (.processor "native_execution_busy")
  | some identity =>
    (processExecution identity).handle (settleFailure identity)

/-- Revoke the execution of a lane and answer whose stop is awaited. -/
def revokeLane (lane : NativeExecutionLane) :
    NativeProgram (Option NativeExecutionIdentity) := do
  match ← getRecord lane with
  | none => return none
  | some record =>
    if record.state = .active then
      let _ ← finishNativeExecution record.identity .revoked
    return some record.identity

def acknowledgeOptional :
    Option NativeExecutionIdentity → NativeProgram Unit
  | none => return ()
  | some identity => acknowledgeNativeStop identity

def stopNativeReceiveContainerState : NativeProgram Unit := do
  let foreground ← revokeLane .foreground
  let maintenance ← revokeLane .maintenance
  stopOrFail (Program.ask NativeRequest.deleteSlots)
  acknowledgeOptional foreground
  acknowledgeOptional maintenance

/-- Every key but the deletion fence is deleted. -/
def clearRepositoryStorage : NativeProgram Unit :=
  Program.transaction fun current =>
    if !current.repo.repositoryDeleting then
      .error .fenceRequired
    else
      .ok
        ((),
          { current with
            repo := { repositoryDeleting := true }
            nativeExecution := fun _ => none
            nativeExecutionGeneration := 0 }.note .closed)

/-! ## Runs -/

inductive NativeCall where
  | begin
      (lane : NativeExecutionLane)
      (operationId claimId : String)
      (props : RepositoryContainerBridgeProps)
  | authorize (identity : NativeExecutionIdentity)
  | finish
      (identity : NativeExecutionIdentity)
      (outcome : NativeOutcome)
  | acknowledge (identity : NativeExecutionIdentity)
  | noteBridgeIo
      (identity : NativeExecutionIdentity)
      (kind : NativeBridgeIo)
      (bytes : Int)
  | cancel (identity : NativeExecutionIdentity)
  | reconcile (lane : NativeExecutionLane)
  | run
      (lane : NativeExecutionLane)
      (operationId claimId : String)
      (bridgeProps : RepositoryContainerBridgeProps)
  | stopContainers
  | clearStorage

/-- What a call answers. -/
inductive NativeReply where
  | identity (answer : Option NativeExecutionIdentity)
  | answer (answer : Bool)
  | result (result : NativeProcessResult)
  | finished

/-- A program whose value a call turns into its reply. -/
def replying {Value : Type} (program : NativeProgram Value)
    (reply : Value → NativeReply) : NativeProgram NativeReply :=
  program.bind fun value => .done (reply value)

def NativeCall.body
    (nativeBridgeGrantDigest : RepositoryContainerBridgeProps → String) :
    NativeCall → NativeProgram NativeReply
  | .begin lane operationId claimId props =>
    replying
      (beginNativeExecution nativeBridgeGrantDigest lane operationId
        claimId props) .identity
  | .authorize identity =>
    replying (authorizeNativeExecution identity) .answer
  | .finish identity outcome =>
    replying (finishNativeExecution identity outcome) .answer
  | .acknowledge identity =>
    replying (acknowledgeNativeStop identity) fun _ => .finished
  | .noteBridgeIo identity kind bytes =>
    replying (noteNativeBridgeIo identity kind bytes) fun _ => .finished
  | .cancel identity =>
    replying (cancelNativeExecution identity) fun _ => .finished
  | .reconcile lane =>
    replying (reconcileNativeExecutionLeases lane) fun _ => .finished
  | .run lane operationId claimId bridgeProps =>
    replying
      (runNativeExecution nativeBridgeGrantDigest lane operationId
        claimId bridgeProps) .result
  | .stopContainers =>
    replying stopNativeReceiveContainerState fun _ => .finished
  | .clearStorage => replying clearRepositoryStorage fun _ => .finished

/-- What other calls may do: anything to the repository, where operations
are claimed, renewed, lost and claimed again, but the deletion fence stays,
and time passes. -/
structure NativeEnvironment (before after : NativeWorld) : Prop where
  id : after.id = before.id
  fence :
    before.repo.repositoryDeleting = true →
      after.repo.repositoryDeleting = true
  nativeExecution : after.nativeExecution = before.nativeExecution
  nativeExecutionGeneration :
    after.nativeExecutionGeneration = before.nativeExecutionGeneration
  history : after.history = before.history

/-- The calls of the coordinator, at any time and in any order. -/
def nativeRuntime
    (nativeBridgeGrantDigest : RepositoryContainerBridgeProps → String) :
    Runtime NativeWorld NativeRequest NativeAnswer NativeFailure NativeCall
      NativeReply where
  body := NativeCall.body nativeBridgeGrantDigest
  environment := NativeEnvironment
  honest := fun _ _ _ => True
  admits := fun _ _ => True
  resumes := fun _ _ => True
  enter := fun _ current => current
  leave := fun _ _ current => current

end GitOnCloudflare.Native
