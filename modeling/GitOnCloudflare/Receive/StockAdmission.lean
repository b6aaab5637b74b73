import GitOnCloudflare.Foundations.EventRun
import GitOnCloudflare.Repo.Shared

/-!
# Admission of stock receives

A receive begins with the receive lease and may hand it in for a preparation
lease; a preparation becomes an operation when the receive is admitted, or is
promoted to the receive lease when it is alone.  Every transaction is one event,
and the alarm that clears an expired receive lease waits for the bucket between
its read of the lease and its write.
-/

namespace GitOnCloudflare.Receive.StockAdmission

open Foundations
open Repo

def maxRetainedOperations : Nat := 128

/-- The part of an operation that admission reads. -/
structure StockOperation where
  id : String
  fingerprint : String
  leaseToken : String
  stockReceive : Bool
  state : NativeReceiveState
  errorCode : Option String := none
  cleanupPending : Bool := false
  claimId : Option String := none
  publicationPlan : Bool := false
  processorResult : Bool := false

/-- An operation beside which no stock receive begins. -/
def StockOperation.exclusive (operation : StockOperation) : Bool :=
  !operation.stockReceive || operation.state ≠ .processing

/-- What a receive asks to admit; it is built once, with its lease. -/
structure StockRequest where
  id : String
  fingerprint : String

/-- A receive lease whose inputs are being deleted, and since when. -/
structure LeaseCleanup where
  lease : RepoLease
  startedAt : Nat

/-- What the admission of receives reads and writes. -/
structure AdmissionState where
  now : Nat := 0
  repositoryDeleting : Bool := false
  receiveLease : Option RepoLease := none
  preparationLeases : List RepoLease := []
  recoveryLease : Option StockReceiveRecoveryLease := none
  compactLease : Option RepoLease := none
  gc : Option GcOperation := none
  finalizeIntent : String → Bool := fun _ => false
  operationIndex : List String := []
  operation : String → Option StockOperation := fun _ => none
  cleanup : Option LeaseCleanup := none

namespace AdmissionState

variable (state : AdmissionState)

/-- The operations that have not ended. -/
def activeOperations : List StockOperation :=
  (state.operationIndex.filterMap state.operation).filter fun operation =>
    !isNativeReceiveTerminal operation.state

def activePreparations (now : Nat) : List RepoLease :=
  activeStockReceivePreparationLeases state.preparationLeases now

/-- Preparations that have not expired and operations that are not done. -/
def activeCount : Nat :=
  (state.activePreparations state.now).length + state.activeOperations.length

end AdmissionState

/-! ## Beginning a receive -/

/-- The lease of a receive that begins at a time. -/
def receiveLeaseAt (token : String) (now : Nat) : RepoLease where
  token := token
  createdAt := now
  expiresAt := now + receiveLeaseTtlMs
  operation := some .receive

def RepoLease.renewedAt (lease : RepoLease) (now : Nat) : RepoLease :=
  { lease with expiresAt := now + receiveLeaseTtlMs }

/-- The collection that holds the compaction lease goes on beside receives. -/
def coordinated (gc : Option GcOperation) (compactLease : RepoLease) : Bool :=
  gc.any fun operation =>
    operation.coordination.isSome &&
      operation.snapshot.any fun snapshot => snapshot.token = compactLease.token

inductive Acquired where
  | busy
  | refused
  | publishing (claimId : String)
  | granted
deriving DecidableEq

/-- The claim of a publication that is to have its turn first. -/
def preparedClaim (gc : Option GcOperation) (helped : Option String)
    (now : Nat) : Option String :=
  gc.bind fun operation =>
    if operation.phase = .publish then
      (operation.coordination.bind GcCoordination.publicationClaimId).filter
        fun prepared => operation.claim.any (fun claim =>
          claim.id = prepared && decide (now < claim.expiresAt)) &&
            helped ≠ some prepared
    else
      none

/-- The end of the transaction, when no receive lease is in its way. -/
def acquireFree (lease : RepoLease) (helped : Option String)
    (state : AdmissionState) : Acquired × AdmissionState :=
  let now := lease.createdAt
  if (activeLeaseOrUndefined state.compactLease now).any fun compactLease =>
      compactLease.operation = some .reachabilityGc &&
        !coordinated state.gc compactLease then
    (.refused, state)
  else
    match preparedClaim state.gc helped now with
    | some claimId => (.publishing claimId, state)
    | none => (.granted, { state with receiveLease := some lease })

/-- Without a concurrency the receive is an ordinary one. -/
def acquire (lease : RepoLease) (concurrency : Option Nat)
    (helped : Option String) (state : AdmissionState) :
    Acquired × AdmissionState :=
  let now := lease.createdAt
  let activeCount := state.activeOperations.length +
    (state.activePreparations now).length
  if state.repositoryDeleting then
    (.refused, state)
  else if 0 < activeCount ∧ ((∀ limit ∈ concurrency, limit ≤ activeCount) ∨
      state.activeOperations.any StockOperation.exclusive = true) then
    (.busy, state)
  else
    match state.receiveLease with
    | none => acquireFree lease helped state
    | some existing =>
      if now < existing.expiresAt then
        (.refused, state)
      else if state.finalizeIntent existing.token then
        (.refused, { state with
          receiveLease := some (RepoLease.renewedAt existing now) })
      else
        acquireFree lease helped state

/-- What becomes of the receive lease. -/
inductive Handoff where
  | refused
  | exclusive
  | reserved
deriving DecidableEq

/-- Turn the receive lease into a preparation. -/
def handoff (lease : RepoLease) (limit : Nat) (state : AdmissionState) :
    Handoff × AdmissionState :=
  let active := state.activePreparations state.now
  if (state.receiveLease.any fun current =>
      current.token = lease.token && decide (state.now < current.expiresAt)) =
        false then
    (.refused, state)
  else if (activeLeaseOrUndefined state.compactLease state.now).any
      fun compactLease => compactLease.operation = some .reachabilityGc &&
        coordinated state.gc compactLease then
    (.exclusive, state)
  else if limit ≤ active.length + state.activeOperations.length ∨
      state.activeOperations.any StockOperation.exclusive = true then
    (.refused, state)
  else
    (.reserved, { state with
      preparationLeases := state.preparationLeases ++ [lease]
      receiveLease := none })

/-! ## Giving up and promotion -/

def removePreparation (token : String) (state : AdmissionState) :
    AdmissionState :=
  { state with
    preparationLeases :=
      state.preparationLeases.filter fun lease => lease.token ≠ token }

def dropReceiveLease (token : String) (state : AdmissionState) :
    AdmissionState :=
  if state.receiveLease.any fun lease => lease.token = token then
    { state with receiveLease := none }
  else
    state

/-- Give a lease back unless a recovery holds it. -/
def abortReceiveLease (token : String) (state : AdmissionState) :
    AdmissionState :=
  if state.recoveryLease.any fun recovery => recovery.token = token then
    { state with recoveryLease := none }
  else if state.preparationLeases.any fun lease => lease.token = token then
    removePreparation token state
  else
    dropReceiveLease token state

/-- Turn a preparation into the receive lease. -/
def promoteStockPreparationLease (token : String) (state : AdmissionState) :
    Bool × AdmissionState :=
  if state.repositoryDeleting then
    (false, state)
  else if state.receiveLease.isSome then
    (false, state)
  else if (activeLeaseOrUndefined state.compactLease state.now).any
      fun compactLease => compactLease.operation = some .reachabilityGc &&
        !coordinated state.gc compactLease then
    (false, state)
  else
    match state.preparationLeases.find? fun lease =>
        lease.token = token && decide (state.now < lease.expiresAt) with
    | none => (false, state)
    | some selected =>
      if state.preparationLeases.any fun lease => lease.token ≠ token then
        (false, state)
      else if 0 < state.activeOperations.length then
        (false, state)
      else
        (true, { state with
          preparationLeases := []
          receiveLease := some selected })

/-! ## Admission -/

/-- What admission answers. -/
inductive Admission where
  | rejected (code : String)
  | conflict
  | replayed
  | publicationPending
  | finalizePending
  | cleanupPending
  | admitted
deriving DecidableEq

def retryableFailure (code : Option String) : Bool :=
  code = some "r2-transient" || code = some "execution-claim-expired"

def recoveryHeld (existing : StockOperation) (leaseToken : String)
    (state : AdmissionState) : Bool :=
  state.recoveryLease.any fun recovery =>
    recovery.operationId = existing.id && recovery.token = leaseToken &&
      decide (state.now < recovery.expiresAt)

/-- What an operation that is there already is answered with, if it is not
tried again. -/
def admitExisting (existing : StockOperation) (request : StockRequest)
    (leaseToken : String) (state : AdmissionState) :
    Option (Admission × AdmissionState) :=
  if existing.fingerprint ≠ request.fingerprint then
    some (.conflict, state)
  else if existing.state = .committed then
    some (.replayed,
      removePreparation leaseToken (dropReceiveLease leaseToken state))
  else if existing.publicationPlan ∧ existing.state = .finalizing then
    if recoveryHeld existing leaseToken state then
      some (.publicationPending, state)
    else
      some (.rejected "stock-recovery-lease-mismatch", state)
  else if existing.processorResult ∧ existing.state = .ready then
    if recoveryHeld existing leaseToken state = false then
      some (.rejected "stock-recovery-lease-mismatch", state)
    else if existing.claimId = none then
      some (.rejected "finalize-claim-missing", state)
    else
      some (.finalizePending, state)
  else if isNativeReceiveTerminal existing.state ∧ existing.cleanupPending then
    some (.cleanupPending, state)
  else if retryableFailure existing.errorCode = false then
    some (.rejected (existing.errorCode.getD "operation-in-progress"), state)
  else
    none

/-- A finished operation that may be forgotten. -/
def droppable (operation : String → Option StockOperation) (keep id : String) :
    Bool :=
  id ≠ keep && (operation id).any fun candidate =>
    isNativeReceiveTerminal candidate.state && !candidate.cleanupPending

/-- Forget finished operations until the index is short enough. -/
def dropRetained (keep : String) :
    Nat → List String → (String → Option StockOperation) →
      Option (List String) × (String → Option StockOperation)
  | 0, next, operation => (some next, operation)
  | fuel + 1, next, operation =>
    if next.length ≤ maxRetainedOperations then
      (some next, operation)
    else
      match next.find? (droppable operation keep) with
      | none => (none, operation)
      | some removed =>
        dropRetained keep fuel (next.erase removed)
          (Function.update operation removed none)

/-- The record of an operation, unless too many have to be kept. -/
def retainOperation (operation : StockOperation) (state : AdmissionState) :
    Bool × AdmissionState :=
  let index := state.operationIndex.filter fun id => id ≠ operation.id
  let next := index ++ [operation.id]
  match dropRetained operation.id next.length next state.operation with
  | (none, kept) => (false, { state with operation := kept })
  | (some next, kept) =>
    (true, { state with
      operation := Function.update kept operation.id (some operation)
      operationIndex := next })

/-- The operation of a receive that is admitted. -/
def admittedOperation (request : StockRequest) (leaseToken claimId : String) :
    StockOperation where
  id := request.id
  fingerprint := request.fingerprint
  leaseToken := leaseToken
  stockReceive := true
  state := .processing
  claimId := some claimId

/-- Another operation whose publication is to be finished first. -/
def recoveryPending (id : String) (state : AdmissionState) : Bool :=
  (state.operationIndex.filterMap state.operation).any fun current =>
    current.id ≠ id && (current.state = .ready || current.state = .finalizing)

def leaseHeld (leaseToken : String) (state : AdmissionState) : Bool :=
  (state.receiveLease.any fun lease =>
    lease.token = leaseToken && decide (state.now < lease.expiresAt)) ||
      state.preparationLeases.any fun candidate =>
        candidate.token = leaseToken && decide (state.now < candidate.expiresAt)

/-- Admit a receive, or say why not. -/
def admitStockReceiveState (request : StockRequest)
    (leaseToken claimId : String) (state : AdmissionState) :
    Admission × AdmissionState :=
  if state.repositoryDeleting then
    (.rejected "repository-deleting", state)
  else
    match (state.operation request.id).bind fun existing =>
        admitExisting existing request leaseToken state with
    | some answered => answered
    | none =>
      if recoveryPending request.id state then
        (.rejected "authority-recovery-pending", state)
      else if leaseHeld leaseToken state = false then
        (.rejected "lease-mismatch", state)
      else
        match retainOperation
            (admittedOperation request leaseToken claimId) state with
        | (false, kept) => (.rejected "operation-ledger-full", kept)
        | (true, retained) =>
          let removed := removePreparation leaseToken retained
          (.admitted,
            if gcOwnsSource state.gc then removed
            else { removed with receiveLease := none })

/-! ## Operations that go on -/

/-- What a call on an operation changes in its record. -/
structure OperationChange where
  state : NativeReceiveState
  errorCode : Option String := none
  cleanupPending : Bool := false
  publicationPlan : Bool := false
  processorResult : Bool := false
  dropsLease : Bool := false

def OperationChange.apply (change : OperationChange)
    (operation : StockOperation) : StockOperation :=
  { operation with
    state := change.state
    errorCode := change.errorCode
    cleanupPending := change.cleanupPending
    publicationPlan := change.publicationPlan
    processorResult := change.processorResult }

/-- An operation that is not done goes on, or is done. -/
def settle (id : String) (change : OperationChange) (state : AdmissionState) :
    Option AdmissionState :=
  match state.operation id with
  | none => none
  | some operation =>
    if isNativeReceiveTerminal operation.state then
      none
    else
      let settled := { state with
        operation :=
          Function.update state.operation id (some (change.apply operation)) }
      some (if change.dropsLease then
        dropReceiveLease operation.leaseToken settled else settled)

/-- The outputs of an operation that is done have been deleted. -/
def completeCleanup (id : String) (state : AdmissionState) :
    Option AdmissionState :=
  match state.operation id with
  | none => none
  | some operation =>
    if isNativeReceiveTerminal operation.state then
      some { state with
        operation := Function.update state.operation id
          (some { operation with cleanupPending := false }) }
    else
      none

/-- The publication of an operation takes the receive lease again. -/
def acquirePublication (id : String) (state : AdmissionState) :
    Option AdmissionState :=
  match state.operation id with
  | none => none
  | some operation =>
    if id ∉ state.operationIndex ∨
        operation.state ≠ .processing ∧ operation.state ≠ .ready then
      none
    else if state.receiveLease.any fun existing =>
        existing.token ≠ operation.leaseToken &&
          (decide (state.now < existing.expiresAt) ||
            state.finalizeIntent existing.token) then
      some state
    else
      some { state with
        receiveLease := some (receiveLeaseAt operation.leaseToken state.now) }

/-! ## Expired leases -/

/-- The preparations that the clearing has read and whose inputs it has
deleted. -/
def clearPreparations (startedAt : Nat) (tokens : List String)
    (state : AdmissionState) : AdmissionState :=
  { state with
    preparationLeases := state.preparationLeases.filter fun lease =>
      decide (startedAt < lease.expiresAt) || lease.token ∉ tokens }

/-- An expired receive lease is renewed for a receive that goes on, and else its
inputs are deleted. -/
def beginCleanup (startedAt : Nat) (state : AdmissionState) : AdmissionState :=
  match state.receiveLease with
  | none => state
  | some lease =>
    if startedAt < lease.expiresAt then
      state
    else if state.finalizeIntent lease.token ∨
        state.activeOperations.any (fun operation =>
          operation.leaseToken = lease.token) = true then
      { state with receiveLease := some (RepoLease.renewedAt lease startedAt) }
    else
      { state with cleanup := some ⟨lease, startedAt⟩ }

/-- The inputs are deleted, or could not be and the lease is put back. -/
def endCleanup (deleted : Bool) (state : AdmissionState) :
    Option AdmissionState :=
  state.cleanup.map fun cleanup =>
    { state with
      cleanup := none
      receiveLease :=
        if deleted then none
        else some (RepoLease.renewedAt cleanup.lease cleanup.startedAt) }

/-! ## Runs -/

/-- What other calls may change. -/
structure OutsideChange where
  repositoryDeleting : Bool
  recoveryLease : Option StockReceiveRecoveryLease
  compactLease : Option RepoLease
  gc : Option GcOperation
  finalizeIntent : String → Bool

/-- A call, or time that passes. -/
inductive AdmissionEvent where
  | elapsed (milliseconds : Nat)
  | acquire (token : String) (startedAt : Nat) (stockPreparation : Bool)
      (helped : Option String)
  | handoff (token : String) (startedAt : Nat)
  | abort (token : String)
  | promote (token : String)
  | admitStock (token claimId : String)
  | settle (id : String) (change : OperationChange)
  | completeCleanup (id : String)
  | acquirePublication (id : String)
  | releasePublication (token : String)
  | clearPreparations (startedAt : Nat) (tokens : List String)
  | beginCleanup (startedAt : Nat)
  | endCleanup (deleted : Bool)
  | outside (change : OutsideChange)

/-- One event under a concurrency limit; every receive asks to admit one
operation. -/
def step (limit : Nat) (request : String → StockRequest)
    (state : AdmissionState) : AdmissionEvent → Option AdmissionState
  | .elapsed milliseconds => some { state with now := state.now + milliseconds }
  | .acquire token startedAt stockPreparation helped =>
    if startedAt ≤ state.now then
      some (acquire (receiveLeaseAt token startedAt)
        (if stockPreparation then some limit else none) helped state).2
    else
      none
  | .handoff token startedAt =>
    some (handoff (receiveLeaseAt token startedAt) limit state).2
  | .abort token => some (abortReceiveLease token state)
  | .promote token => some (promoteStockPreparationLease token state).2
  | .admitStock token claimId =>
    some (admitStockReceiveState (request token) token claimId state).2
  | .settle id change => settle id change state
  | .completeCleanup id => completeCleanup id state
  | .acquirePublication id => acquirePublication id state
  | .releasePublication token => some (dropReceiveLease token state)
  | .clearPreparations startedAt tokens =>
    some (clearPreparations startedAt tokens state)
  | .beginCleanup startedAt =>
    if startedAt ≤ state.now ∧ state.cleanup = none then
      some (beginCleanup startedAt state)
    else
      none
  | .endCleanup deleted => endCleanup deleted state
  | .outside change =>
    some { state with
      repositoryDeleting := change.repositoryDeleting
      recoveryLease := change.recoveryLease
      compactLease := change.compactLease
      gc := change.gc
      finalizeIntent := change.finalizeIntent }

end GitOnCloudflare.Receive.StockAdmission
