import GitOnCloudflare.Native.Execution

/-!
# Native executions are fenced

Calls, claims, expiries and deletion in any order, at any time and cut
anywhere.  Every write of a call is a step of the lane discipline or leaves
it alone, so that the laws of the discipline hold in every reachable state.
-/

namespace GitOnCloudflare.Native

open Foundations
open Foundations.FencedLanes
open Repo

/-! ## The coordinator as fenced lanes -/

def nativeDiscipline :
    Discipline NativeExecutionLane NativeExecutionIdentity where
  laneOf := NativeExecutionIdentity.lane
  stampOf := NativeExecutionIdentity.generation
  drain := expiredWriterDrainMs

def NativeExecutionState.slotState : NativeExecutionState → SlotState
  | .active => .active
  | .completed => .completed
  | .revoked => .revoked

def NativeExecutionRecord.slot (record : NativeExecutionRecord) :
    Slot NativeExecutionIdentity :=
  ⟨record.identity, record.state.slotState, record.stopPending,
    record.drainUntil⟩

def NativeWorld.lanes (current : NativeWorld) :
    State NativeExecutionLane NativeExecutionIdentity :=
  { slot := fun lane =>
      (current.nativeExecution lane).map NativeExecutionRecord.slot
    stamp := current.nativeExecutionGeneration
    history := current.history }

variable {state : NativeExecutionState} {record : NativeExecutionRecord}
  {before after : NativeWorld}

theorem slotState_active :
    state.slotState = .active ↔ state = .active := by
  cases state <;> simp [NativeExecutionState.slotState]

theorem slotState_revoked :
    state.slotState = .revoked ↔ state = .revoked := by
  cases state <;> simp [NativeExecutionState.slotState]

/-- The slot of a lane whose record is replaced. -/
theorem lanes_putRecord (current : NativeWorld) (lane : NativeExecutionLane)
    (record : NativeExecutionRecord) :
    (current.putRecord lane record).lanes =
      { current.lanes with
        slot :=
          Function.update current.lanes.slot lane (some record.slot) } := by
  unfold NativeWorld.putRecord NativeWorld.lanes
  congr 1
  funext other
  by_cases same : other = lane
  · subst same
    simp
  · simp [Function.update_of_ne same]

variable {current : NativeWorld} {lane : NativeExecutionLane}
  {operationId claimId : String} {Value : Type}
  {identity : NativeExecutionIdentity}

theorem lanes_slot (found : current.nativeExecution lane = some record) :
    current.lanes.slot lane = some record.slot :=
  congrArg (Option.map NativeExecutionRecord.slot) found

theorem lanes_note (current : NativeWorld) (event : NativeEvent) :
    (current.note event).lanes =
      { current.lanes with history := event :: current.lanes.history } :=
  rfl

theorem lanes_issue (current : NativeWorld) (identity : NativeExecutionIdentity) :
    (current.issue identity).lanes =
      ⟨Function.update current.lanes.slot identity.lane
          (some ⟨identity, .active, false, 0⟩),
        identity.generation,
        .issued identity current.now :: current.lanes.history⟩ := by
  unfold NativeWorld.issue
  rw [lanes_note, lanes_putRecord]
  rfl

/-- Counting bytes does not touch the authority of a record. -/
theorem countBridgeIo_slot (record : NativeExecutionRecord) (now : Nat)
    (kind : NativeBridgeIo) (bytes : Nat) :
    (record.countBridgeIo now kind bytes).slot = record.slot := by
  cases kind <;> rfl

theorem settledRecord_slot (current : NativeWorld)
    (record : NativeExecutionRecord) (outcome : NativeOutcome) :
    (current.settledRecord record outcome).slot =
      settle record.slot (outcome = .revoked) expiredWriterDrainMs
        current.now := by
  cases outcome <;> rfl

/-! ## What the coordinator keeps -/

/-- The lanes keep their discipline, and a cleared repository its fence. -/
structure Fenced (current : NativeWorld) : Prop where
  lanes : nativeDiscipline.Invariant current.lanes
  fence :
    .closed ∈ current.history → current.repo.repositoryDeleting = true

/-- What one committed write does. -/
inductive NativeWrite (before : NativeWorld) : NativeWorld → Prop where
  | still : NativeWrite before before
  | issued
      (lane : NativeExecutionLane)
      (operationId claimId grantSha256 : String)
      (owns : before.ownsClaim lane operationId claimId = true)
      (idle : before.laneBusy lane = false) :
      NativeWrite before
        (before.issue
          (before.nextIdentity lane operationId claimId grantSha256))
  | settled
      (record : NativeExecutionRecord)
      (outcome : NativeOutcome)
      (found :
        before.nativeExecution record.identity.lane = some record)
      (active : record.state = .active) :
      NativeWrite before
        ((before.putRecord record.identity.lane
          (before.settledRecord record outcome)).note
          (.settled record.identity (outcome = .revoked) before.now))
  | counted
      (record : NativeExecutionRecord)
      (kind : NativeBridgeIo)
      (bytes : Nat)
      (found :
        before.nativeExecution record.identity.lane = some record) :
      NativeWrite before
        (before.putRecord record.identity.lane
          (record.countBridgeIo before.now kind bytes))
  | acknowledged
      (record : NativeExecutionRecord)
      (found :
        before.nativeExecution record.identity.lane = some record)
      (revoked : record.state = .revoked) :
      NativeWrite before
        ((before.putRecord record.identity.lane
          { record with stopPending := false }).note
          (.acknowledged record.identity))
  | cleared
      (fenced : before.repo.repositoryDeleting = true) :
      NativeWrite before
        ({ before with
          repo := { repositoryDeleting := true }
          nativeExecution := fun _ => none
          nativeExecutionGeneration := 0 }.note .closed)

theorem ownsClaim_unfenced
    (owns : current.ownsClaim lane operationId claimId = true) :
    current.repo.repositoryDeleting = false := by
  unfold NativeWorld.ownsClaim at owns
  split at owns
  · cases owns
  · next unfenced => simpa using unfenced

theorem slot_idle_of_not_busy (idle : current.laneBusy lane = false)
    {slot : Slot NativeExecutionIdentity}
    (found : current.lanes.slot lane = some slot) : slot.Idle current.now := by
  obtain ⟨record, present, rfl⟩ := Option.map_eq_some_iff.mp found
  unfold NativeWorld.laneBusy at idle
  rw [present] at idle
  simp only [Option.any_some, Bool.or_eq_false_iff,
    decide_eq_false_iff_not, not_lt] at idle
  obtain ⟨⟨inactive, stopped⟩, drained⟩ := idle
  exact ⟨fun active => inactive (slotState_active.mp active), stopped,
    drained⟩

/-- Replacing a record by one with the same authority changes no lane. -/
theorem lanes_of_same_slot {later : NativeExecutionRecord}
    (found : current.nativeExecution lane = some record)
    (same : later.slot = record.slot) :
    (current.putRecord lane later).lanes = current.lanes := by
  rw [lanes_putRecord, same, ← lanes_slot found, Function.update_eq_self]

/-- Every write keeps the discipline. -/
theorem Fenced.write (fenced : Fenced before)
    (written : NativeWrite before after) : Fenced after := by
  cases written with
  | still => exact fenced
  | issued lane operationId claimId grantSha256 owns idle =>
    have unfenced := ownsClaim_unfenced owns
    have opened : FencedLanes.Event.closed ∉ before.history := by
      intro closed
      rw [fenced.fence closed] at unfenced
      cases unfenced
    refine ⟨?_, ?_⟩
    · rw [lanes_issue]
      exact fenced.lanes.issue
        (before.nextIdentity lane operationId claimId grantSha256)
        before.now opened
        (fun slot found => slot_idle_of_not_busy idle found) rfl
    · intro closed
      simp only [NativeWorld.issue, NativeWorld.note, NativeWorld.putRecord,
        List.mem_cons, reduceCtorEq, false_or] at closed
      exact absurd closed opened
  | settled record outcome found active =>
    refine ⟨?_, ?_⟩
    · rw [lanes_note, lanes_putRecord, settledRecord_slot]
      exact fenced.lanes.settle record.slot (outcome = .revoked)
        before.now (lanes_slot found) (slotState_active.mpr active)
    · intro closed
      simp only [NativeWorld.note, NativeWorld.putRecord, List.mem_cons,
        reduceCtorEq, false_or] at closed
      exact fenced.fence closed
  | counted record kind bytes found =>
    refine ⟨?_, fenced.fence⟩
    rw [lanes_of_same_slot found (countBridgeIo_slot record _ kind bytes)]
    exact fenced.lanes
  | acknowledged record found revoked =>
    refine ⟨?_, ?_⟩
    · rw [lanes_note, lanes_putRecord]
      exact fenced.lanes.acknowledge record.slot (lanes_slot found)
        (slotState_revoked.mpr revoked)
    · intro closed
      simp only [NativeWorld.note, NativeWorld.putRecord, List.mem_cons,
        reduceCtorEq, false_or] at closed
      exact fenced.fence closed
  | cleared fence =>
    exact ⟨fenced.lanes.close, fun _ => rfl⟩

theorem NativeEnvironment.fenced (moved : NativeEnvironment before after)
    (fenced : Fenced before) :
    Fenced after := by
  have same : after.lanes = before.lanes := by
    unfold NativeWorld.lanes
    rw [moved.nativeExecution, moved.nativeExecutionGeneration,
      moved.history]
  refine ⟨?_, ?_⟩
  · rw [same]
    exact fenced.lanes
  · rw [moved.history]
    exact fun closed => moved.fence (fenced.fence closed)

/-! ## Programs write in steps -/

/-- Every committed write of a program is a step. -/
def Writes {Value : Type} (program : NativeProgram Value) : Prop :=
  ∀ current, program.Ensures (fun _ _ _ => True) NativeWrite
    (fun _ _ => True) (fun _ _ => True) (fun _ _ => True) current

theorem writes_done (value : Value) :
    Writes (Program.done value : NativeProgram Value) :=
  fun _ => trivial

theorem writes_fail (failure : NativeFailure) :
    Writes (Program.fail failure : NativeProgram Value) :=
  fun _ => trivial

theorem writes_ask (request : NativeRequest) :
    Writes (Program.ask request : NativeProgram (NativeAnswer request)) :=
  fun _ _ _ _ _ => trivial

theorem writes_getRecord (lane : NativeExecutionLane) :
    Writes (getRecord lane) :=
  fun _ => trivial

theorem writes_storageTransaction {body : NativeWorld → Value × NativeWorld}
    (steps : ∀ current, NativeWrite current (body current).2) :
    Writes (storageTransaction body) :=
  fun current => ⟨steps current, trivial⟩

variable {program : NativeProgram Value}

theorem Writes.bind {Other : Type} {rest : Value → NativeProgram Other}
    (first : Writes program) (second : ∀ value, Writes (rest value)) :
    Writes (program.bind rest) := by
  intro current
  rw [Program.ensures_bind]
  exact (first current).mono (fun _ _ kept => kept)
    (fun value last _ => second value last) (fun _ _ failed => failed)

theorem Writes.handle {handler : NativeFailure → NativeProgram Value}
    (first : Writes program) (second : ∀ failure, Writes (handler failure)) :
    Writes (program.handle handler) := by
  intro current
  rw [Program.ensures_handle]
  exact (first current).mono (fun _ _ kept => kept)
    (fun _ _ value => value) (fun failure last _ => second failure last)

theorem writes_begin (digest : RepositoryContainerBridgeProps → String)
    (lane : NativeExecutionLane) (operationId claimId : String)
    (props : RepositoryContainerBridgeProps) :
    Writes (beginNativeExecution digest lane operationId claimId props) := by
  unfold beginNativeExecution
  split
  · exact writes_done none
  · apply writes_storageTransaction
    intro current
    split
    · exact .still
    · next owns =>
      split
      · exact .still
      · next idle =>
        exact .issued lane operationId claimId (digest props)
          (by simpa using owns) (by simpa using idle)

theorem writes_authorize (identity : NativeExecutionIdentity) :
    Writes (authorizeNativeExecution identity) :=
  writes_storageTransaction fun _ => .still

theorem writes_finish (identity : NativeExecutionIdentity)
    (outcome : NativeOutcome) :
    Writes (finishNativeExecution identity outcome) := by
  apply writes_storageTransaction
  intro current
  split
  · exact .still
  · next record found =>
    split
    · exact .still
    · next same =>
      split
      · exact .still
      · next active =>
        split
        · exact .still
        · simp only [Bool.not_eq_true', Bool.not_eq_false] at same
          obtain rfl := sameNativeExecution_iff.mp same
          exact .settled record outcome found (not_not.mp active)

theorem writes_noteNativeBridgeIo (identity : NativeExecutionIdentity)
    (kind : NativeBridgeIo) (bytes : Int) :
    Writes (noteNativeBridgeIo identity kind bytes) := by
  unfold noteNativeBridgeIo
  split
  · exact writes_done ()
  apply writes_storageTransaction
  intro current
  split
  · exact .still
  · next record found =>
    split
    · exact .still
    · next same =>
      simp only [Bool.not_eq_true', Bool.not_eq_false] at same
      obtain rfl := sameNativeExecution_iff.mp same
      exact .counted record kind bytes.toNat found

theorem writes_acknowledge (identity : NativeExecutionIdentity) :
    Writes (acknowledgeNativeStop identity) := by
  apply writes_storageTransaction
  intro current
  split
  · exact .still
  · next record found =>
    split
    · next revoked =>
      simp only [Bool.and_eq_true, decide_eq_true_eq] at revoked
      obtain ⟨stopped, same⟩ := revoked
      obtain rfl := sameNativeExecution_iff.mp same
      exact .acknowledged record found stopped
    · exact .still

theorem writes_stopOrFail {stopped : NativeProgram Bool}
    (waits : Writes stopped) : Writes (stopOrFail stopped) := by
  refine waits.bind fun answer => ?_
  cases answer with
  | false => exact writes_fail _
  | true => exact writes_done _

theorem writes_cancel (identity : NativeExecutionIdentity) :
    Writes (cancelNativeExecution identity) := by
  refine (writes_finish identity .revoked).bind fun _ => ?_
  refine (writes_stopOrFail (writes_ask _)).bind fun _ => ?_
  exact writes_acknowledge identity

theorem writes_reconcile (lane : NativeExecutionLane) :
    Writes (reconcileNativeExecutionLeases lane) := by
  refine (writes_getRecord lane).bind fun found => ?_
  cases found with
  | none => exact writes_done _
  | some record =>
    dsimp only
    split
    · exact writes_cancel _
    · split
      · refine (writes_authorize _).bind fun answer => ?_
        cases answer with
        | false => exact writes_cancel _
        | true => exact writes_done _
      · exact writes_done _

theorem writes_processExecution (identity : NativeExecutionIdentity) :
    Writes (processExecution identity) := by
  refine (writes_ask _).bind fun ready => ?_
  cases ready with
  | error code => exact writes_fail _
  | ok wasRunning =>
    refine (writes_authorize identity).bind fun authorized => ?_
    cases authorized with
    | false => exact writes_fail _
    | true =>
      refine (writes_ask _).bind fun processed => ?_
      cases processed with
      | error code => exact writes_fail _
      | ok result =>
        refine (writes_finish identity .completed).bind
          fun finished => ?_
        cases finished with
        | false => exact writes_fail _
        | true => exact writes_done _

theorem writes_settleFailure (identity : NativeExecutionIdentity)
    (failure : NativeFailure) : Writes (settleFailure identity failure) := by
  unfold settleFailure
  split
  · exact (writes_finish identity .completed).bind fun _ => writes_fail _
  · exact (writes_cancel identity).bind fun _ => writes_fail _

theorem writes_run (digest : RepositoryContainerBridgeProps → String)
    (lane : NativeExecutionLane) (operationId claimId : String)
    (props : RepositoryContainerBridgeProps) :
    Writes (runNativeExecution digest lane operationId claimId props) := by
  refine (writes_begin digest lane operationId claimId props).bind
    fun issued => ?_
  cases issued with
  | none => exact writes_fail _
  | some identity =>
    exact (writes_processExecution identity).handle
      (writes_settleFailure identity)

theorem writes_revokeLane (lane : NativeExecutionLane) :
    Writes (revokeLane lane) := by
  refine (writes_getRecord lane).bind fun found => ?_
  cases found with
  | none => exact writes_done _
  | some record =>
    dsimp only
    split
    · exact (writes_finish _ _).bind fun _ => writes_done _
    · exact writes_done _

theorem writes_acknowledgeOptional (identity : Option NativeExecutionIdentity) :
    Writes (acknowledgeOptional identity) := by
  cases identity with
  | none => exact writes_done _
  | some identity => exact writes_acknowledge identity

theorem writes_stopContainers : Writes stopNativeReceiveContainerState := by
  refine (writes_revokeLane _).bind fun foreground => ?_
  refine (writes_revokeLane _).bind fun maintenance => ?_
  refine (writes_stopOrFail (writes_ask _)).bind fun _ => ?_
  refine (writes_acknowledgeOptional foreground).bind fun _ => ?_
  exact writes_acknowledgeOptional maintenance

theorem writes_clearStorage : Writes clearRepositoryStorage := by
  intro current
  unfold clearRepositoryStorage
  rw [Program.ensures_transaction]
  cases fenced : current.repo.repositoryDeleting with
  | false => simp
  | true => exact ⟨.cleared fenced, trivial⟩

theorem NativeCall.writes (digest : RepositoryContainerBridgeProps → String)
    (call : NativeCall) : Writes (call.body digest) := by
  cases call with
  | begin lane operationId claimId props =>
    exact (writes_begin digest lane operationId claimId props).bind
      fun _ => writes_done _
  | authorize identity =>
    exact (writes_authorize identity).bind fun _ => writes_done _
  | finish identity outcome =>
    exact (writes_finish identity outcome).bind fun _ => writes_done _
  | acknowledge identity =>
    exact (writes_acknowledge identity).bind fun _ => writes_done _
  | noteBridgeIo identity kind bytes =>
    exact (writes_noteNativeBridgeIo identity kind bytes).bind
      fun _ => writes_done _
  | cancel identity =>
    exact (writes_cancel identity).bind fun _ => writes_done _
  | reconcile lane =>
    exact (writes_reconcile lane).bind fun _ => writes_done _
  | run lane operationId claimId props =>
    exact (writes_run digest lane operationId claimId props).bind
      fun _ => writes_done _
  | stopContainers =>
    exact writes_stopContainers.bind fun _ => writes_done _
  | clearStorage =>
    exact writes_clearStorage.bind fun _ => writes_done _

/-- The calls of the coordinator keep the discipline. -/
def nativeContract (digest : RepositoryContainerBridgeProps → String) :
    (nativeRuntime digest).Contract where
  holds := Fenced
  moves := fun _ _ => True
  guarantee := fun _ => NativeWrite
  refl := fun _ => trivial
  trans := fun _ _ => trivial
  environment := fun moved fenced => ⟨moved.fenced fenced, trivial⟩
  enters := fun _ fenced => ⟨fenced, trivial⟩
  calls := by
    intro call current _ fenced
    refine Program.Ensures.mono
      ((call.writes digest current).carry Fenced fenced ?_ ?_)
      (fun _ _ kept => kept) ?_ ?_
    · intro before after held written
      exact ⟨held.write written, held.write written, trivial, written⟩
    · exact fun before later allowed => ⟨allowed.1, trivial⟩
    · exact fun _ last held => ⟨held.1, trivial⟩
    · exact fun _ last held => ⟨held.1, trivial⟩

/-! ## The laws -/

/-- The claim of an operation that lets its execution act. -/
inductive LiveClaim (current : NativeWorld) (claimId : String) :
    NativeExecutionLane → String → Prop where
  | maintenance
      (operation : GcOperation)
      (claim : GcClaim)
      (found : current.repo.gcOperation = some operation)
      (indexing : operation.phase = .index)
      (held : operation.claim = some claim)
      (same : claim.id = claimId)
      (live : current.now < claim.expiresAt) :
      LiveClaim current claimId .maintenance operation.id
  | foreground
      (operationId : String)
      (operation : NativeReceiveOperation)
      (expiresAt : Nat)
      (found :
        current.repo.nativeReceiveOperation operationId = some operation)
      (processing : operation.state = .processing)
      (same : operation.claimId = some claimId)
      (expires : operation.claimExpiresAt = some expiresAt)
      (live : current.now < expiresAt) :
      LiveClaim current claimId .foreground operationId

theorem liveClaim_of_ownsClaim
    (owns : current.ownsClaim lane operationId claimId = true) :
    current.repo.repositoryDeleting = false ∧
      LiveClaim current claimId lane operationId := by
  refine ⟨ownsClaim_unfenced owns, ?_⟩
  unfold NativeWorld.ownsClaim at owns
  split at owns
  · cases owns
  · cases lane with
    | maintenance =>
      obtain ⟨operation, found, holds⟩ := (Option.any_eq_true _ _).mp owns
      simp only [Bool.and_eq_true, decide_eq_true_eq] at holds
      obtain ⟨⟨same, indexing⟩, claimed⟩ := holds
      obtain ⟨claim, held, live⟩ := (Option.any_eq_true _ _).mp claimed
      simp only [Bool.and_eq_true, decide_eq_true_eq] at live
      rw [← same]
      exact .maintenance operation claim found indexing held live.1 live.2
    | foreground =>
      obtain ⟨operation, found, holds⟩ := (Option.any_eq_true _ _).mp owns
      simp only [Bool.and_eq_true, decide_eq_true_eq] at holds
      obtain ⟨⟨processing, same⟩, live⟩ := holds
      cases expires : operation.claimExpiresAt with
      | none => simp [expires] at live
      | some expiresAt =>
        rw [expires] at live
        exact .foreground operationId operation expiresAt found
          processing same expires live

/-- The record of the lane is active and is this identity's. -/
def ActiveExecution (current : NativeWorld) (identity : NativeExecutionIdentity) :
    Prop :=
  ∃ record, current.nativeExecution identity.lane = some record ∧
    record.identity = identity ∧ record.state = .active

/-- What an identity that may act has. -/
structure HoldsAuthority
    (current : NativeWorld)
    (identity : NativeExecutionIdentity) : Prop where
  repository : identity.repositoryId = current.id
  unexpired : current.now < identity.expiresAt
  unfenced : current.repo.repositoryDeleting = false
  active : ActiveExecution current identity
  claim :
    LiveClaim current identity.claimId identity.lane identity.operationId

theorem authorizes_holdsAuthority
    (authorized : current.authorizes identity = true) :
    HoldsAuthority current identity := by
  unfold NativeWorld.authorizes at authorized
  split at authorized
  · cases authorized
  · next fresh =>
    obtain ⟨record, found, holds⟩ :=
      (Option.any_eq_true _ _).mp authorized
    simp only [Bool.and_eq_true, decide_eq_true_eq] at holds
    obtain ⟨⟨active, same⟩, owns⟩ := holds
    simp only [not_or, not_not, not_le] at fresh
    obtain ⟨unfenced, claim⟩ := liveClaim_of_ownsClaim owns
    exact
      { repository := fresh.1
        unexpired := fresh.2
        unfenced := unfenced
        active := ⟨record, found, sameNativeExecution_iff.mp same, active⟩
        claim := claim }

/-- What a program answers when it runs up to its end. -/
def answers {Value : Type} (program : NativeProgram Value)
    (current : NativeWorld) : Option (Except NativeFailure Value) :=
  (program.segment current).stop.answer?

/-- The laws of native execution in one state. -/
structure NativeLaws
    (digest : RepositoryContainerBridgeProps → String)
    (current : NativeWorld) : Prop where
  /-- A lane has one active record, and one identity that was issued and not
  settled. -/
  exclusive :
    ∀ first second, ActiveExecution current first →
      ActiveExecution current second → first.lane = second.lane →
        first = second
  outstanding :
    ∀ first second, Discipline.Outstanding current.history first →
      Discipline.Outstanding current.history second → first.lane = second.lane →
        first = second
  /-- A new identity is the next event of the history, and generations grow
  over both lanes. -/
  issues :
    ∀ lane operationId claimId props identity,
      answers (beginNativeExecution digest lane operationId claimId props)
          current = some (.ok (some identity)) →
        ((beginNativeExecution digest lane operationId claimId
            props).segment current).final.history =
          .issued identity current.now :: current.history
  increasing :
    ∀ newer last lastTime middle first firstTime older,
      current.history =
          newer ++ .issued last lastTime ::
            (middle ++ .issued first firstTime :: older) →
        first.generation < last.generation
  authorized :
    ∀ identity,
      answers (authorizeNativeExecution identity) current =
          some (.ok true) →
        HoldsAuthority current identity
  /-- A settlement is the next event of the history, and settled identities
  are never settled again. -/
  settles :
    ∀ identity outcome,
      answers (finishNativeExecution identity outcome) current =
          some (.ok true) →
        ((finishNativeExecution identity outcome).segment
            current).final.history =
          .settled identity (outcome = .revoked) current.now ::
            current.history
  settledOnce :
    ∀ identity revoked time, .settled identity revoked time ∈ current.history →
      ∀ outcome,
        answers (finishNativeExecution identity outcome) current =
          some (.ok false)
  /-- Between a revocation and the next identity of the lane lie the
  acknowledgement of the stop and the drain. -/
  waited :
    ∀ newer next nextTime middle identity time older,
      current.history =
          newer ++ .issued next nextTime ::
            (middle ++ .settled identity true time :: older) →
        next.lane = identity.lane →
          (∀ other issuedAt, .issued other issuedAt ∈ middle →
            other.lane ≠ identity.lane) →
            .acknowledged identity ∈ middle ∧
              time + expiredWriterDrainMs ≤ nextTime

/-- A storage transaction runs in one stretch. -/
theorem segment_storageTransaction (body : NativeWorld → Value × NativeWorld)
    (current : NativeWorld) :
    (storageTransaction body).segment current =
      ⟨[(body current).2], (body current).2, .finished (body current).1⟩ :=
  rfl

theorem begin_issues {digest : RepositoryContainerBridgeProps → String}
    {props : RepositoryContainerBridgeProps}
    (answered :
      answers (beginNativeExecution digest lane operationId claimId props)
        current = some (.ok (some identity))) :
    ((beginNativeExecution digest lane operationId claimId
        props).segment current).final.history =
      .issued identity current.now :: current.history := by
  unfold answers beginNativeExecution at answered
  unfold beginNativeExecution
  split at answered
  · cases answered
  · next same =>
    rw [if_neg same]
    rw [segment_storageTransaction] at answered ⊢
    dsimp only [Stop.answer?] at answered ⊢
    split at answered
    · cases answered
    · next owns =>
      split at answered
      · cases answered
      · next idle =>
        cases answered
        simp only [owns, idle]
        rfl

theorem finish_settles {outcome : NativeOutcome}
    (answered :
      answers (finishNativeExecution identity outcome) current =
        some (.ok true)) :
    ActiveExecution current identity ∧
      ((finishNativeExecution identity outcome).segment
          current).final.history =
        .settled identity (outcome = .revoked) current.now ::
          current.history := by
  unfold answers finishNativeExecution at answered
  unfold finishNativeExecution
  rw [segment_storageTransaction] at answered ⊢
  dsimp only [Stop.answer?] at answered ⊢
  split at answered
  · cases answered
  · next record found =>
    split at answered
    · cases answered
    · next same =>
      split at answered
      · cases answered
      · next active =>
        split at answered
        · cases answered
        · next may =>
          have own : sameNativeExecution record.identity identity = true := by
            simpa using same
          refine ⟨⟨record, found, sameNativeExecution_iff.mp own,
            not_not.mp active⟩, ?_⟩
          simp only [same, active, may, if_false]
          rfl

/-- A settlement always answers. -/
theorem finish_answers (current : NativeWorld)
    (identity : NativeExecutionIdentity) (outcome : NativeOutcome) :
    ∃ answer,
      answers (finishNativeExecution identity outcome) current =
        some (.ok answer) := by
  unfold answers finishNativeExecution
  rw [segment_storageTransaction]
  exact ⟨_, rfl⟩

theorem ActiveExecution.slot (active : ActiveExecution current identity) :
    ∃ slot, current.lanes.slot identity.lane = some slot ∧
      slot.identity = identity ∧ slot.state = .active := by
  obtain ⟨record, found, same, acting⟩ := active
  exact ⟨record.slot, lanes_slot found, same, slotState_active.mpr acting⟩

theorem Fenced.laws (fenced : Fenced current)
    (digest : RepositoryContainerBridgeProps → String) :
    NativeLaws digest current := by
  have lanes := fenced.lanes
  refine
    { exclusive := ?_
      outstanding := ?_
      issues := fun _ _ _ _ _ answered => begin_issues answered
      increasing := ?_
      authorized := ?_
      settles := fun _ _ answered => (finish_settles answered).2
      settledOnce := ?_
      waited := lanes.waited }
  · intro first second firstActive secondActive same
    obtain ⟨slot, found, own, _⟩ := firstActive.slot
    obtain ⟨other, present, others, _⟩ := secondActive.slot
    rw [← same] at present
    cases found.symm.trans present
    exact own.symm.trans others
  · intro first second firstOut secondOut same
    obtain ⟨slot, found, own, _⟩ := lanes.held first firstOut
    obtain ⟨other, present, others, _⟩ := lanes.held second secondOut
    rw [show nativeDiscipline.laneOf second =
      nativeDiscipline.laneOf first from same.symm] at present
    cases found.symm.trans present
    exact own.symm.trans others
  · intro newer last lastTime middle first firstTime older split
    have ordered := lanes.increasing
    rw [show current.lanes.history = current.history from rfl, split,
      List.pairwise_append] at ordered
    have behind := (List.pairwise_cons.mp ordered.2.1).1
    exact behind _ (List.mem_append_right _ List.mem_cons_self) last
      lastTime first firstTime rfl rfl
  · intro identity answered
    unfold answers authorizeNativeExecution at answered
    rw [segment_storageTransaction] at answered
    exact authorizes_holdsAuthority
      (Except.ok.inj (Option.some.inj answered))
  · intro identity revoked time settled outcome
    obtain ⟨answer, answered⟩ := finish_answers current identity outcome
    cases answer with
    | false => exact answered
    | true =>
      obtain ⟨slot, found, own, active⟩ :=
        (finish_settles answered).1.slot
      rw [← own] at found settled
      exact absurd active (lanes.inactive slot found revoked time settled)

/-- A coordinator that has not issued anything. -/
structure FreshExecutions (current : NativeWorld) : Prop where
  records : ∀ lane, current.nativeExecution lane = none
  history : current.history = []

/-- The laws hold in every state that calls, other calls of the repository,
cuts and restarts can reach. -/
theorem native_execution_fenced
    (digest : RepositoryContainerBridgeProps → String) {initial : NativeWorld}
    {config :
      Config NativeWorld NativeRequest NativeAnswer NativeFailure NativeCall
        NativeReply} (fresh : FreshExecutions initial)
    (reached : (nativeRuntime digest).Reachable initial config) :
    NativeLaws digest config.state := by
  have start : (nativeContract digest).holds initial := by
    refine ⟨.initial ?_ fresh.history, ?_⟩
    · intro lane
      exact congrArg (Option.map NativeExecutionRecord.slot)
        (fresh.records lane)
    · rw [fresh.history]
      nofun
  exact Fenced.laws ((nativeContract digest).reachable_holds start reached)
    digest

/-- A repository whose receive `o` is claimed by `c`. -/
def claimedWorld : NativeWorld where
  id := "d"
  repo :=
    { nativeReceiveOperation := fun id =>
        if id = "o" then
          some
            { id := "o"
              leaseToken := "t"
              state := .processing
              stockReceive := false
              activeCatalog := []
              catalogGeneration := 0
              fingerprint := ""
              createdAt := 0
              updatedAt := 0
              attempts := 1
              claimId := some "c"
              claimExpiresAt := some 10
              errorCode := none }
        else
          none }
  nativeExecution := fun _ => none
  nativeExecutionGeneration := 0
  now := 1
  history := []

/-- The laws once that receive has begun its execution. -/
theorem native_execution_fenced_claimed :
    ∃ config :
      Config NativeWorld NativeRequest NativeAnswer NativeFailure NativeCall
        NativeReply,
      config.state.nativeExecutionGeneration = 1 ∧
      NativeLaws (fun _ => "g") config.state := by
  let call : NativeCall := .begin .foreground "o" "c" ⟨"o", [], [], true, true⟩
  let runtime := nativeRuntime fun _ => "g"
  refine ⟨runtime.settle call [] ((runtime.body call).segment claimedWorld),
    ?_, ?_⟩
  · decide +kernel
  · have fresh : FreshExecutions claimedWorld := ⟨fun _ => rfl, rfl⟩
    exact native_execution_fenced _ fresh
      (.step .initial (.start ⟨claimedWorld, []⟩ call trivial))

end GitOnCloudflare.Native
