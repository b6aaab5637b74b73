import GitOnCloudflare.Receive.StockAdmission
import Mathlib.Data.List.Sublists

/-!
# Admission stays within the limit

Preparations that have not expired and operations that are not done are never
more than the limit, and who holds the receive lease has room for one operation
more.  The clearing of an expired receive lease keeps that as long as it does not
put back a lease that another receive has replaced.
-/

namespace GitOnCloudflare.Receive.StockAdmission

open Foundations
open Repo

variable {limit : Nat} {request : String → StockRequest}
  {state next : AdmissionState}

/-! ## Counting -/

def isPending (operation : String → Option StockOperation) (id : String) : Bool :=
  (operation id).any fun candidate => !isNativeReceiveTerminal candidate.state

/-- Operations that are not done, of the ids that count. -/
def AdmissionState.operationCount (state : AdmissionState)
    (counts : String → Bool) : Nat :=
  state.operationIndex.countP fun id => counts id && isPending state.operation id

def AdmissionState.preparationCount (state : AdmissionState) : Nat :=
  (state.activePreparations state.now).length

theorem length_activeOperations (state : AdmissionState) :
    state.activeOperations.length = state.operationCount fun _ => true := by
  unfold AdmissionState.activeOperations AdmissionState.operationCount isPending
  rw [← List.countP_eq_length_filter, List.countP_filterMap]
  congr 1
  funext id
  cases state.operation id <;> rfl

theorem activeCount_eq (state : AdmissionState) :
    state.activeCount =
      state.preparationCount + state.operationCount fun _ => true := by
  unfold AdmissionState.activeCount
  rw [length_activeOperations]
  rfl

theorem operationCount_mono {counts more : String → Bool}
    (fewer : ∀ id, counts id = true → more id = true) :
    state.operationCount counts ≤ state.operationCount more := by
  apply List.countP_mono_left
  intro id _ counted
  rcases (Bool.and_eq_true _ _).mp counted with ⟨counted, pending⟩
  exact (Bool.and_eq_true _ _).mpr ⟨fewer id counted, pending⟩

theorem operationCount_le {counts : String → Bool} :
    state.operationCount counts ≤ state.operationCount fun _ => true :=
  operationCount_mono fun _ _ => rfl

theorem length_activePreparations (state : AdmissionState) (now : Nat) :
    (state.activePreparations now).length =
      state.preparationLeases.countP fun lease => decide (lease.live now) :=
  List.countP_eq_length_filter.symm

/-- Fewer leases are live later. -/
theorem length_activePreparations_mono (state : AdmissionState) {early late : Nat}
    (later : early ≤ late) :
    (state.activePreparations late).length ≤
      (state.activePreparations early).length := by
  rw [length_activePreparations, length_activePreparations]
  apply List.countP_mono_left
  intro lease _ live
  have live : late < lease.expiresAt := decide_eq_true_iff.mp live
  exact decide_eq_true (Nat.lt_of_le_of_lt later live)

/-- One that counts no more is missing. -/
theorem countP_and_lt {Item : Type} {items : List Item} {counts left : Item → Bool}
    {item : Item} (member : item ∈ items) (counted : counts item = true)
    (gone : left item = false) :
    (items.countP fun other => left other && counts other) <
      items.countP fun other => true && counts other := by
  have all : (items.countP fun other => true && counts other) =
      items.countP counts := rfl
  rw [all, List.countP_eq_length_filter, List.countP_eq_length_filter,
    ← List.filter_filter]
  apply List.length_filter_lt_length_iff_exists.mpr
  exact ⟨item, List.mem_filter.mpr ⟨member, counted⟩, Bool.eq_false_iff.mp gone⟩

/-! ## What the runs keep -/

/-- What is active besides an operation. -/
def AdmissionState.besides (state : AdmissionState) (id : String) : Nat :=
  state.preparationCount + state.operationCount fun other => other ≠ id

/-- The limit holds, and the receive lease has room for its operation. -/
structure Bounded (limit : Nat) (request : String → StockRequest)
    (state : AdmissionState) : Prop where
  count : state.activeCount ≤ limit
  held : ∀ lease, state.receiveLease = some lease →
    state.besides (request lease.token).id < limit
  named : ∀ id operation, state.operation id = some operation →
    (request operation.leaseToken).id = id

/-- A step that makes nothing active and gives the receive lease to nobody. -/
structure Shrinks (state next : AdmissionState) : Prop where
  preparations : next.preparationCount ≤ state.preparationCount
  operations : ∀ counts, next.operationCount counts ≤ state.operationCount counts
  lease : ∀ lease, next.receiveLease = some lease →
    ∃ held, state.receiveLease = some held ∧ held.token = lease.token
  kept : ∀ id operation, next.operation id = some operation →
    ∃ old, state.operation id = some old ∧
      operation.leaseToken = old.leaseToken

theorem Shrinks.bounded (shrinks : Shrinks state next)
    (bounded : Bounded limit request state) : Bounded limit request next where
  count := by
    have before := bounded.count
    have preparations := shrinks.preparations
    have operations := shrinks.operations fun _ => true
    rw [activeCount_eq] at before ⊢
    omega
  held := by
    intro lease here
    rcases shrinks.lease lease here with ⟨held, there, same⟩
    have before := bounded.held held there
    have preparations := shrinks.preparations
    have operations := shrinks.operations fun other =>
      other ≠ (request lease.token).id
    unfold AdmissionState.besides at before ⊢
    rw [same] at before
    omega
  named := by
    intro id operation here
    rcases shrinks.kept id operation here with ⟨old, there, same⟩
    rw [same]
    exact bounded.named id old there

theorem Shrinks.refl (state : AdmissionState) : Shrinks state state where
  preparations := Nat.le_refl _
  operations := fun _ => Nat.le_refl _
  lease := fun lease here => ⟨lease, here, rfl⟩
  kept := fun _ operation here => ⟨operation, here, rfl⟩

theorem Shrinks.trans {last : AdmissionState} (first : Shrinks state next)
    (second : Shrinks next last) : Shrinks state last where
  preparations := Nat.le_trans second.preparations first.preparations
  operations := fun counts =>
    Nat.le_trans (second.operations counts) (first.operations counts)
  lease := by
    intro lease here
    rcases second.lease lease here with ⟨middle, there, same⟩
    rcases first.lease middle there with ⟨held, before, same'⟩
    exact ⟨held, before, same'.trans same⟩
  kept := by
    intro id operation here
    rcases second.kept id operation here with ⟨middle, there, same⟩
    rcases first.kept id middle there with ⟨old, before, same'⟩
    exact ⟨old, before, same.trans same'⟩

/-! ## Leases that go -/

/-- Leases change, and the operations are the same. -/
theorem Shrinks.of_leases (operation : next.operation = state.operation)
    (counted : ∀ counts,
      next.operationCount counts = state.operationCount counts)
    (preparations : next.preparationCount ≤ state.preparationCount)
    (lease : ∀ lease, next.receiveLease = some lease →
      ∃ held, state.receiveLease = some held ∧ held.token = lease.token) :
    Shrinks state next where
  preparations := preparations
  operations := fun counts => Nat.le_of_eq (counted counts)
  lease := lease
  kept := by
    intro id kept here
    rw [operation] at here
    exact ⟨kept, here, rfl⟩

theorem Shrinks.of_sameLease (operation : next.operation = state.operation)
    (counted : ∀ counts,
      next.operationCount counts = state.operationCount counts)
    (preparations : next.preparationCount ≤ state.preparationCount)
    (same : next.receiveLease = state.receiveLease) : Shrinks state next := by
  apply Shrinks.of_leases operation counted preparations
  intro lease here
  rw [same] at here
  exact ⟨lease, here, rfl⟩

/-- Leases for preparations are dropped. -/
theorem filter_preparations_shrinks (keeps : RepoLease → Bool)
    (state : AdmissionState) :
    Shrinks state { state with
      preparationLeases := state.preparationLeases.filter keeps } := by
  refine .of_sameLease rfl (fun _ => rfl) ?_ rfl
  unfold AdmissionState.preparationCount
  rw [length_activePreparations, length_activePreparations]
  exact List.filter_sublist.countP_le

theorem removePreparation_shrinks (token : String) (state : AdmissionState) :
    Shrinks state (removePreparation token state) :=
  filter_preparations_shrinks _ state

theorem dropReceiveLease_shrinks (token : String) (state : AdmissionState) :
    Shrinks state (dropReceiveLease token state) := by
  unfold dropReceiveLease
  split
  · refine .of_leases rfl (fun _ => rfl) (Nat.le_refl _) ?_
    intro lease here
    cases here
  · exact .refl state

theorem abortReceiveLease_shrinks (token : String) (state : AdmissionState) :
    Shrinks state (abortReceiveLease token state) := by
  unfold abortReceiveLease
  split
  · exact .of_sameLease rfl (fun _ => rfl) (Nat.le_refl _) rfl
  split
  · exact removePreparation_shrinks token state
  · exact dropReceiveLease_shrinks token state

theorem clearPreparations_shrinks (startedAt : Nat) (tokens : List String)
    (state : AdmissionState) :
    Shrinks state (clearPreparations startedAt tokens state) :=
  filter_preparations_shrinks _ state

/-- Another time, and the same lease for longer. -/
theorem renewed_shrinks {existing : RepoLease}
    (here : state.receiveLease = some existing) (now : Nat) :
    Shrinks state { state with
      receiveLease := some (RepoLease.renewedAt existing now) } := by
  refine .of_leases rfl (fun _ => rfl) (Nat.le_refl _) ?_
  intro lease same
  cases same
  exact ⟨existing, here, rfl⟩

theorem elapsed_shrinks (state : AdmissionState) (milliseconds : Nat) :
    Shrinks state { state with now := state.now + milliseconds } :=
  .of_sameLease rfl (fun _ => rfl)
    (length_activePreparations_mono state (Nat.le_add_right _ _)) rfl

theorem beginCleanup_shrinks (startedAt : Nat) (state : AdmissionState) :
    Shrinks state (beginCleanup startedAt state) := by
  unfold beginCleanup
  cases here : state.receiveLease with
  | none => exact .refl state
  | some lease =>
    dsimp only
    split
    · exact .refl state
    split
    · exact renewed_shrinks here startedAt
    · exact .of_sameLease rfl (fun _ => rfl) (Nat.le_refl _) here.symm

/-! ## Operations that go on -/

variable {id : String} {lease : RepoLease}

theorem update_shrinks {operation changed : StockOperation}
    (here : state.operation id = some operation)
    (pending : isNativeReceiveTerminal changed.state = false →
      isNativeReceiveTerminal operation.state = false)
    (same : changed.leaseToken = operation.leaseToken) :
    Shrinks state { state with
      operation := Function.update state.operation id (some changed) } where
  preparations := Nat.le_refl _
  operations := by
    intro counts
    apply List.countP_mono_left
    intro other _ counted
    rcases (Bool.and_eq_true _ _).mp counted with ⟨counts_, going⟩
    apply (Bool.and_eq_true _ _).mpr
    refine ⟨counts_, ?_⟩
    by_cases equal : other = id
    · subst equal
      have going : (Function.update state.operation other (some changed)
          other).any (fun candidate =>
            !isNativeReceiveTerminal candidate.state) = true := going
      rw [Function.update_self] at going
      unfold isPending
      rw [here]
      exact Bool.not_eq_true' _ |>.mpr
        (pending (Bool.not_eq_true' _ |>.mp going))
    · have going : (Function.update state.operation id (some changed)
          other).any (fun candidate =>
            !isNativeReceiveTerminal candidate.state) = true := going
      rw [Function.update_of_ne equal] at going
      exact going
  lease := fun lease here => ⟨lease, here, rfl⟩
  kept := by
    intro other found there
    by_cases equal : other = id
    · subst equal
      have there : Function.update state.operation other (some changed) other =
        some found := there
      rw [Function.update_self] at there
      cases there
      exact ⟨operation, here, same⟩
    · have there : Function.update state.operation id (some changed) other =
        some found := there
      rw [Function.update_of_ne equal] at there
      exact ⟨found, there, rfl⟩

theorem settle_shrinks {change : OperationChange}
    (stepped : settle id change state = some next) : Shrinks state next := by
  unfold settle at stepped
  cases here : state.operation id with
  | none =>
    rw [here] at stepped
    cases stepped
  | some operation =>
    rw [here] at stepped
    dsimp only at stepped
    split at stepped
    · cases stepped
    next going =>
      have settled : Shrinks state { state with
          operation := Function.update state.operation id
            (some (change.apply operation)) } :=
        update_shrinks here (fun _ => Bool.eq_false_iff.mpr going) rfl
      have same := Option.some.inj stepped
      subst same
      split
      · exact settled.trans (dropReceiveLease_shrinks _ _)
      · exact settled

theorem completeCleanup_shrinks (stepped : completeCleanup id state = some next) :
    Shrinks state next := by
  unfold completeCleanup at stepped
  cases here : state.operation id with
  | none =>
    rw [here] at stepped
    cases stepped
  | some operation =>
    rw [here] at stepped
    dsimp only at stepped
    split at stepped
    · have same := Option.some.inj stepped
      subst same
      exact update_shrinks here (fun going => going) rfl
    · cases stepped

/-! ## The receive lease -/

/-- A lease with room for its operation. -/
theorem Bounded.granted (bounded : Bounded limit request state)
    (room : state.besides (request lease.token).id < limit) :
    Bounded limit request { state with receiveLease := some lease } where
  count := bounded.count
  held := by
    intro held here
    cases here
    exact room
  named := bounded.named

theorem besides_le (state : AdmissionState) (id : String) :
    state.besides id ≤ state.activeCount := by
  have others := @operationCount_le state fun other => other ≠ id
  rw [activeCount_eq]
  unfold AdmissionState.besides
  omega

theorem acquireFree_bounded (bounded : Bounded limit request state)
    (lease : RepoLease) (helped : Option String)
    (room : state.activeCount < limit) :
    Bounded limit request (acquireFree lease helped state).2 := by
  unfold acquireFree
  dsimp only
  split
  · exact bounded
  split
  · exact bounded
  · exact bounded.granted (Nat.lt_of_le_of_lt (besides_le state _) room)

/-- Who is not too many for the limit finds room, as who finds nothing does. -/
theorem acquire_bounded (positive : 0 < limit)
    (bounded : Bounded limit request state)
    (started : lease.createdAt ≤ state.now) {concurrency : Option Nat}
    (limited : ∀ bound ∈ concurrency, bound = limit) (helped : Option String) :
    Bounded limit request (acquire lease concurrency helped state).2 := by
  unfold acquire
  dsimp only
  split
  · exact bounded
  split
  · exact bounded
  next busy =>
    have room : state.activeCount < limit := by
      have later := length_activePreparations_mono state started
      by_contra full
      apply busy
      have counted : limit ≤ state.activeOperations.length +
          (state.activePreparations lease.createdAt).length := by
        unfold AdmissionState.activeCount at full
        omega
      refine ⟨by omega, .inl ?_⟩
      intro bound member
      rw [limited bound member]
      exact counted
    split
    · exact acquireFree_bounded bounded lease helped room
    · next existing here =>
        split
        · exact bounded
        split
        · exact (renewed_shrinks here _).bounded bounded
        · exact acquireFree_bounded bounded lease helped room

theorem handoff_bounded (bounded : Bounded limit request state)
    (lease : RepoLease) :
    Bounded limit request (handoff lease limit state).2 := by
  unfold handoff
  dsimp only
  split
  · exact bounded
  split
  · exact bounded
  split
  · exact bounded
  next free =>
    refine ⟨?_, nofun, bounded.named⟩
    unfold AdmissionState.activeCount
    have added : ({ state with
        preparationLeases := state.preparationLeases ++ [lease]
        receiveLease := none } : AdmissionState).activePreparations state.now =
          state.activePreparations state.now ++ [lease].filter fun lease =>
            decide (lease.live state.now) := List.filter_append ..
    have one := List.length_filter_le (fun lease : RepoLease =>
      decide (lease.live state.now)) [lease]
    rw [List.length_singleton] at one
    have total : (state.activePreparations state.now ++ [lease].filter fun lease =>
        decide (lease.live state.now)).length + state.activeOperations.length ≤
          limit := by
      rw [List.length_append]
      omega
    rw [← added] at total
    exact total

theorem promote_bounded (positive : 0 < limit)
    (bounded : Bounded limit request state) (token : String) :
    Bounded limit request (promoteStockPreparationLease token state).2 := by
  unfold promoteStockPreparationLease
  split
  · exact bounded
  split
  · exact bounded
  split
  · exact bounded
  split
  · exact bounded
  next selected _ =>
  split
  · exact bounded
  split
  · exact bounded
  next idle =>
    have idle : state.operationCount (fun _ => true) = 0 := by
      rw [← length_activeOperations]
      omega
    have none_ : ∀ counts, ({ state with
        preparationLeases := []
        receiveLease := some selected } : AdmissionState).operationCount counts =
          0 := by
      intro counts
      have some_ := @operationCount_le state counts
      exact Nat.le_zero.mp (idle ▸ some_)
    constructor
    · rw [activeCount_eq, none_]
      exact Nat.zero_le _
    · intro lease _
      unfold AdmissionState.besides
      rw [none_]
      exact positive
    · exact bounded.named

theorem acquirePublication_bounded (bounded : Bounded limit request state)
    (stepped : acquirePublication id state = some next) :
    Bounded limit request next := by
  unfold acquirePublication at stepped
  cases here : state.operation id with
  | none =>
    rw [here] at stepped
    cases stepped
  | some operation =>
    rw [here] at stepped
    dsimp only at stepped
    split at stepped
    · cases stepped
    next going =>
    split at stepped
    · cases stepped
      exact bounded
    · cases stepped
      apply bounded.granted
      have named : (request operation.leaseToken).id = id :=
        bounded.named id operation here
      have token : (receiveLeaseAt operation.leaseToken state.now).token =
        operation.leaseToken := rfl
      rw [token, named]
      have pending : isPending state.operation id = true := by
        have state_ : operation.state = .processing ∨
            operation.state = .ready := by
          have either := (not_or.mp going).2
          rw [not_and_or, not_not, not_not] at either
          exact either
        unfold isPending
        rw [here]
        rcases state_ with processing | ready
        · rw [Option.any_some, processing]
          rfl
        · rw [Option.any_some, ready]
          rfl
      have member : id ∈ state.operationIndex := not_not.mp (not_or.mp going).1
      have fewer : (state.operationCount fun other => other ≠ id) <
          state.operationCount fun _ => true :=
        countP_and_lt member pending (decide_eq_false (not_not.mpr rfl))
      have count := bounded.count
      rw [activeCount_eq] at count
      unfold AdmissionState.besides
      omega

/-! ## Admission -/

/-- Forgetting finished operations leaves those that are not done. -/
structure Forgets (operation kept : String → Option StockOperation) : Prop where
  pending : isPending kept = isPending operation
  kept : ∀ id found, kept id = some found → operation id = some found

theorem Forgets.refl (operation : String → Option StockOperation) :
    Forgets operation operation := ⟨rfl, fun _ _ => id⟩

theorem Forgets.dropped {operation kept : String → Option StockOperation}
    {keep removed : String} (droppable_ : droppable operation keep removed = true)
    (forgets : Forgets (Function.update operation removed none) kept) :
    Forgets operation kept where
  pending := by
    rw [forgets.pending]
    funext id
    unfold isPending
    by_cases same : id = removed
    · subst same
      have gone := ((Bool.and_eq_true _ _).mp droppable_).2
      rw [Function.update_self]
      cases found : operation id with
      | none => rfl
      | some candidate =>
        rw [found, Option.any_some] at gone
        have done := ((Bool.and_eq_true _ _).mp gone).1
        rw [Option.any_some, done]
        rfl
    · rw [Function.update_of_ne same]
  kept := by
    intro id found here
    have there := forgets.kept id found here
    by_cases same : id = removed
    · subst same
      rw [Function.update_self] at there
      cases there
    · rw [Function.update_of_ne same] at there
      exact there

theorem dropRetained_spec (keep : String) (fuel : Nat) (next : List String)
    (operation : String → Option StockOperation) :
    Forgets operation (dropRetained keep fuel next operation).2 ∧
      ∀ left ∈ (dropRetained keep fuel next operation).1, left.Sublist next := by
  induction fuel generalizing next operation with
  | zero =>
    refine ⟨.refl operation, ?_⟩
    intro left same
    cases same
    exact List.Sublist.refl _
  | succ fuel ih =>
    unfold dropRetained
    split
    · refine ⟨.refl operation, ?_⟩
      intro left same
      cases same
      exact List.Sublist.refl _
    · cases found : next.find? (droppable operation keep) with
      | none => exact ⟨.refl operation, nofun⟩
      | some removed =>
        rcases ih (next.erase removed)
          (Function.update operation removed none) with ⟨forgets, sublist⟩
        refine ⟨forgets.dropped (List.find?_some found), ?_⟩
        intro left same
        exact (sublist left same).trans List.erase_sublist

/-- What the ledger counts when an operation is kept or could not be. -/
theorem retainOperation_spec (operation : StockOperation)
    (state : AdmissionState) :
    match retainOperation operation state with
    | (false, kept) => Shrinks state kept
    | (true, retained) =>
      (∃ kept index, retained = { state with
        operation := kept
        operationIndex := index } ∧
      (∀ counts, retained.operationCount counts ≤
        (state.operationCount fun id => id ≠ operation.id && counts id) +
          if counts operation.id then 1 else 0) ∧
      ∀ id found, kept id = some found →
        state.operation id = some found ∨
          id = operation.id ∧ found = operation) := by
  unfold retainOperation
  dsimp only
  generalize listed : state.operationIndex.filter (fun id => id ≠ operation.id) ++
    [operation.id] = next
  have spec := dropRetained_spec operation.id next.length next state.operation
  generalize dropRetained operation.id next.length next state.operation = result
    at spec ⊢
  rcases result with ⟨_ | index, kept⟩
  · rcases spec with ⟨forgets, _⟩
    refine ⟨Nat.le_refl _, ?_, fun lease here => ⟨lease, here, rfl⟩, ?_⟩
    · intro counts
      unfold AdmissionState.operationCount
      rw [forgets.pending]
    · intro id found here
      exact ⟨found, forgets.kept id found here, rfl⟩
  · rcases spec with ⟨forgets, sublist⟩
    have sublist : index.Sublist next := sublist index rfl
    refine ⟨_, _, rfl, ?_, ?_⟩
    · intro counts
      unfold AdmissionState.operationCount
      dsimp only
      apply Nat.le_trans sublist.countP_le
      rw [← listed, List.countP_append, List.countP_singleton,
        List.countP_filter]
      apply Nat.add_le_add
      · apply List.countP_mono_left
        intro id _ counted
        rcases (Bool.and_eq_true _ _).mp counted with ⟨going, other⟩
        have different : id ≠ operation.id := decide_eq_true_iff.mp other
        rcases (Bool.and_eq_true _ _).mp going with ⟨counts_, pending⟩
        have pending : isPending state.operation id = true := by
          rw [← forgets.pending]
          unfold isPending at pending ⊢
          rw [Function.update_of_ne different] at pending
          exact pending
        rw [pending, other, counts_]
        rfl
      · by_cases counts_ : counts operation.id = true
        · rw [if_pos counts_]
          split
          · exact Nat.le_refl _
          · exact Nat.zero_le _
        · rw [Bool.eq_false_iff.mpr counts_]
          exact Nat.zero_le _
    · intro id found here
      by_cases same : id = operation.id
      · subst same
        rw [Function.update_self] at here
        exact .inr ⟨rfl, (Option.some.inj here).symm⟩
      · rw [Function.update_of_ne same] at here
        exact .inl (forgets.kept id found here)

theorem admitExisting_shrinks {existing : StockOperation} {asked : StockRequest}
    {leaseToken : String} {answer : Admission}
    (answered : admitExisting existing asked leaseToken state =
      some (answer, next)) : Shrinks state next := by
  unfold admitExisting at answered
  split at answered
  · cases answered
    exact .refl state
  split at answered
  · cases answered
    exact (dropReceiveLease_shrinks leaseToken state).trans
      (removePreparation_shrinks leaseToken _)
  split at answered
  · split at answered
    · cases answered
      exact .refl state
    · cases answered
      exact .refl state
  split at answered
  · split at answered
    · cases answered
      exact .refl state
    split at answered
    · cases answered
      exact .refl state
    · cases answered
      exact .refl state
  split at answered
  · cases answered
    exact .refl state
  split at answered
  · cases answered
    exact .refl state
  · cases answered

variable {token : String}

/-- A preparation that is taken makes room for its operation. -/
theorem removePreparation_lt (member : lease ∈ state.preparationLeases)
    (named : lease.token = token) (live : lease.live state.now) :
    (removePreparation token state).preparationCount <
      state.preparationCount := by
  unfold AdmissionState.preparationCount
  rw [length_activePreparations, length_activePreparations]
  have fewer : (state.preparationLeases.countP fun lease =>
      decide (lease.token ≠ token) && decide (lease.live state.now)) <
        state.preparationLeases.countP fun lease =>
          decide (lease.live state.now) :=
    countP_and_lt member (decide_eq_true live)
      (decide_eq_false (not_not.mpr named))
  have filtered : ((removePreparation token state).preparationLeases.countP
      fun lease => decide (lease.live state.now)) =
        state.preparationLeases.countP fun lease =>
          decide (lease.token ≠ token) && decide (lease.live state.now) := by
    unfold removePreparation
    rw [List.countP_filter]
    congr 1
    funext lease
    exact Bool.and_comm _ _
  exact filtered ▸ fewer

/-- Whoever is admitted had a preparation or the receive lease. -/
theorem admit_bounded (bounded : Bounded limit request state)
    (leaseToken claimId : String) :
    Bounded limit request
      (admitStockReceiveState (request leaseToken) leaseToken claimId
        state).2 := by
  unfold admitStockReceiveState
  split
  · exact bounded
  cases existing : (state.operation (request leaseToken).id).bind fun existing =>
      admitExisting existing (request leaseToken) leaseToken state with
  | some answered =>
    rcases Option.bind_eq_some_iff.mp existing with ⟨_, _, answer⟩
    exact (admitExisting_shrinks answer).bounded bounded
  | none =>
    dsimp only
    split
    · exact bounded
    split
    · exact bounded
    next lent =>
    have spec := retainOperation_spec
      (admittedOperation (request leaseToken) leaseToken claimId) state
    generalize retainOperation
      (admittedOperation (request leaseToken) leaseToken claimId) state = result
      at spec ⊢
    rcases result with ⟨_ | _, retained⟩
    · exact Shrinks.bounded spec bounded
    dsimp only
    rcases spec with ⟨kept, index, shape, operations, known⟩
    have id_ : (admittedOperation (request leaseToken) leaseToken claimId).id =
      (request leaseToken).id := rfl
    rw [id_] at operations known
    have lent : leaseHeld leaseToken state = true := Bool.not_eq_false _ ▸ lent
    have leases : retained.receiveLease = state.receiveLease := by
      rw [shape]
    have preparations : (removePreparation leaseToken retained).preparationCount =
        (removePreparation leaseToken state).preparationCount := by
      rw [shape]
      rfl
    have fewer := (removePreparation_shrinks leaseToken state).preparations
    have named : ∀ id operation, retained.operation id = some operation →
        (request operation.leaseToken).id = id := by
      intro id operation here
      rw [shape] at here
      rcases known id operation here with there | ⟨rfl, rfl⟩
      · exact bounded.named id operation there
      · rfl
    have all := operations fun _ => true
    rw [if_pos rfl] at all
    have others : (state.operationCount fun id =>
        decide (id ≠ (request leaseToken).id) && true) ≤
          state.operationCount fun id => id ≠ (request leaseToken).id :=
      operationCount_mono fun id counted => (Bool.and_eq_true _ _).mp counted |>.1
    -- the room was the preparation's, or else the receive lease's
    have admitted : Bounded limit request
        (removePreparation leaseToken retained) := by
      rcases (Bool.or_eq_true _ _).mp lent with byLease | byPreparation
      · cases here : state.receiveLease with
        | none =>
          rw [here] at byLease
          cases byLease
        | some lease =>
          rw [here, Option.any_some] at byLease
          have token : lease.token = leaseToken :=
            decide_eq_true_iff.mp ((Bool.and_eq_true _ _).mp byLease).1
          have room := bounded.held lease here
          rw [token] at room
          unfold AdmissionState.besides at room
          constructor
          · rw [activeCount_eq, preparations]
            have counted : (removePreparation leaseToken
              retained).operationCount (fun _ => true) ≤ _ := all
            omega
          · intro lease' here'
            have same : state.receiveLease = some lease' := leases ▸ here'
            cases here.symm.trans same
            have apart := operations fun id =>
              id ≠ (request leaseToken).id
            rw [if_neg (by simp)] at apart
            have both : (state.operationCount fun id =>
                decide (id ≠ (request leaseToken).id) &&
                  decide (id ≠ (request leaseToken).id)) ≤
                state.operationCount fun id =>
                  id ≠ (request leaseToken).id :=
              operationCount_mono fun id counted =>
                (Bool.and_eq_true _ _).mp counted |>.1
            have counted : (removePreparation leaseToken
              retained).operationCount (fun id =>
                decide (id ≠ (request leaseToken).id)) ≤ _ := apart
            unfold AdmissionState.besides
            rw [token, preparations]
            omega
          · exact named
      · rcases List.any_eq_true.mp byPreparation with ⟨lease, member, matching⟩
        rcases (Bool.and_eq_true _ _).mp matching with ⟨token, live⟩
        have taken := removePreparation_lt member
          (decide_eq_true_iff.mp token) (decide_eq_true_iff.mp live)
        have count := bounded.count
        rw [activeCount_eq] at count
        have most := @operationCount_le state fun id =>
          id ≠ (request leaseToken).id
        constructor
        · rw [activeCount_eq, preparations]
          have counted : (removePreparation leaseToken
            retained).operationCount (fun _ => true) ≤ _ := all
          omega
        · intro lease' here
          have room := bounded.held lease' (leases ▸ here)
          unfold AdmissionState.besides at room ⊢
          have apart := operations fun id => id ≠ (request lease'.token).id
          have fewer : (state.operationCount fun id =>
              decide (id ≠ (request leaseToken).id) &&
                decide (id ≠ (request lease'.token).id)) ≤
              state.operationCount fun id => id ≠ (request lease'.token).id :=
            operationCount_mono fun id counted =>
              (Bool.and_eq_true _ _).mp counted |>.2
          have one : (if decide ((request leaseToken).id ≠
              (request lease'.token).id) = true then 1 else 0) ≤ 1 := by
            split
            · exact Nat.le_refl _
            · exact Nat.zero_le _
          have counted : (removePreparation leaseToken
            retained).operationCount (fun id =>
              decide (id ≠ (request lease'.token).id)) ≤ _ := apart
          rw [preparations]
          omega
        · exact named
    split
    · exact admitted
    · exact ⟨admitted.count, nofun, admitted.named⟩

/-! ## Runs -/

/-- A lease that is put back because its inputs could not be deleted is still
the receive lease. -/
def PutBackInPlace (state : AdmissionState) : AdmissionEvent → Prop
  | .endCleanup false =>
    ∀ cleanup, state.cleanup = some cleanup →
      ∃ held, state.receiveLease = some held ∧
        held.token = cleanup.lease.token
  | _ => True

theorem endCleanup_shrinks {deleted : Bool}
    (inPlace : PutBackInPlace state (.endCleanup deleted))
    (stepped : endCleanup deleted state = some next) : Shrinks state next := by
  unfold endCleanup at stepped
  rcases Option.map_eq_some_iff.mp stepped with ⟨cleanup, here, rfl⟩
  refine .of_leases rfl (fun _ => rfl) (Nat.le_refl _) ?_
  intro lease same
  cases deleted with
  | true => cases same
  | false =>
    rcases inPlace cleanup here with ⟨held, there, token⟩
    cases same
    exact ⟨held, there, token⟩

theorem step_bounded (positive : 0 < limit) {event : AdmissionEvent}
    (inPlace : PutBackInPlace state event)
    (stepped : step limit request state event = some next)
    (bounded : Bounded limit request state) : Bounded limit request next := by
  cases event with
  | elapsed milliseconds =>
    cases stepped
    exact (elapsed_shrinks state milliseconds).bounded bounded
  | acquire token startedAt stockPreparation helped =>
    rw [step] at stepped
    split at stepped
    · next started =>
        cases stepped
        apply acquire_bounded positive bounded started
        intro bound member
        cases stockPreparation with
        | true =>
          cases member
          rfl
        | false => cases member
    · cases stepped
  | handoff token startedAt =>
    cases stepped
    exact handoff_bounded bounded _
  | abort token =>
    cases stepped
    exact (abortReceiveLease_shrinks token state).bounded bounded
  | promote token =>
    cases stepped
    exact promote_bounded positive bounded token
  | admitStock token claimId =>
    cases stepped
    exact admit_bounded bounded token claimId
  | settle id change => exact (settle_shrinks stepped).bounded bounded
  | completeCleanup id => exact (completeCleanup_shrinks stepped).bounded bounded
  | acquirePublication id => exact acquirePublication_bounded bounded stepped
  | releasePublication token =>
    cases stepped
    exact (dropReceiveLease_shrinks token state).bounded bounded
  | clearPreparations startedAt tokens =>
    cases stepped
    exact (clearPreparations_shrinks startedAt tokens state).bounded bounded
  | beginCleanup startedAt =>
    rw [step] at stepped
    split at stepped
    · cases stepped
      exact (beginCleanup_shrinks startedAt state).bounded bounded
    · cases stepped
  | endCleanup deleted =>
    exact (endCleanup_shrinks inPlace stepped).bounded bounded
  | outside change =>
    cases stepped
    exact ⟨bounded.count, bounded.held, bounded.named⟩

theorem initial_bounded : Bounded limit request {} :=
  ⟨Nat.zero_le _, nofun, nofun⟩

/-- Nothing is active where an ordinary receive is granted the lease. -/
theorem acquire_ordinary {helped : Option String}
    (started : lease.createdAt ≤ state.now)
    (granted : (acquire lease none helped state).1 = .granted) :
    state.activeCount = 0 := by
  unfold acquire at granted
  dsimp only at granted
  split at granted
  · cases granted
  split at granted
  · cases granted
  next idle =>
    have later := length_activePreparations_mono state started
    have nothing : ¬ 0 < state.activeOperations.length +
        (state.activePreparations lease.createdAt).length := by
      intro active
      exact idle ⟨active, .inl nofun⟩
    unfold AdmissionState.activeCount
    omega

/-- Only the one preparation, with no operation, is promoted. -/
theorem promote_sole
    (promoted : (promoteStockPreparationLease token state).1 = true) :
    (∃ lease ∈ state.preparationLeases, lease.token = token ∧
        lease.live state.now ∧
        (promoteStockPreparationLease token state).2.receiveLease = some lease) ∧
      (∀ lease ∈ state.preparationLeases, lease.token = token) ∧
      state.activeOperations = [] := by
  unfold promoteStockPreparationLease at promoted ⊢
  split at promoted
  · cases promoted
  next deleting =>
  rw [if_neg deleting]
  split at promoted
  · cases promoted
  next held =>
  rw [if_neg held]
  split at promoted
  · cases promoted
  next compacting =>
  rw [if_neg compacting]
  cases found : state.preparationLeases.find? fun lease =>
      lease.token = token && decide (state.now < lease.expiresAt) with
  | none =>
    rw [found] at promoted
    cases promoted
  | some selected =>
    rw [found] at promoted
    dsimp only at promoted ⊢
    split at promoted
    · cases promoted
    next alone =>
    rw [if_neg alone]
    split at promoted
    · cases promoted
    next idle =>
    rw [if_neg idle]
    have matching := List.find?_some found
    rcases (Bool.and_eq_true _ _).mp matching with ⟨named, live⟩
    refine ⟨⟨selected, List.mem_of_find?_eq_some found,
      decide_eq_true_iff.mp named, decide_eq_true_iff.mp live, rfl⟩, ?_, ?_⟩
    · intro lease member
      by_contra other
      exact alone (List.any_eq_true.mpr ⟨lease, member, decide_eq_true other⟩)
    · exact List.length_eq_zero_iff.mp (Nat.eq_zero_of_not_pos idle)

/-- As long as no lease is put back over another receive, the limit holds in
every state, ordinary receives begin alone and only a sole preparation is
promoted. -/
theorem stockAdmission_within_limit (positive : 0 < limit)
    (request : String → StockRequest) {events : List AdmissionEvent}
    {last : AdmissionState}
    (ran : EventRun.run (step limit request) {} events = some last)
    (inPlace : EventRun.Meets (step limit request) PutBackInPlace {} events) :
    last.activeCount ≤ limit ∧
      (∀ lease helped, lease.createdAt ≤ last.now →
        (acquire lease none helped last).1 = .granted →
          last.activeCount = 0) ∧
      ∀ token, (promoteStockPreparationLease token last).1 = true →
        (∃ lease ∈ last.preparationLeases, lease.token = token ∧
          lease.live last.now ∧
          (promoteStockPreparationLease token last).2.receiveLease =
            some lease) ∧
        (∀ lease ∈ last.preparationLeases, lease.token = token) ∧
        last.activeOperations = [] := by
  have bounded : Bounded limit request last :=
    EventRun.run_preserves_of_meets
      (fun inPlace stepped bounded => step_bounded positive inPlace stepped bounded)
      inPlace ran initial_bounded
  exact ⟨bounded.count, fun _ _ => acquire_ordinary, fun _ => promote_sole⟩

/-! ## A lease that is put back -/

/-- Every receive asks for an operation of its own. -/
def ownRequest (token : String) : StockRequest := ⟨token, token⟩

def admittedEvents : List AdmissionEvent :=
  [.acquire "first" 0 true none, .handoff "first" 0, .admitStock "first" "claim",
    .acquire "second" 0 true none]

theorem stockAdmission_within_limit_admitted :
    ∃ last, EventRun.run (step 1 ownRequest) {} admittedEvents = some last ∧
      last.activeCount = 1 ∧ last.activeCount ≤ 1 := by
  have counted : (EventRun.run (step 1 ownRequest) {} admittedEvents).map
      AdmissionState.activeCount = some 1 := by
    decide +kernel
  rcases Option.map_eq_some_iff.mp counted with ⟨last, ran, one⟩
  have inPlace : EventRun.Meets (step 1 ownRequest) PutBackInPlace {}
      admittedEvents :=
    ⟨trivial, fun _ _ => ⟨trivial, fun _ _ => ⟨trivial, fun _ _ =>
      ⟨trivial, fun _ _ => trivial⟩⟩⟩⟩
  exact ⟨last, ran, one,
    (stockAdmission_within_limit Nat.one_pos ownRequest ran inPlace).1⟩

/-- A collection that has fixed its source and goes on beside receives. -/
def coordinatedGc : GcOperation where
  id := "gc"
  repositoryId := "repository"
  phase := .index
  createdAt := 0
  updatedAt := 0
  claim := none
  snapshot := some ⟨"compact", [], [], 0, 0, 0, []⟩
  coordination := some ⟨0, 0, 0, [], none, none, 0⟩
  closure := none
  retainedPackKey := none
  inputPackKey := "input"
  outputPackKey := "output"
  outputResultKey := "result"
  rewriteIntent := none
  rewrite := none
  nativeResult := none
  commit := none
  blockedReason := none
  discardAfter := none
  qualification := none
  measurements := fun _ => none
  stepMeasurements := fun _ => none

/-- A collection begins, or it has ended. -/
def gcChange (running : Bool) : OutsideChange where
  repositoryDeleting := false
  recoveryLease := none
  compactLease := if running then
    some ⟨"compact", 0, 10 * receiveLeaseTtlMs, some .reachabilityGc⟩ else none
  gc := if running then some coordinatedGc else none
  finalizeIntent := fun _ => false

/-- The first receive keeps the receive lease beside a collection, the second
is prepared when that lease has expired, and the alarm puts it back. -/
def putBackEvents : List AdmissionEvent :=
  [.outside (gcChange true), .acquire "first" 0 true none, .handoff "first" 0,
    .elapsed receiveLeaseTtlMs, .outside (gcChange false),
    .beginCleanup receiveLeaseTtlMs,
    .acquire "second" receiveLeaseTtlMs true none,
    .handoff "second" receiveLeaseTtlMs, .endCleanup false,
    .admitStock "first" "claim"]

/-- One operation and one preparation at a limit of one. -/
theorem stockAdmission_putBack :
    ∃ last, EventRun.run (step 1 ownRequest) {} putBackEvents = some last ∧
      ¬ last.activeCount ≤ 1 := by
  have counted : (EventRun.run (step 1 ownRequest) {} putBackEvents).map
      AdmissionState.activeCount = some 2 := by
    decide +kernel
  rcases Option.map_eq_some_iff.mp counted with ⟨last, ran, two⟩
  refine ⟨last, ran, ?_⟩
  rw [two]
  decide

end GitOnCloudflare.Receive.StockAdmission
