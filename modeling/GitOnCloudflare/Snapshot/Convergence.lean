import GitOnCloudflare.Snapshot.PointerOrder

/-!
# Reconciling one ref

The reconciler reads a plan for a ref and executes it.  The plan names the
accepted write of the ref whenever the ref is where that write left it, while
the pointer only moves to larger sequence numbers.  A ref that left its
accepted write without facts, was projected there and came back is therefore
planned below its own pointer: the projection reports success and moves
nothing.
-/

namespace GitOnCloudflare.Snapshot

open Foundations
open Receive
open Repo

/-- Read the plan of a ref and execute it. -/
def reconcile (treeOf : String → String) (planned : RepoState) (begun : World)
    (ref : String) (materializedAt : Nat) (readerToken : Option String) :
    Except RepoFailure (Option ProjectionResult × RepoState) :=
  executeReconcilePlan treeOf begun materializedAt readerToken
    (getSnapshotReconcilePlanState planned ref)

/-- The next plan of a ref asks for nothing, and the pointer, where there is
one, is at the ref. -/
def settled (repo : RepoState) (ref : String) : Bool :=
  match getSnapshotReconcilePlanState repo ref with
  | .upToDate current => current.commitSha = authoritativeOid repo.refs ref
  | .unborn _ =>
    (repo.snapshotCurrent ref).all fun current =>
      current.commitSha = authoritativeOid repo.refs ref
  | .deliver _ => false
  | .headOnly .. => false

/-- Whether an executed plan succeeded and settled its ref. -/
def converges
    (outcome : Except RepoFailure (Option ProjectionResult × RepoState))
    (ref : String) : Bool :=
  match outcome with
  | .ok (none, after) => settled after ref
  | .ok (some (.projected _), after) => settled after ref
  | .ok (some (.refused _), _) => false
  | .error _ => false

/-- A ref without an accepted write and without an object id. -/
def Unborn (repo : RepoState) (ref : String) : Prop :=
  repo.acceptedWriteHead ref = none ∧ authoritativeOid repo.refs ref = zeroOid

/-- The pointer of a ref is at the ref under the planned sequence number. -/
def AtRef (repo : RepoState) (ref : String) : Prop :=
  ∃ current, repo.snapshotCurrent ref = some current ∧
    current.commitSha = authoritativeOid repo.refs ref ∧
    current.sequence = refSequence repo ref

/--
The states in which reconciling a ref converges: the pointer is not past the
accepted write the ref has come back to, no pointer is left behind by a ref
that never had an accepted write, and the repository is not being deleted
while there is work to do.
-/
structure Reconcilable (repo : RepoState) (ref : String) : Prop where
  notPast :
    ∀ head current, repo.acceptedWriteHead ref = some head →
      head.afterSha = authoritativeOid repo.refs ref →
      repo.snapshotCurrent ref = some current →
        current.sequence ≤ head.sequence
  notLeft :
    Unborn repo ref → ∀ current, repo.snapshotCurrent ref = some current →
      current.commitSha = zeroOid
  notDeleting :
    repo.repositoryDeleting = true → Unborn repo ref ∨ AtRef repo ref

/-! ## The plan by the record -/

variable {repo : RepoState} {ref : String} {input : ProjectionInput}

theorem plan_unborn (unborn : Unborn repo ref) :
    getSnapshotReconcilePlanState repo ref = .unborn ref := by
  unfold getSnapshotReconcilePlanState
  exact if_pos unborn

theorem plan_atRef {current : SnapshotCurrent} (born : ¬ Unborn repo ref)
    (held : repo.snapshotCurrent ref = some current)
    (commit : current.commitSha = authoritativeOid repo.refs ref)
    (sequence : current.sequence = refSequence repo ref) :
    getSnapshotReconcilePlanState repo ref = .upToDate current := by
  have kept :
      ((repo.snapshotCurrent ref).filter fun current =>
          current.commitSha = authoritativeOid repo.refs ref &&
            current.sequence = refSequence repo ref) = some current := by
    rw [held]
    simp [commit, sequence]
  unfold Unborn at born
  unfold getSnapshotReconcilePlanState
  dsimp only
  rw [if_neg born, kept]

/-- A plan that asks for work: the entry of the planned sequence number, or
the ref itself. -/
theorem plan_due (born : ¬ Unborn repo ref) (due : ¬ AtRef repo ref) :
    (∃ entry,
        getSnapshotReconcilePlanState repo ref = .deliver entry ∧
          repo.acceptedWriteJournal ⟨refSequence repo ref, ref⟩ =
            some entry ∧
          entry.sequence = refSequence repo ref ∧ entry.fact.ref = ref ∧
          entry.fact.afterSha = authoritativeOid repo.refs ref) ∨
      ∃ beforeSha,
        getSnapshotReconcilePlanState repo ref =
          .headOnly ref (authoritativeOid repo.refs ref) (refSequence repo ref)
            beforeSha := by
  have dropped :
      ((repo.snapshotCurrent ref).filter fun current =>
          current.commitSha = authoritativeOid repo.refs ref &&
            current.sequence = refSequence repo ref) = none := by
    rw [Option.filter_eq_none_iff]
    intro current held matching
    rw [Bool.and_eq_true, decide_eq_true_eq, decide_eq_true_eq] at matching
    exact due ⟨current, held, matching.1, matching.2⟩
  unfold Unborn at born
  unfold getSnapshotReconcilePlanState
  dsimp only
  rw [if_neg born, dropped]
  cases found :
      findJournalEntry repo ref (authoritativeOid repo.refs ref)
        (refSequence repo ref) with
  | none => exact Or.inr ⟨_, rfl⟩
  | some entry =>
    unfold findJournalEntry at found
    rw [Option.filter_eq_some_iff] at found
    simp only [Bool.and_eq_true, decide_eq_true_eq] at found
    exact Or.inl
      ⟨entry, rfl, found.1, found.2.1.1, found.2.1.2, found.2.2⟩

theorem settled_iff (repo : RepoState) (ref : String) :
    settled repo ref = true ↔
      (Unborn repo ref ∧
          ∀ current, repo.snapshotCurrent ref = some current →
            current.commitSha = zeroOid) ∨
        (¬ Unborn repo ref ∧ AtRef repo ref) := by
  unfold settled
  by_cases unborn : Unborn repo ref
  · rw [plan_unborn unborn]
    dsimp only
    rw [unborn.2]
    cases repo.snapshotCurrent ref with
    | none => simp [unborn]
    | some current => simp [unborn]
  · by_cases placed : AtRef repo ref
    · rcases placed with ⟨current, held, commit, sequence⟩
      rw [plan_atRef unborn held commit sequence]
      simp only [commit, decide_true, true_iff]
      exact Or.inr ⟨unborn, current, held, commit, sequence⟩
    · have never :
          ¬ ((Unborn repo ref ∧
              ∀ current, repo.snapshotCurrent ref = some current →
                current.commitSha = zeroOid) ∨
            (¬ Unborn repo ref ∧ AtRef repo ref)) := by
        rintro (⟨born, -⟩ | ⟨-, there⟩)
        · exact unborn born
        · exact placed there
      rcases plan_due unborn placed with ⟨entry, plan, -⟩ | ⟨_, plan⟩
      · rw [plan]
        simpa using never
      · rw [plan]
        simpa using never

/-! ## What the plan reads -/

/-- Two repositories with the same refs, heads and pointers. -/
structure SamePlan (before after : RepoState) : Prop where
  refs : after.refs = before.refs
  refsVersion : after.refsVersion = before.refsVersion
  heads : after.acceptedWriteHead = before.acceptedWriteHead
  current : after.snapshotCurrent = before.snapshotCurrent

variable {before after : RepoState} {current : World}

theorem SameRecord.samePlan (same : SameRecord before after) :
    SamePlan before after :=
  ⟨same.refs, same.refsVersion, same.heads, same.current⟩

theorem SamePlan.trans {middle : RepoState} (early : SamePlan before middle)
    (late : SamePlan middle after) :
    SamePlan before after where
  refs := late.refs.trans early.refs
  refsVersion := late.refsVersion.trans early.refsVersion
  heads := late.heads.trans early.heads
  current := late.current.trans early.current

theorem markMaterialized_samePlan (repo : RepoState)
    (entryId : AcceptedWriteJournalId) (entry : AcceptedWriteJournalEntry)
    (materializedAt : Nat) :
    SamePlan repo (markMaterialized repo entryId entry materializedAt) := by
  unfold markMaterialized
  split
  · exact ⟨rfl, rfl, rfl, rfl⟩
  · exact ⟨rfl, rfl, rfl, rfl⟩

section SamePlan

variable {before after : RepoState}

theorem SamePlan.refSequence (same : SamePlan before after) (ref : String) :
    refSequence after ref = refSequence before ref := by
  unfold Repo.refSequence
  rw [same.heads, same.refs, same.refsVersion]

theorem SamePlan.unborn (same : SamePlan before after) (ref : String) :
    Unborn after ref ↔ Unborn before ref := by
  unfold Unborn
  rw [same.heads, same.refs]

theorem SamePlan.settled (same : SamePlan before after) (ref : String) :
    settled after ref = settled before ref := by
  rw [Bool.eq_iff_iff, settled_iff, settled_iff, same.unborn]
  unfold AtRef
  rw [same.current, same.refs, same.refSequence]

end SamePlan

/-! ## Executing a plan that asks for work -/

theorem pinProjection_admits {repo : RepoState} {now sequence : Nat}
    {fact : SnapshotPinFact} {input : ProjectionInput}
    (same : fact.commitSha = input.commitSha)
    (may :
      input.commitSha ≠ zeroOid →
        isValidPinnedObjectSha input.treeSha = true ∧
          (projectionLease repo now input).1 = true ∧
          pinFits repo input.pin = true) :
    ∃ created after,
      pinProjection repo now sequence fact input = .ok (.ok created, after) ∧
        SamePlan repo after := by
  have found :
      ∃ created after,
        pinProjection repo now sequence fact input =
          .ok (.ok created, after) := by
    rw [pinProjection_eq same]
    by_cases deletion : input.commitSha = zeroOid
    · rw [if_pos deletion]
      exact ⟨_, _, rfl⟩
    · rcases may deletion with ⟨valid, leased, fits⟩
      rw [if_neg deletion, valid, leased, fits]
      exact ⟨_, _, rfl⟩
  rcases found with ⟨created, after, done⟩
  exact ⟨created, after, done, (pinProjection_ok same done).1.samePlan⟩

/-- Moving the pointer to the planned sequence number settles the ref exactly
when the pointer is not past it. -/
theorem projectPointer_converges {prepared : RepoState} {created : Bool}
    (same : SamePlan repo prepared) (born : ¬ Unborn repo ref)
    (due : ¬ AtRef repo ref)
    (commit : input.commitSha = authoritativeOid repo.refs ref)
    (agrees :
      ∀ current, repo.snapshotCurrent ref = some current →
        current.sequence = refSequence repo ref →
          current.commitSha = authoritativeOid repo.refs ref) :
    converges
        ((projectPointer prepared ref (refSequence repo ref) created
          input).map fun result => (some result.1, result.2)) ref = true ↔
      ∀ current, repo.snapshotCurrent ref = some current →
        current.sequence ≤ refSequence repo ref := by
  have advanced :
      settled
          { prepared with
            snapshotCurrent :=
              Function.update prepared.snapshotCurrent ref
                (some ⟨ref, input.commitSha, refSequence repo ref,
                  input.materializedAt⟩) } ref = true := by
    rw [settled_iff]
    refine Or.inr ⟨?_, ?_⟩
    · rw [← same.unborn ref] at born
      exact born
    · refine ⟨_, Function.update_self .., ?_, ?_⟩
      · rw [commit, ← same.refs]
      · exact (same.refSequence ref).symm
  unfold projectPointer advanceSnapshotCurrent
  rw [same.current]
  cases held : repo.snapshotCurrent ref with
  | none =>
    simp only [Except.map, converges]
    rw [← same.current]
    simp [advanced]
  | some current =>
    dsimp only
    split_ifs with newer conflict
    · simp only [Except.map, converges]
      rw [← same.current, advanced]
      simp [newer.le]
    · have there :=
        agrees current held conflict.1.symm
      rw [commit] at conflict
      exact absurd there conflict.2
    · have past : refSequence repo ref < current.sequence := by
        rcases Nat.lt_trichotomy current.sequence (refSequence repo ref) with
          below | equal | above
        · exact absurd below newer
        · exact absurd
            ⟨current, held, agrees current held equal, equal⟩ due
        · exact above
      have unsettled : settled prepared ref = false := by
        rw [same.settled, Bool.eq_false_iff]
        intro kept
        rcases (settled_iff repo ref).mp kept with ⟨unborn, -⟩ | ⟨-, there⟩
        · exact born unborn
        · exact due there
      simp only [Except.map, converges, unsettled]
      simp [past]

/-- The reconciler has begun its read: some read leases at some time, and the
repository otherwise as it was planned. -/
def begunWith (current : World) (leases : List RepositoryReadLease) (now : Nat) :
    World :=
  { current with
    repo := { current.repo with repositoryReadLeases := leases }
    now := now }

def HoldsProjectionLease (leases : List RepositoryReadLease) (now : Nat)
    (token : String) : Prop :=
  token ≠ "" ∧ ∃ lease ∈ leases, lease.token = token ∧
    lease.operation = .snapshotProjection ∧ now < lease.expiresAt

theorem projectionLease_held {leases : List RepositoryReadLease} {now : Nat}
    {token : String} (holds : HoldsProjectionLease leases now token)
    (carried : input.readerToken = some token) :
    (projectionLease (begunWith current leases now).repo now input).1 =
      true := by
  rcases holds with ⟨nonempty, lease, member, named, operation, live⟩
  unfold projectionLease hasActiveProjectionLease
  split
  · rfl
  · rw [carried]
    dsimp only
    rw [if_neg nonempty]
    simp only [List.any_eq_true, Bool.and_eq_true, decide_eq_true_eq]
    exact ⟨lease, List.mem_filter.mpr ⟨member, decide_eq_true live⟩, named,
      operation⟩

section Execution

variable {treeOf : String → String}
variable {current : World}
variable {leases : List RepositoryReadLease}
variable {ref token : String}
variable {now materializedAt : Nat}

/-- The pin of the planned commit is admitted: it names the tree the object
store has for the commit, as every pin does. -/
theorem plannedPin_admits
    (pinned :
      ∀ commitSha pin,
        current.repo.snapshotPins.find? commitSha = some pin →
          pin.treeSha = treeOf commitSha)
    (valid : ∀ commitSha, isValidPinnedObjectSha (treeOf commitSha) = true)
    (holds : HoldsProjectionLease leases now token)
    (carried : input.readerToken = some token)
    (tree : input.treeSha = materializedTree treeOf input.commitSha) :
    input.commitSha ≠ zeroOid →
      isValidPinnedObjectSha input.treeSha = true ∧
        (projectionLease (begunWith current leases now).repo now
          input).1 = true ∧
        pinFits (begunWith current leases now).repo input.pin = true := by
  intro present
  have materialized : input.treeSha = treeOf input.commitSha := by
    rw [tree]
    exact if_neg present
  refine ⟨?_, projectionLease_held holds carried, ?_⟩
  · rw [materialized]
    exact valid input.commitSha
  · rw [pinFits_iff]
    constructor
    · change isValidPinnedObjectSha input.treeSha = true
      rw [materialized]
      exact valid input.commitSha
    · intro existing found
      change existing.treeSha = input.treeSha
      rw [materialized]
      exact pinned input.commitSha existing found

/-- A plan that asks for work moves the pointer of its ref to the planned
sequence number. -/
theorem reconcile_due (born : ¬ Unborn current.repo ref)
    (due : ¬ AtRef current.repo ref)
    (present : current.repo.repositoryDeleting = false)
    (pinned :
      ∀ commitSha pin,
        current.repo.snapshotPins.find? commitSha = some pin →
          pin.treeSha = treeOf commitSha)
    (valid : ∀ commitSha, isValidPinnedObjectSha (treeOf commitSha) = true)
    (holds : HoldsProjectionLease leases now token) :
    ∃ prepared created input,
      reconcile treeOf current.repo (begunWith current leases now) ref
          materializedAt (some token) =
        (projectPointer prepared ref (refSequence current.repo ref) created
          input).map (fun result => (some result.1, result.2)) ∧
        SamePlan current.repo prepared ∧
        input.commitSha = authoritativeOid current.repo.refs ref := by
  have begun :
      SamePlan current.repo (begunWith current leases now).repo :=
    ⟨rfl, rfl, rfl, rfl⟩
  have going :
      (begunWith current leases now).repo.repositoryDeleting = false :=
    present
  have clock : (begunWith current leases now).now = now := rfl
  unfold reconcile
  rcases plan_due born due with
    ⟨entry, plan, found, sequence, named, commit⟩ | ⟨beforeSha, plan⟩
  · let input : ProjectionInput :=
      { commitSha := entry.fact.afterSha
        treeSha := materializedTree treeOf entry.fact.afterSha
        materializedAt := materializedAt
        readerToken := some token }
    have samePin : entry.fact.pinFact.commitSha = input.commitSha := rfl
    rcases @pinProjection_admits _ now entry.sequence _ _ samePin
        (plannedPin_admits pinned valid holds rfl rfl) with
      ⟨created, after, done, same⟩
    refine ⟨markMaterialized after ⟨entry.sequence, entry.fact.ref⟩ entry
        materializedAt, created, input, ?_, ?_, commit⟩
    · rw [plan]
      unfold executeReconcilePlan projectAcceptedWriteState
      have journaled :
          (begunWith current leases now).repo.acceptedWriteJournal
              ⟨entry.sequence, entry.fact.ref⟩ = some entry := by
        rw [sequence, named]
        exact found
      dsimp only
      rw [going, journaled]
      dsimp only
      rw [if_neg Bool.false_ne_true, if_neg (not_not.mpr rfl)]
      rw [clock, done, ← sequence]
      subst named
      rfl
    · exact (begun.trans same).trans (markMaterialized_samePlan _ _ _ _)
  · let input : ProjectionInput :=
      { commitSha := authoritativeOid current.repo.refs ref
        treeSha := materializedTree treeOf (authoritativeOid current.repo.refs ref)
        materializedAt := materializedAt
        readerToken := some token }
    have samePin :
        (reconciledPinFact ref (authoritativeOid current.repo.refs ref)).commitSha =
          input.commitSha := rfl
    rcases @pinProjection_admits _ now (refSequence current.repo ref) _ _
        samePin (plannedPin_admits pinned valid holds rfl rfl) with
      ⟨created, after, done, same⟩
    refine ⟨after, created, input, ?_, begun.trans same, rfl⟩
    rw [plan]
    unfold executeReconcilePlan projectReconciledHeadState
    have stillFresh :
        ¬ ((authoritativeOid (begunWith current leases now).repo.refs ref ≠
              authoritativeOid current.repo.refs ref ||
            refSequence (begunWith current leases now).repo ref ≠
              refSequence current.repo ref) = true) := by
      rw [begun.refSequence, begun.refs]
      simp
    dsimp only
    rw [going, if_neg Bool.false_ne_true, if_neg stillFresh, clock, done]

/-- While the repository is being deleted no plan that asks for work is
carried out. -/
theorem reconcile_deleting (born : ¬ Unborn current.repo ref)
    (due : ¬ AtRef current.repo ref)
    (deleting : current.repo.repositoryDeleting = true) :
    converges
        (reconcile treeOf current.repo (begunWith current leases now) ref
          materializedAt (some token)) ref = false := by
  have going :
      (begunWith current leases now).repo.repositoryDeleting = true :=
    deleting
  unfold reconcile
  rcases plan_due born due with ⟨entry, plan, -⟩ | ⟨beforeSha, plan⟩
  · rw [plan]
    unfold executeReconcilePlan projectAcceptedWriteState
    dsimp only
    rw [going, if_pos rfl]
    rfl
  · rw [plan]
    unfold executeReconcilePlan projectReconciledHeadState
    dsimp only
    rw [going, if_pos rfl]
    rfl

/-- A pointer is at most at the planned sequence number unless the ref came
back to its accepted write. -/
theorem notPast_iff {history : Nat → List Ref}
    (recorded : Recorded history current.repo) :
    (∀ pointer, current.repo.snapshotCurrent ref = some pointer →
        pointer.sequence ≤ refSequence current.repo ref) ↔
      ∀ head pointer, current.repo.acceptedWriteHead ref = some head →
        head.afterSha = authoritativeOid current.repo.refs ref →
        current.repo.snapshotCurrent ref = some pointer →
          pointer.sequence ≤ head.sequence := by
  have bounded
      {pointer : SnapshotCurrent}
      (held : current.repo.snapshotCurrent ref = some pointer) :
      pointer.sequence ≤ current.repo.refsVersion :=
    (recorded.pointers ref ⟨pointer.sequence, pointer.commitSha⟩
      (by simp [pointers, held])).1
  unfold refSequence
  cases current.repo.acceptedWriteHead ref with
  | none =>
    simp only [reduceCtorEq, IsEmpty.forall_iff, implies_true, iff_true]
    exact fun pointer held => bounded held
  | some head =>
    dsimp only
    split
    · next matching =>
        constructor
        · rintro below _ pointer ⟨⟩ - held
          exact below pointer held
        · intro below pointer held
          exact below head pointer rfl matching held
    · next moved =>
        constructor
        · rintro - _ pointer ⟨⟩ matching -
          exact absurd matching moved
        · intro _ pointer held
          exact bounded held

end Execution

/-! ## Convergence -/

/-- Every pin of a run holds the tree the object store has for its commit. -/
theorem SnapshotRun.pinned {treeOf : String → String} {start : World}
    {trace : List SnapshotRecord} (fresh : FreshRecord start.repo)
    (unpinned : start.repo.snapshotPins = KeyedList.empty)
    (run : SnapshotRun start trace current)
    (trees :
      ∀ commitSha treeSha, TracePins trace commitSha treeSha →
        treeSha = treeOf commitSha) (commitSha : String) (pin : SnapshotPin)
    (found : current.repo.snapshotPins.find? commitSha = some pin) :
    pin.treeSha = treeOf commitSha := by
  rcases (run.progress fresh.recorded).1 with ⟨extended, progress⟩
  rcases progress.pins commitSha pin found with old | traced
  · rw [unpinned] at old
    cases old
  · exact trees commitSha pin.treeSha traced

theorem reconcile_converges_iff {treeOf : String → String}
    {start current : World} {trace : List SnapshotRecord}
    {leases : List RepositoryReadLease} {ref token : String}
    {now materializedAt : Nat} (fresh : FreshRecord start.repo)
    (unpinned : start.repo.snapshotPins = KeyedList.empty)
    (run : SnapshotRun start trace current)
    (trees :
      ∀ commitSha treeSha, TracePins trace commitSha treeSha →
        treeSha = treeOf commitSha)
    (valid : ∀ commitSha, isValidPinnedObjectSha (treeOf commitSha) = true)
    (holds : HoldsProjectionLease leases now token) :
    converges
        (reconcile treeOf current.repo (begunWith current leases now) ref
          materializedAt (some token)) ref = true ↔
      Reconcilable current.repo ref := by
  rcases (run.progress fresh.recorded).1 with ⟨history, progress⟩
  have recorded := progress.recorded
  have begun :
      SamePlan current.repo (begunWith current leases now).repo :=
    ⟨rfl, rfl, rfl, rfl⟩
  by_cases unborn : Unborn current.repo ref
  · have idle :
        reconcile treeOf current.repo (begunWith current leases now) ref
            materializedAt (some token) =
          .ok (none, (begunWith current leases now).repo) := by
      unfold reconcile
      rw [plan_unborn unborn]
      rfl
    rw [idle]
    change settled (begunWith current leases now).repo ref = true ↔ _
    rw [begun.settled, settled_iff]
    constructor
    · rintro (⟨-, left⟩ | ⟨born, -⟩)
      · refine ⟨?_, fun _ => left, fun _ => Or.inl unborn⟩
        intro head pointer found
        rw [unborn.1] at found
        cases found
      · exact absurd unborn born
    · intro reconcilable
      exact Or.inl ⟨unborn, reconcilable.notLeft unborn⟩
  · by_cases placed : AtRef current.repo ref
    · have idle :
          converges
              (reconcile treeOf current.repo (begunWith current leases now)
                ref materializedAt (some token)) ref = true := by
        rcases placed with ⟨pointer, held, commit, sequence⟩
        unfold reconcile
        rw [plan_atRef unborn held commit sequence]
        change settled (begunWith current leases now).repo ref = true
        rw [begun.settled, settled_iff]
        exact Or.inr ⟨unborn, pointer, held, commit, sequence⟩
      refine iff_of_true idle ⟨?_, ?_, fun _ => Or.inr placed⟩
      · rw [← notPast_iff recorded]
        intro pointer held
        rcases placed with ⟨other, same, -, sequence⟩
        rw [held, Option.some.injEq] at same
        subst same
        exact sequence.le
      · intro never
        exact absurd never unborn
    · cases deleting : current.repo.repositoryDeleting with
      | true =>
        rw [reconcile_deleting unborn placed deleting]
        simp only [Bool.false_eq_true, false_iff]
        intro reconcilable
        rcases reconcilable.notDeleting deleting with never | there
        · exact unborn never
        · exact placed there
      | false =>
        rcases @reconcile_due treeOf current leases ref token now
            materializedAt unborn placed deleting
            (run.pinned fresh unpinned trees) valid holds with
          ⟨prepared, created, input, executed, same, commit⟩
        have agrees :
            ∀ pointer, current.repo.snapshotCurrent ref = some pointer →
              pointer.sequence = refSequence current.repo ref →
                pointer.commitSha = authoritativeOid current.repo.refs ref := by
          intro pointer held sequence
          have known :=
            recorded.pointers ref ⟨pointer.sequence, pointer.commitSha⟩
              (by simp [pointers, held])
          rw [sequence] at known
          exact PublishedAt.functional _ _ _ _ known
            (recorded.refSequence ref)
        rw [executed,
          projectPointer_converges same unborn placed commit agrees,
          notPast_iff recorded]
        constructor
        · intro notPast
          refine ⟨notPast, fun never => absurd never unborn, ?_⟩
          intro ongoing
          rw [deleting] at ongoing
          cases ongoing
        · exact Reconcilable.notPast

/-! ### A branch that comes back to its accepted write -/

/-- The trees the object store has for the commits of the example. -/
def treeOfMain (_ : String) : String := someTree

def reconcileMain (commitSha : String) (sequence : Nat) : SnapshotEvent :=
  .projectReconciledHead
    { ref := mainRef
      commitSha := commitSha
      treeSha := someTree
      sequence := sequence
      materializedAt := 20
      readerToken := some "reader" }

def readerLeases : List RepositoryReadLease :=
  [⟨"reader", 0, 100, .snapshotProjection⟩]

theorem readerLeases_hold :
    HoldsProjectionLease readerLeases 30 "reader" :=
  ⟨by decide, ⟨"reader", 0, 100, .snapshotProjection⟩,
    List.mem_singleton_self _, rfl, rfl, by decide⟩

/-- A push with facts and a replacement of the refs. -/
def replacedEvents : List SnapshotEvent :=
  [.receive "push" (mainIntent zeroOid firstCommit 0),
    .setRefs [⟨mainRef, secondCommit⟩]]

theorem reconcile_converges_iff_replaced :
    let replaced := (runEvents probedWorld replacedEvents).2
    authoritativeOid replaced.repo.refs mainRef = secondCommit ∧
      converges
          (reconcile treeOfMain replaced.repo
            (begunWith replaced readerLeases 30) mainRef 40
            (some "reader")) mainRef = true ∧
      Reconcilable replaced.repo mainRef := by
  have done :
      converges
          (reconcile treeOfMain (runEvents probedWorld replacedEvents).2.repo
            (begunWith (runEvents probedWorld replacedEvents).2
              readerLeases 30) mainRef 40
            (some "reader")) mainRef = true := by decide +kernel
  refine ⟨by decide +kernel, done, ?_⟩
  refine
    (@reconcile_converges_iff treeOfMain probedWorld _
      (runEvents probedWorld replacedEvents).1 readerLeases mainRef "reader"
      30 40 ?_ rfl ?_ ?_ ?_ readerLeases_hold).mp done
  · exact ⟨fun _ => rfl, fun _ => rfl, fun _ => rfl⟩
  · apply run_runEvents
    simp [replacedEvents, SnapshotEvent.admitted, mainIntent]
  · rintro commitSha treeSha ⟨record, member, may⟩
    simp only [replacedEvents, runEvents, SnapshotEvent.record,
      List.mem_cons, List.not_mem_nil, or_false] at member
    rcases member with rfl | rfl
    · rcases may with ⟨receipt, none, -⟩
      cases none
    · cases may
  · have valid : isValidPinnedObjectSha someTree = true := by decide +kernel
    exact fun _ => valid

/-- A push with facts, a replacement of the refs that is projected, and a
second replacement that restores the pushed commit. -/
def returningEvents : List SnapshotEvent :=
  [.receive "push" (mainIntent zeroOid firstCommit 0),
    .setRefs [⟨mainRef, secondCommit⟩], reconcileMain secondCommit 2,
    .setRefs [⟨mainRef, firstCommit⟩]]

/-- The projection of the returned branch reports success and leaves the
pointer where it was. -/
theorem reconcile_returned_not_converges :
    let returned := (runEvents probedWorld returningEvents).2
    FreshRecord probedWorld.repo ∧
      SnapshotRun probedWorld (runEvents probedWorld returningEvents).1
        returned ∧
      HoldsProjectionLease readerLeases 30 "reader" ∧
      authoritativeOid returned.repo.refs mainRef = firstCommit ∧
      pointers returned.repo mainRef = some ⟨2, secondCommit⟩ ∧
      (reconcile treeOfMain returned.repo
          (begunWith returned readerLeases 30) mainRef 40
          (some "reader")).map Prod.fst =
        .ok (some (.projected
          ⟨true, false, some ⟨mainRef, secondCommit, 2, 20⟩⟩)) ∧
      converges
          (reconcile treeOfMain returned.repo
            (begunWith returned readerLeases 30) mainRef 40
            (some "reader")) mainRef = false := by
  refine ⟨⟨fun _ => rfl, fun _ => rfl, fun _ => rfl⟩, ?_, readerLeases_hold,
    by decide +kernel, by decide +kernel, by decide +kernel,
    by decide +kernel⟩
  apply run_runEvents
  simp [returningEvents, reconcileMain, SnapshotEvent.admitted, mainIntent]

end GitOnCloudflare.Snapshot
