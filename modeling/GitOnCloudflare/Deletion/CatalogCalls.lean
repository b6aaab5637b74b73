import GitOnCloudflare.Deletion.ReaderLeases
import GitOnCloudflare.Publication.Commits

/-!
# Calls that change the catalog

Receives, compactions and collections replace the packs of a repository.  None
of them touches the lease of a reader, and each makes no other pack active than
the one it stages.
-/

namespace GitOnCloudflare.Deletion

open Foundations
open Repo
open Compaction
open Publication

/-! ## What they may write -/

/-- No reader comes back, and no pack but the staged ones becomes active. -/
structure Stages (staged : List String) (before after : World) : Prop where
  readers : ReadersKept none before after
  active : ∀ packKey ∈ activePackKeys after,
    packKey ∈ activePackKeys before ∨ packKey ∈ staged

variable {row : PackCatalogRow} {now : Nat} {packKey : String}

namespace Stages

variable {staged : List String} {before after world : World}

theorem of_numbers (readers : ReadersKept none before after)
    (catalog : after.repo.packCatalog = before.repo.packCatalog) :
    Stages staged before after := by
  refine ⟨readers, ?_⟩
  intro packKey active
  unfold activePackKeys at active
  rw [catalog] at active
  exact .inl active

theorem refl (world : World) : Stages staged world world :=
  of_numbers (.refl world) rfl

theorem trans (first second third : World) (one : Stages staged first second)
    (two : Stages staged second third) : Stages staged first third := by
  refine ⟨.trans _ _ _ one.readers two.readers, ?_⟩
  intro packKey active
  rcases two.active packKey active with earlier | named
  · exact one.active packKey earlier
  · exact .inr named

theorem of_drift (before later : World) (drifted : ClockDrift before later) :
    Stages staged before later :=
  of_numbers (.of_drift before later drifted)
    (congrArg RepoState.packCatalog drifted.1)

variable {repo : RepoState}

/-- The catalog stays, and so do the readers. -/
theorem beside (catalog : repo.packCatalog = world.repo.packCatalog)
    (reading : repo.repositoryReadLeases = world.repo.repositoryReadLeases)
    (native : repo.nativeCatalogReaderLease =
      world.repo.nativeCatalogReaderLease)
    (floor : repo.nativeCatalogReaderGenerationFloor =
      world.repo.nativeCatalogReaderGenerationFloor) :
    Stages staged world (world.withRepo repo) :=
  of_numbers (.of_same ⟨reading, native, floor, rfl⟩) catalog

theorem of_active
    (reading : repo.repositoryReadLeases = world.repo.repositoryReadLeases)
    (native : repo.nativeCatalogReaderLease =
      world.repo.nativeCatalogReaderLease)
    (floor : repo.nativeCatalogReaderGenerationFloor =
      world.repo.nativeCatalogReaderGenerationFloor)
    (active : ∀ row, IsActive repo.packCatalog row →
      IsActive world.repo.packCatalog row ∨ row.packKey ∈ staged) :
    Stages staged world (world.withRepo repo) := by
  refine ⟨.of_same ⟨reading, native, floor, rfl⟩, ?_⟩
  intro packKey listed
  rcases List.mem_map.mp listed with ⟨row, found, rfl⟩
  rcases active row (mem_listActivePackCatalog.mp found) with earlier | named
  · exact .inl (List.mem_map_of_mem (mem_listActivePackCatalog.mpr earlier))
  · exact .inr named

theorem upsert (named : row.packKey ∈ staged) :
    Stages staged world
      (world.withRepo (world.repo.setPackCatalog
        (upsertPackCatalogRow world.repo.packCatalog row))) := by
  refine of_active rfl rfl rfl ?_
  intro other active
  rcases isActive_upsert.mp active with ⟨rfl, _⟩ | ⟨earlier, _⟩
  · exact .inr named
  · exact .inl earlier

end Stages

theorem isActive_replace {catalog : PackCatalog} {sourcePackKeys : List String}
    {targetPack : Option PackCatalogRow}
    (active : IsActive
      (replaceActivePackCatalog catalog sourcePackKeys targetPack) row) :
    IsActive catalog row ∨ targetPack.map PackCatalogRow.packKey =
      some row.packKey := by
  have activated := (isActive_supersede.mp active).1
  cases targetPack with
  | none => exact .inl activated
  | some target =>
    rcases isActive_upsert.mp activated with ⟨rfl, _⟩ | ⟨earlier, _⟩
    · exact .inr rfl
    · exact .inl earlier

theorem bookkeeps_stages {Value : Type} {program : RepoProgram Value}
    (staged : List String) (beside : Writes Bookkeeps program) :
    Writes (Stages staged) program :=
  beside.mono fun _ _ kept =>
    .of_numbers (.of_same kept.readers) kept.numbers.catalog

theorem bumpPacksetVersion_stages (staged : List String) :
    Writes (Stages staged) bumpPacksetVersion := by
  unfold bumpPacksetVersion
  apply Writes.get_bind
  intro repo
  apply Writes.bind
  · exact .put fun _ => .beside rfl rfl rfl rfl
  intro _
  exact .done _

/-! ## Receives -/

def stagedByReceive (intent : ReceiveFinalizeIntent) : List String :=
  (intent.stagedPack.map StagedPack.packKey).toList

theorem activateStagedPack_stages (intent : ReceiveFinalizeIntent) :
    Writes (Stages (stagedByReceive intent)) (activateStagedPack intent) := by
  unfold activateStagedPack
  split
  · exact .done false
  next pack held =>
  have named : pack.packKey ∈ stagedByReceive intent := by
    unfold stagedByReceive
    rw [held]
    exact .head _
  apply Writes.get_bind
  intro repo
  dsimp only
  split
  · exact .throw _
  split
  · apply Writes.bind
    · unfold activateReceiveRow
      split
      · apply Writes.dateNow_bind
        intro now
        exact .put fun _ => .upsert named
      · exact .done ()
    intro _
    apply Writes.get_bind
    intro activated
    apply Writes.bind
    · unfold raiseNextPackSeq
      apply Writes.get_bind
      intro _
      split
      · exact .put fun _ => .beside rfl rfl rfl rfl
      · exact .done ()
    intro _
    apply Writes.bind
    · unfold raisePacksetVersion
      apply Writes.get_bind
      intro _
      split
      · exact .put fun _ => .beside rfl rfl rfl rfl
      · exact .done ()
    intro _
    exact .done _
  · exact .throw _

/-! ## Compaction -/

theorem activateTarget_stages (args : CommitCompactionArgs) :
    Writes (Stages [args.stagedPack.packKey]) (activateTarget args) := by
  unfold activateTarget
  apply Writes.dateNow_bind
  intro now
  apply Writes.bind
  · exact .put fun _ => .upsert (.head _)
  intro _
  apply Writes.bind
  · apply Writes.put
    intro world
    refine Stages.of_active rfl rfl rfl ?_
    intro row active
    exact .inl (isActive_supersede.mp active).1
  intro _
  apply Writes.get_bind
  intro repo
  apply Writes.bind (bumpPacksetVersion_stages _)
  intro _
  apply Writes.bind
  · exact .put fun _ => .beside rfl rfl rfl rfl
  intro _
  apply Writes.bind (bookkeeps_stages _ (rescheduleCompaction_beside _))
  intro _
  apply Writes.bind
  · exact .put fun _ => .beside rfl rfl rfl rfl
  intro _
  exact .done _

theorem commitCompactionState_stages (args : CommitCompactionArgs) :
    Writes (Stages [args.stagedPack.packKey]) (commitCompactionState args) := by
  unfold commitCompactionState
  apply Writes.bind
  · apply Writes.transaction
    intro world value repo done
    have last : (commitFence args.token world.now world.repo).2 = repo :=
      congrArg Prod.snd (Except.ok.inj done)
    rw [← last]
    have kept := commitFence_same args.token world
    exact .of_numbers (.of_same kept.readers) kept.numbers.catalog
  intro fence
  cases fence with
  | repositoryDeleting => exact .done _
  | leaseMismatch => exact .done _
  | held =>
    apply Writes.get_bind
    intro repo
    apply Writes.dateNow_bind
    intro now
    split
    · apply Writes.bind
      · exact .put fun _ => .beside rfl rfl rfl rfl
      intro _
      exact .done _
    · exact activateTarget_stages args

/-! ## Collection -/

theorem reconcileCommittedGc_stages (args : CommitReachabilityGcArgs) :
    Writes (Stages args.expectedTargetKey.toList) (reconcileCommittedGc args) := by
  have finish : ∀ committed (repo : RepoState),
      Writes (Stages args.expectedTargetKey.toList)
        (if repo.packsetVersion ≤ args.packsetVersion + 1 then
          clearCompactionSchedule.bind fun _ => finishGc args committed
        else
          finishGc args committed) := by
    intro committed repo
    apply bookkeeps_stages
    split
    · exact .bind clearCompactionSchedule_beside fun _ => finishGc_beside _ _
    · exact finishGc_beside _ _
  unfold reconcileCommittedGc
  apply Writes.get_bind
  intro repo
  dsimp only
  split
  · apply Writes.bind (.done _)
    intro version
    apply Writes.bind (.put fun _ => .beside rfl rfl rfl rfl)
    intro _
    exact finish _ repo
  · apply Writes.bind (bumpPacksetVersion_stages _)
    intro version
    apply Writes.bind (.put fun _ => .beside rfl rfl rfl rfl)
    intro _
    exact finish _ repo

/-- The row that is written is the staged pack's or that of the retained one. -/
theorem targetPack_packKey {args : CommitReachabilityGcArgs}
    (target : (args.targetPack now).map PackCatalogRow.packKey = some packKey) :
    args.expectedTargetKey = some packKey := by
  unfold CommitReachabilityGcArgs.targetPack at target
  unfold CommitReachabilityGcArgs.expectedTargetKey
  cases staged : args.stagedPack with
  | some pack =>
    rw [staged] at target
    exact target
  | none =>
    rw [staged] at target
    dsimp only at target
    rcases Option.map_eq_some_iff.mp target with ⟨row, found, rfl⟩
    unfold CommitReachabilityGcArgs.retainedSource at found
    split at found
    · have retained := List.find?_some found
      exact (of_decide_eq_true retained).symm
    · cases found

theorem replaceGcCatalog_stages (args : CommitReachabilityGcArgs) :
    Writes (Stages args.expectedTargetKey.toList) (replaceGcCatalog args) := by
  have finish : ∀ committed,
      Writes (Stages args.expectedTargetKey.toList)
        (clearCompactionSchedule.bind fun _ => finishGc args committed) := by
    intro committed
    apply bookkeeps_stages
    exact .bind clearCompactionSchedule_beside fun _ => finishGc_beside _ _
  unfold replaceGcCatalog
  apply Writes.world_bind
  intro current
  apply Writes.bind
  · apply Writes.put
    intro world
    refine Stages.of_active rfl rfl rfl ?_
    intro row active
    rcases isActive_replace active with earlier | target
    · exact .inl earlier
    · exact .inr (Option.mem_toList.mpr (targetPack_packKey target))
  intro _
  apply Writes.get_bind
  intro replaced
  dsimp only
  generalize (if (args.targetPack current.now).isSome then 1 else 0) = expected
  split
  · exact .throw _
  · apply Writes.bind (bumpPacksetVersion_stages _)
    intro version
    apply Writes.bind
    · exact .put fun _ => .beside rfl rfl rfl rfl
    intro _
    exact finish _

theorem commitHeldGc_stages (args : CommitReachabilityGcArgs) :
    Writes (Stages args.expectedTargetKey.toList) (commitHeldGc args) := by
  unfold commitHeldGc
  apply Writes.world_bind
  intro current
  split
  · apply Writes.bind (bookkeeps_stages _ (clearGcAttemptState_beside _))
    intro _
    exact .done _
  · split
    · exact bookkeeps_stages _ (finishGc_beside args _)
    · exact replaceGcCatalog_stages args

theorem commitReachabilityGcState_stages (args : CommitReachabilityGcArgs) :
    Writes (Stages args.expectedTargetKey.toList) (commitReachabilityGcState args) := by
  unfold commitReachabilityGcState
  split
  · exact .done _
  apply Writes.get_bind
  intro repo
  split
  · exact reconcileCommittedGc_stages args
  · apply Writes.bind
    · apply Writes.transaction
      intro world value repo done
      have last : (world.repo.gcCommitFence world.now args).2 = repo :=
        congrArg Prod.snd (Except.ok.inj done)
      rw [← last]
      have kept := gcCommitFence_same world args
      exact .of_numbers (.of_same kept.readers) kept.numbers.catalog
    intro refusal
    split
    · exact .done _
    · exact commitHeldGc_stages args

def stagedByOperation (operation : GcOperation) : List String :=
  match operation.nativeResult with
  | some _ => [operation.outputPackKey]
  | none => operation.retainedPackKey.toList

theorem targetRow_packKey {operation : GcOperation} {source : GcSnapshot}
    (target : (operation.targetRow source now).map PackCatalogRow.packKey =
      some packKey) : packKey ∈ stagedByOperation operation := by
  unfold GcOperation.targetRow at target
  unfold stagedByOperation
  cases native : operation.nativeResult with
  | some result =>
    rw [native] at target
    cases target
    exact .head _
  | none =>
    rw [native] at target
    dsimp only at target
    rcases Option.map_eq_some_iff.mp target with ⟨row, found, rfl⟩
    have retained := List.find?_some found
    exact Option.mem_toList.mpr (of_decide_eq_true retained).symm

theorem publishGc_stages (world : World) (now : Nat) (operation : GcOperation)
    (source : GcSnapshot) (coordination : GcCoordination) :
    Stages (stagedByOperation operation) world
      (world.withRepo
        (world.repo.publishGc now operation source coordination).2) := by
  unfold RepoState.publishGc
  dsimp only
  split
  · refine Stages.of_active rfl rfl rfl ?_
    intro row active
    rcases isActive_replace active with earlier | target
    · exact .inl earlier
    · exact .inr (targetRow_packKey target)
  · exact .beside rfl rfl rfl rfl

/-- The operation stages its output. -/
def stagedByGc (world : World) : List String :=
  (world.repo.gcOperation.map stagedByOperation).getD []

theorem commitCoordinatedGc_stages (operationId claimId : String)
    (origin : World) :
    (commitCoordinatedGc operationId claimId).Ensures AnyAnswer
      (Stages (stagedByGc origin)) ClockDrift (fun _ _ => True)
      (fun _ _ => True) origin := by
  apply ensures_commitCoordinatedGc
  · exact .refl origin
  · intro operation source coordination closure held _
    have staged : stagedByGc origin = stagedByOperation operation := by
      unfold stagedByGc
      rw [held]
      rfl
    rw [staged]
    exact publishGc_stages origin _ _ _ _

/-! ## Any of them -/

/-- A call, finished or cut off, that changes the catalog, with the packs that
it stages. -/
inductive CatalogCall (before last : World) : List String → Prop where
  | received {intent : ReceiveFinalizeIntent}
      {result : Option (Except RepoFailure Bool)}
      (ran : RunsAlone (activateStagedPack intent) before last result) :
      CatalogCall before last (stagedByReceive intent)
  | stockReceived {row : PackCatalogRow}
      (wrote : last = before.update fun repo =>
        repo.setPackCatalog (upsertPackCatalogRow repo.packCatalog row)) :
      CatalogCall before last [row.packKey]
  | compacted {args : CommitCompactionArgs}
      {result : Option (Except RepoFailure CommitCompactionResult)}
      (ran : RunsAlone (commitCompactionState args) before last result) :
      CatalogCall before last [args.stagedPack.packKey]
  | collected {args : CommitReachabilityGcArgs}
      {result : Option (Except RepoFailure CommitReachabilityGcResult)}
      (ran : RunsAlone (commitReachabilityGcState args) before last result) :
      CatalogCall before last args.expectedTargetKey.toList
  | coordinated {operationId claimId : String}
      {result : Option (Except RepoFailure CommitReachabilityGcResult)}
      (ran : RunsAlone (commitCoordinatedGc operationId claimId) before last
        result) :
      CatalogCall before last (stagedByGc before)

theorem CatalogCall.stages {before last : World} {staged : List String}
    (called : CatalogCall before last staged) : Stages staged before last := by
  cases called with
  | @received intent _ ran =>
    exact (activateStagedPack_stages intent).of_run .refl .trans .of_drift ran
  | stockReceived wrote =>
    subst wrote
    exact .upsert (.head _)
  | @compacted args _ ran =>
    exact (commitCompactionState_stages args).of_run .refl .trans .of_drift ran
  | @collected args _ ran =>
    exact (commitReachabilityGcState_stages args).of_run .refl .trans .of_drift
      ran
  | coordinated ran =>
    exact (Program.Ensures.runs (Stages (stagedByGc before) before) ran
      (commitCoordinatedGc_stages _ _ before) (.refl before)
      (fun _ _ sofar step => .trans _ _ _ sofar step)
      (fun _ _ sofar drifted => .trans _ _ _ sofar (.of_drift _ _ drifted))).1

end GitOnCloudflare.Deletion
