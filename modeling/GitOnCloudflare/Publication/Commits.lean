import GitOnCloudflare.Publication.Recorded

/-!
# What receives, compactions and collections record

Every call raises the version or leaves it, and a commit records what it has
raised the version to.  Only a repeated commit of a collection records a
version that others have raised.
-/

namespace GitOnCloudflare.Publication

open Foundations
open Repo
open Compaction

variable {origin state : World}

/-! ## Receives -/

theorem raisePacksetVersion_raises (version : Nat) :
    Writes Raises (raisePacksetVersion version) := by
  intro before
  unfold raisePacksetVersion
  rw [Program.bind_eq_bind, Program.ensures_bind, ensures_get]
  split
  · next lower => exact ⟨⟨lower.le, rfl⟩, trivial⟩
  · trivial

theorem activateStagedPack_raises (intent : ReceiveFinalizeIntent) :
    Writes Raises (activateStagedPack intent) := by
  unfold activateStagedPack
  split
  · exact .done false
  apply Writes.get_bind
  intro repo
  dsimp only
  split
  · exact .throw _
  split
  · apply Writes.bind
    · unfold activateReceiveRow
      split
      · apply Writes.dateNow_bind
        intro now
        exact .put fun _ => ⟨Nat.le_refl _, rfl⟩
      · exact .done ()
    intro _
    apply Writes.get_bind
    intro activated
    apply Writes.bind
    · unfold raiseNextPackSeq
      apply Writes.get_bind
      intro _
      split
      · exact .put fun _ => ⟨Nat.le_refl _, rfl⟩
      · exact .done ()
    intro _
    apply Writes.bind (raisePacksetVersion_raises _)
    intro _
    exact .done _
  · exact .throw _

/-! ## Compaction -/

variable {repeats : Prop} {now : Nat}
  {repo : RepoState} {operation : GcOperation} {source : GcSnapshot}
  {coordination : GcCoordination}

/-- A raise of the version and the record of what is active then. -/
theorem numbered_of_bump {settings : DeploymentSettings}
    (raised : origin.repo.packsetVersion < repo.packsetVersion)
    (recorded : repo.generationPublicationPending =
      some ⟨repo.packsetVersion, packKeysOf repo.packCatalog⟩) :
    Numbered repeats origin ⟨repo, now, settings⟩ :=
  ⟨raised.le, .inr (.inr ⟨recorded, .inl raised⟩)⟩

theorem activateTarget_numbers (args : CommitCompactionArgs)
    (same : SameNumbers origin state) :
    Numbers False origin (activateTarget args) state := by
  have version := same.version
  unfold activateTarget bumpPacksetVersion
  simp only [Program.bind_eq_bind, Program.ensures_bind, ensures_dateNow,
    ensures_put, ensures_get, Program.pure_eq_done]
  refine ⟨fun _ => ?_, fun _ => ?_, fun _ => ?_, fun _ => ?_, ?_⟩
  · exact .of_unrecorded version.ge same.pending
  · exact .of_unrecorded version.ge same.pending
  · exact .of_unrecorded (version.ge.trans (Nat.le_succ _)) same.pending
  · exact numbered_of_bump (Nat.lt_succ_of_le version.ge) rfl
  · apply (Writes.numbers (rescheduleCompaction_beside _) _).mono
      (fun _ _ kept => kept) _ (fun _ _ _ => trivial)
    intro _ later _
    refine ⟨fun numbered => numbered.same ⟨rfl, rfl, rfl⟩, trivial⟩

theorem commitFence_same (token : String) (world : World) :
    Bookkeeps world
      (world.withRepo (commitFence token world.now world.repo).2) := by
  unfold commitFence
  split_ifs
  · exact .refl _
  · exact .refl _
  cases world.repo.compactLease with
  | none => exact .refl _
  | some lease =>
    dsimp only
    split_ifs <;> exact .of_fields rfl rfl rfl rfl rfl rfl

theorem commitCompactionState_numbers (args : CommitCompactionArgs)
    (origin : World) :
    Numbers False origin (commitCompactionState args) origin := by
  have same := (commitFence_same args.token origin).numbers
  unfold commitCompactionState
  simp only [Program.bind_eq_bind, Program.ensures_bind]
  rw [ensures_repoTransaction]
  dsimp only
  refine ⟨fun numbered => numbered.same same, ?_⟩
  cases (commitFence args.token origin.now origin.repo).1 with
  | repositoryDeleting => trivial
  | leaseMismatch => trivial
  | held =>
    simp only [Program.ensures_bind, ensures_get, ensures_dateNow]
    split
    · simp only [Program.ensures_bind, ensures_put]
      exact ⟨fun numbered => numbered.same ⟨rfl, rfl, rfl⟩, trivial⟩
    · exact activateTarget_numbers args same

/-! ## Collection -/

/-- The catalog shows a commit of a collection, whose version was raised. -/
def Repeats (args : CommitReachabilityGcArgs) (world : World) : Prop :=
  args.alreadyCommitted world.repo.packCatalog = true ∧
    args.packsetVersion < world.repo.packsetVersion

/-- What a commit does once it has recorded the generation. -/
def finishGc (args : CommitReachabilityGcArgs) (committed : GcCommit) :
    RepoProgram CommitReachabilityGcResult :=
  (retainGcCommitReceipt args.gcOperationId args.token committed).bind fun _ =>
    (clearGcAttemptState args.token).bind fun _ =>
      Program.done (.committed committed)

theorem finishGc_beside (args : CommitReachabilityGcArgs)
    (committed : GcCommit) : Writes Bookkeeps (finishGc args committed) := by
  apply Writes.bind (retainGcCommitReceipt_beside _ _ _)
  intro _
  apply Writes.bind (clearGcAttemptState_beside _)
  intro _
  exact .done _

theorem reconcileCommittedGc_numbers (args : CommitReachabilityGcArgs)
    (origin : World)
    (committed : args.alreadyCommitted origin.repo.packCatalog = true) :
    Numbers (Repeats args origin) origin (reconcileCommittedGc args) origin := by
  have finish : ∀ committed state,
      Numbers (Repeats args origin) origin
        (if origin.repo.packsetVersion ≤ args.packsetVersion + 1 then
          clearCompactionSchedule.bind fun _ => finishGc args committed
        else
          finishGc args committed) state := by
    intro committed state
    apply Writes.numbers
    split
    · exact .bind clearCompactionSchedule_beside fun _ => finishGc_beside _ _
    · exact finishGc_beside _ _
  unfold reconcileCommittedGc Numbers
  rw [Program.bind_eq_bind, Program.ensures_bind, ensures_get]
  dsimp only
  by_cases raised : args.packsetVersion < origin.repo.packsetVersion
  · rw [if_pos raised]
    refine ⟨fun _ => ?_, finish _ _⟩
    refine ⟨Nat.le_refl _, .inr (.inr ⟨rfl, .inr ⟨⟨committed, raised⟩, rfl, ?_⟩⟩)⟩
    rfl
  · rw [if_neg raised]
    refine ⟨fun _ => ?_, fun _ => ?_, finish _ _⟩
    · exact .of_unrecorded (Nat.le_succ _) rfl
    · exact numbered_of_bump (Nat.lt_succ_self _) rfl

theorem replaceGcCatalog_numbers (args : CommitReachabilityGcArgs)
    (same : SameNumbers origin state) :
    Numbers repeats origin (replaceGcCatalog args) state := by
  have version := same.version
  have finish : ∀ committed state,
      Numbers repeats origin
        (clearCompactionSchedule.bind fun _ => finishGc args committed)
        state := by
    intro committed state
    apply Writes.numbers
    exact .bind clearCompactionSchedule_beside fun _ => finishGc_beside _ _
  unfold replaceGcCatalog Numbers
  simp only [Program.bind_eq_bind, Program.ensures_bind, ensures_world,
    ensures_put, ensures_get]
  generalize (if (args.targetPack state.now).isSome then 1 else 0) = expected
  refine ⟨fun _ => .of_unrecorded version.ge same.pending, ?_⟩
  split
  · trivial
  · refine ⟨fun _ => ?_, fun _ => ?_, finish _ _⟩
    · exact .of_unrecorded (version.ge.trans (Nat.le_succ _)) same.pending
    · exact numbered_of_bump (Nat.lt_succ_of_le version.ge) rfl

theorem gcCommitFence_same (world : World) (args : CommitReachabilityGcArgs) :
    Bookkeeps world
      (world.withRepo (world.repo.gcCommitFence world.now args).2) := by
  unfold RepoState.gcCommitFence
  dsimp only
  split_ifs
  · exact .refl _
  · exact .refl _
  · exact .refl _
  · exact .refl _
  · exact .refl _
  · exact .of_fields rfl rfl rfl rfl rfl rfl
  · exact .refl _
  cases args.stagedPack with
  | none => exact .of_fields rfl rfl rfl rfl rfl rfl
  | some pack =>
    cases world.repo.reachabilityGcPending with
    | none => exact .refl _
    | some pending =>
      dsimp only
      split_ifs
      · exact .refl _
      · exact .of_fields rfl rfl rfl rfl rfl rfl

theorem commitHeldGc_numbers (args : CommitReachabilityGcArgs)
    (same : SameNumbers origin state) :
    Numbers repeats origin (commitHeldGc args) state := by
  unfold commitHeldGc Numbers
  rw [Program.bind_eq_bind, Program.ensures_bind, ensures_world]
  split
  · apply Writes.numbers
    apply Writes.bind (clearGcAttemptState_beside _)
    intro _
    exact .done _
  · split
    · exact (finishGc_beside args _).numbers state
    · exact replaceGcCatalog_numbers args same

theorem commitReachabilityGcState_numbers (args : CommitReachabilityGcArgs)
    (origin : World) :
    Numbers (Repeats args origin) origin (commitReachabilityGcState args)
      origin := by
  unfold commitReachabilityGcState Numbers
  split
  · trivial
  rw [Program.bind_eq_bind, Program.ensures_bind, ensures_get]
  by_cases committed : args.alreadyCommitted origin.repo.packCatalog = true
  · rw [if_pos committed]
    exact reconcileCommittedGc_numbers args origin committed
  · rw [if_neg committed, Program.bind_eq_bind, Program.ensures_bind,
      ensures_repoTransaction]
    have same := (gcCommitFence_same origin args).numbers
    refine ⟨fun numbered => numbered.same same, ?_⟩
    split
    · trivial
    · exact commitHeldGc_numbers args same

theorem coordinatedRefusal_version {closure : GcClosure}
    (accepted : repo.coordinatedRefusal now operation source coordination
      closure = none) : repo.packsetVersion = coordination.packsetVersion := by
  unfold RepoState.coordinatedRefusal at accepted
  by_contra differs
  split_ifs at accepted

theorem publishGc_numbered {world : World}
    (version : world.repo.packsetVersion = coordination.packsetVersion) :
    Numbered False world
      (world.withRepo
        (world.repo.publishGc now operation source coordination).2) := by
  unfold RepoState.publishGc
  dsimp only
  split
  · apply numbered_of_bump
    · exact Nat.lt_succ_of_le version.le
    · rfl
  · exact .of_unrecorded (Nat.le_refl _) rfl

/-- A coordinated commit changes nothing, or publishes what is not refused. -/
theorem ensures_commitCoordinatedGc {wrote : World → World → Prop}
    (operationId claimId : String) (origin : World)
    (unchanged : wrote origin origin)
    (published : ∀ operation source coordination closure,
      origin.repo.gcOperation = some operation →
      origin.repo.coordinatedRefusal origin.now operation source coordination
        closure = none →
      wrote origin (origin.withRepo
        (origin.repo.publishGc origin.now operation source coordination).2)) :
    (commitCoordinatedGc operationId claimId).Ensures AnyAnswer wrote ClockDrift
      (fun _ _ => True) (fun _ _ => True) origin := by
  unfold commitCoordinatedGc
  rw [ensures_repoTransaction]
  dsimp only
  cases held : origin.repo.gcOperation with
  | none => exact ⟨unchanged, trivial⟩
  | some operation =>
    dsimp only
    by_cases other : operation.id ≠ operationId
    · rw [if_pos other]
      exact ⟨unchanged, trivial⟩
    rw [if_neg other]
    cases operation.commit with
    | some commit => exact ⟨unchanged, trivial⟩
    | none =>
      dsimp only
      by_cases deleting : origin.repo.repositoryDeleting = true
      · rw [if_pos deleting]
        exact ⟨unchanged, trivial⟩
      rw [if_neg deleting]
      cases operation.snapshot with
      | none => exact ⟨unchanged, trivial⟩
      | some source =>
      cases operation.coordination with
      | none => exact ⟨unchanged, trivial⟩
      | some coordination =>
      cases operation.closure with
      | none => exact ⟨unchanged, trivial⟩
      | some closure =>
        dsimp only
        by_cases mismatch : (!operation.publishes claimId origin.now ||
            decide (coordination.publicationClaimId ≠ some claimId) ||
            !origin.repo.holdsGcLease source.token origin.now) = true
        · rw [if_pos mismatch]
          exact ⟨unchanged, trivial⟩
        rw [if_neg mismatch]
        cases accepted : origin.repo.coordinatedRefusal origin.now operation
            source coordination closure with
        | some reason => exact ⟨unchanged, trivial⟩
        | none => exact ⟨published _ _ _ closure held accepted, trivial⟩

theorem commitCoordinatedGc_numbers (operationId claimId : String)
    (origin : World) :
    Numbers False origin (commitCoordinatedGc operationId claimId) origin := by
  apply ensures_commitCoordinatedGc
  · exact id
  · intro operation source coordination closure _ accepted _
    exact publishGc_numbered (coordinatedRefusal_version accepted)

/-! ## Workers -/

theorem ensure_numbers (origin : World) :
    Numbers (origin.repo.generationPublicationPending = none) origin
      ensureGenerationPublicationPendingState origin := by
  unfold ensureGenerationPublicationPendingState Numbers
  rw [Program.bind_eq_bind, Program.ensures_bind, ensures_get]
  cases absent : origin.repo.generationPublicationPending with
  | some existing => trivial
  | none =>
    refine ⟨fun _ => ⟨Nat.le_refl _, ?_⟩, trivial⟩
    exact .inr (.inr ⟨rfl, .inr ⟨rfl, rfl, rfl⟩⟩)

/-- The answer is what is recorded then. -/
theorem ensure_recorded {last : World} {pending : GenerationPublicationPending}
    (ran : RunsAlone ensureGenerationPublicationPendingState origin last
      (some (.ok pending))) :
    last.repo.generationPublicationPending = some pending := by
  have ensured : ensureGenerationPublicationPendingState.Ensures AnyAnswer
      (fun _ _ => True) ClockDrift
      (fun pending last =>
        last.repo.generationPublicationPending = some pending)
      (fun _ _ => True) origin := by
    unfold ensureGenerationPublicationPendingState
    rw [Program.bind_eq_bind, Program.ensures_bind, ensures_get]
    cases absent : origin.repo.generationPublicationPending with
    | some existing => exact absent
    | none => exact ⟨trivial, rfl⟩
  exact (Program.Ensures.runs (fun _ => True) ran ensured trivial
    (fun _ _ _ _ => trivial) (fun _ _ _ _ => trivial)).2

theorem complete_numbers (generation : Nat) (origin : World) :
    Numbers False origin (completeGenerationPublicationState generation)
      origin := by
  unfold completeGenerationPublicationState Numbers
  rw [ensures_repoTransaction]
  by_cases recorded : origin.repo.generationPublicationPending.map
      GenerationPublicationPending.generation = some generation
  · rw [if_pos recorded]
    exact ⟨fun _ => ⟨Nat.le_refl _, .inr (.inl rfl)⟩, trivial⟩
  · rw [if_neg recorded]
    exact ⟨fun numbered => numbered.same (.refl _), trivial⟩

end GitOnCloudflare.Publication
