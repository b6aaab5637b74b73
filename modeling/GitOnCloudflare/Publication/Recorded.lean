import GitOnCloudflare.Compaction.Lease
import GitOnCloudflare.Repo.GcPublication
import GitOnCloudflare.Repo.ReceiveFinalize

/-!
# Recorded publications

A repository records the generation to publish as its pack set version and the
packs that are active.  A commit that replaces packs raises the version in
front of it.  Two calls record the version as it is: the call of a worker that
has found nothing published, and a commit of a collection that is repeated.
-/

namespace GitOnCloudflare.Publication

open Foundations
open Repo
open Compaction

/-! ## The calls of a worker -/

def packKeysOf (catalog : PackCatalog) : List String :=
  (listActivePackCatalog catalog).map PackCatalogRow.packKey

def activePackKeys (world : World) : List String :=
  packKeysOf world.repo.packCatalog

def ensureGenerationPublicationPendingState :
    RepoProgram GenerationPublicationPending := do
  let repo ← get
  match repo.generationPublicationPending with
  | some existing => return existing
  | none =>
    let pending : GenerationPublicationPending :=
      ⟨repo.packsetVersion, packKeysOf repo.packCatalog⟩
    put fun repo => repo.setGenerationPublicationPending (some pending)
    return pending

def completeGenerationPublicationState (generation : Nat) : RepoProgram Bool :=
  transaction fun current =>
    if current.repo.generationPublicationPending.map
        GenerationPublicationPending.generation = some generation then
      .ok (true, current.repo.setGenerationPublicationPending none)
    else
      .ok (false, current.repo)

/-! ## What a call may record -/

/-- The version, the record and the packs are the same. -/
structure SameNumbers (before after : World) : Prop where
  version : after.repo.packsetVersion = before.repo.packsetVersion
  pending : after.repo.generationPublicationPending =
    before.repo.generationPublicationPending
  catalog : after.repo.packCatalog = before.repo.packCatalog

/-- The leases of readers and the clock are the same. -/
structure SameReaders (before after : World) : Prop where
  reading : after.repo.repositoryReadLeases = before.repo.repositoryReadLeases
  native : after.repo.nativeCatalogReaderLease =
    before.repo.nativeCatalogReaderLease
  floor : after.repo.nativeCatalogReaderGenerationFloor =
    before.repo.nativeCatalogReaderGenerationFloor
  now : after.now = before.now

/-- A write of the bookkeeping around a commit. -/
structure Bookkeeps (before after : World) : Prop where
  numbers : SameNumbers before after
  readers : SameReaders before after

/-- What a call has recorded by now: nothing, or the version and the packs as
they are, behind a raise of the version or, where `repeats`, beside the same
packs. -/
structure Numbered (repeats : Prop) (origin after : World) : Prop where
  version : origin.repo.packsetVersion ≤ after.repo.packsetVersion
  pending :
    after.repo.generationPublicationPending =
        origin.repo.generationPublicationPending ∨
      after.repo.generationPublicationPending = none ∨
      after.repo.generationPublicationPending =
          some ⟨after.repo.packsetVersion, activePackKeys after⟩ ∧
        (origin.repo.packsetVersion < after.repo.packsetVersion ∨
          repeats ∧
            after.repo.packsetVersion = origin.repo.packsetVersion ∧
            activePackKeys after = activePackKeys origin)

namespace SameNumbers

theorem refl (world : World) : SameNumbers world world := ⟨rfl, rfl, rfl⟩

variable {before after : World}

theorem activePackKeys_eq (same : SameNumbers before after) :
    activePackKeys after = activePackKeys before := by
  unfold activePackKeys
  rw [same.catalog]

theorem of_drift (drifted : ClockDrift before after) :
    SameNumbers before after := by
  rw [ClockDrift] at drifted
  rcases drifted with ⟨same, _, _⟩
  exact ⟨congrArg RepoState.packsetVersion same,
    congrArg RepoState.generationPublicationPending same,
    congrArg RepoState.packCatalog same⟩

end SameNumbers

namespace Bookkeeps

theorem of_fields {world : World} {repo : RepoState}
    (version : repo.packsetVersion = world.repo.packsetVersion)
    (pending : repo.generationPublicationPending =
      world.repo.generationPublicationPending)
    (catalog : repo.packCatalog = world.repo.packCatalog)
    (reading : repo.repositoryReadLeases = world.repo.repositoryReadLeases)
    (native : repo.nativeCatalogReaderLease =
      world.repo.nativeCatalogReaderLease)
    (floor : repo.nativeCatalogReaderGenerationFloor =
      world.repo.nativeCatalogReaderGenerationFloor) :
    Bookkeeps world (world.withRepo repo) :=
  ⟨⟨version, pending, catalog⟩, ⟨reading, native, floor, rfl⟩⟩

theorem refl (world : World) : Bookkeeps world world :=
  .of_fields rfl rfl rfl rfl rfl rfl

end Bookkeeps

namespace Numbered

variable {repeats : Prop} {origin before after : World}

/-- Nothing is recorded, and the version is not lowered. -/
theorem of_unrecorded
    (version : origin.repo.packsetVersion ≤ after.repo.packsetVersion)
    (pending : after.repo.generationPublicationPending =
      origin.repo.generationPublicationPending) :
    Numbered repeats origin after :=
  ⟨version, .inl pending⟩

theorem refl (world : World) : Numbered repeats world world :=
  of_unrecorded (Nat.le_refl _) rfl

theorem same (numbered : Numbered repeats origin before)
    (kept : SameNumbers before after) : Numbered repeats origin after := by
  rcases numbered with ⟨version, recorded⟩
  constructor
  · rw [kept.version]
    exact version
  · rw [kept.version, kept.pending, kept.activePackKeys_eq]
    exact recorded

end Numbered

/-! ## Programs -/

section Programs

variable {Value Other : Type} {repeats : Prop} {origin : World}

/-- Every write of a program is of this kind. -/
abbrev Writes (keeps : World → World → Prop) (program : RepoProgram Value) :
    Prop :=
  ∀ before, program.Ensures AnyAnswer keeps ClockDrift
    (fun _ _ => True) (fun _ _ => True) before

/-- The writes of a program from `state` on keep to what a call that began at
`origin` may record. -/
abbrev Numbers (repeats : Prop) (origin : World) (program : RepoProgram Value)
    (state : World) : Prop :=
  program.Ensures AnyAnswer
    (fun before after =>
      Numbered repeats origin before → Numbered repeats origin after)
    ClockDrift (fun _ _ => True) (fun _ _ => True) state

variable {program : RepoProgram Value} {last : World}
  {result : Option (Except RepoFailure Value)}

namespace Writes

variable {keeps : World → World → Prop}

theorem done (value : Value) :
    Writes keeps (Program.done value : RepoProgram Value) :=
  fun _ => trivial

theorem throw (failure : RepoFailure) :
    Writes keeps (Repo.throw failure : RepoProgram Value) :=
  fun _ => trivial

theorem bind {rest : Value → RepoProgram Other} (first : Writes keeps program)
    (second : ∀ value, Writes keeps (rest value)) :
    Writes keeps (program.bind rest) := by
  intro before
  rw [Program.ensures_bind]
  exact (first before).mono (fun _ _ kept => kept)
    (fun value last _ => second value last) (fun _ _ _ => trivial)

theorem get_bind {rest : RepoState → RepoProgram Other}
    (second : ∀ repo, Writes keeps (rest repo)) : Writes keeps (get.bind rest) :=
  fun before => second before.repo before

theorem world_bind {rest : World → RepoProgram Other}
    (second : ∀ current, Writes keeps (rest current)) :
    Writes keeps (world.bind rest) :=
  fun before => second before before

theorem dateNow_bind {rest : Nat → RepoProgram Other}
    (second : ∀ now, Writes keeps (rest now)) :
    Writes keeps (dateNow.bind rest) :=
  fun before => second before.now before

theorem put {write : RepoState → RepoState}
    (kept : ∀ world : World, keeps world (world.withRepo (write world.repo))) :
    Writes keeps (Repo.put write) :=
  fun before => ⟨kept before, trivial⟩

theorem transaction {body : World → Except RepoFailure (Value × RepoState)}
    (kept : ∀ world value repo, body world = .ok (value, repo) →
      keeps world (world.withRepo repo)) :
    Writes keeps (Repo.transaction body) := by
  intro before
  rw [ensures_repoTransaction]
  cases done : body before with
  | ok result => exact ⟨kept before result.1 result.2 done, trivial⟩
  | error failure => trivial

theorem mono {weaker : World → World → Prop} (writes : Writes keeps program)
    (implied : ∀ before after, keeps before after → weaker before after) :
    Writes weaker program :=
  fun before => (writes before).mono implied (fun _ _ _ => trivial)
    (fun _ _ _ => trivial)

/-- What every write keeps, a run keeps. -/
theorem of_run (writes : Writes keeps program)
    (refl : ∀ world, keeps world world)
    (trans : ∀ first second third, keeps first second → keeps second third →
      keeps first third)
    (drift : ∀ before later, ClockDrift before later → keeps before later)
    (ran : RunsAlone program origin last result) : keeps origin last :=
  (Program.Ensures.runs (keeps origin) ran (writes origin) (refl origin)
    (fun _ _ sofar step => trans _ _ _ sofar step)
    (fun _ _ sofar drifted => trans _ _ _ sofar (drift _ _ drifted))).1

theorem numbers (beside : Writes Bookkeeps program) (state : World) :
    Numbers repeats origin program state :=
  (beside state).mono (fun _ _ kept numbered => numbered.same kept.numbers)
    (fun _ _ _ => trivial) (fun _ _ _ => trivial)

end Writes

/-- Answered or cut off, a run records what its program may. -/
theorem Numbers.of_run (numbers : Numbers repeats origin program origin)
    (ran : RunsAlone program origin last result) :
    Numbered repeats origin last :=
  (Program.Ensures.runs (Numbered repeats origin) ran numbers (.refl origin)
    (fun _ _ sofar step => step sofar)
    (fun _ _ sofar drifted => sofar.same (.of_drift drifted))).1

/-- The version is not lowered, and nothing is recorded. -/
structure Raises (before after : World) : Prop where
  version : before.repo.packsetVersion ≤ after.repo.packsetVersion
  pending : after.repo.generationPublicationPending =
    before.repo.generationPublicationPending

theorem Writes.numbered (raises : Writes Raises program)
    (ran : RunsAlone program origin last result) :
    Numbered repeats origin last := by
  have raised : Raises origin last := by
    apply raises.of_run _ _ _ ran
    · intro world
      exact ⟨Nat.le_refl _, rfl⟩
    · intro first second third one two
      exact ⟨one.version.trans two.version, two.pending.trans one.pending⟩
    · intro before later drifted
      have same := SameNumbers.of_drift drifted
      exact ⟨same.version.ge, same.pending⟩
  exact .of_unrecorded raised.version raised.pending

/-! ## Bookkeeping -/

theorem clearCompactionSchedule_beside :
    Writes Bookkeeps clearCompactionSchedule := by
  unfold clearCompactionSchedule
  rw [Program.bind_eq_bind]
  apply Writes.bind
  · exact .put fun _ => .of_fields rfl rfl rfl rfl rfl rfl
  · intro _
    exact .put fun _ => .of_fields rfl rfl rfl rfl rfl rfl

theorem rescheduleCompaction_beside (shouldRequeue : Bool) :
    Writes Bookkeeps (rescheduleCompaction shouldRequeue) := by
  unfold rescheduleCompaction
  split
  · apply Writes.get_bind
    intro repo
    split
    · apply Writes.dateNow_bind
      intro now
      apply Writes.bind
      · exact .put fun _ => .of_fields rfl rfl rfl rfl rfl rfl
      intro _
      apply Writes.get_bind
      intro _
      split
      · exact .put fun _ => .of_fields rfl rfl rfl rfl rfl rfl
      · exact .done ()
    · split
      · exact .put fun _ => .of_fields rfl rfl rfl rfl rfl rfl
      · exact .done ()
  · exact clearCompactionSchedule_beside

theorem retainGcCommitReceipt_beside (operationId : Option String)
    (token : String) (committed : GcCommit) :
    Writes Bookkeeps (retainGcCommitReceipt operationId token committed) := by
  unfold retainGcCommitReceipt
  split
  · exact .done ()
  · split
    · exact .done ()
    · apply Writes.transaction
      intro world value repo done
      split at done
      · cases done
      · split at done
        · cases done
        · split at done
          · cases done
            exact .refl _
          · cases done
            exact .of_fields rfl rfl rfl rfl rfl rfl

theorem clearGcAttempt_same (world : World) (token : String) :
    Bookkeeps world (world.withRepo (world.repo.clearGcAttempt token)) := by
  unfold RepoState.clearGcAttempt
  dsimp only
  split_ifs <;> exact .of_fields rfl rfl rfl rfl rfl rfl

theorem clearGcAttemptState_beside (token : String) :
    Writes Bookkeeps (clearGcAttemptState token) := by
  apply Writes.transaction
  intro world value repo done
  cases done
  exact clearGcAttempt_same world token

end Programs

end GitOnCloudflare.Publication
