import GitOnCloudflare.Publication.Commits
import GitOnCloudflare.Publication.Generations

/-!
# Publication beside receives, compactions and collections

Workers take the recorded generation of a repository, or have it recorded, and
publish it, in any number and interrupted anywhere.  Receives, compactions and
collections replace packs between their calls, and each may be cut off between
two writes.
-/

namespace GitOnCloudflare.Publication

open Foundations
open Repo
open Compaction

/-! ## The system -/

/-- Where a worker is in `publishPendingGeneration`. -/
inductive WorkerPhase where
  | getPending
  | readPublished
  | ensure
  | publish (pending : GenerationPublicationPending) (call : PublishCall)
  | complete (pending : GenerationPublicationPending)
  | ended (completed : Bool)
  | threw (failure : PublishFailure)

/-- A worker with the rounds it has left: two behind a compaction, one behind a
collection. -/
structure PublicationWorker where
  attempts : Nat
  phase : WorkerPhase

namespace PublicationWorker

def publishing (worker : PublicationWorker)
    (pending : GenerationPublicationPending) : PublicationWorker :=
  { worker with
    phase :=
      .publish pending (.start pending.generation pending.activePackKeys) }

def gotPending (worker : PublicationWorker) :
    Option GenerationPublicationPending → PublicationWorker
  | some pending => worker.publishing pending
  | none => { worker with phase := .readPublished }

def gotPublished (worker : PublicationWorker) (published : Bool) :
    PublicationWorker :=
  { worker with phase := if published then .ended true else .ensure }

def advanced (worker : PublicationWorker)
    (pending : GenerationPublicationPending) (call : PublishCall) :
    PublicationWorker :=
  { worker with
    phase :=
      match call.phase with
      | .returned _ => .complete pending
      | .threw failure => .threw failure
      | _ => .publish pending call }

/-- Another round when a later commit has replaced the record.  Out of rounds,
a compaction throws and a collection answers `false`. -/
def completed (worker : PublicationWorker) (done : Bool) : PublicationWorker :=
  if done then
    { worker with phase := .ended true }
  else if worker.attempts ≤ 1 then
    { worker with phase := .ended false }
  else
    ⟨worker.attempts - 1, .getPending⟩

end PublicationWorker

/-- The repository, the packs that were active when its version last changed,
every publication it has recorded, the bucket and the workers. -/
structure PublicationSystem where
  world : World
  raisedPackKeys : List String
  recorded : List GenerationPublicationPending
  bucket : GenerationBucket
  workers : List PublicationWorker

namespace PublicationSystem

/-- A call on the repository has ended or was cut off. -/
def moved (system : PublicationSystem) (last : World) : PublicationSystem :=
  { system with
    world := last
    raisedPackKeys :=
      if last.repo.packsetVersion = system.world.repo.packsetVersion then
        system.raisedPackKeys
      else
        activePackKeys last
    recorded :=
      last.repo.generationPublicationPending.toList ++ system.recorded }

def withWorker (system : PublicationSystem) (slot : Nat)
    (worker : PublicationWorker) : PublicationSystem :=
  { system with workers := system.workers.set slot worker }

/-- A stock receive writes the row of its pack. -/
def stockRow (system : PublicationSystem) (row : PackCatalogRow) :
    PublicationSystem :=
  system.moved
    (system.world.update fun repo =>
      repo.setPackCatalog (upsertPackCatalogRow repo.packCatalog row))

/-- And later the version behind the one it read. -/
def stockVersion (system : PublicationSystem) (version : Nat) :
    PublicationSystem :=
  system.moved
    (system.world.update fun repo => repo.setPacksetVersion (version + 1))

end PublicationSystem

/-- How a step may leave the pairing of versions and packs. -/
inductive Departure where
  | recordsVersion
  | staleVersion

/-- `allows` says in which states a step may record a version that it has not
raised, or write a version that it has read before another change. -/
inductive PublicationStep (root : String)
    (allows : Departure → PublicationSystem → Prop)
    (system : PublicationSystem) : PublicationSystem → Prop where
  | received {intent : ReceiveFinalizeIntent}
      {result : Option (Except RepoFailure Bool)} {last : World}
      (ran : RunsAlone (activateStagedPack intent) system.world last result) :
      PublicationStep root allows system (system.moved last)
  | stockRow (row : PackCatalogRow) :
      PublicationStep root allows system (system.stockRow row)
  | stockVersion {version : Nat}
      (allowed : version ≠ system.world.repo.packsetVersion →
        allows .staleVersion system) :
      PublicationStep root allows system (system.stockVersion version)
  | compacted {args : CommitCompactionArgs}
      {result : Option (Except RepoFailure CommitCompactionResult)}
      {last : World}
      (ran : RunsAlone (commitCompactionState args) system.world last result) :
      PublicationStep root allows system (system.moved last)
  | collected {args : CommitReachabilityGcArgs}
      {result : Option (Except RepoFailure CommitReachabilityGcResult)}
      {last : World}
      (allowed : Repeats args system.world → allows .recordsVersion system)
      (ran : RunsAlone (commitReachabilityGcState args) system.world last
        result) :
      PublicationStep root allows system (system.moved last)
  | coordinated {operationId claimId : String}
      {result : Option (Except RepoFailure CommitReachabilityGcResult)}
      {last : World}
      (ran : RunsAlone (commitCoordinatedGc operationId claimId) system.world
        last result) :
      PublicationStep root allows system (system.moved last)
  -- leases, refs, intents, superseded rows and the clock
  | elsewhere {last : World}
      (version : last.repo.packsetVersion = system.world.repo.packsetVersion)
      (pending : last.repo.generationPublicationPending =
        system.world.repo.generationPublicationPending)
      (packs : activePackKeys last = activePackKeys system.world) :
      PublicationStep root allows system { system with world := last }
  | started (attempts : Nat) :
      PublicationStep root allows system
        { system with workers := system.workers ++ [⟨attempts, .getPending⟩] }
  | gotPending {slot : Nat} {worker : PublicationWorker}
      (works : system.workers[slot]? = some worker)
      (phase : worker.phase = .getPending) :
      PublicationStep root allows system
        (system.withWorker slot
          (worker.gotPending system.world.repo.generationPublicationPending))
  -- an index names a manifest that is there, so this read does not fail
  | readPublished {slot : Nat} {worker : PublicationWorker}
      (works : system.workers[slot]? = some worker)
      (phase : worker.phase = .readPublished) :
      PublicationStep root allows system
        (system.withWorker slot
          (worker.gotPublished system.bucket.index.isSome))
  | ensured {slot : Nat} {worker : PublicationWorker}
      {pending : GenerationPublicationPending} {last : World}
      (works : system.workers[slot]? = some worker)
      (phase : worker.phase = .ensure)
      (allowed : system.world.repo.generationPublicationPending = none →
        allows .recordsVersion system)
      (ran : RunsAlone ensureGenerationPublicationPendingState system.world
        last (some (.ok pending))) :
      PublicationStep root allows system
        ((system.moved last).withWorker slot (worker.publishing pending))
  | published {slot now : Nat} {worker : PublicationWorker}
      {pending : GenerationPublicationPending} {call next : PublishCall}
      {bucket : GenerationBucket}
      (works : system.workers[slot]? = some worker)
      (phase : worker.phase = .publish pending call)
      (advanced : call.advance root now system.bucket = some (next, bucket)) :
      PublicationStep root allows system
        ({ system with bucket := bucket }.withWorker slot
          (worker.advanced pending next))
  | completed {slot : Nat} {worker : PublicationWorker}
      {pending : GenerationPublicationPending} {done : Bool} {last : World}
      (works : system.workers[slot]? = some worker)
      (phase : worker.phase = .complete pending)
      (ran : RunsAlone
        (completeGenerationPublicationState pending.generation) system.world
        last (some (.ok done))) :
      PublicationStep root allows system
        ((system.moved last).withWorker slot (worker.completed done))
  -- the call reaches the repository, cut off or not, and its answer is lost
  | ensureLost {slot : Nat} {worker : PublicationWorker}
      {result : Option (Except RepoFailure GenerationPublicationPending)}
      {last : World}
      (works : system.workers[slot]? = some worker)
      (phase : worker.phase = .ensure)
      (allowed : system.world.repo.generationPublicationPending = none →
        allows .recordsVersion system)
      (ran : RunsAlone ensureGenerationPublicationPendingState system.world
        last result) :
      PublicationStep root allows system
        ((system.moved last).withWorker slot { worker with phase := .ended false })
  | completeLost {slot : Nat} {worker : PublicationWorker}
      {pending : GenerationPublicationPending}
      {result : Option (Except RepoFailure Bool)} {last : World}
      (works : system.workers[slot]? = some worker)
      (phase : worker.phase = .complete pending)
      (ran : RunsAlone
        (completeGenerationPublicationState pending.generation) system.world
        last result) :
      PublicationStep root allows system
        ((system.moved last).withWorker slot { worker with phase := .ended false })

/-! ## What the runs keep -/

/-- A step that records a version as it is finds the packs that were active when
the version last changed, and a stock receive finds the version it has read. -/
def Paired : Departure → PublicationSystem → Prop
  | .recordsVersion, system =>
    activePackKeys system.world = system.raisedPackKeys
  | .staleVersion, _ => False

/-- Nothing was published or recorded, and no worker is there yet. -/
structure Unpublished (system : PublicationSystem) : Prop where
  pending : system.world.repo.generationPublicationPending = none
  recorded : system.recorded = []
  bucket : system.bucket = ⟨fun _ => none, none⟩
  workers : system.workers = []

/-- One generation has one list of packs, and no worker has found another list
under the key of its generation. -/
structure OnePackList (system : PublicationSystem) : Prop where
  recorded : ∀ first ∈ system.recorded, ∀ second ∈ system.recorded,
    first.generation = second.generation →
      first.activePackKeys = second.activePackKeys
  workers : ∀ worker ∈ system.workers,
    worker.phase ≠ .threw .manifestBytes ∧
      worker.phase ≠ .threw .manifestContent

/-- What a call of a worker has from the records. -/
def PublishCall.Publishes (root : String) (bucket : GenerationBucket)
    (call : PublishCall) (pending : GenerationPublicationPending) : Prop :=
  call.generation = pending.generation ∧
    call.activePackKeys = pending.activePackKeys ∧
    (call.phase = .getManifest →
      (bucket.manifests
        (repositoryGenerationManifestKey root call.generation)).isSome)

/-- What a worker is about to do is about a record. -/
def WorkerPhase.Recorded (root : String) (system : PublicationSystem) :
    WorkerPhase → Prop
  | .publish pending call =>
    pending ∈ system.recorded ∧ call.Publishes root system.bucket pending
  | .threw failure =>
    failure ≠ .manifestBytes ∧ failure ≠ .manifestContent
  | _ => True

structure PublicationInvariant (root : String) (system : PublicationSystem) :
    Prop where
  bounded : ∀ pending ∈ system.recorded,
    pending.generation ≤ system.world.repo.packsetVersion
  current : ∀ pending ∈ system.recorded,
    pending.generation = system.world.repo.packsetVersion →
      pending.activePackKeys = system.raisedPackKeys
  agree : ∀ first ∈ system.recorded, ∀ second ∈ system.recorded,
    first.generation = second.generation →
      first.activePackKeys = second.activePackKeys
  pending : ∀ pending,
    system.world.repo.generationPublicationPending = some pending →
      pending ∈ system.recorded
  manifests : ∀ generation manifest,
    system.bucket.manifests (repositoryGenerationManifestKey root generation) =
        some manifest →
      ∃ pending ∈ system.recorded, pending.generation = generation ∧
        manifest = ⟨generation, pending.activePackKeys⟩
  workers : ∀ worker ∈ system.workers, worker.phase.Recorded root system

variable {root : String} {system : PublicationSystem}

theorem PublicationInvariant.of_unpublished
    (unpublished : Unpublished system) : PublicationInvariant root system := by
  have none : ∀ pending, pending ∉ system.recorded := by
    intro pending member
    rw [unpublished.recorded] at member
    exact List.not_mem_nil member
  refine ⟨?_, ?_, ?_, ?_, ?_, ?_⟩
  · intro pending member
    exact absurd member (none pending)
  · intro pending member
    exact absurd member (none pending)
  · intro first member
    exact absurd member (none first)
  · intro pending found
    rw [unpublished.pending] at found
    cases found
  · intro generation manifest stored
    rw [unpublished.bucket] at stored
    cases stored
  · intro worker member
    rw [unpublished.workers] at member
    exact absurd member List.not_mem_nil

theorem PublicationInvariant.onePackList
    (invariant : PublicationInvariant root system) : OnePackList system := by
  refine ⟨invariant.agree, ?_⟩
  intro worker member
  have recorded := invariant.workers worker member
  constructor
  · intro threw
    rw [threw] at recorded
    exact recorded.1 rfl
  · intro threw
    rw [threw] at recorded
    exact recorded.2 rfl

/-- Records that stay are records still. -/
theorem WorkerPhase.Recorded.mono {later : PublicationSystem}
    {phase : WorkerPhase} (recorded : phase.Recorded root system)
    (records : ∀ pending ∈ system.recorded, pending ∈ later.recorded)
    (manifests : ∀ key manifest, system.bucket.manifests key = some manifest →
      later.bucket.manifests key = some manifest) :
    phase.Recorded root later := by
  cases phase with
  | publish pending call =>
    rcases recorded with ⟨member, generation, keys, held⟩
    refine ⟨records pending member, generation, keys, ?_⟩
    intro reading
    rcases Option.isSome_iff_exists.mp (held reading) with ⟨manifest, stored⟩
    exact Option.isSome_iff_exists.mpr ⟨manifest, manifests _ _ stored⟩
  | threw failure => exact recorded
  | getPending => trivial
  | readPublished => trivial
  | ensure => trivial
  | complete pending => trivial
  | ended done => trivial

variable {last world : World} {worker : PublicationWorker}
  {pending : GenerationPublicationPending} {before after : GenerationBucket}

/-- The records behind a call are those in front of it and the one it leaves,
and every one at the version has the packs of its last change. -/
theorem PublicationInvariant.moved {repeats : Prop}
    (invariant : PublicationInvariant root system)
    (numbered : Numbered repeats system.world last)
    (allowed : repeats → activePackKeys system.world = system.raisedPackKeys) :
    PublicationInvariant root (system.moved last) := by
  have records : ∀ pending ∈ system.recorded,
      pending ∈ (system.moved last).recorded :=
    fun pending member => List.mem_append_right _ member
  have older : ∀ pending ∈ system.recorded,
      pending.generation = last.repo.packsetVersion →
        pending.activePackKeys = (system.moved last).raisedPackKeys := by
    intro pending member level
    have version : last.repo.packsetVersion =
        system.world.repo.packsetVersion :=
      Nat.le_antisymm (level ▸ invariant.bounded pending member)
        numbered.version
    have raised : (system.moved last).raisedPackKeys = system.raisedPackKeys :=
      if_pos version
    rw [raised]
    exact invariant.current pending member (level.trans version)
  have fresh : ∀ pending ∈ (system.moved last).recorded,
      pending ∈ system.recorded ∨
        pending.generation = last.repo.packsetVersion ∧
          pending.activePackKeys = (system.moved last).raisedPackKeys := by
    intro pending member
    rcases List.mem_append.mp member with recorded | earlier
    · have found := Option.mem_toList.mp recorded
      rcases numbered.pending with same | gone | ⟨new, how⟩
      · exact .inl (invariant.pending pending (same.symm.trans found))
      · cases gone.symm.trans found
      · cases new.symm.trans found
        refine .inr ⟨rfl, ?_⟩
        rcases how with raised | ⟨repeated, version, packs⟩
        · exact (if_neg raised.ne').symm
        · exact packs.trans ((allowed repeated).trans (if_pos version).symm)
    · exact .inl earlier
  refine ⟨?_, ?_, ?_, ?_, ?_, ?_⟩
  · intro pending member
    rcases fresh pending member with earlier | ⟨level, _⟩
    · exact (invariant.bounded pending earlier).trans numbered.version
    · exact level.le
  · intro pending member level
    rcases fresh pending member with earlier | ⟨_, packs⟩
    · exact older pending earlier level
    · exact packs
  · intro first one second two same
    rcases fresh first one with earlier | ⟨level, packs⟩
    · rcases fresh second two with earlier' | ⟨level', packs'⟩
      · exact invariant.agree first earlier second earlier' same
      · exact (older first earlier (same.trans level')).trans packs'.symm
    · rcases fresh second two with earlier' | ⟨level', packs'⟩
      · exact packs.trans (older second earlier' (same.symm.trans level)).symm
      · exact packs.trans packs'.symm
  · intro pending found
    exact List.mem_append_left _ (Option.mem_toList.mpr found)
  · intro generation manifest stored
    rcases invariant.manifests generation manifest stored with
      ⟨pending, member, level, same⟩
    exact ⟨pending, records pending member, level, same⟩
  · intro worker member
    exact (invariant.workers worker member).mono records fun _ _ stored => stored

theorem PublicationInvariant.unrecorded
    (invariant : PublicationInvariant root system)
    (version : system.world.repo.packsetVersion ≤ last.repo.packsetVersion)
    (pending : last.repo.generationPublicationPending =
      system.world.repo.generationPublicationPending) :
    PublicationInvariant root (system.moved last) := by
  have numbered : Numbered False system.world last :=
    .of_unrecorded version pending
  exact invariant.moved numbered False.elim

theorem PublicationInvariant.withWorkers {workers : List PublicationWorker}
    (invariant : PublicationInvariant root system)
    (recorded : ∀ worker ∈ workers, worker.phase.Recorded root system) :
    PublicationInvariant root { system with workers := workers } := by
  refine ⟨invariant.bounded, invariant.current, invariant.agree,
    invariant.pending, invariant.manifests, ?_⟩
  intro worker member
  exact (recorded worker member).mono (fun _ member => member)
    fun _ _ stored => stored

theorem PublicationInvariant.withWorker {slot : Nat}
    (invariant : PublicationInvariant root system)
    (recorded : worker.phase.Recorded root system) :
    PublicationInvariant root (system.withWorker slot worker) := by
  apply invariant.withWorkers
  intro other member
  rcases List.mem_or_eq_of_mem_set member with earlier | rfl
  · exact invariant.workers other earlier
  · exact recorded

theorem recorded_publishing (member : pending ∈ system.recorded) :
    (worker.publishing pending).phase.Recorded root system :=
  ⟨member, rfl, rfl, fun reading => by cases reading⟩

/-- What one request of a call for a record leaves behind. -/
structure PublishCall.Continues (root : String) (call next : PublishCall)
    (before after : GenerationBucket) : Prop where
  generation : next.generation = call.generation
  activePackKeys : next.activePackKeys = call.activePackKeys
  reading : next.phase = .getManifest →
    (after.manifests
      (repositoryGenerationManifestKey root next.generation)).isSome
  threw : ∀ failure, next.phase = .threw failure →
    failure = .indexNotConverged
  manifests : ∀ key manifest, after.manifests key = some manifest →
    before.manifests key = some manifest ∨
      key = repositoryGenerationManifestKey root call.generation ∧
        manifest = call.manifest
  kept : ∀ key manifest, before.manifests key = some manifest →
    after.manifests key = some manifest

variable {call : PublishCall}

/-- A read of the index, or a failure that has to do with it. -/
theorem PublishCall.Continues.of_bucket {phase : PublishPhase}
    (same : after.manifests = before.manifests)
    (elsewhere : phase ≠ .getManifest)
    (threw : ∀ failure, phase = .threw failure → failure = .indexNotConverged) :
    call.Continues root (call.at_ phase) before after := by
  refine ⟨rfl, rfl, fun reading => absurd reading elsewhere, threw, ?_, ?_⟩
  · intro key manifest stored
    rw [same] at stored
    exact .inl stored
  · intro key manifest stored
    rw [same]
    exact stored

theorem PublishCall.compareManifest_same :
    call.compareManifest (some call.manifest) = .getIndex 1 := by
  unfold PublishCall.compareManifest
  dsimp only
  rw [if_neg (not_not.mpr rfl), if_neg (not_not.mpr rfl)]

theorem PublishCall.compareIndex_index {call : PublishCall} {attempt : Nat}
    (current : Option GenerationIndex) :
    call.compareIndex root attempt current ≠ .getManifest ∧
      ∀ failure, call.compareIndex root attempt current ≠ .threw failure := by
  unfold PublishCall.compareIndex
  cases current with
  | none =>
    constructor
    · intro same
      cases same
    · intro failure same
      cases same
  | some index =>
    dsimp only
    constructor
    · split_ifs <;> intro same <;> cases same
    · intro failure
      split_ifs <;> intro same <;> cases same

/-- A call continues when the manifest it reads is the one it would put. -/
theorem PublishCall.advance_continues {now : Nat} {next : PublishCall}
    (reads : call.phase = .getManifest →
      before.manifests (repositoryGenerationManifestKey root call.generation) =
        some call.manifest)
    (advanced : call.advance root now before = some (next, after)) :
    call.Continues root next before after := by
  unfold PublishCall.advance at advanced
  cases phase : call.phase with
  | putManifest =>
    rw [phase] at advanced
    dsimp only at advanced
    split at advanced
    · next free =>
      cases advanced
      have grows := @GenerationBucket.Grows.of_put before _ call.manifest free
      refine ⟨rfl, rfl, (fun reading => by cases reading),
        (fun _ threw => by cases threw), ?_, grows.manifests⟩
      intro key manifest stored
      by_cases same : key = repositoryGenerationManifestKey root call.generation
      · subst same
        dsimp only at stored
        rw [Function.update_self] at stored
        cases stored
        exact .inr ⟨rfl, rfl⟩
      · dsimp only at stored
        rw [Function.update_of_ne same] at stored
        exact .inl stored
    · next held =>
      cases advanced
      exact ⟨rfl, rfl, fun _ => Option.isSome_iff_ne_none.mpr held,
        (fun _ threw => by cases threw), fun _ _ stored => .inl stored,
        fun _ _ stored => stored⟩
  | getManifest =>
    rw [phase] at advanced
    dsimp only at advanced
    rw [reads phase, compareManifest_same] at advanced
    cases advanced
    exact .of_bucket rfl (fun same => by cases same)
      fun _ threw => by cases threw
  | getIndex attempt =>
    rw [phase] at advanced
    dsimp only at advanced
    rcases Prod.mk.inj (Option.some.inj advanced) with ⟨rfl, rfl⟩
    have index := @compareIndex_index root call attempt before.index
    exact .of_bucket rfl index.1 fun failure threw =>
      absurd threw (index.2 failure)
  | casIndex attempt current =>
    rw [phase] at advanced
    dsimp only at advanced
    split at advanced
    · cases advanced
      exact .of_bucket rfl (fun same => by cases same)
        fun _ threw => by cases threw
    · split at advanced
      · cases advanced
        exact .of_bucket rfl (fun same => by cases same)
          fun _ threw => by cases threw
      · cases advanced
        refine .of_bucket rfl (fun same => by cases same) ?_
        intro failure threw
        cases threw
        rfl
  | returned outcome =>
    rw [phase] at advanced
    cases advanced
  | threw failure =>
    rw [phase] at advanced
    cases advanced

/-- A request of a worker meets what the records say. -/
theorem PublicationInvariant.published {slot now : Nat}
    {worker : PublicationWorker} {pending : GenerationPublicationPending}
    {call next : PublishCall} {bucket : GenerationBucket}
    (invariant : PublicationInvariant root system)
    (works : system.workers[slot]? = some worker)
    (phase : worker.phase = .publish pending call)
    (advanced : call.advance root now system.bucket = some (next, bucket)) :
    PublicationInvariant root
      ({ system with bucket := bucket }.withWorker slot
        (worker.advanced pending next)) := by
  have recorded := invariant.workers worker (List.mem_of_getElem? works)
  rw [phase] at recorded
  rcases recorded with ⟨member, generation, keys, held⟩
  have reads : call.phase = .getManifest →
      system.bucket.manifests
          (repositoryGenerationManifestKey root call.generation) =
        some call.manifest := by
    intro reading
    rcases Option.isSome_iff_exists.mp (held reading) with ⟨manifest, stored⟩
    rcases invariant.manifests _ _ stored with ⟨other, recorded, level, rfl⟩
    have packs := invariant.agree other recorded pending member
      (level.trans generation)
    rw [stored, packs, ← keys]
    rfl
  have continues := PublishCall.advance_continues reads advanced
  have bucketHolds : PublicationInvariant root { system with bucket := bucket } := by
    refine ⟨invariant.bounded, invariant.current, invariant.agree,
      invariant.pending, ?_, ?_⟩
    · intro number manifest stored
      rcases continues.manifests _ _ stored with earlier | ⟨key, rfl⟩
      · exact invariant.manifests number manifest earlier
      · cases repositoryGenerationManifestKey_inj key
        exact ⟨pending, member, generation.symm,
          congrArg (GenerationManifest.mk call.generation) keys⟩
    · intro other there
      exact (invariant.workers other there).mono (fun _ member => member)
        continues.kept
  apply bucketHolds.withWorker
  unfold PublicationWorker.advanced
  dsimp only
  split
  · trivial
  · next failure threw =>
    cases continues.threw failure threw
    exact ⟨(fun same => by cases same), (fun same => by cases same)⟩
  · exact ⟨member, continues.generation.trans generation,
      continues.activePackKeys.trans keys, continues.reading⟩

theorem PublicationStep.invariant {next : PublicationSystem}
    (stepped : PublicationStep root Paired system next)
    (invariant : PublicationInvariant root system) :
    PublicationInvariant root next := by
  cases stepped with
  | received ran =>
    have numbered : Numbered False system.world _ :=
      (activateStagedPack_raises _).numbered ran
    exact invariant.moved numbered False.elim
  | stockRow row =>
    exact invariant.unrecorded (Nat.le_refl _) rfl
  | @stockVersion version allowed =>
    have current : version = system.world.repo.packsetVersion := by
      by_contra stale
      exact allowed stale
    subst current
    exact invariant.unrecorded (Nat.le_succ _) rfl
  | compacted ran =>
    exact invariant.moved ((commitCompactionState_numbers _ _).of_run ran)
      False.elim
  | collected allowed ran =>
    exact invariant.moved
      ((commitReachabilityGcState_numbers _ _).of_run ran) allowed
  | coordinated ran =>
    exact invariant.moved ((commitCoordinatedGc_numbers _ _ _).of_run ran)
      False.elim
  | @elsewhere last version pending packs =>
    refine ⟨?_, ?_, invariant.agree, ?_, invariant.manifests, ?_⟩
    · intro record member
      exact (invariant.bounded record member).trans version.ge
    · intro record member level
      exact invariant.current record member (level.trans version)
    · intro record found
      exact invariant.pending record (pending.symm.trans found)
    · intro worker member
      exact (invariant.workers worker member).mono (fun _ member => member)
        fun _ _ stored => stored
  | started attempts =>
    apply invariant.withWorkers
    intro worker member
    rcases List.mem_append.mp member with earlier | new
    · exact invariant.workers worker earlier
    · cases List.mem_singleton.mp new
      trivial
  | @gotPending slot worker works phase =>
    apply invariant.withWorker
    unfold PublicationWorker.gotPending
    split
    · next pending found => exact recorded_publishing (invariant.pending _ found)
    · trivial
  | @readPublished slot worker works phase =>
    apply invariant.withWorker
    unfold PublicationWorker.gotPublished
    dsimp only
    split <;> trivial
  | @ensured slot worker pending last works phase allowed ran =>
    have answered : pending ∈ (system.moved last).recorded :=
      List.mem_append_left _ (Option.mem_toList.mpr (ensure_recorded ran))
    have held := invariant.moved ((ensure_numbers _).of_run ran) allowed
    exact held.withWorker (recorded_publishing answered)
  | published works phase advanced => exact invariant.published works phase advanced
  | @completed slot worker pending done last works phase ran =>
    apply (invariant.moved ((complete_numbers _ _).of_run ran) False.elim).withWorker
    unfold PublicationWorker.completed
    split_ifs <;> trivial
  | ensureLost works phase allowed ran =>
    exact (invariant.moved ((ensure_numbers _).of_run ran) allowed).withWorker
      trivial
  | completeLost works phase ran =>
    exact (invariant.moved ((complete_numbers _ _).of_run ran)
      False.elim).withWorker trivial

theorem PublicationInvariant.reaches {start last : PublicationSystem}
    (reached : Relation.ReflTransGen (PublicationStep root Paired) start last)
    (invariant : PublicationInvariant root start) :
    PublicationInvariant root last := by
  induction reached with
  | refl => exact invariant
  | tail _ stepped ih => exact stepped.invariant ih

/-! ## A new repository -/

/-- A repository that is new. -/
def newRepository : PublicationSystem where
  world := { repo := {}, now := 0 }
  raisedPackKeys := []
  recorded := []
  bucket := ⟨fun _ => none, none⟩
  workers := []

theorem ensure_records (absent : world.repo.generationPublicationPending = none) :
    RunsAlone ensureGenerationPublicationPendingState world
      (world.update fun repo => repo.setGenerationPublicationPending
        (some ⟨world.repo.packsetVersion, activePackKeys world⟩))
      (some (.ok ⟨world.repo.packsetVersion, activePackKeys world⟩)) := by
  unfold ensureGenerationPublicationPendingState
  apply Program.Runs.read
  simp only [Program.bind]
  rw [absent]
  exact .commit (.done _ _)

theorem complete_deletes
    (recorded : world.repo.generationPublicationPending = some pending) :
    RunsAlone (completeGenerationPublicationState pending.generation) world
      (world.update fun repo => repo.setGenerationPublicationPending none)
      (some (.ok true)) := by
  unfold completeGenerationPublicationState transaction
  apply Program.Runs.read
  dsimp only
  rw [recorded, Option.map_some, if_pos rfl]
  exact .commit (.done _ _)

/-! ## Every run -/

/-- Publication never goes back, names manifests that stay, and one generation
has one list of packs in every run whose steps pair versions with the packs of
their last change. -/
theorem generation_publication_paired (root : String) :
    (∀ events later before after,
      EventRun.run (Publications.step root) .empty events = some before →
        EventRun.run (Publications.step root) before later = some after →
          PublicationKept root before after) ∧
      ∀ start last, Unpublished start →
        Relation.ReflTransGen (PublicationStep root Paired) start last →
          OnePackList last := by
  constructor
  · intro events later before after reached ran
    exact publications_monotone reached ran
  · intro start last unpublished reached
    exact ((PublicationInvariant.of_unpublished unpublished).reaches
      reached).onePackList

theorem generation_publication_paired_newRepository :
    (∃ before after,
      EventRun.run (Publications.step "repo") .empty
          [.start 1 ["first"], .advance 0 7] = some before ∧
      EventRun.run (Publications.step "repo") before
          [.advance 0 7, .advance 0 8] = some after ∧
      PublicationKept "repo" before after) ∧
      ∃ last,
        Relation.ReflTransGen (PublicationStep "repo" Paired) newRepository
            last ∧
          last.recorded = [⟨0, []⟩] ∧ OnePackList last := by
  constructor
  · refine ⟨_, _, rfl, rfl, ?_⟩
    exact (generation_publication_paired "repo").1
      [.start 1 ["first"], .advance 0 7] [.advance 0 7, .advance 0 8] _ _ rfl rfl
  · have found := (((Relation.ReflTransGen.single
      (@PublicationStep.started "repo" Paired newRepository 2)).tail
      (@PublicationStep.gotPending _ _ _ 0 _ rfl rfl)).tail
      (@PublicationStep.readPublished _ _ _ 0 _ rfl rfl)).tail
      (@PublicationStep.ensured _ _ _ 0 _ _ _ rfl rfl (fun _ => rfl)
        (ensure_records rfl))
    refine ⟨_, found, rfl, ?_⟩
    exact (generation_publication_paired "repo").2 newRepository _
      ⟨rfl, rfl, rfl, rfl⟩ found

/-! ## Two lists for one generation -/

/-- The first receive of the repository. -/
def firstReceive : ReceiveFinalizeIntent where
  token := "token"
  refPublication := none
  commands := []
  expectedRefsVersion := 0
  nextHead := defaultHead
  nextRefsVersion := 1
  stagedPack := some ⟨"first", 100, 100, 1, none⟩
  packSequence := some 1
  nextPacksetVersion := some 1
  ingestionReceipt := none
  acceptedWriteContext := none
  recoveryAttempts := 0
  recoveryEscalated := false
  createdAt := 0

/-- The receive is cut off behind the row of its pack. -/
def firstRow : RepoState :=
  { packCatalog :=
      upsertPackCatalogRow KeyedList.empty
        (receiveRow ⟨"first", 100, 100, 1, none⟩ 1 0) }

theorem firstReceive_cut :
    RunsAlone (activateStagedPack firstReceive) newRepository.world
      ⟨firstRow, 0, {}⟩ none :=
  Program.Runs.of_cut (activateStagedPack firstReceive) newRepository.world 1

def firstRecord : GenerationPublicationPending := ⟨0, []⟩

def lateRecord : GenerationPublicationPending := ⟨0, ["first"]⟩

/-- Any step may leave the pairing. -/
def Anyhow : Departure → PublicationSystem → Prop := fun _ _ => True

/-- The two manifests differ in their sizes. -/
theorem firstReceive_conflicts :
    (PublishCall.mk 0 ["first"] .getManifest).compareManifest (some ⟨0, []⟩) =
      .threw .manifestBytes := by
  decide +kernel

/-- Two workers find nothing published.  One publishes the empty list; a
receive is cut off behind its row; the other has the longer list recorded with
the version of the empty one, and finds that manifest in the bucket. -/
theorem workers_conflict :
    Unpublished newRepository ∧
      ∃ last,
        Relation.ReflTransGen (PublicationStep "repo" Anyhow) newRepository
            last ∧
          ¬ OnePackList last ∧
          ∃ worker ∈ last.workers, worker.phase = .threw .manifestBytes := by
  refine ⟨⟨rfl, rfl, rfl, rfl⟩, ?_⟩
  have found := ((((((Relation.ReflTransGen.single
    (@PublicationStep.started "repo" Anyhow newRepository 2)).tail
    (.started 2)).tail
    (@PublicationStep.gotPending _ _ _ 0 _ rfl rfl)).tail
    (@PublicationStep.gotPending _ _ _ 1 _ rfl rfl)).tail
    (@PublicationStep.readPublished _ _ _ 0 _ rfl rfl)).tail
    (@PublicationStep.readPublished _ _ _ 1 _ rfl rfl))
  have published := ((((found.tail
    (@PublicationStep.ensured _ _ _ 0 _ _ _ rfl rfl (fun _ => trivial)
      (ensure_records rfl))).tail
    (@PublicationStep.published _ _ _ 0 0 _ _ _ _ _ rfl rfl rfl)).tail
    (@PublicationStep.published _ _ _ 0 0 _ _ _ _ _ rfl rfl rfl)).tail
    (@PublicationStep.published _ _ _ 0 0 _ _ _ _ _ rfl rfl rfl)).tail
    (@PublicationStep.completed _ _ _ 0 _ _ _ _ rfl rfl (complete_deletes rfl))
  have conflicting := (((published.tail
    (@PublicationStep.received _ _ _ firstReceive _ _ firstReceive_cut)).tail
    (@PublicationStep.ensured _ _ _ 1 _ _ _ rfl rfl (fun _ => trivial)
      (ensure_records rfl))).tail
    (@PublicationStep.published _ _ _ 1 0 _ _ _ _ _ rfl rfl rfl)).tail
    (@PublicationStep.published _ _ _ 1 0 _ _ _ _ _ rfl rfl rfl)
  refine ⟨_, conflicting, ?_, _, List.mem_of_getElem? (i := 1) rfl, ?_⟩
  · intro kept
    have both : ∀ first ∈ [lateRecord, firstRecord],
        ∀ second ∈ [lateRecord, firstRecord],
          first.generation = second.generation →
            first.activePackKeys = second.activePackKeys := kept.recorded
    have same := both lateRecord (.head _) firstRecord (.tail _ (.head _)) rfl
    cases same
  · exact congrArg (fun phase => (PublicationWorker.advanced ⟨2, .ensure⟩
      lateRecord ⟨0, ["first"], phase⟩).phase) firstReceive_conflicts

end GitOnCloudflare.Publication
