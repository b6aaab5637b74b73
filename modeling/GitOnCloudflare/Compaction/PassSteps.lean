import GitOnCloudflare.Compaction.TieredCatalog
import GitOnCloudflare.Repo.ReceiveFinalize

/-!
# The steps of a compaction pass

What beginning and committing a pass and activating a received pack do to the
repository, each stated once for every world it can start in.
-/

namespace GitOnCloudflare.Compaction

open Foundations
open Repo

/-- Run alone, the program ends with a value and the postcondition. -/
abbrev Settles {Value : Type} (program : RepoProgram Value)
    (post : Value → World → Prop) (before : World) : Prop :=
  program.Ensures AnyAnswer (fun _ _ => True) ClockDrift post
    (fun _ _ => False) before

variable {before : World} {Value : Type} {repo : RepoState}
  {program : RepoProgram Value}
  {post : Value → World → Prop} {next : RepoState}

theorem Settles.of_run {last : World} {value : Value}
    (settles : Settles program post before)
    (ran : RunsAlone program before last (some (.ok value))) :
    post value last :=
  (Program.Ensures.runs (fun _ => True) ran settles trivial
    (fun _ _ _ _ => trivial) (fun _ _ _ _ => trivial)).2

theorem Settles.exists_run (settles : Settles program post before) :
    ∃ value last, RunsAlone program before last (some (.ok value)) ∧
      post value last := by
  rcases exists_runAlone program before with ⟨last, result, ran⟩
  have satisfied := (Program.Ensures.runs (fun _ => True) ran settles trivial
    (fun _ _ _ _ => trivial) (fun _ _ _ _ => trivial)).2
  cases result with
  | ok value => exact ⟨value, last, ran, satisfied⟩
  | error failure => exact satisfied.elim

theorem Settles.bind {Other : Type} {rest : Value → RepoProgram Other}
    {middle : Value → World → Prop} {post : Other → World → Prop}
    (first : Settles program middle before)
    (second : ∀ value last, middle value last → Settles (rest value) post last) :
    Settles (program.bind rest) post before :=
  (Program.ensures_bind program rest post before).mpr
    (first.mono (fun _ _ _ => trivial) second fun _ _ none => none)

/-! ## Begin -/

/-- What a begun pass holds. -/
def passOf (token : String) (before : World) (plan : CompactionPlan) :
    CompactionPass where
  lease := compactionLease token before.now
  packsetVersion := before.repo.packsetVersion
  activeCatalog := listActivePackCatalog before.repo.packCatalog
  sourcePacks := plan.sourcePacks
  targetTier := plan.targetTier

/-- Nothing keeps a requested pass from its lease. -/
structure Quiet (world : World) : Prop where
  kept : world.repo.repositoryDeleting = false
  gc : gcOwnsMaintenance world.repo.gcOperation = false
  receive : (activeLeaseOrUndefined world.repo.receiveLease world.now).isSome = false
  preparation : activeStockReceivePreparationLeases
    world.repo.stockReceivePreparationLeases world.now = []
  operations : listActiveStockReceiveOperations world.repo = []
  compact : (activeLeaseOrUndefined world.repo.compactLease world.now).isSome = false
  due : ∃ wantedAt, world.repo.compactionWantedAt = some wantedAt ∧
    compactionStartAt wantedAt
      (world.repo.compactionPendingSince.getD wantedAt) ≤ world.now

/-- The guards of a lease read the same. -/
structure SameGuards (repo next : RepoState) : Prop where
  deleting : next.repositoryDeleting = repo.repositoryDeleting
  gc : next.gcOperation = repo.gcOperation
  receive : next.receiveLease = repo.receiveLease
  preparation : next.stockReceivePreparationLeases =
    repo.stockReceivePreparationLeases
  operation : next.nativeReceiveOperation = repo.nativeReceiveOperation
  operationIndex : next.nativeReceiveOperationIndex =
    repo.nativeReceiveOperationIndex

theorem SameGuards.operations (guards : SameGuards repo next) :
    listActiveStockReceiveOperations next =
      listActiveStockReceiveOperations repo := by
  unfold listActiveStockReceiveOperations listActiveNativeReceiveOperations
  rw [guards.operation, guards.operationIndex]

theorem SameGuards.trans {last : RepoState} (first : SameGuards repo next)
    (second : SameGuards next last) : SameGuards repo last :=
  ⟨second.deleting.trans first.deleting, second.gc.trans first.gc,
    second.receive.trans first.receive,
    second.preparation.trans first.preparation,
    second.operation.trans first.operation,
    second.operationIndex.trans first.operationIndex⟩

theorem sameGuards_setCompactLease (repo : RepoState)
    (lease : Option RepoLease) : SameGuards repo (repo.setCompactLease lease) :=
  ⟨rfl, rfl, rfl, rfl, rfl, rfl⟩

theorem Quiet.congr {world : World} (quiet : Quiet world)
    (guards : SameGuards world.repo repo) (released : repo.compactLease = none)
    (due : ∃ wantedAt, repo.compactionWantedAt = some wantedAt ∧
      compactionStartAt wantedAt (repo.compactionPendingSince.getD wantedAt) ≤
        world.now) :
    Quiet (world.withRepo repo) where
  kept := guards.deleting.trans quiet.kept
  gc := by
    rw [World.withRepo_repo, guards.gc]
    exact quiet.gc
  receive := by
    rw [World.withRepo_repo, World.withRepo_now, guards.receive]
    exact quiet.receive
  preparation := by
    rw [World.withRepo_repo, World.withRepo_now, guards.preparation]
    exact quiet.preparation
  operations := guards.operations.trans quiet.operations
  compact := by
    rw [World.withRepo_repo, released]
    rfl
  due := due

def BeginOutcome (token : String) (before : World) :
    BeginCompactionResult → World → Prop
  | .ok pass, last =>
    ∃ plan,
      selectCompactionPlan (listActivePackCatalog before.repo.packCatalog) =
          some plan ∧
        pass = passOf token before plan ∧
        last = before.withRepo (before.repo.setCompactLease (some pass.lease))
  | .busy _ _ _, last => last = before ∧ ¬ Quiet before
  | .noWork _ _, last =>
    last.repo.packCatalog = before.repo.packCatalog ∧
      last.repo.packsetVersion = before.repo.packsetVersion ∧
      (Quiet before → selectCompactionPlan
        (listActivePackCatalog before.repo.packCatalog) = none)

theorem clearObservedRequest_catalog (observedWantedAt : Nat) (repo : RepoState) :
    (clearObservedRequest observedWantedAt repo).packCatalog = repo.packCatalog ∧
      (clearObservedRequest observedWantedAt repo).packsetVersion =
        repo.packsetVersion := by
  unfold clearObservedRequest
  split
  · exact ⟨rfl, rfl⟩
  · exact ⟨rfl, rfl⟩

/-- The lease is taken, or a guard of a quiet world is missed and nothing is
written. -/
theorem acquireCompactionLease_cases (lease : RepoLease) (world : World) :
    acquireCompactionLease lease world.now world.repo =
        (.acquired, world.repo.setCompactLease (some lease)) ∨
      ¬ Quiet world ∧
        ((∃ reason retryAfter,
            acquireCompactionLease lease world.now world.repo =
              (.busy reason retryAfter, world.repo)) ∨
          acquireCompactionLease lease world.now world.repo =
            (.noWork, world.repo)) := by
  unfold acquireCompactionLease
  split
  · next deleting =>
      refine .inr ⟨fun quiet => ?_, .inl ⟨_, _, rfl⟩⟩
      exact Bool.noConfusion (quiet.kept.symm.trans deleting)
  · split
    · next owned =>
        refine .inr ⟨fun quiet => ?_, .inl ⟨_, _, rfl⟩⟩
        exact Bool.noConfusion (quiet.gc.symm.trans owned)
    · split
      · next receiving =>
          refine .inr ⟨fun quiet => ?_, .inl ⟨_, _, rfl⟩⟩
          exact Bool.noConfusion (quiet.receive.symm.trans receiving)
      · split
        · next preparing =>
            exact .inr ⟨fun quiet => preparing quiet.preparation, .inl ⟨_, _, rfl⟩⟩
        · split
          · next operating =>
              exact .inr ⟨fun quiet => operating quiet.operations, .inl ⟨_, _, rfl⟩⟩
          · split
            · next compacting =>
                refine .inr ⟨fun quiet => ?_, .inl ⟨_, _, rfl⟩⟩
                exact Bool.noConfusion (quiet.compact.symm.trans compacting)
            · split
              · next unwanted =>
                  refine .inr ⟨fun quiet => ?_, .inr rfl⟩
                  rcases quiet.due with ⟨wantedAt, wanted, _⟩
                  cases unwanted.symm.trans wanted
              · next wantedAt wanted =>
                  dsimp only
                  split
                  · next early =>
                      refine .inr ⟨fun quiet => ?_, .inl ⟨_, _, rfl⟩⟩
                      rcases quiet.due with ⟨other, wanted', started⟩
                      cases wanted.symm.trans wanted'
                      exact absurd early started.not_gt
                  · exact .inl rfl

theorem beginCompactionState_settles (token : String) (before : World) :
    Settles (beginCompactionState token) (BeginOutcome token before) before := by
  unfold beginCompactionState
  simp only [Program.bind_eq_bind, Program.ensures_bind, ensures_get]
  split
  · next deleting =>
      refine ⟨rfl, fun quiet => ?_⟩
      exact Bool.noConfusion (quiet.kept.symm.trans deleting)
  · split
    · next owned =>
        refine ⟨rfl, fun quiet => ?_⟩
        exact Bool.noConfusion (quiet.gc.symm.trans owned)
    · split
      · next unwanted =>
          refine ⟨rfl, rfl, fun quiet => ?_⟩
          rcases quiet.due with ⟨wantedAt, wanted, _⟩
          cases unwanted.symm.trans wanted
      · next observedWantedAt wanted =>
          simp only [Program.ensures_bind, ensures_dateNow]
          split
          · next none_ =>
              simp only [Program.ensures_bind, ensures_repoTransaction]
              rcases clearObservedRequest_catalog observedWantedAt before.repo with
                ⟨catalog, version⟩
              exact ⟨trivial, catalog, version, fun _ => none_⟩
          · next plan selected =>
              simp only [Program.ensures_bind, ensures_repoTransaction]
              refine ⟨trivial, ?_⟩
              rcases acquireCompactionLease_cases
                  (compactionLease token before.now) before with
                acquired | ⟨loud, ⟨reason, retryAfter, busy⟩ | noWork⟩
              · rw [acquired]
                exact ⟨plan, selected, rfl, rfl⟩
              · rw [busy]
                exact ⟨rfl, loud⟩
              · rw [noWork]
                exact ⟨rfl, rfl, fun quiet => absurd quiet loud⟩

/-! ## Commit -/

/-- The schedule behind a commit. -/
def rescheduledRepo (shouldRequeue : Bool) (now : Nat) (repo : RepoState) :
    RepoState :=
  if shouldRequeue then
    let wantedAt := repo.compactionWantedAt.getD now
    (repo.setCompactionWantedAt (some wantedAt)).setCompactionPendingSince
      (some (repo.compactionPendingSince.getD wantedAt))
  else
    (repo.setCompactionWantedAt none).setCompactionPendingSince none

theorem rescheduledRepo_guards (shouldRequeue : Bool) (now : Nat)
    (repo : RepoState) :
    SameGuards repo (rescheduledRepo shouldRequeue now repo) := by
  cases shouldRequeue with
  | false => exact ⟨rfl, rfl, rfl, rfl, rfl, rfl⟩
  | true => exact ⟨rfl, rfl, rfl, rfl, rfl, rfl⟩

theorem setCompactionWantedAt_self {time : Option Nat}
    (same : repo.compactionWantedAt = time) :
    repo.setCompactionWantedAt time = repo := by
  subst same
  rfl

theorem setCompactionPendingSince_self {repo : RepoState} {time : Option Nat}
    (same : repo.compactionPendingSince = time) :
    repo.setCompactionPendingSince time = repo := by
  subst same
  rfl

theorem rescheduleCompaction_settles (shouldRequeue : Bool) (before : World) :
    Settles (rescheduleCompaction shouldRequeue)
      (fun _ last =>
        last = before.withRepo
          (rescheduledRepo shouldRequeue before.now before.repo))
      before := by
  unfold rescheduleCompaction
  cases shouldRequeue with
  | false => exact ⟨trivial, trivial, rfl⟩
  | true =>
    rw [rescheduledRepo, if_pos rfl]
    simp only [if_true, Program.bind_eq_bind, Program.ensures_bind, ensures_get]
    split
    · next unwanted =>
        simp only [unwanted, Option.getD_none, Program.ensures_bind,
          ensures_dateNow, markCompactionActivity, Program.bind_eq_bind,
          ensures_put, ensures_get]
        refine ⟨trivial, ?_⟩
        split
        · next none_ =>
            refine ⟨trivial, ?_⟩
            rw [show before.repo.compactionPendingSince = none from none_]
            rfl
        · next pending =>
            cases since : before.repo.compactionPendingSince with
            | none => exact absurd since pending
            | some time =>
              have same := @setCompactionPendingSince_self
                (before.repo.setCompactionWantedAt (some before.now)) _ since
              exact congrArg before.withRepo same.symm
    · next wantedAt wanted =>
        simp only [wanted, Option.getD_some]
        rw [setCompactionWantedAt_self wanted]
        split
        · next none_ =>
            refine ⟨trivial, ?_⟩
            rw [none_]
            rfl
        · next pending =>
            cases since : before.repo.compactionPendingSince with
            | none => exact absurd since pending
            | some time =>
              exact congrArg before.withRepo
                (setCompactionPendingSince_self since).symm

/-- The repository before the schedule is settled. -/
def publishedRepo (args : CommitCompactionArgs) (now : Nat) (repo : RepoState) :
    RepoState :=
  let catalog := commitCatalog args now repo.packCatalog
  ((repo.setPackCatalog catalog).setPacksetVersion
    (repo.packsetVersion + 1)).setGenerationPublicationPending
      (some
        { generation := repo.packsetVersion + 1
          activePackKeys :=
            (listActivePackCatalog catalog).map PackCatalogRow.packKey })

/-- The repository behind a commit. -/
def committedRepo (args : CommitCompactionArgs) (now : Nat) (repo : RepoState) :
    RepoState :=
  let shouldRequeue := catalogNeedsCompaction
    (listActivePackCatalog (commitCatalog args now repo.packCatalog))
  (rescheduledRepo shouldRequeue now
    (publishedRepo args now repo)).setCompactLease none

theorem publishedRepo_guards (args : CommitCompactionArgs) (now : Nat)
    (repo : RepoState) : SameGuards repo (publishedRepo args now repo) :=
  ⟨rfl, rfl, rfl, rfl, rfl, rfl⟩

theorem committedRepo_guards (args : CommitCompactionArgs) (now : Nat)
    (repo : RepoState) : SameGuards repo (committedRepo args now repo) :=
  ((publishedRepo_guards args now repo).trans
    (rescheduledRepo_guards _ now _)).trans (sameGuards_setCompactLease _ none)

theorem committedRepo_setCompactLease (args : CommitCompactionArgs) (now : Nat)
    (repo : RepoState) (lease : Option RepoLease) :
    committedRepo args now (repo.setCompactLease lease) =
      committedRepo args now repo := by
  unfold committedRepo
  rw [show (repo.setCompactLease lease).packCatalog = repo.packCatalog from rfl]
  dsimp only
  generalize catalogNeedsCompaction
    (listActivePackCatalog (commitCatalog args now repo.packCatalog)) = requeue
  cases requeue with
  | false => rfl
  | true => rfl

theorem committedRepo_catalog (args : CommitCompactionArgs) (now : Nat)
    (repo : RepoState) :
    (committedRepo args now repo).packCatalog =
        commitCatalog args now repo.packCatalog ∧
      (committedRepo args now repo).packsetVersion = repo.packsetVersion + 1 := by
  unfold committedRepo
  dsimp only
  generalize catalogNeedsCompaction
    (listActivePackCatalog (commitCatalog args now repo.packCatalog)) = requeue
  cases requeue with
  | false => exact ⟨rfl, rfl⟩
  | true => exact ⟨rfl, rfl⟩

def committedAnswer (args : CommitCompactionArgs) (now : Nat) (repo : RepoState) :
    CommittedCompaction where
  packCatalogVersion := repo.packsetVersion + 1
  shouldRequeue := catalogNeedsCompaction
    (listActivePackCatalog (commitCatalog args now repo.packCatalog))
  supersededPackKeys := args.sourcePacks.map PackCatalogRow.packKey
  targetPackKey := args.stagedPack.packKey

theorem activateTarget_settles (args : CommitCompactionArgs) (before : World) :
    Settles (activateTarget args)
      (fun result last =>
        result = .committed (committedAnswer args before.now before.repo) ∧
          last = before.withRepo (committedRepo args before.now before.repo))
      before := by
  unfold activateTarget
  simp only [Program.bind_eq_bind, Program.ensures_bind, ensures_dateNow,
    ensures_put, ensures_get, bumpPacksetVersion]
  refine ⟨trivial, trivial, trivial, trivial, ?_⟩
  refine (rescheduleCompaction_settles _ _).mono (fun _ _ _ => trivial) ?_
    fun _ _ none => none
  rintro _ last rfl
  refine ⟨trivial, rfl, ?_⟩
  rw [committedRepo]
  rfl

/-- Renewed or given up, the lease is all that the fence writes. -/
theorem commitFence_repo (token : String) (now : Nat) (repo : RepoState) :
    ∃ lease, (commitFence token now repo).2 = repo.setCompactLease lease := by
  unfold commitFence
  split
  · exact ⟨_, rfl⟩
  · split
    · exact ⟨_, rfl⟩
    · split
      · exact ⟨_, rfl⟩
      · split
        · split
          · exact ⟨_, rfl⟩
          · exact ⟨_, rfl⟩
        · exact ⟨_, rfl⟩

/-- Neither the fence nor a check behind it stands in the way. -/
def Unopposed (args : CommitCompactionArgs) (world : World) : Prop :=
  (commitFence args.token world.now world.repo).1 = .held ∧
    commitConflict args world.now world.repo = none

def CommitOutcome (args : CommitCompactionArgs) (before : World) :
    CommitCompactionResult → World → Prop
  | .retry _ _, last =>
    ¬ Unopposed args before ∧
      ∃ lease, last = before.withRepo (before.repo.setCompactLease lease)
  | .committed commit, last =>
    Unopposed args before ∧
      commit = committedAnswer args before.now before.repo ∧
      last = before.withRepo (committedRepo args before.now before.repo)

theorem commitCompactionState_settles (args : CommitCompactionArgs)
    (before : World) :
    Settles (commitCompactionState args) (CommitOutcome args before) before := by
  unfold commitCompactionState
  simp only [Program.bind_eq_bind, Program.ensures_bind, ensures_repoTransaction]
  refine ⟨trivial, ?_⟩
  rcases commitFence_repo args.token before.now before.repo with ⟨lease, repo⟩
  rw [repo]
  split
  · next deleting =>
      refine ⟨fun unopposed => ?_, lease, rfl⟩
      cases deleting.symm.trans unopposed.1
  · next mismatch =>
      refine ⟨fun unopposed => ?_, lease, rfl⟩
      cases mismatch.symm.trans unopposed.1
  · next held =>
      simp only [Program.ensures_bind, ensures_get, ensures_dateNow]
      split
      · next reason message conflict =>
          refine ⟨trivial, fun unopposed => ?_, none, rfl⟩
          cases conflict.symm.trans unopposed.2
      · next clear =>
          refine (activateTarget_settles args _).mono (fun _ _ _ => trivial) ?_
            fun _ _ none => none
          rintro _ last ⟨rfl, rfl⟩
          refine ⟨⟨held, clear⟩, rfl, ?_⟩
          exact congrArg before.withRepo
            (committedRepo_setCompactLease args before.now before.repo lease)

/-! ## Receive -/

/-- The intent of a push whose pack is new, with a sequence number behind all
active rows. -/
structure FreshActivation (repo : RepoState) (intent : ReceiveFinalizeIntent)
    (pack : StagedPack) (number : Nat) : Prop where
  stagedPack : intent.stagedPack = some pack
  fresh : FreshKey repo.packCatalog pack.packKey
  packSequence : intent.packSequence = some number
  behind : ∀ row, IsActive repo.packCatalog row → row.seqHi < number
  nextPacksetVersion : ∃ version, intent.nextPacksetVersion = some version ∧
    repo.packsetVersion < version

theorem raiseNextPackSeq_settles (number : Nat) (before : World) :
    Settles (raiseNextPackSeq number)
      (fun _ last => last.repo.packCatalog = before.repo.packCatalog ∧
        last.repo.packsetVersion = before.repo.packsetVersion)
      before := by
  unfold raiseNextPackSeq
  simp only [Program.bind_eq_bind, Program.ensures_bind, ensures_get]
  split
  · exact ⟨trivial, rfl, rfl⟩
  · exact ⟨rfl, rfl⟩

theorem raisePacksetVersion_settles {version : Nat}
    (newer : before.repo.packsetVersion < version) :
    Settles (raisePacksetVersion version)
      (fun _ last => last.repo.packCatalog = before.repo.packCatalog ∧
        last.repo.packsetVersion = version)
      before := by
  unfold raisePacksetVersion
  simp only [Program.bind_eq_bind, Program.ensures_bind, ensures_get]
  rw [if_pos newer]
  exact ⟨trivial, rfl, rfl⟩

theorem activateStagedPack_settles {intent : ReceiveFinalizeIntent}
    {pack : StagedPack} {number : Nat}
    (fresh : FreshActivation before.repo intent pack number) :
    Settles (activateStagedPack intent)
      (fun _ last =>
        last.repo.packCatalog =
            upsertPackCatalogRow before.repo.packCatalog
              (receiveRow pack number before.now) ∧
          before.repo.packsetVersion < last.repo.packsetVersion)
      before := by
  rcases fresh.nextPacksetVersion with ⟨version, nextVersion, newer⟩
  have missing : (listActivePackCatalog before.repo.packCatalog).find?
      (fun row => row.packKey = pack.packKey) = none := by
    apply List.find?_eq_none.mpr
    intro row listed same
    exact fresh.fresh.ne (mem_listActivePackCatalog.mp listed)
      (of_decide_eq_true same)
  unfold activateStagedPack
  rw [fresh.stagedPack, fresh.packSequence, nextVersion]
  simp only [Program.bind_eq_bind, Program.ensures_bind, ensures_get, missing,
    Option.any_none, activateReceiveRow, if_true]
  refine ⟨trivial, ?_⟩
  change Settles ((raiseNextPackSeq number).bind fun _ =>
    (raisePacksetVersion version).bind fun _ => .done _) _ _
  refine Settles.bind (raiseNextPackSeq_settles number _) ?_
  rintro _ second ⟨catalog, sameVersion⟩
  have newer' : second.repo.packsetVersion < version := sameVersion ▸ newer
  refine Settles.bind (raisePacksetVersion_settles newer') ?_
  rintro _ last ⟨catalog', version'⟩
  refine ⟨catalog'.trans catalog, ?_⟩
  rw [version']
  exact newer

end GitOnCloudflare.Compaction
