import Mathlib.Order.WellFounded
import GitOnCloudflare.Compaction.PassSteps

/-!
# Runs of receives and compaction passes

A repository takes receives, begins passes and commits passes that were begun
before, in any order, while leases and the clock move as they like.  Its
active rows stay disjoint and in the order of their tiers, a commit keeps the
objects and the sequence numbers, and passes that are not interrupted come to
an end with every tier within its bound.
-/

namespace GitOnCloudflare.Compaction

open Foundations
open Repo

variable {Oid : Type}

/-! ## The system -/

structure PassSystem where
  world : World
  passes : List CompactionPass

def BeginCompactionResult.passes : BeginCompactionResult → List CompactionPass
  | .ok pass => [pass]
  | _ => []

/-- The staged pack has the objects of the sources. -/
def Rewrites (objects : String → Set Oid) (pass : CompactionPass)
    (staged : StagedCompaction) : Prop :=
  objects staged.packKey =
    { oid | ∃ row ∈ pass.sourcePacks, oid ∈ objects row.packKey }

inductive SystemStep (objects : String → Set Oid) :
    PassSystem → PassSystem → Prop where
  | receive {world last : World} {passes : List CompactionPass}
      {intent : ReceiveFinalizeIntent} {pack : StagedPack} {number : Nat}
      {queued : Bool}
      (fresh : FreshActivation world.repo intent pack number)
      (ran : RunsAlone (activateStagedPack intent) world last
        (some (.ok queued))) :
      SystemStep objects ⟨world, passes⟩ ⟨last, passes⟩
  | begin {world last : World} {passes : List CompactionPass} {token : String}
      {answer : BeginCompactionResult}
      (ran : RunsAlone (beginCompactionState token) world last
        (some (.ok answer))) :
      SystemStep objects ⟨world, passes⟩ ⟨last, answer.passes ++ passes⟩
  | commit {world last : World} {passes : List CompactionPass}
      {pass : CompactionPass} {staged : StagedCompaction}
      {result : CommitCompactionResult}
      (begun : pass ∈ passes)
      (fresh : FreshKey world.repo.packCatalog staged.packKey)
      (rewrites : Rewrites objects pass staged)
      (ran : RunsAlone (commitCompactionState (pass.args staged)) world last
        (some (.ok result))) :
      SystemStep objects ⟨world, passes⟩ ⟨last, passes⟩
  -- leases, requests, refs and the clock
  | elsewhere {world last : World} {passes : List CompactionPass}
      (catalog : last.repo.packCatalog = world.repo.packCatalog)
      (version : last.repo.packsetVersion = world.repo.packsetVersion) :
      SystemStep objects ⟨world, passes⟩ ⟨last, passes⟩

/-! ## The invariant -/

/-- A pass of the current version was planned with the current catalog. -/
def PassCurrent (world : World) (pass : CompactionPass) : Prop :=
  pass.packsetVersion ≤ world.repo.packsetVersion ∧
    (pass.packsetVersion = world.repo.packsetVersion →
      ∃ plan,
        selectCompactionPlan (listActivePackCatalog world.repo.packCatalog) =
            some plan ∧
          pass.sourcePacks = plan.sourcePacks ∧
          pass.targetTier = plan.targetTier)

structure Invariant (system : PassSystem) : Prop where
  tiered : TieredCatalog system.world.repo.packCatalog
  passes : ∀ pass ∈ system.passes, PassCurrent system.world pass

variable {world last after before : World} {pass : CompactionPass}
  {staged : StagedCompaction} {objects : String → Set Oid}
  {catalog : PackCatalog}

theorem PassCurrent.same (current : PassCurrent world pass)
    (catalog : last.repo.packCatalog = world.repo.packCatalog)
    (version : last.repo.packsetVersion = world.repo.packsetVersion) :
    PassCurrent last pass := by
  rw [PassCurrent, catalog, version]
  exact current

theorem PassCurrent.newer (current : PassCurrent world pass)
    (newer : world.repo.packsetVersion < last.repo.packsetVersion) :
    PassCurrent last pass := by
  have older := current.1.trans_lt newer
  exact ⟨older.le, fun same => absurd same older.ne⟩

variable {token : String} {plan : CompactionPlan} {args : CommitCompactionArgs}
  {result : CommitCompactionResult}

theorem passCurrent_passOf
    (selected : selectCompactionPlan
      (listActivePackCatalog world.repo.packCatalog) = some plan) :
    PassCurrent world (passOf token world plan) :=
  ⟨le_rfl, fun _ => ⟨plan, selected, rfl, rfl⟩⟩

theorem begin_keeps {answer : BeginCompactionResult}
    (outcome : BeginOutcome token world answer last) :
    last.repo.packCatalog = world.repo.packCatalog ∧
      last.repo.packsetVersion = world.repo.packsetVersion ∧
      ∀ pass ∈ answer.passes, PassCurrent world pass := by
  cases answer with
  | ok pass =>
    rcases outcome with ⟨plan, selected, rfl, rfl⟩
    refine ⟨rfl, rfl, fun other member => ?_⟩
    cases List.mem_singleton.mp member
    exact passCurrent_passOf selected
  | busy retryAfter reason message =>
    rcases outcome with ⟨rfl, _⟩
    exact ⟨rfl, rfl, fun _ none => by cases none⟩
  | noWork reason message =>
    exact ⟨outcome.1, outcome.2.1, fun _ none => by cases none⟩

theorem receive_tiered {repo : RepoState} {intent : ReceiveFinalizeIntent}
    {pack : StagedPack} {number : Nat} (now : Nat)
    (fresh : FreshActivation repo intent pack number)
    (tiered : TieredCatalog repo.packCatalog) :
    TieredCatalog
      (upsertPackCatalogRow repo.packCatalog (receiveRow pack number now)) := by
  have rows : activeRows
      (upsertPackCatalogRow repo.packCatalog (receiveRow pack number now)) =
        insert (receiveRow pack number now) (activeRows repo.packCatalog) := by
    ext row
    change IsActive _ row ↔ row = _ ∨ IsActive _ row
    rw [isActive_upsert]
    constructor
    · rintro (⟨same, _⟩ | ⟨active, _⟩)
      · exact .inl same
      · exact .inr active
    · rintro (same | active)
      · exact .inl ⟨same, rfl⟩
      · exact .inr ⟨active, fresh.fresh.ne active⟩
  rw [TieredCatalog, rows]
  exact tiered.insert le_rfl fresh.behind fun _ _ => Nat.zero_le _

theorem version_of_unopposed (unopposed : Unopposed args world) :
    world.repo.packsetVersion = args.packsetVersion := by
  by_contra changed
  have clear := unopposed.2
  unfold commitConflict at clear
  rw [if_pos changed] at clear
  repeat' split at clear
  all_goals cases clear

/-- What an unopposed pass commits is the plan of the current catalog. -/
theorem PassCurrent.ready (current : PassCurrent world pass)
    (fresh : FreshKey world.repo.packCatalog staged.packKey)
    (unopposed : Unopposed (pass.args staged) world) :
    ∃ plan, Ready world.repo.packCatalog plan (pass.args staged) := by
  rcases current.2 (version_of_unopposed unopposed).symm with
    ⟨plan, selected, sourcePacks, targetTier⟩
  exact ⟨plan, planned_of_select selected, sourcePacks, targetTier, fresh⟩

theorem Invariant.commit {passes : List CompactionPass}
    (invariant : Invariant ⟨world, passes⟩) (begun : pass ∈ passes)
    (fresh : FreshKey world.repo.packCatalog staged.packKey)
    (outcome : CommitOutcome (pass.args staged) world result last) :
    Invariant ⟨last, passes⟩ := by
  cases result with
  | retry reason message =>
    rcases outcome with ⟨_, lease, rfl⟩
    exact ⟨invariant.tiered, fun other member =>
      (invariant.passes other member).same rfl rfl⟩
  | committed commit =>
    rcases outcome with ⟨unopposed, _, rfl⟩
    rcases (invariant.passes pass begun).ready fresh unopposed with ⟨plan, ready⟩
    rcases committedRepo_catalog (pass.args staged) world.now world.repo with
      ⟨catalog, version⟩
    refine ⟨?_, fun other member => (invariant.passes other member).newer ?_⟩
    · change TieredCatalog (committedRepo _ _ _).packCatalog
      rw [catalog]
      exact ready.tiered invariant.tiered
    · change _ < (committedRepo _ _ _).packsetVersion
      rw [version]
      exact Nat.lt_succ_self _

theorem Invariant.next {objects : String → Set Oid} {system next : PassSystem}
    (step : SystemStep objects system next) (invariant : Invariant system) :
    Invariant next := by
  cases step with
  | receive fresh ran =>
    rcases (activateStagedPack_settles fresh).of_run ran with ⟨catalog, newer⟩
    refine ⟨?_, fun pass member => (invariant.passes pass member).newer newer⟩
    rw [catalog]
    exact receive_tiered _ fresh invariant.tiered
  | begin ran =>
    rcases begin_keeps ((beginCompactionState_settles _ _).of_run ran) with
      ⟨catalog, version, begun⟩
    refine ⟨?_, fun pass member => ?_⟩
    · rw [catalog]
      exact invariant.tiered
    · rcases List.mem_append.mp member with new | old
      · exact (begun pass new).same catalog version
      · exact (invariant.passes pass old).same catalog version
  | commit begun fresh _ ran =>
    exact invariant.commit begun fresh
      ((commitCompactionState_settles _ _).of_run ran)
  | elsewhere catalog version =>
    refine ⟨?_, fun pass member =>
      (invariant.passes pass member).same catalog version⟩
    rw [catalog]
    exact invariant.tiered

theorem Invariant.reaches {start last : PassSystem}
    (reached : Relation.ReflTransGen (SystemStep objects) start last)
    (invariant : Invariant start) : Invariant last := by
  induction reached with
  | refl => exact invariant
  | tail _ step ih => exact ih.next step

/-! ## One commit -/

/-- What a commit keeps of the objects and the sequence numbers. -/
structure CommitKeeps (objects : String → Set Oid)
    (sources : List PackCatalogRow) (before after : PackCatalog) : Prop where
  objects : activeObjects objects after = activeObjects objects before
  numbers : sequenceNumbers before ⊆ sequenceNumbers after
  added : ∀ number ∈ sequenceNumbers after, number ∉ sequenceNumbers before →
    ∃ s ∈ sources, ∃ t ∈ sources, s.seqHi < number ∧ number < t.seqLo
  noGaps : (sequenceNumbers before).OrdConnected →
    sequenceNumbers after = sequenceNumbers before

theorem Ready.commitKeeps (now : Nat) (ready : Ready catalog plan args)
    (tiered : TieredCatalog catalog)
    (rewrites : objects args.stagedPack.packKey =
      { oid | ∃ row ∈ args.sourcePacks, oid ∈ objects row.packKey }) :
    CommitKeeps objects args.sourcePacks catalog (commitCatalog args now catalog) where
  objects := ready.activeObjects_commit rewrites
  numbers := by
    rw [sequenceNumbers, sequenceNumbers, ready.activeRows_commit,
      ready.merges.covered_eq]
    exact Set.subset_union_right
  added number inside outside := by
    rw [sequenceNumbers, ready.activeRows_commit] at inside
    exact ready.merges.added inside outside
  noGaps noGaps := by
    rw [sequenceNumbers, ready.activeRows_commit]
    exact ready.merges.covered_of_ordConnected tiered noGaps

/-- A commit that was put off wrote nothing but the lease; one that went
through keeps the objects and the sequence numbers. -/
def CommitPromise (objects : String → Set Oid) (pass : CompactionPass)
    (before after : World) : CommitCompactionResult → Prop
  | .retry _ _ =>
    ∃ lease, after = before.withRepo (before.repo.setCompactLease lease)
  | .committed _ =>
    CommitKeeps objects pass.sourcePacks before.repo.packCatalog
      after.repo.packCatalog

theorem Invariant.commitPromise {system : PassSystem}
    (invariant : Invariant system) (begun : pass ∈ system.passes)
    (fresh : FreshKey system.world.repo.packCatalog staged.packKey)
    (rewrites : Rewrites objects pass staged)
    (outcome : CommitOutcome (pass.args staged) system.world result after) :
    CommitPromise objects pass system.world after result := by
  cases result with
  | retry reason message => exact outcome.2
  | committed commit =>
    rcases outcome with ⟨unopposed, _, rfl⟩
    rcases (invariant.passes pass begun).ready fresh unopposed with ⟨plan, ready⟩
    change CommitKeeps objects (pass.args staged).sourcePacks _
      (committedRepo _ _ _).packCatalog
    rw [(committedRepo_catalog _ _ _).1]
    exact ready.commitKeeps system.world.now invariant.tiered rewrites

/-! ## Passes without interruption -/

/-- A pass that is begun and committed with nothing in between. -/
inductive PassDone (before after : World) (commit : CommittedCompaction) : Prop
    where
  | intro {token : String} {middle : World} {pass : CompactionPass}
      {staged : StagedCompaction}
      (began : RunsAlone (beginCompactionState token) before middle
        (some (.ok (.ok pass))))
      (fresh : FreshKey middle.repo.packCatalog staged.packKey)
      (done : RunsAlone (commitCompactionState (pass.args staged)) middle after
        (some (.ok (.committed commit))))

def WithinTiers (world : World) : Prop :=
  ∀ tier, tierCount (listActivePackCatalog world.repo.packCatalog) tier ≤
    compactionFanIn

def activeCount (world : World) : Nat :=
  (listActivePackCatalog world.repo.packCatalog).length

/-- The plan of a pass that was done, and where it ends. -/
theorem PassDone.ready {commit : CommittedCompaction}
    (done : PassDone before after commit) :
    ∃ plan args, Ready before.repo.packCatalog plan args ∧
      after.repo.packCatalog =
        commitCatalog args before.now before.repo.packCatalog ∧
      commit.shouldRequeue =
        catalogNeedsCompaction
          (listActivePackCatalog after.repo.packCatalog) := by
  cases done with
  | @intro token middle pass staged began fresh done =>
    rcases (beginCompactionState_settles token before).of_run began with
      ⟨plan, selected, rfl, rfl⟩
    rcases (commitCompactionState_settles _ _).of_run done with
      ⟨_, rfl, rfl⟩
    have catalog := (committedRepo_catalog
      ((passOf token before plan).args staged) before.now
      (before.repo.setCompactLease (some (passOf token before plan).lease))).1
    refine ⟨plan, (passOf token before plan).args staged,
      ⟨planned_of_select selected, rfl, rfl, fresh⟩, catalog, ?_⟩
    exact congrArg
      (fun rows => catalogNeedsCompaction (listActivePackCatalog rows))
      catalog.symm

theorem PassDone.activeCount {commit : CommittedCompaction}
    (done : PassDone before after commit) :
    activeCount after + 3 = activeCount before := by
  rcases done.ready with ⟨plan, args, ready, catalog, _⟩
  rw [Compaction.activeCount, Compaction.activeCount, catalog]
  exact ready.length_commit

/-- Passes without interruption come to an end. -/
theorem passes_wellFounded :
    WellFounded fun after before => ∃ commit, PassDone before after commit := by
  apply Subrelation.wf _ (InvImage.wf activeCount Nat.lt_wfRel.wf)
  rintro after before ⟨commit, done⟩
  have fewer := done.activeCount
  change activeCount after < activeCount before
  omega

theorem PassDone.requeue {commit : CommittedCompaction}
    (done : PassDone before after commit) :
    commit.shouldRequeue = false ↔ WithinTiers after := by
  rcases done.ready with ⟨_, _, _, _, requeue⟩
  rw [requeue]
  exact catalogNeedsCompaction_eq_false_iff

theorem rowMatches_self {row : PackCatalogRow} (active : row.state = .active) :
    rowMatchesForCommit row row = true := by
  simp [rowMatchesForCommit, active]

/-- Active rows are found as they are. -/
theorem rowsMatch_self {sources : List PackCatalogRow}
    (active : ∀ row ∈ sources, IsActive catalog row) :
    rowsMatchForCommit sources (currentSourceRows catalog sources) = true := by
  have found : currentSourceRows catalog sources = sources := by
    induction sources with
    | nil => rfl
    | cons row sources ih =>
      have here := active row List.mem_cons_self
      rw [currentSourceRows, List.filterMap_cons,
        show getPackCatalogRow catalog row.packKey = some row from
          KeyedList.find?_eq_some_iff.mpr ⟨here.1, rfl⟩]
      exact congrArg (row :: ·)
        (ih fun other listed => active other (List.mem_cons_of_mem _ listed))
  rw [found, rowsMatchForCommit, decide_eq_true rfl, Bool.true_and,
    List.all_eq_true]
  rintro ⟨row, other⟩ listed
  have same : row = other := by
    rcases List.mem_iff_getElem.mp listed with ⟨index, within, at'⟩
    rw [List.getElem_zip] at at'
    cases at'
    rfl
  subst same
  exact rowMatches_self (active row (List.of_mem_zip listed).1).2

/-- In a quiet world a pass begins when a tier overflows. -/
theorem Quiet.begins (quiet : Quiet before) (overflows : ¬ WithinTiers before)
    (token : String) :
    ∃ plan,
      selectCompactionPlan (listActivePackCatalog before.repo.packCatalog) =
          some plan ∧
        RunsAlone (beginCompactionState token) before
          (before.withRepo
            (before.repo.setCompactLease (some (passOf token before plan).lease)))
          (some (.ok (.ok (passOf token before plan)))) := by
  rcases (beginCompactionState_settles token before).exists_run with
    ⟨answer, middle, ran, outcome⟩
  cases answer with
  | ok pass =>
    rcases outcome with ⟨plan, selected, rfl, rfl⟩
    exact ⟨plan, selected, ran⟩
  | busy retryAfter reason message => exact absurd quiet outcome.2
  | noWork reason message =>
    exact absurd (selectCompactionPlan_eq_none_iff.mp (outcome.2.2 quiet))
      overflows

/-- Nothing opposes the commit of a pass that was begun just before. -/
theorem Quiet.unopposed {before : World} (quiet : Quiet before) {token : String}
    {plan : CompactionPlan}
    (selected : selectCompactionPlan
      (listActivePackCatalog before.repo.packCatalog) = some plan)
    (staged : StagedCompaction) :
    Unopposed ((passOf token before plan).args staged)
      (before.withRepo
        (before.repo.setCompactLease (some (passOf token before plan).lease))) := by
  have planned := planned_of_select selected
  constructor
  · have lives : ¬ (token ≠ token ∨
        before.now + compactLeaseTtlMs ≤ before.now) := by
      simp [compactLeaseTtlMs]
    unfold commitFence
    rw [if_neg (Bool.not_eq_true _ ▸ quiet.kept),
      if_neg (Bool.not_eq_true _ ▸ quiet.gc)]
    exact congrArg Prod.fst (if_neg lives)
  · have sources : rowsMatchForCommit plan.sourcePacks
        (currentSourceRows before.repo.packCatalog plan.sourcePacks) = true :=
      rowsMatch_self fun row listed =>
        mem_listActivePackCatalog.mp (planned.mem_source listed).1
    change commitConflict ((passOf token before plan).args staged) before.now
      before.repo = none
    simp [commitConflict, quiet.receive, quiet.preparation, quiet.operations,
      CompactionPass.args, passOf, sources]

/-- A request that is due stays due while work is left. -/
theorem Quiet.committed {before : World} (quiet : Quiet before)
    {args : CommitCompactionArgs}
    (requeue : catalogNeedsCompaction (listActivePackCatalog
      (commitCatalog args before.now before.repo.packCatalog)) = true) :
    Quiet (before.withRepo (committedRepo args before.now before.repo)) := by
  rcases quiet.due with ⟨wantedAt, wanted, started⟩
  have schedule : committedRepo args before.now before.repo =
      (rescheduledRepo true before.now
        (publishedRepo args before.now before.repo)).setCompactLease none := by
    rw [committedRepo, requeue]
  have wanted' : (publishedRepo args before.now before.repo).compactionWantedAt =
      some wantedAt := wanted
  have pending :
      (publishedRepo args before.now before.repo).compactionPendingSince =
        before.repo.compactionPendingSince := rfl
  apply quiet.congr (committedRepo_guards args before.now before.repo)
  · rw [schedule]
    rfl
  · rw [schedule]
    generalize publishedRepo args before.now before.repo = published
      at wanted' pending ⊢
    refine ⟨wantedAt, ?_, ?_⟩
    · change some (published.compactionWantedAt.getD before.now) = some wantedAt
      rw [wanted']
      rfl
    · change compactionStartAt wantedAt (published.compactionPendingSince.getD
        (published.compactionWantedAt.getD before.now)) ≤ before.now
      rw [wanted', pending]
      exact started

/-- What is said of a pass in a quiet world with a tier that overflows: it
begins, and its commit goes through and leaves the world quiet while work is
left. -/
def PassGoesThrough (before : World) : Prop :=
  ∀ token, ∃ pass middle,
    RunsAlone (beginCompactionState token) before middle
        (some (.ok (.ok pass))) ∧
      ∀ staged, FreshKey middle.repo.packCatalog staged.packKey →
        ∃ after commit,
          RunsAlone (commitCompactionState (pass.args staged)) middle after
              (some (.ok (.committed commit))) ∧
            (commit.shouldRequeue = true → Quiet after)

theorem Quiet.passGoesThrough (quiet : Quiet before)
    (overflows : ¬ WithinTiers before) : PassGoesThrough before := by
  intro token
  rcases quiet.begins overflows token with ⟨plan, selected, began⟩
  refine ⟨_, _, began, fun staged fresh => ?_⟩
  have unopposed := @Quiet.unopposed before quiet token plan selected staged
  rcases (commitCompactionState_settles
      ((passOf token before plan).args staged) _).exists_run with
    ⟨result, after, ran, outcome⟩
  cases result with
  | retry reason message => exact absurd unopposed outcome.1
  | committed commit =>
    rcases outcome with ⟨_, rfl, rfl⟩
    refine ⟨_, _, ran, fun requeue => ?_⟩
    have quiet' := quiet.committed requeue
    rw [← committedRepo_setCompactLease _ _ _
      (some (passOf token before plan).lease)] at quiet'
    exact quiet'

/-- Passes without interruption: there is no endless run of them, the answer
to each says whether a tier still overflows, and in a quiet world one goes
through whenever a tier does. -/
structure PassesSettle : Prop where
  ends : WellFounded fun after before => ∃ commit, PassDone before after commit
  requeue : ∀ before after commit, PassDone before after commit →
    (commit.shouldRequeue = false ↔ WithinTiers after)
  goesThrough : ∀ before, Quiet before → ¬ WithinTiers before →
    PassGoesThrough before

/-- Runs from a tiered catalog keep it tiered, every commit of a pass begun in
the run keeps the objects and the sequence numbers, a commit that is put off
writes nothing but the lease, and passes settle. -/
theorem tieredCompaction_keeps (objects : String → Set Oid)
    (start last : PassSystem) (idle : start.passes = [])
    (tiered : TieredCatalog start.world.repo.packCatalog)
    (reached : Relation.ReflTransGen (SystemStep objects) start last) :
    TieredCatalog last.world.repo.packCatalog ∧
      (∀ pass ∈ last.passes, ∀ staged,
        FreshKey last.world.repo.packCatalog staged.packKey →
          Rewrites objects pass staged →
            ∀ after result,
              RunsAlone (commitCompactionState (pass.args staged)) last.world after
                (some (.ok result)) →
                CommitPromise objects pass last.world after result) ∧
      (∀ args after reason message,
        RunsAlone (commitCompactionState args) last.world after
            (some (.ok (.retry reason message))) →
          ∃ lease, after =
            last.world.withRepo (last.world.repo.setCompactLease lease)) ∧
      PassesSettle := by
  have invariant : Invariant last := by
    apply Invariant.reaches reached
    refine ⟨tiered, fun pass member => ?_⟩
    rw [idle] at member
    cases member
  refine ⟨invariant.tiered, ?_, ?_, ?_⟩
  · intro pass begun staged fresh rewrites after result ran
    exact invariant.commitPromise begun fresh rewrites
      ((commitCompactionState_settles _ _).of_run ran)
  · intro args after reason message ran
    exact ((commitCompactionState_settles _ _).of_run ran).2
  · exact ⟨passes_wellFounded, fun _ _ _ done => done.requeue,
      fun _ quiet overflows => quiet.passGoesThrough overflows⟩

/-! ## Two catalogs -/

def exampleRow (packKey : String) (tier number : Nat) : PackCatalogRow where
  packKey := packKey
  kind := if tier = 0 then .receive else .compact
  state := .active
  tier := tier
  seqLo := number
  seqHi := number
  objectCount := 1
  packBytes := 100
  idxBytes := 100
  createdAt := 0
  supersededBy := none

/-- A request that is due, and nothing else. -/
def requested (rows : List PackCatalogRow) : World where
  repo :=
    { packCatalog := KeyedList.ofList rows
      compactionWantedAt := some 0 }
  now := 100000

theorem quiet_requested (rows : List PackCatalogRow) : Quiet (requested rows) := by
  refine ⟨rfl, rfl, rfl, rfl, rfl, rfl, 0, rfl, ?_⟩
  change compactionStartAt 0 0 ≤ 100000
  decide

theorem disjoint_of_list
    (disjoint : ∀ x ∈ listActivePackCatalog catalog,
      ∀ y ∈ listActivePackCatalog catalog, x ≠ y →
        x.seqHi < y.seqLo ∨ y.seqHi < x.seqLo) :
    rowStanding.Disjoint (activeRows catalog) :=
  fun x active y active' =>
    disjoint x (mem_listActivePackCatalog.mpr active) y
      (mem_listActivePackCatalog.mpr active')

def fiveReceives : List PackCatalogRow :=
  [exampleRow "a" 0 1, exampleRow "b" 0 2, exampleRow "c" 0 3,
    exampleRow "d" 0 4, exampleRow "e" 0 5]

theorem tieredCompaction_keeps_fiveReceives :
    ∃ last : PassSystem, last.passes ≠ [] ∧
      Relation.ReflTransGen (SystemStep fun key => ({key} : Set String))
        ⟨requested fiveReceives, []⟩ last ∧
      TieredCatalog last.world.repo.packCatalog := by
  have overflows : ¬ WithinTiers (requested fiveReceives) := by
    intro within
    exact absurd (within 0) (by decide +kernel)
  rcases (quiet_requested fiveReceives).begins overflows "token" with
    ⟨plan, _, began⟩
  have reached := Relation.ReflTransGen.single
    (@SystemStep.begin _ (fun key => ({key} : Set String)) _ _ [] _ _ began)
  have listed : ∀ x ∈ listActivePackCatalog (requested fiveReceives).repo.packCatalog,
      x.seqLo ≤ x.seqHi ∧ x.tier = 0 := by
    decide +kernel
  refine ⟨_, List.cons_ne_nil _ _, reached,
    (tieredCompaction_keeps _ _ _ rfl ⟨?_, ?_, ?_⟩ reached).1⟩
  · exact fun x active => (listed x (mem_listActivePackCatalog.mpr active)).1
  · apply disjoint_of_list
    decide +kernel
  · intro x active y active' above
    have first := (listed x (mem_listActivePackCatalog.mpr active)).2
    have second := (listed y (mem_listActivePackCatalog.mpr active')).2
    change x.tier < y.tier at above
    omega

/-- A row between two sources that is not merged lies in the new interval. -/
theorem Ready.not_disjoint {catalog : PackCatalog} {plan : CompactionPlan}
    {args : CommitCompactionArgs} {now : Nat} (ready : Ready catalog plan args)
    {first last between : PackCatalogRow} (firstSource : first ∈ args.sourcePacks)
    (lastSource : last ∈ args.sourcePacks) (active : IsActive catalog between)
    (kept : between ∉ args.sourcePacks) (below : first.seqLo ≤ between.seqHi)
    (above : between.seqLo ≤ last.seqHi) :
    ¬ rowStanding.Disjoint (activeRows (commitCatalog args now catalog)) := by
  intro disjoint
  have low := (targetRow_seqLo ready.some now).2 first firstSource
  have high := (targetRow_seqHi ready.some now).2 last lastSource
  have different : args.targetRow now ≠ between := by
    rintro rfl
    exact ready.fresh.ne active rfl
  have apart : (args.targetRow now).seqHi < between.seqLo ∨
      between.seqHi < (args.targetRow now).seqLo :=
    disjoint _ (ready.isActive_commit.mpr (.inl rfl)) _
      (ready.isActive_commit.mpr (.inr ⟨active, kept⟩)) different
  omega

def mergedPack : StagedCompaction := ⟨"merged", 400, 100, 4⟩

theorem requested_done {rows : List PackCatalogRow}
    (overflows : ¬ WithinTiers (requested rows))
    (fresh : FreshKey (requested rows).repo.packCatalog mergedPack.packKey) :
    ∃ plan args after commit,
      selectCompactionPlan
            (listActivePackCatalog (requested rows).repo.packCatalog) = some plan ∧
        Ready (requested rows).repo.packCatalog plan args ∧
        PassDone (requested rows) after commit ∧
        after.repo.packCatalog =
          commitCatalog args 100000 (requested rows).repo.packCatalog := by
  have quiet := quiet_requested rows
  rcases quiet.begins overflows "token" with ⟨plan, selected, began⟩
  have unopposed := @Quiet.unopposed _ quiet "token" plan selected mergedPack
  rcases (commitCompactionState_settles
      ((passOf "token" (requested rows) plan).args mergedPack) _).exists_run with
    ⟨result, after, ran, outcome⟩
  cases result with
  | retry reason message => exact absurd unopposed outcome.1
  | committed commit =>
    refine ⟨plan, (passOf "token" (requested rows) plan).args mergedPack, after,
      commit, selected, ⟨planned_of_select selected, rfl, rfl, fresh⟩,
      @PassDone.intro _ _ _ "token" _ _ mergedPack began fresh ran, ?_⟩
    rcases outcome with ⟨_, rfl, rfl⟩
    exact (committedRepo_catalog _ _ _).1

/-- A row of tier 1 among rows of tier 0. -/
def interleaved : List PackCatalogRow :=
  [exampleRow "a" 0 1, exampleRow "b" 1 2, exampleRow "c" 0 3,
    exampleRow "d" 0 4, exampleRow "e" 0 5, exampleRow "f" 0 6]

theorem interleaved_sources : (selectCompactionPlan (listActivePackCatalog
      (requested interleaved).repo.packCatalog)).map CompactionPlan.sourcePacks =
    some [exampleRow "a" 0 1, exampleRow "c" 0 3, exampleRow "d" 0 4,
      exampleRow "e" 0 5] := by
  decide +kernel

/-- Rows of tier 0 with numbers between them that no row has. -/
def gapped : List PackCatalogRow :=
  [exampleRow "a" 0 1, exampleRow "b" 0 3, exampleRow "c" 0 5,
    exampleRow "d" 0 7, exampleRow "e" 0 9]

theorem gapped_sources : (selectCompactionPlan (listActivePackCatalog
      (requested gapped).repo.packCatalog)).map CompactionPlan.sourcePacks =
    some [exampleRow "a" 0 1, exampleRow "b" 0 3, exampleRow "c" 0 5,
      exampleRow "d" 0 7] := by
  decide +kernel

/-- A pass over disjoint intervals can make them overlap, and a pass can add a
sequence number that no row had. -/
theorem commits_overlap_and_add :
    (∃ after commit,
      rowStanding.Disjoint (activeRows (requested interleaved).repo.packCatalog) ∧
        PassDone (requested interleaved) after commit ∧
        ¬ rowStanding.Disjoint (activeRows after.repo.packCatalog)) ∧
    ∃ after commit,
      rowStanding.Disjoint (activeRows (requested gapped).repo.packCatalog) ∧
        PassDone (requested gapped) after commit ∧
        2 ∉ sequenceNumbers (requested gapped).repo.packCatalog ∧
        2 ∈ sequenceNumbers after.repo.packCatalog := by
  constructor
  · have overflows : ¬ WithinTiers (requested interleaved) := by
      intro within
      exact absurd (within 0) (by decide +kernel)
    rcases requested_done overflows (by decide +kernel) with
      ⟨plan, args, after, commit, selected, ready, done, catalog⟩
    refine ⟨after, commit, disjoint_of_list (by decide +kernel), done, ?_⟩
    have sources := interleaved_sources
    rw [selected] at sources
    have chosen := ready.sourcePacks.trans (Option.some.inj sources)
    have between : IsActive (requested interleaved).repo.packCatalog
        (exampleRow "b" 1 2) := by
      apply mem_listActivePackCatalog.mp
      decide +kernel
    rw [catalog]
    apply @Ready.not_disjoint _ _ _ _ ready (exampleRow "a" 0 1)
      (exampleRow "e" 0 5) (exampleRow "b" 1 2) _ _ between
    · rw [chosen]
      decide +kernel
    · decide
    · decide
    · rw [chosen]
      decide +kernel
    · rw [chosen]
      decide +kernel
  · have overflows : ¬ WithinTiers (requested gapped) := by
      intro within
      exact absurd (within 0) (by decide +kernel)
    rcases requested_done overflows (by decide +kernel) with
      ⟨plan, args, after, commit, selected, ready, done, catalog⟩
    refine ⟨after, commit, disjoint_of_list (by decide +kernel), done, ?_, ?_⟩
    · rintro ⟨row, active, inside⟩
      have outside : ∀ row ∈ listActivePackCatalog
          (requested gapped).repo.packCatalog,
          ¬ (row.seqLo ≤ 2 ∧ 2 ≤ row.seqHi) := by
        decide +kernel
      exact outside row (mem_listActivePackCatalog.mpr active) inside
    · have sources := gapped_sources
      rw [selected] at sources
      have chosen := ready.sourcePacks.trans (Option.some.inj sources)
      have low := (targetRow_seqLo ready.some 100000).2 (exampleRow "a" 0 1)
        (by rw [chosen]; decide +kernel)
      have high := (targetRow_seqHi ready.some 100000).2 (exampleRow "d" 0 7)
        (by rw [chosen]; decide +kernel)
      rw [catalog]
      exact ⟨args.targetRow 100000, ready.isActive_commit.mpr (.inl rfl),
        low.trans (by decide), le_trans (by decide) high⟩

end GitOnCloudflare.Compaction
