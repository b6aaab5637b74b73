import GitOnCloudflare.Compaction.PassSteps

/-!
# What the calls of a worker activate

A worker of a compaction names its pack by the token of its lease.  Every call
it makes, answered or cut off, activates at most the row of that pack.
-/

namespace GitOnCloudflare.Compaction

open Foundations
open Repo

/-! ## Names of packs -/

def compactionPackKey (root token : String) : String :=
  r2PackKey root ("pack-cmp-" ++ token ++ ".pack")

def receivePackKey (root token : String) : String :=
  r2PackKey root ("pack-rx-" ++ token ++ ".pack")

theorem compactionPackKey_inj {root first second : String}
    (same : compactionPackKey root first = compactionPackKey root second) :
    first = second := by
  unfold compactionPackKey r2PackKey at same
  have name := (String.append_right_inj _).mp same
  have inner := (String.append_left_inj _).mp name
  exact (String.append_right_inj _).mp inner

theorem compactionPackKey_ne_receivePackKey (root first second : String) :
    receivePackKey root first ≠ compactionPackKey root second := by
  intro same
  unfold compactionPackKey receivePackKey r2PackKey at same
  have name := congrArg String.toList ((String.append_right_inj _).mp same)
  simp only [String.toList_append] at name
  cases name

/-! ## What a program activates -/

/-- A row that becomes active has one of these keys. -/
def Activates (keys : Set String) (before after : World) : Prop :=
  ∀ row, IsActive after.repo.packCatalog row →
    IsActive before.repo.packCatalog row ∨ row.packKey ∈ keys

variable {before last world : World} {args : CommitCompactionArgs}
  {cut : Option Nat}
  {keys : Set String} {after : World}
  {answer : Option (Except RepoFailure CommitCompactionResult)}

theorem Activates.of_eq
    (same : after.repo.packCatalog = before.repo.packCatalog) :
    Activates keys before after := by
  intro row active
  rw [same] at active
  exact .inl active

theorem Activates.trans {middle : World} (first : Activates keys before middle)
    (second : Activates keys middle after) : Activates keys before after := by
  intro row active
  rcases second row active with earlier | key
  · exact first row earlier
  · exact .inr key

/-- No write of the program activates a row with another key. -/
abbrev OnlyActivates {Value : Type} (keys : Set String)
    (program : RepoProgram Value) : Prop :=
  ∀ before, program.Ensures AnyAnswer (Activates keys) ClockDrift
    (fun _ _ => True) (fun _ _ => True) before

namespace OnlyActivates

variable {Value Other : Type} {keys : Set String}
  {program : RepoProgram Value}

/-- Answered or cut off, the run activates only these keys. -/
theorem of_run {result : Option (Except RepoFailure Value)}
    (only : OnlyActivates keys program)
    (ran : RunsAlone program before last result) : Activates keys before last :=
  (Program.Ensures.runs (Activates keys before) ran (only before)
    (Activates.of_eq rfl)
    (fun _ _ sofar step => sofar.trans step)
    (fun _ _ sofar drifted =>
      sofar.trans (Activates.of_eq (congrArg RepoState.packCatalog drifted.1)))).1

theorem done (value : Value) :
    OnlyActivates keys (Program.done value : RepoProgram Value) :=
  fun _ => trivial

theorem throw (failure : RepoFailure) :
    OnlyActivates keys (Repo.throw failure : RepoProgram Value) :=
  fun _ => trivial

theorem bind {rest : Value → RepoProgram Other}
    (first : OnlyActivates keys program)
    (second : ∀ value, OnlyActivates keys (rest value)) :
    OnlyActivates keys (program.bind rest) := by
  intro before
  rw [Program.ensures_bind]
  exact (first before).mono (fun _ _ kept => kept)
    (fun value last _ => second value last) (fun _ _ _ => trivial)

theorem get_bind {rest : RepoState → RepoProgram Other}
    (second : ∀ repo, OnlyActivates keys (rest repo)) :
    OnlyActivates keys (get.bind rest) :=
  fun before => second before.repo before

theorem dateNow_bind {rest : Nat → RepoProgram Other}
    (second : ∀ now, OnlyActivates keys (rest now)) :
    OnlyActivates keys (dateNow.bind rest) :=
  fun before => second before.now before

theorem put {write : RepoState → RepoState}
    (writes : ∀ repo row, IsActive (write repo).packCatalog row →
      IsActive repo.packCatalog row ∨ row.packKey ∈ keys) :
    OnlyActivates keys (Repo.put write) := by
  intro before
  rw [ensures_put]
  exact ⟨fun row active => writes before.repo row active, trivial⟩

/-- A write beside the catalog. -/
theorem put_beside {write : RepoState → RepoState}
    (same : ∀ repo, (write repo).packCatalog = repo.packCatalog) :
    OnlyActivates keys (Repo.put write) := by
  apply put
  intro repo row active
  rw [same] at active
  exact .inl active

/-- A transaction beside the catalog. -/
theorem transaction_beside {body : World → Value × RepoState}
    (same : ∀ world, (body world).2.packCatalog = world.repo.packCatalog) :
    OnlyActivates keys (transaction fun world => .ok (body world)) := by
  intro before
  rw [ensures_repoTransaction]
  exact ⟨Activates.of_eq (same before), trivial⟩

end OnlyActivates

/-! ## The calls -/

theorem acquireCompactionLease_catalog (lease : RepoLease) (now : Nat)
    (world : World) :
    (acquireCompactionLease lease now world.repo).2.packCatalog =
      world.repo.packCatalog := by
  rcases acquireCompactionLease_cases lease { world with now := now } with
    acquired | ⟨_, ⟨_, _, busy⟩ | noWork⟩
  · exact congrArg (fun answer => answer.2.packCatalog) acquired
  · exact congrArg (fun answer => answer.2.packCatalog) busy
  · exact congrArg (fun answer => answer.2.packCatalog) noWork

theorem beginCompactionState_activates (token : String) :
    OnlyActivates ∅ (beginCompactionState token) := by
  unfold beginCompactionState
  apply OnlyActivates.get_bind
  intro repo
  split
  · exact .done _
  split
  · exact .done _
  split
  · exact .done _
  apply OnlyActivates.dateNow_bind
  intro now
  dsimp only
  split
  · apply OnlyActivates.bind
    · apply OnlyActivates.transaction_beside
      intro world
      exact (clearObservedRequest_catalog _ _).1
    · intro _
      exact .done _
  · apply OnlyActivates.bind
    · apply OnlyActivates.transaction_beside
      intro world
      exact acquireCompactionLease_catalog _ _ _
    · intro acquisition
      cases acquisition with
      | noWork => exact .done _
      | busy reason retryAfter => exact .done _
      | acquired =>
        apply OnlyActivates.get_bind
        intro _
        exact .done _

theorem rescheduleCompaction_activates (shouldRequeue : Bool) (keys : Set String) :
    OnlyActivates keys (rescheduleCompaction shouldRequeue) := by
  unfold rescheduleCompaction
  split
  · apply OnlyActivates.get_bind
    intro repo
    split
    · apply OnlyActivates.dateNow_bind
      intro now
      unfold markCompactionActivity
      apply OnlyActivates.bind
      · exact .put_beside fun _ => rfl
      intro _
      apply OnlyActivates.get_bind
      intro _
      split
      · exact .put_beside fun _ => rfl
      · exact .done _
    · split
      · exact .put_beside fun _ => rfl
      · exact .done _
  · apply OnlyActivates.bind
    · exact .put_beside fun _ => rfl
    intro _
    exact .put_beside fun _ => rfl

theorem activateTarget_activates (args : CommitCompactionArgs) :
    OnlyActivates {args.stagedPack.packKey} (activateTarget args) := by
  unfold activateTarget
  apply OnlyActivates.dateNow_bind
  intro now
  apply OnlyActivates.bind
  · apply OnlyActivates.put
    intro repo row active
    rcases isActive_upsert.mp active with ⟨rfl, _⟩ | ⟨earlier, _⟩
    · exact .inr rfl
    · exact .inl earlier
  intro _
  apply OnlyActivates.bind
  · apply OnlyActivates.put
    intro repo row active
    exact .inl (isActive_supersede.mp active).1
  intro _
  apply OnlyActivates.get_bind
  intro repo
  apply OnlyActivates.bind
  · apply OnlyActivates.get_bind
    intro _
    apply OnlyActivates.bind
    · exact .put_beside fun _ => rfl
    intro _
    exact .done _
  intro _
  apply OnlyActivates.bind
  · exact .put_beside fun _ => rfl
  intro _
  apply OnlyActivates.bind (rescheduleCompaction_activates _ _)
  intro _
  apply OnlyActivates.bind
  · exact .put_beside fun _ => rfl
  intro _
  exact .done _

theorem commitCompactionState_activates (args : CommitCompactionArgs) :
    OnlyActivates {args.stagedPack.packKey} (commitCompactionState args) := by
  unfold commitCompactionState
  apply OnlyActivates.bind
  · apply OnlyActivates.transaction_beside
    intro world
    rcases commitFence_repo args.token world.now world.repo with ⟨lease, repo⟩
    rw [repo]
    rfl
  intro fence
  cases fence with
  | repositoryDeleting => exact .done _
  | leaseMismatch => exact .done _
  | held =>
    apply OnlyActivates.get_bind
    intro repo
    apply OnlyActivates.dateNow_bind
    intro now
    split
    · apply OnlyActivates.bind
      · exact .put_beside fun _ => rfl
      intro _
      exact .done _
    · exact activateTarget_activates args

/-! ## The run of a commit -/

/-- The call runs to its end, or is cut off behind some of its writes. -/
inductive Served (args : CommitCompactionArgs) (world : World) :
    Option Nat → World → Option (Except RepoFailure CommitCompactionResult) →
      Prop where
  | ended {last : World} {result : Except RepoFailure CommitCompactionResult}
      (ran : RunsAlone (commitCompactionState args) world last (some result)) :
      Served args world none last (some result)
  | cutOff (count : Nat) :
      Served args world (some count)
        ((((commitCompactionState args).segment world).commits.take
          count).getLastD world)
        none

/-- The checks pass, and the call is not cut off before its second write, the
row of the staged pack. -/
def WritesRow (args : CommitCompactionArgs) (cut : Option Nat) (world : World) :
    Prop :=
  Unopposed args world ∧ ∀ count, cut = some count → 2 ≤ count

theorem Served.runs (served : Served args world cut last answer) :
    RunsAlone (commitCompactionState args) world last answer := by
  cases served with
  | ended ran => exact ran
  | cutOff count => exact .of_cut _ world count

/-- A call that a check stops leaves the catalog alone. -/
theorem commitCompactionState_opposed (opposed : ¬ Unopposed args world) :
    (commitCompactionState args).Ensures AnyAnswer
      (Activates ∅) ClockDrift (fun _ _ => True) (fun _ _ => True) world := by
  unfold commitCompactionState
  simp only [Program.bind_eq_bind, Program.ensures_bind, ensures_repoTransaction]
  rcases commitFence_repo args.token world.now world.repo with ⟨lease, repo⟩
  rw [repo]
  refine ⟨Activates.of_eq rfl, ?_⟩
  split
  · trivial
  · trivial
  · next held =>
      simp only [Program.ensures_bind, ensures_get, ensures_dateNow]
      split
      · exact ⟨Activates.of_eq rfl, trivial⟩
      · next clear => exact absurd ⟨held, clear⟩ opposed

theorem Served.activates {args : CommitCompactionArgs} {world last : World}
    {cut : Option Nat}
    {answer : Option (Except RepoFailure CommitCompactionResult)}
    (served : Served args world cut last answer) :
    Activates {args.stagedPack.packKey} world last :=
  (commitCompactionState_activates args).of_run served.runs

/-- The row is active behind a call only where the call writes it. -/
theorem Served.activates_none (served : Served args world cut last answer)
    (stops : ¬ WritesRow args cut world) : Activates ∅ world last := by
  by_cases unopposed : Unopposed args world
  · cases served with
    | ended ran => exact absurd ⟨unopposed, nofun⟩ stops
    | cutOff count =>
      have few : count = 0 ∨ count = 1 := by
        by_contra more
        apply stops
        refine ⟨unopposed, ?_⟩
        rintro _ ⟨⟩
        omega
      rcases few with rfl | rfl
      · exact Activates.of_eq rfl
      · rcases commitFence_repo args.token world.now world.repo with
          ⟨lease, repo⟩
        apply Activates.of_eq
        change (commitFence args.token world.now world.repo).2.packCatalog = _
        rw [repo]
        rfl
  · exact (Program.Ensures.runs (Activates ∅ world) served.runs
      (commitCompactionState_opposed unopposed) (Activates.of_eq rfl)
      (fun _ _ sofar step => sofar.trans step)
      (fun _ _ sofar drifted => sofar.trans
        (Activates.of_eq (congrArg RepoState.packCatalog drifted.1)))).1

theorem Served.retry_stops {reason : CommitRetryReason} {message : String}
    (served : Served args world cut last (some (.ok (.retry reason message)))) :
    ¬ WritesRow args cut world := by
  intro writes
  cases served with
  | ended ran =>
    exact ((commitCompactionState_settles args world).of_run ran).1 writes.1

/-- The sources of a call that no check stops are active. -/
theorem Unopposed.source_active (unopposed : Unopposed args world)
    {packKey : String}
    (source : packKey ∈ args.sourcePacks.map PackCatalogRow.packKey) :
    ∃ row, IsActive world.repo.packCatalog row ∧ row.packKey = packKey := by
  have clear := unopposed.2
  unfold commitConflict at clear
  split at clear
  · cases clear
  split at clear
  · cases clear
  split at clear
  · cases clear
  split at clear
  · cases clear
  split at clear
  · cases clear
  next matching =>
  rw [Bool.not_eq_true, Bool.not_eq_false', rowsMatchForCommit,
    Bool.and_eq_true, decide_eq_true_eq, List.all_eq_true] at matching
  rcases matching with ⟨same, all⟩
  rcases List.mem_iff_getElem.mp source with ⟨index, bound, rfl⟩
  rw [List.length_map] at bound
  rw [List.getElem_map]
  have inside := same ▸ bound
  have pair := all (args.sourcePacks[index],
    (currentSourceRows world.repo.packCatalog args.sourcePacks)[index])
    (List.mem_iff_getElem.mpr ⟨index, by
      rw [List.length_zip]
      omega, List.getElem_zip ..⟩)
  simp only [rowMatchesForCommit, Bool.and_eq_true, decide_eq_true_eq] at pair
  rcases List.mem_filterMap.mp (List.getElem_mem inside) with
    ⟨_, _, found⟩
  exact ⟨_, ⟨(KeyedList.find?_eq_some_iff.mp found).1,
    pair.1.1.1.1.1.1.1.2⟩, pair.1.1.1.1.1.1.1.1⟩

/-- A call that passes its checks and runs to its end leaves its row active. -/
theorem Unopposed.active {result : Except RepoFailure CommitCompactionResult}
    (unopposed : Unopposed args world)
    (unwritten : ∀ row, IsActive world.repo.packCatalog row →
      row.packKey ≠ args.stagedPack.packKey)
    (ran : RunsAlone (commitCompactionState args) world last (some result)) :
    IsActive last.repo.packCatalog (args.targetRow world.now) := by
  have settles := commitCompactionState_settles args world
  cases result with
  | error failure =>
    exact (Program.Ensures.runs (fun _ => True) ran settles trivial
      (fun _ _ _ _ => trivial) (fun _ _ _ _ => trivial)).2.elim
  | ok result =>
    have outcome := settles.of_run ran
    cases result with
    | retry reason message => exact absurd unopposed outcome.1
    | committed commit =>
      rcases outcome with ⟨_, _, rfl⟩
      rw [World.withRepo_repo,
        (committedRepo_catalog args world.now world.repo).1, commitCatalog,
        isActive_supersede, isActive_upsert]
      refine ⟨.inl ⟨rfl, rfl⟩, fun source => ?_⟩
      rcases unopposed.source_active source with ⟨row, active, same⟩
      exact unwritten row active same

theorem raiseNextPackSeq_activates (packSequence : Nat) (keys : Set String) :
    OnlyActivates keys (raiseNextPackSeq packSequence) := by
  unfold raiseNextPackSeq
  apply OnlyActivates.get_bind
  intro repo
  split
  · exact .put_beside fun _ => rfl
  · exact .done _

theorem raisePacksetVersion_activates (version : Nat) (keys : Set String) :
    OnlyActivates keys (raisePacksetVersion version) := by
  unfold raisePacksetVersion
  apply OnlyActivates.get_bind
  intro repo
  split
  · exact .put_beside fun _ => rfl
  · exact .done _

/-- A receive activates its staged pack. -/
theorem activateStagedPack_activates {intent : ReceiveFinalizeIntent}
    {pack : StagedPack} (staged : intent.stagedPack = some pack) :
    OnlyActivates {pack.packKey} (activateStagedPack intent) := by
  unfold activateStagedPack
  rw [staged]
  apply OnlyActivates.get_bind
  intro repo
  dsimp only
  split
  · exact .throw _
  split
  · apply OnlyActivates.bind
    · unfold activateReceiveRow
      split
      · apply OnlyActivates.dateNow_bind
        intro now
        apply OnlyActivates.put
        intro repo row active
        rcases isActive_upsert.mp active with ⟨rfl, _⟩ | ⟨earlier, _⟩
        · exact .inr rfl
        · exact .inl earlier
      · exact .done _
    intro _
    apply OnlyActivates.get_bind
    intro _
    apply OnlyActivates.bind (raiseNextPackSeq_activates _ _)
    intro _
    apply OnlyActivates.bind (raisePacksetVersion_activates _ _)
    intro _
    exact .done _
  · exact .throw _

end GitOnCloudflare.Compaction
