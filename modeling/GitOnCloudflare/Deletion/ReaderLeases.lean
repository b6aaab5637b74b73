import GitOnCloudflare.Publication.Recorded

/-!
# Leases of readers

A reader of the repository takes a lease and reads the packs that are active
then.  A native reader takes a lease for the generation of its catalog.
Before superseded packs are deleted, one call looks for readers and closes the
older generations to native readers.
-/

namespace GitOnCloudflare.Deletion

open Foundations
open Repo
open Publication

/-! ## Readers of the repository -/

def repositoryReadLeaseTtlMs : Nat := 2 * 60000

def maxRepositoryReadLeases : Nat := 128

/-- The leases that have not expired. -/
def activeReadLeases (leases : List RepositoryReadLease) (now : Nat) :
    List RepositoryReadLease :=
  leases.filter fun lease => now < lease.expiresAt

inductive BeginRepositoryReadResult where
  | ok (token : String)
  | repositoryDeleting
  | readerCapacity
deriving DecidableEq

/-- `token` is the random token of the lease. -/
def beginRepositoryReadState (token : String)
    (operation : RepositoryReadOperation) :
    RepoProgram BeginRepositoryReadResult :=
  transaction fun current =>
    let repo := current.repo
    if repo.repositoryDeleting then
      .ok (.repositoryDeleting, repo)
    else
      let leases := activeReadLeases repo.repositoryReadLeases current.now
      if maxRepositoryReadLeases ≤ leases.length then
        .ok (.readerCapacity, repo)
      else
        .ok
          (.ok token,
            repo.setRepositoryReadLeases
              (leases ++
                [⟨token, current.now, current.now + repositoryReadLeaseTtlMs,
                  operation⟩]))

/-- Give the first lease of this token a new end. -/
def renewReadLease (token : String) (expiresAt : Nat) :
    List RepositoryReadLease → List RepositoryReadLease
  | [] => []
  | lease :: leases =>
    if lease.token = token then
      { lease with expiresAt := expiresAt } :: leases
    else
      lease :: renewReadLease token expiresAt leases

/-- A heartbeat moves the lease's end. -/
def renewRepositoryReadState (token : String) : RepoProgram Bool :=
  transaction fun current =>
    let repo := current.repo
    if repo.repositoryDeleting then
      .ok (false, repo)
    else
      let leases := activeReadLeases repo.repositoryReadLeases current.now
      if leases.any fun lease => lease.token = token then
        .ok
          (true,
            repo.setRepositoryReadLeases
              (renewReadLease token (current.now + repositoryReadLeaseTtlMs)
                leases))
      else
        .ok (false, repo)

/-- Give a read lease back. -/
def finishRepositoryReadState (token : String) : RepoProgram Unit :=
  transaction fun current =>
    .ok
      ((),
        current.repo.setRepositoryReadLeases
          ((activeReadLeases current.repo.repositoryReadLeases
            current.now).filter fun lease => lease.token ≠ token))

/-! ## Native readers -/

def nativeReaderLeaseTtlMs : Nat := 2 * 60000

def setNativeCatalogReaderLease (repo : RepoState)
    (lease : Option NativeCatalogReaderLease) : RepoState :=
  { repo with nativeCatalogReaderLease := lease }

inductive AcquireReaderResult where
  | acquired
  | catalogSuperseded
  | readerBusy
  | repositoryDeleting
deriving DecidableEq

/-- The lease of an operation, which keeps its beginning. -/
def readerLease (operation : NativeReceiveOperation) (now : Nat)
    (existing : Option NativeCatalogReaderLease) : NativeCatalogReaderLease where
  token := operation.id
  createdAt :=
    match existing with
    | none => now
    | some lease => if lease.token = operation.id then lease.createdAt else now
  expiresAt := now + nativeReaderLeaseTtlMs
  generation := operation.catalogGeneration

/-- Take the lease of native readers. -/
def acquireNativeCatalogReaderLease (operation : NativeReceiveOperation) :
    RepoProgram AcquireReaderResult :=
  transaction fun current =>
    let repo := current.repo
    if repo.repositoryDeleting then
      .ok (.repositoryDeleting, repo)
    else if repo.nativeCatalogReaderGenerationFloor.any fun floor =>
        operation.catalogGeneration < floor then
      .ok (.catalogSuperseded, repo)
    else if repo.nativeCatalogReaderLease.any fun lease =>
        current.now < lease.expiresAt && lease.token ≠ operation.id then
      .ok (.readerBusy, repo)
    else
      .ok
        (.acquired,
          setNativeCatalogReaderLease repo
            (some
              (readerLease operation current.now
                repo.nativeCatalogReaderLease)))

/-- Move the end of the native lease. -/
def renewNativeCatalogReaderLease (operation : NativeReceiveOperation) :
    RepoProgram Bool :=
  transaction fun current =>
    let repo := current.repo
    if repo.repositoryDeleting then
      .ok (false, repo)
    else
      match repo.nativeCatalogReaderLease with
      | none => .ok (false, repo)
      | some lease =>
        if lease.token ≠ operation.id ∨
            lease.generation ≠ operation.catalogGeneration ∨
            lease.expiresAt ≤ current.now then
          .ok (false, repo)
        else
          .ok
            (true,
              setNativeCatalogReaderLease repo
                (some
                  { lease with
                    expiresAt := current.now + nativeReaderLeaseTtlMs }))

def releaseNativeCatalogReaderLease (operationId : String) : RepoProgram Unit :=
  transaction fun current =>
    if current.repo.nativeCatalogReaderLease.any fun lease =>
        lease.token = operationId then
      .ok ((), setNativeCatalogReaderLease current.repo none)
    else
      .ok ((), current.repo)

/-! ## The fence in front of a deletion -/

/-- Whether a generation may be deleted. -/
structure ReaderFence where
  safe : Bool
  retryAfterSeconds : Option Nat
deriving DecidableEq

def retryAfterSeconds (expiresAt now : Nat) : Nat :=
  max 1 ((expiresAt - now + 999) / 1000)

def latestExpiry (leases : List RepositoryReadLease) : Nat :=
  (leases.map RepositoryReadLease.expiresAt).foldl max 0

/-- No native reader may begin on a generation below this one any more. -/
def raiseGenerationFloor (generation : Option Nat) (repo : RepoState) :
    RepoState :=
  match generation with
  | none => repo
  | some generation =>
    if repo.nativeCatalogReaderGenerationFloor.all (· < generation) then
      { repo with nativeCatalogReaderGenerationFloor := some generation }
    else
      repo

/-- No reader stands before a generation. -/
def canDeleteSupersededGenerationState (generation : Option Nat) :
    RepoProgram ReaderFence :=
  transaction fun current =>
    let repo := current.repo
    let now := current.now
    let repositoryReaders := activeReadLeases repo.repositoryReadLeases now
    if repositoryReaders ≠ [] then
      .ok
        (⟨false, some (retryAfterSeconds (latestExpiry repositoryReaders) now)⟩,
          repo.setRepositoryReadLeases repositoryReaders)
    else
      let repo := repo.setRepositoryReadLeases []
      match repo.nativeCatalogReaderLease.filter fun lease =>
          now < lease.expiresAt &&
            generation.all fun generation => lease.generation < generation with
      | some lease =>
        .ok (⟨false, some (retryAfterSeconds lease.expiresAt now)⟩, repo)
      | none => .ok (⟨true, none⟩, raiseGenerationFloor generation repo)

/-! ## Superseded packs -/

inductive SupersededPacksRetry where
  | repositoryDeleting
  | packBecameActive
deriving DecidableEq

inductive SupersededPacksResult where
  | packs (packKeys : List String)
  | retry (reason : SupersededPacksRetry)
deriving DecidableEq

/-- The keys that have a row, unless one of the rows is not superseded. -/
def supersededPackKeys (catalog : PackCatalog) :
    List String → Option (List String)
  | [] => some []
  | packKey :: packKeys =>
    match getPackCatalogRow catalog packKey with
    | none => supersededPackKeys catalog packKeys
    | some row =>
      if row.state ≠ .superseded then
        none
      else
        (supersededPackKeys catalog packKeys).map (packKey :: ·)

/-- No pack is active when deletion begins. -/
def claimSupersededGcPacksState (packKeys : List String) :
    RepoProgram SupersededPacksResult := do
  let repo ← get
  if repo.repositoryDeleting then
    return .retry .repositoryDeleting
  else
    match supersededPackKeys repo.packCatalog packKeys with
    | none => return .retry .packBecameActive
    | some claimed => return .packs claimed

/-- Remove the rows of deleted packs. -/
def removeSupersededGcPacksState (packKeys : List String) :
    RepoProgram SupersededPacksResult := do
  let repo ← get
  if repo.repositoryDeleting then
    return .retry .repositoryDeleting
  else
    match supersededPackKeys repo.packCatalog packKeys with
    | none => return .retry .packBecameActive
    | some removable =>
      put fun repo =>
        repo.setPackCatalog (deletePackCatalogRows repo.packCatalog removable)
      return .packs removable

variable {packKeys : List String} {last world before : World}
  {catalog : PackCatalog} {claimed : List String}
  {leases : List RepositoryReadLease} {lease : RepositoryReadLease}
  {repo : RepoState} {generation : Nat}

theorem supersededPackKeys_subset
    (found : supersededPackKeys catalog packKeys = some claimed) :
    claimed ⊆ packKeys := by
  induction packKeys generalizing claimed with
  | nil =>
    cases found
    exact List.Subset.refl _
  | cons packKey packKeys ih =>
    unfold supersededPackKeys at found
    split at found
    · exact List.subset_cons_of_subset _ (ih found)
    · split at found
      · cases found
      · rcases Option.map_eq_some_iff.mp found with ⟨rest, kept, rfl⟩
        exact List.cons_subset_cons _ (ih kept)

/-! ## What the calls leave of readers -/

/-- A reader holds an unexpired lease under this token. -/
def Reads (world : World) (token : String) : Prop :=
  ∃ lease ∈ world.repo.repositoryReadLeases,
    lease.token = token ∧ world.now < lease.expiresAt

/-- No native reader below this generation is there or can come. -/
structure Fenced (generation : Nat) (world : World) : Prop where
  floor : ∃ floor,
    world.repo.nativeCatalogReaderGenerationFloor = some floor ∧
      generation ≤ floor
  native : ∀ lease, world.repo.nativeCatalogReaderLease = some lease →
    world.now < lease.expiresAt → generation ≤ lease.generation

/-- No reader comes back, and none but `began` is new. -/
structure ReadersKept (began : Option String) (before after : World) : Prop where
  reads : ∀ token, Reads after token → Reads before token ∨ began = some token
  fenced : ∀ generation, Fenced generation before → Fenced generation after

/-- A call of a reader, which leaves the catalog alone. -/
structure Aside (began : Option String) (before after : World) : Prop where
  readers : ReadersKept began before after
  catalog : after.repo.packCatalog = before.repo.packCatalog

namespace ReadersKept

variable {began : Option String} {before after : World}

theorem of_same (same : SameReaders before after) :
    ReadersKept began before after := by
  constructor
  · intro token reads
    rcases reads with ⟨lease, member, holder, unexpired⟩
    rw [same.reading] at member
    rw [same.now] at unexpired
    exact .inl ⟨lease, member, holder, unexpired⟩
  · intro generation fenced
    constructor
    · rw [same.floor]
      exact fenced.floor
    · rw [same.native, same.now]
      exact fenced.native

theorem refl (world : World) : ReadersKept began world world :=
  of_same ⟨rfl, rfl, rfl, rfl⟩

theorem trans (first second third : World)
    (one : ReadersKept began first second)
    (two : ReadersKept began second third) : ReadersKept began first third := by
  constructor
  · intro token reads
    rcases two.reads token reads with earlier | new
    · exact one.reads token earlier
    · exact .inr new
  · intro generation fenced
    exact two.fenced generation (one.fenced generation fenced)

theorem of_drift (before later : World) (drifted : ClockDrift before later) :
    ReadersKept began before later := by
  rw [ClockDrift] at drifted
  rcases drifted with ⟨same, _, passed⟩
  constructor
  · intro token reads
    rcases reads with ⟨lease, member, holder, unexpired⟩
    rw [same] at member
    exact .inl ⟨lease, member, holder, passed.trans_lt unexpired⟩
  · intro generation fenced
    constructor
    · rw [same]
      exact fenced.floor
    · intro lease held unexpired
      rw [same] at held
      exact fenced.native lease held (passed.trans_lt unexpired)

end ReadersKept

namespace Aside

variable {began : Option String} {world : World}

theorem refl (world : World) : Aside began world world :=
  ⟨.refl world, rfl⟩

theorem of_run {Value : Type} {program : RepoProgram Value}
    {result : Option (Except RepoFailure Value)}
    (writes : Writes (Aside began) program)
    (ran : RunsAlone program world last result) : Aside began world last := by
  apply writes.of_run _ _ _ ran
  · exact refl
  · intro first second third one two
    exact ⟨.trans _ _ _ one.readers two.readers, two.catalog.trans one.catalog⟩
  · intro before later drifted
    exact ⟨.of_drift before later drifted, congrArg RepoState.packCatalog drifted.1⟩

/-- The read leases are replaced. -/
theorem of_leases
    (kept : ∀ lease ∈ leases, world.now < lease.expiresAt →
      Reads world lease.token ∨ began = some lease.token) :
    Aside began world
      (world.withRepo (world.repo.setRepositoryReadLeases leases)) := by
  refine ⟨⟨?_, ?_⟩, rfl⟩
  · intro token reads
    rcases reads with ⟨lease, member, rfl, unexpired⟩
    exact kept lease member unexpired
  · intro generation fenced
    exact ⟨fenced.floor, fenced.native⟩

/-- The lease of the native reader is replaced. -/
theorem of_native {lease : Option NativeCatalogReaderLease}
    (kept : ∀ generation, Fenced generation world →
      ∀ held, lease = some held → world.now < held.expiresAt →
        generation ≤ held.generation) :
    Aside began world
      (world.withRepo (setNativeCatalogReaderLease world.repo lease)) := by
  refine ⟨⟨?_, ?_⟩, rfl⟩
  · intro token reads
    exact .inl reads
  · intro generation fenced
    exact ⟨fenced.floor, kept generation fenced⟩

end Aside

theorem reads_of_active
    (active : lease ∈ activeReadLeases world.repo.repositoryReadLeases
      world.now) : Reads world lease.token := by
  rcases List.mem_filter.mp active with ⟨member, unexpired⟩
  exact ⟨lease, member, rfl, of_decide_eq_true unexpired⟩

theorem beginRepositoryReadState_aside (token : String)
    (operation : RepositoryReadOperation) :
    Writes (Aside (some token)) (beginRepositoryReadState token operation) := by
  apply Writes.transaction
  intro world value repo done
  dsimp only at done
  split at done
  · cases done
    exact .refl world
  · split at done
    · cases done
      exact .refl world
    · cases done
      apply Aside.of_leases
      intro lease member _
      rcases List.mem_append.mp member with earlier | new
      · exact .inl (reads_of_active earlier)
      · cases List.mem_singleton.mp new
        exact .inr rfl

theorem mem_renewReadLease {token : String} {expiresAt : Nat}
    (member : lease ∈ renewReadLease token expiresAt leases) :
    ∃ old ∈ leases, old.token = lease.token := by
  induction leases with
  | nil => cases member
  | cons head leases ih =>
    unfold renewReadLease at member
    split at member
    · rcases List.mem_cons.mp member with rfl | later
      · exact ⟨head, List.mem_cons_self, rfl⟩
      · exact ⟨lease, List.mem_cons_of_mem _ later, rfl⟩
    · rcases List.mem_cons.mp member with rfl | later
      · exact ⟨lease, List.mem_cons_self, rfl⟩
      · rcases ih later with ⟨old, earlier, same⟩
        exact ⟨old, List.mem_cons_of_mem _ earlier, same⟩

theorem renewRepositoryReadState_aside (token : String) :
    Writes (Aside none) (renewRepositoryReadState token) := by
  apply Writes.transaction
  intro world value repo done
  dsimp only at done
  split at done
  · cases done
    exact .refl world
  · split at done
    · cases done
      apply Aside.of_leases
      intro lease member _
      rcases mem_renewReadLease member with ⟨old, active, same⟩
      rw [← same]
      exact .inl (reads_of_active active)
    · cases done
      exact .refl world

theorem finishRepositoryReadState_aside (token : String) :
    Writes (Aside none) (finishRepositoryReadState token) := by
  apply Writes.transaction
  intro world value repo done
  cases done
  apply Aside.of_leases
  intro lease member _
  exact .inl (reads_of_active (List.mem_of_mem_filter member))

theorem acquireNativeCatalogReaderLease_aside
    (operation : NativeReceiveOperation) :
    Writes (Aside none) (acquireNativeCatalogReaderLease operation) := by
  apply Writes.transaction
  intro world value repo done
  dsimp only at done
  split at done
  · cases done
    exact .refl world
  · split at done
    · cases done
      exact .refl world
    · next reachable =>
      split at done
      · cases done
        exact .refl world
      · cases done
        apply Aside.of_native
        intro generation fenced held same _
        cases same
        rcases fenced.floor with ⟨floor, stored, covered⟩
        rw [stored] at reachable
        apply covered.trans
        apply Nat.le_of_not_lt
        intro below
        exact reachable (decide_eq_true below)

theorem renewNativeCatalogReaderLease_aside (operation : NativeReceiveOperation) :
    Writes (Aside none) (renewNativeCatalogReaderLease operation) := by
  apply Writes.transaction
  intro world value repo done
  dsimp only at done
  split at done
  · cases done
    exact .refl world
  · split at done
    · cases done
      exact .refl world
    · next lease stored =>
      split at done
      · cases done
        exact .refl world
      · next renewable =>
        cases done
        apply Aside.of_native
        intro generation fenced held same _
        cases same
        refine fenced.native lease stored ?_
        apply Nat.lt_of_not_le
        intro expired
        exact renewable (.inr (.inr expired))

theorem releaseNativeCatalogReaderLease_aside (operationId : String) :
    Writes (Aside none) (releaseNativeCatalogReaderLease operationId) := by
  apply Writes.transaction
  intro world value repo done
  split at done
  · cases done
    apply Aside.of_native
    intro generation fenced held same
    cases same
  · cases done
    exact .refl world

/-! ## The fence -/

theorem raiseGenerationFloor_aside {began : Option String}
    {generation : Option Nat} (same : Aside began world (world.withRepo repo)) :
    Aside began world (world.withRepo (raiseGenerationFloor generation repo)) := by
  unfold raiseGenerationFloor
  cases generation with
  | none => exact same
  | some generation =>
    dsimp only
    split
    · next lower =>
      refine ⟨⟨same.readers.reads, ?_⟩, same.catalog⟩
      intro other fenced
      have kept := same.readers.fenced other fenced
      refine ⟨?_, kept.native⟩
      rcases kept.floor with ⟨floor, stored, covered⟩
      refine ⟨generation, rfl, ?_⟩
      have above : floor < generation := by
        have stored : repo.nativeCatalogReaderGenerationFloor = some floor :=
          stored
        rw [stored] at lower
        exact of_decide_eq_true lower
      exact covered.trans above.le
    · exact same

theorem canDeleteSupersededGenerationState_aside (generation : Option Nat) :
    Writes (Aside none) (canDeleteSupersededGenerationState generation) := by
  have none_kept : ∀ world : World, Aside none world
      (world.withRepo (world.repo.setRepositoryReadLeases [])) := by
    intro world
    apply Aside.of_leases
    intro lease member
    cases member
  apply Writes.transaction
  intro world value repo done
  dsimp only at done
  split at done
  · cases done
    apply Aside.of_leases
    intro lease member _
    exact .inl (reads_of_active member)
  · split at done
    · cases done
      exact none_kept world
    · cases done
      exact raiseGenerationFloor_aside (none_kept world)

theorem raiseGenerationFloor_fenced
    (native : ∀ lease, repo.nativeCatalogReaderLease = some lease →
      world.now < lease.expiresAt → generation ≤ lease.generation) :
    Fenced generation
      (world.withRepo (raiseGenerationFloor (some generation) repo)) := by
  unfold raiseGenerationFloor
  dsimp only
  split
  · exact ⟨⟨generation, rfl, Nat.le_refl _⟩, native⟩
  · next higher =>
    refine ⟨?_, native⟩
    cases stored : repo.nativeCatalogReaderGenerationFloor with
    | none =>
      rw [stored] at higher
      exact absurd rfl higher
    | some floor =>
      rw [stored] at higher
      refine ⟨floor, stored, Nat.le_of_not_lt ?_⟩
      intro lower
      exact higher (decide_eq_true lower)

/-- Behind a safe answer there is no reader, and no native reader below the
generation. -/
theorem canDeleteSupersededGenerationState_safe {fence : ReaderFence}
    (ran : RunsAlone (canDeleteSupersededGenerationState (some generation))
      before last (some (.ok fence))) (safe : fence.safe = true) :
    Fenced generation last ∧ ∀ token, ¬ Reads last token := by
  rcases runs_transaction_inv ran with ⟨repo, done, rfl⟩
  dsimp only at done
  split at done
  · cases done
    cases safe
  · split at done
    · cases done
      cases safe
    · next absent =>
      cases done
      constructor
      · apply raiseGenerationFloor_fenced
        intro lease stored unexpired
        have stored : before.repo.nativeCatalogReaderLease = some lease := stored
        have passes := Option.filter_eq_none_iff.mp absent lease stored
        apply Nat.le_of_not_lt
        intro below
        apply passes
        exact Bool.and_eq_true_iff.mpr
          ⟨decide_eq_true unexpired, decide_eq_true below⟩
      · intro token reads
        rcases reads with ⟨lease, member, _⟩
        have none : (raiseGenerationFloor (some generation)
            (before.repo.setRepositoryReadLeases [])).repositoryReadLeases =
            [] := by
          unfold raiseGenerationFloor
          dsimp only
          split <;> rfl
        have member : lease ∈ (raiseGenerationFloor (some generation)
            (before.repo.setRepositoryReadLeases [])).repositoryReadLeases :=
          member
        rw [none] at member
        cases member

/-! ## Claims and removals -/

theorem claimSupersededGcPacksState_subset
    (ran : RunsAlone (claimSupersededGcPacksState packKeys) before last
      (some (.ok (.packs claimed)))) : claimed ⊆ packKeys := by
  have ensured : (claimSupersededGcPacksState packKeys).Ensures AnyAnswer
      (fun _ _ => True) ClockDrift
      (fun answer _ => ∀ claimed, answer = .packs claimed → claimed ⊆ packKeys)
      (fun _ _ => True) before := by
    unfold claimSupersededGcPacksState
    rw [Program.bind_eq_bind, Program.ensures_bind, ensures_get]
    split
    · intro claimed same
      cases same
    · split
      · intro claimed same
        cases same
      · next found =>
        intro claimed same
        cases same
        exact supersededPackKeys_subset found
  exact (Program.Ensures.runs (fun _ => True) ran ensured trivial
    (fun _ _ _ _ => trivial) (fun _ _ _ _ => trivial)).2 claimed rfl

theorem claimSupersededGcPacksState_aside (packKeys : List String) :
    Writes (Aside none) (claimSupersededGcPacksState packKeys) := by
  unfold claimSupersededGcPacksState
  apply Writes.get_bind
  intro repo
  split
  · exact .done _
  · split <;> exact .done _

theorem mem_of_mem_deletePackCatalogRows {row : PackCatalogRow}
    (member : row ∈ (deletePackCatalogRows catalog packKeys).items) :
    row ∈ catalog.items := by
  unfold deletePackCatalogRows at member
  induction packKeys generalizing catalog with
  | nil => exact member
  | cons packKey packKeys ih =>
    exact List.mem_of_mem_filter (ih member)

/-- Rows go, and no reader comes. -/
structure Removes (before after : World) : Prop where
  readers : ReadersKept none before after
  rows : ∀ row ∈ after.repo.packCatalog.items,
    row ∈ before.repo.packCatalog.items

theorem removeSupersededGcPacksState_removes
    {result : Option (Except RepoFailure SupersededPacksResult)}
    (ran : RunsAlone (removeSupersededGcPacksState packKeys) before last result) :
    Removes before last := by
  have writes : Writes Removes (removeSupersededGcPacksState packKeys) := by
    unfold removeSupersededGcPacksState
    apply Writes.get_bind
    intro repo
    split
    · exact .done _
    · split
      · exact .done _
      · apply Writes.bind
        · apply Writes.put
          intro world
          refine ⟨.of_same ⟨rfl, rfl, rfl, rfl⟩, ?_⟩
          intro row member
          exact mem_of_mem_deletePackCatalogRows member
        intro _
        exact .done _
  apply writes.of_run _ _ _ ran
  · intro world
    exact ⟨.refl world, fun _ member => member⟩
  · intro first second third one two
    exact ⟨.trans _ _ _ one.readers two.readers,
      fun row member => one.rows row (two.rows row member)⟩
  · intro before later drifted
    refine ⟨.of_drift before later drifted, ?_⟩
    intro row member
    rw [drifted.1] at member
    exact member

end GitOnCloudflare.Deletion
