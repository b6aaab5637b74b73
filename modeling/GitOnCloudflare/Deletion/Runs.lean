import GitOnCloudflare.Deletion.CatalogCalls
import GitOnCloudflare.Publication.Runs

/-!
# Deletion of superseded packs beside readers

Messages name packs that have been superseded, and each may be delivered in any
number and at any time.  A worker looks at the published generation, at the
readers and at the catalog before it deletes the packs.  Readers, receives,
compactions and collections go on between its calls.
-/

namespace GitOnCloudflare.Deletion

open Foundations
open Repo
open Compaction
open Publication

/-! ## The handler of a message -/

/-- Packs to delete and when they were superseded. -/
structure CompactionDeleteMessage where
  packKeys : List String
  supersededAtGeneration : Option Nat
  removeCatalogRows : Bool

/-- The index in the bucket with the packs of its manifest. -/
structure PublishedGeneration where
  generation : Nat
  activePackKeys : List String

/-- The call that `handleCompactionDeleteMessage` sends next, or whether it
acknowledged the message. -/
inductive DeletePhase where
  | getPublished
  | checkReaders (generation : Nat)
  | claim
  | delete (packKeys : List String)
  | remove (packKeys : List String)
  | ended (acknowledged : Bool)
deriving DecidableEq

/-- A worker that handles a message. -/
structure DeleteWorker where
  body : CompactionDeleteMessage
  phase : DeletePhase

namespace DeleteWorker

def received (ownedPackPrefix : String) (body : CompactionDeleteMessage) :
    DeleteWorker where
  body := body
  phase :=
    if body.packKeys.all fun packKey =>
        ownedPackPrefix.toList.isPrefixOf packKey.toList then
      .getPublished
    else
      .ended true

def gotPublished (worker : DeleteWorker)
    (published : Option PublishedGeneration) : DeleteWorker :=
  { worker with
    phase :=
      match published with
      | none => .ended false
      | some published =>
        let generationTooOld :=
          worker.body.supersededAtGeneration.any fun generation =>
            published.generation < generation
        let stillPublished :=
          worker.body.packKeys.any fun packKey =>
            packKey ∈ published.activePackKeys
        if generationTooOld || stillPublished then
          .ended false
        else
          .checkReaders
            (worker.body.supersededAtGeneration.getD published.generation) }

/-- The artifacts of the confirmed packs are deleted next. -/
def confirmed (packKeys : List String) : DeletePhase :=
  if packKeys = [] then .ended true else .delete packKeys

/-- An answer that is lost leaves the message to be delivered again. -/
def checked (worker : DeleteWorker) :
    Option (Except RepoFailure ReaderFence) → DeleteWorker
  | some (.ok fence) =>
    { worker with
      phase :=
        if !fence.safe then
          .ended false
        else if worker.body.removeCatalogRows then
          .claim
        else
          confirmed worker.body.packKeys }
  | _ => { worker with phase := .ended false }

def claimed (worker : DeleteWorker) :
    Option (Except RepoFailure SupersededPacksResult) → DeleteWorker
  | some (.ok (.packs packKeys)) => { worker with phase := confirmed packKeys }
  | _ => { worker with phase := .ended false }

def deleted (worker : DeleteWorker) (packKeys : List String) : DeleteWorker :=
  { worker with
    phase :=
      if worker.body.removeCatalogRows then
        .remove packKeys
      else
        .ended true }

def removed (worker : DeleteWorker) :
    Option (Except RepoFailure SupersededPacksResult) → DeleteWorker
  | some (.ok (.packs _)) => { worker with phase := .ended true }
  | _ => { worker with phase := .ended false }

end DeleteWorker

/-! ## The system -/

/-- The packs that a reader found active. -/
structure CatalogCapture where
  token : String
  packKeys : List String

/-- The repository, the published generation, the tokens and catalogs of
readers, the operations of native readers, the generation at which each pack
was superseded, the packs that were deleted, the messages and the workers. -/
structure DeletionSystem where
  world : World
  published : Option PublishedGeneration
  tokens : List String
  captures : List CatalogCapture
  operations : List NativeReceiveOperation
  supersededAt : List (String × Nat)
  deletedPacks : List String
  messages : List CompactionDeleteMessage
  workers : List DeleteWorker

def supersededRowKeys (catalog : PackCatalog) : List String :=
  (catalog.items.filter fun row => row.state = .superseded).map
    PackCatalogRow.packKey

namespace DeletionSystem

def supersededKeys (system : DeletionSystem) : List String :=
  system.supersededAt.map Prod.fst

/-- A call on the catalog has ended or was cut off.  The packs that it has
superseded are not in the catalog of the next generation. -/
def moved (system : DeletionSystem) (last : World) : DeletionSystem :=
  { system with
    world := last
    supersededAt :=
      (((supersededRowKeys last.repo.packCatalog).filter fun packKey =>
        packKey ∉ system.supersededKeys).map fun packKey =>
          (packKey, system.world.repo.packsetVersion + 1)) ++
        system.supersededAt }

def withWorker (system : DeletionSystem) (slot : Nat) (worker : DeleteWorker) :
    DeletionSystem :=
  { system with workers := system.workers.set slot worker }

end DeletionSystem

/-- A generation at or above those at which the packs of a message were
superseded. -/
def Covers (system : DeletionSystem) (body : CompactionDeleteMessage)
    (generation : Nat) : Prop :=
  ∀ packKey ∈ body.packKeys, ∀ supersededAt,
    (packKey, supersededAt) ∈ system.supersededAt → supersededAt ≤ generation

/-- How a step may leave what the handler relies on. -/
inductive Departure where
  | reactivates
  | asksBelow

section Step

variable (ownedPackPrefix : String) (allows : Departure → Prop)
  (system : DeletionSystem)

/-- `allows` says whether the row of a staged pack may be written behind its
being superseded, and whether the readers may be checked for a generation below
that of the packs. -/
inductive DeletionStep : DeletionSystem → Prop where
  | changed {last : World} {staged : List String}
      (called : CatalogCall system.world last staged)
      (allowed : (∃ packKey ∈ staged, packKey ∈ system.supersededKeys ∧
        packKey ∈ activePackKeys last) → allows .reactivates) :
      DeletionStep (system.moved last)
  | published (generation : PublishedGeneration) :
      DeletionStep { system with published := some generation }
  | began {token : String} {operation : RepositoryReadOperation} {last : World}
      {result : Option (Except RepoFailure BeginRepositoryReadResult)}
      (fresh : token ∉ system.tokens)
      (ran : RunsAlone (beginRepositoryReadState token operation) system.world
        last result) :
      DeletionStep { system with world := last, tokens := token :: system.tokens }
  | renewed {token : String} {last : World}
      {result : Option (Except RepoFailure Bool)}
      (ran : RunsAlone (renewRepositoryReadState token) system.world last
        result) :
      DeletionStep { system with world := last }
  | finished {token : String} {last : World}
      {result : Option (Except RepoFailure Unit)}
      (ran : RunsAlone (finishRepositoryReadState token) system.world last
        result) :
      DeletionStep { system with world := last }
  -- behind its lease a reader finds what is active
  | captured {token : String} (issued : token ∈ system.tokens) :
      DeletionStep { system with
          captures := ⟨token, activePackKeys system.world⟩ :: system.captures }
  | prepared {operation : NativeReceiveOperation}
      (generation : operation.catalogGeneration =
        system.world.repo.packsetVersion)
      (catalog : operation.activeCatalog =
        listActivePackCatalog system.world.repo.packCatalog) :
      DeletionStep { system with operations := operation :: system.operations }
  | acquired {operation : NativeReceiveOperation} {last : World}
      {result : Option (Except RepoFailure AcquireReaderResult)}
      (known : operation ∈ system.operations)
      (ran : RunsAlone (acquireNativeCatalogReaderLease operation) system.world
        last result) :
      DeletionStep { system with world := last }
  | nativeRenewed {operation : NativeReceiveOperation} {last : World}
      {result : Option (Except RepoFailure Bool)}
      (ran : RunsAlone (renewNativeCatalogReaderLease operation) system.world
        last result) :
      DeletionStep { system with world := last }
  | released {operationId : String} {last : World}
      {result : Option (Except RepoFailure Unit)}
      (ran : RunsAlone (releaseNativeCatalogReaderLease operationId)
        system.world last result) :
      DeletionStep { system with world := last }
  -- the clock, and calls that leave catalog and readers alone or drop leases
  -- that have expired
  | elsewhere {last : World} (aside : Aside none system.world last) :
      DeletionStep { system with world := last }
  | sent {body : CompactionDeleteMessage}
      (superseded : ∀ packKey ∈ body.packKeys,
        packKey ∈ system.supersededKeys) :
      DeletionStep { system with messages := body :: system.messages }
  | delivered {body : CompactionDeleteMessage} (queued : body ∈ system.messages) :
      DeletionStep { system with
          workers :=
            system.workers ++ [DeleteWorker.received ownedPackPrefix body] }
  | gotPublished {slot : Nat} {worker : DeleteWorker}
      (works : system.workers[slot]? = some worker)
      (phase : worker.phase = .getPublished) :
      DeletionStep (system.withWorker slot (worker.gotPublished system.published))
  | checked {slot generation : Nat} {worker : DeleteWorker} {last : World}
      {result : Option (Except RepoFailure ReaderFence)}
      (works : system.workers[slot]? = some worker)
      (phase : worker.phase = .checkReaders generation)
      (allowed : ¬ Covers system worker.body generation → allows .asksBelow)
      (ran : RunsAlone (canDeleteSupersededGenerationState (some generation))
        system.world last result) :
      DeletionStep ({ system with world := last }.withWorker slot (worker.checked result))
  | claimed {slot : Nat} {worker : DeleteWorker} {last : World}
      {result : Option (Except RepoFailure SupersededPacksResult)}
      (works : system.workers[slot]? = some worker)
      (phase : worker.phase = .claim)
      (ran : RunsAlone (claimSupersededGcPacksState worker.body.packKeys)
        system.world last result) :
      DeletionStep ({ system with world := last }.withWorker slot (worker.claimed result))
  | deleted {slot : Nat} {worker : DeleteWorker} {packKeys : List String}
      (works : system.workers[slot]? = some worker)
      (phase : worker.phase = .delete packKeys) :
      DeletionStep ({ system with
            deletedPacks := packKeys ++ system.deletedPacks }.withWorker slot
          (worker.deleted packKeys))
  | removed {slot : Nat} {worker : DeleteWorker} {packKeys : List String}
      {last : World} {result : Option (Except RepoFailure SupersededPacksResult)}
      (works : system.workers[slot]? = some worker)
      (phase : worker.phase = .remove packKeys)
      (ran : RunsAlone (removeSupersededGcPacksState packKeys) system.world last
        result) :
      DeletionStep ({ system with world := last }.withWorker slot (worker.removed result))
  | failed {slot : Nat} {worker : DeleteWorker}
      (works : system.workers[slot]? = some worker) :
      DeletionStep (system.withWorker slot { worker with phase := .ended false })

end Step

/-! ## Safe deletions -/

/-- No row of a staged pack is written that has been superseded, and readers
are checked for a generation that covers the packs. -/
def Relied : Departure → Prop := fun _ => False

/-- No reader is there yet, and no message.  What has been superseded is not
active. -/
structure Quiet (system : DeletionSystem) : Prop where
  captures : system.captures = []
  messages : system.messages = []
  workers : system.workers = []
  inactive : ∀ packKey ∈ system.supersededKeys,
    packKey ∉ activePackKeys system.world

/-- Nobody needs these packs: no reader with an unexpired lease has captured
one, no native reader of a generation below that of the pack holds a lease, and
no row of theirs is active. -/
structure SafeDeletion (system : DeletionSystem) (packKeys : List String) :
    Prop where
  captured : ∀ capture ∈ system.captures, ∀ packKey ∈ packKeys,
    packKey ∈ capture.packKeys → ¬ Reads system.world capture.token
  native : ∀ operation ∈ system.operations, ∀ packKey ∈ packKeys,
    packKey ∈ operation.activeCatalog.map PackCatalogRow.packKey →
      ∀ lease, system.world.repo.nativeCatalogReaderLease = some lease →
        lease.token = operation.id → system.world.now < lease.expiresAt →
          ∀ supersededAt, (packKey, supersededAt) ∈ system.supersededAt →
            supersededAt ≤ lease.generation
  inactive : ∀ packKey ∈ packKeys, packKey ∉ activePackKeys system.world

/-- What a worker knows behind the check of the readers. -/
structure Guarded (system : DeletionSystem) (body : CompactionDeleteMessage) :
    Prop where
  fenced : ∃ generation, Covers system body generation ∧
    Fenced generation system.world
  unread : ∀ capture ∈ system.captures, ∀ packKey ∈ body.packKeys,
    packKey ∈ capture.packKeys → ¬ Reads system.world capture.token

def DeletePhase.Guards (system : DeletionSystem)
    (body : CompactionDeleteMessage) : DeletePhase → Prop
  | .claim => Guarded system body
  | .delete packKeys => packKeys ⊆ body.packKeys ∧ Guarded system body
  | _ => True

/-- What holds in every state of a run. -/
structure DeletionInvariant (system : DeletionSystem) : Prop where
  issued : ∀ capture ∈ system.captures, capture.token ∈ system.tokens
  inactive : ∀ packKey ∈ system.supersededKeys,
    packKey ∉ activePackKeys system.world
  sent : ∀ body ∈ system.messages, ∀ packKey ∈ body.packKeys,
    packKey ∈ system.supersededKeys
  bodies : ∀ worker ∈ system.workers, ∀ packKey ∈ worker.body.packKeys,
    packKey ∈ system.supersededKeys
  guards : ∀ worker ∈ system.workers,
    worker.phase.Guards system worker.body

/-- What goes on beside the workers. -/
structure Later (system after : DeletionSystem) : Prop where
  keys : ∀ packKey ∈ system.supersededKeys, packKey ∈ after.supersededKeys
  entries : ∀ entry ∈ after.supersededAt,
    entry ∈ system.supersededAt ∨ entry.1 ∉ system.supersededKeys
  readers : ∃ began, ReadersKept began system.world after.world ∧
    ∀ token, began = some token → token ∉ system.tokens
  captures : ∀ capture ∈ after.captures, capture ∈ system.captures ∨
    ∀ packKey ∈ capture.packKeys, packKey ∉ system.supersededKeys

variable {system after : DeletionSystem}

theorem Later.beside (readers : ReadersKept none system.world after.world)
    (superseded : after.supersededAt = system.supersededAt)
    (captures : after.captures = system.captures) : Later system after := by
  refine ⟨?_, ?_, ⟨none, readers, fun _ same => by cases same⟩, ?_⟩
  · unfold DeletionSystem.supersededKeys
    rw [superseded]
    exact fun _ member => member
  · rw [superseded]
    exact fun _ member => .inl member
  · rw [captures]
    exact fun _ member => .inl member

variable {body : CompactionDeleteMessage} {last : World}

/-- What a worker knows stays so. -/
theorem Guarded.later (guarded : Guarded system body)
    (beside : Later system after)
    (issued : ∀ capture ∈ system.captures, capture.token ∈ system.tokens)
    (known : ∀ packKey ∈ body.packKeys, packKey ∈ system.supersededKeys) :
    Guarded after body := by
  rcases beside.readers with ⟨began, kept, fresh⟩
  constructor
  · rcases guarded.fenced with ⟨generation, covers, fenced⟩
    refine ⟨generation, ?_, kept.fenced generation fenced⟩
    intro packKey member supersededAt entry
    rcases beside.entries _ entry with earlier | new
    · exact covers packKey member supersededAt earlier
    · exact absurd (known packKey member) new
  · intro capture there packKey member held reads
    rcases beside.captures capture there with earlier | new
    · rcases kept.reads _ reads with before | same
      · exact guarded.unread capture earlier packKey member held before
      · exact fresh _ same (issued capture earlier)
    · exact new packKey held (known packKey member)

variable {phase : DeletePhase} {worker : DeleteWorker} {packKeys : List String}
  {ownedPackPrefix : String}

theorem DeletePhase.Guards.later (guards : phase.Guards system body)
    (beside : Later system after)
    (issued : ∀ capture ∈ system.captures, capture.token ∈ system.tokens)
    (known : ∀ packKey ∈ body.packKeys, packKey ∈ system.supersededKeys) :
    phase.Guards after body := by
  cases phase with
  | claim => exact Guarded.later guards beside issued known
  | delete packKeys =>
    exact ⟨guards.1, guards.2.later beside issued known⟩
  | getPublished => trivial
  | checkReaders generation => trivial
  | remove packKeys => trivial
  | ended acknowledged => trivial

/-- The invariant behind a step that no worker takes. -/
theorem DeletionInvariant.later (invariant : DeletionInvariant system)
    (beside : Later system after)
    (issued : ∀ capture ∈ after.captures, capture.token ∈ after.tokens)
    (inactive : ∀ packKey ∈ after.supersededKeys,
      packKey ∉ activePackKeys after.world)
    (messages : ∀ body ∈ after.messages, body ∈ system.messages ∨
      ∀ packKey ∈ body.packKeys, packKey ∈ after.supersededKeys)
    (workers : ∀ worker ∈ after.workers, worker ∈ system.workers) :
    DeletionInvariant after := by
  refine ⟨issued, inactive, ?_, ?_, ?_⟩
  · intro body member
    rcases messages body member with earlier | new
    · intro packKey held
      exact beside.keys packKey (invariant.sent body earlier packKey held)
    · exact new
  · intro worker member packKey held
    exact beside.keys packKey
      (invariant.bodies worker (workers worker member) packKey held)
  · intro worker member
    have earlier := workers worker member
    exact (invariant.guards worker earlier).later beside invariant.issued
      (invariant.bodies worker earlier)

/-- A call of a reader or of a worker on the repository. -/
theorem DeletionInvariant.aside {began : Option String} {tokens : List String}
    (invariant : DeletionInvariant system)
    (aside : Aside began system.world last)
    (fresh : ∀ token, began = some token → token ∉ system.tokens)
    (issued : ∀ token ∈ system.tokens, token ∈ tokens) :
    DeletionInvariant { system with world := last, tokens := tokens } := by
  refine invariant.later ?_ ?_ ?_ (fun _ member => .inl member)
    fun _ member => member
  · exact ⟨fun _ member => member, fun _ member => .inl member,
      ⟨began, aside.readers, fresh⟩, fun _ member => .inl member⟩
  · intro capture member
    exact issued _ (invariant.issued capture member)
  · intro packKey member active
    apply invariant.inactive packKey member
    have active : packKey ∈ packKeysOf last.repo.packCatalog := active
    rw [aside.catalog] at active
    exact active

theorem DeletionInvariant.none_began (invariant : DeletionInvariant system)
    (aside : Aside none system.world last) :
    DeletionInvariant { system with world := last } := by
  refine invariant.aside aside ?_ fun _ member => member
  intro token same
  cases same

theorem DeletionInvariant.withWorker {slot : Nat}
    (invariant : DeletionInvariant system)
    (works : system.workers[slot]? = some worker)
    (guards : phase.Guards system worker.body) :
    DeletionInvariant (system.withWorker slot { worker with phase := phase }) := by
  have beside : Later system
      (system.withWorker slot { worker with phase := phase }) :=
    .beside (.refl _) rfl rfl
  have known := invariant.bodies worker (List.mem_of_getElem? works)
  refine ⟨invariant.issued, invariant.inactive, invariant.sent, ?_, ?_⟩
  · intro other member
    rcases List.mem_or_eq_of_mem_set member with earlier | rfl
    · exact invariant.bodies other earlier
    · exact known
  · intro other member
    rcases List.mem_or_eq_of_mem_set member with earlier | rfl
    · exact (invariant.guards other earlier).later beside invariant.issued
        (invariant.bodies other earlier)
    · exact guards.later beside invariant.issued known

/-- A row is not superseded and active. -/
theorem not_active_of_superseded {catalog : PackCatalog} {packKey : String}
    (superseded : packKey ∈ supersededRowKeys catalog) :
    packKey ∉ packKeysOf catalog := by
  intro active
  rcases List.mem_map.mp superseded with ⟨row, listed, rfl⟩
  rcases List.mem_filter.mp listed with ⟨member, state⟩
  rcases List.mem_map.mp active with ⟨other, found, same⟩
  rcases mem_listActivePackCatalog.mp found with ⟨there, current⟩
  have first := KeyedList.find?_eq_some_iff.mpr ⟨member, rfl⟩
  have second := KeyedList.find?_eq_some_iff.mpr ⟨there, same⟩
  cases first.symm.trans second
  rw [current] at state
  exact absurd (of_decide_eq_true state) (by decide)

theorem DeletionInvariant.moved {staged : List String}
    (invariant : DeletionInvariant system)
    (called : CatalogCall system.world last staged)
    (relied : ¬ ∃ packKey ∈ staged, packKey ∈ system.supersededKeys ∧
      packKey ∈ activePackKeys last) :
    DeletionInvariant (system.moved last) := by
  have stays : ∀ packKey ∈ system.supersededKeys,
      packKey ∉ activePackKeys last := by
    intro packKey member active
    rcases called.stages.active packKey active with earlier | named
    · exact invariant.inactive packKey member earlier
    · exact relied ⟨packKey, named, member, active⟩
  have fresh : ∀ entry ∈ (system.moved last).supersededAt,
      entry ∈ system.supersededAt ∨
        entry.1 ∉ system.supersededKeys ∧
          entry.1 ∈ supersededRowKeys last.repo.packCatalog := by
    intro entry member
    rcases List.mem_append.mp member with new | earlier
    · rcases List.mem_map.mp new with ⟨packKey, listed, rfl⟩
      rcases List.mem_filter.mp listed with ⟨superseded, unknown⟩
      exact .inr ⟨of_decide_eq_true unknown, superseded⟩
    · exact .inl earlier
  refine invariant.later ?_ invariant.issued ?_ (fun _ member => .inl member)
    fun _ member => member
  · refine ⟨?_, ?_, ⟨none, called.stages.readers, ?_⟩, fun _ member => .inl member⟩
    · intro packKey member
      rcases List.mem_map.mp member with ⟨entry, held, rfl⟩
      exact List.mem_map_of_mem (List.mem_append_right _ held)
    · intro entry member
      rcases fresh entry member with earlier | ⟨new, _⟩
      · exact .inl earlier
      · exact .inr new
    · intro token same
      cases same
  · intro packKey member
    rcases List.mem_map.mp member with ⟨entry, held, rfl⟩
    rcases fresh entry held with earlier | ⟨_, superseded⟩
    · exact stays _ (List.mem_map_of_mem earlier)
    · exact not_active_of_superseded superseded

/-! ## Runs -/

theorem guards_confirmed (subset : packKeys ⊆ body.packKeys)
    (guarded : Guarded system body) :
    (DeleteWorker.confirmed packKeys).Guards system body := by
  unfold DeleteWorker.confirmed
  split
  · trivial
  · exact ⟨subset, guarded⟩

/-- A safe answer guards the packs. -/
theorem DeletionInvariant.checked {slot generation : Nat}
    {worker : DeleteWorker} {last : World}
    {result : Option (Except RepoFailure ReaderFence)}
    (invariant : DeletionInvariant system)
    (works : system.workers[slot]? = some worker)
    (covers : Covers system worker.body generation)
    (ran : RunsAlone (canDeleteSupersededGenerationState (some generation))
      system.world last result) :
    DeletionInvariant
      ({ system with world := last }.withWorker slot (worker.checked result)) := by
  have aside := Aside.of_run (canDeleteSupersededGenerationState_aside _) ran
  have held := invariant.none_began aside
  have lost : DeletionInvariant ({ system with world := last }.withWorker slot
      { worker with phase := .ended false }) :=
    held.withWorker works trivial
  cases result with
  | none => exact lost
  | some result =>
    cases result with
    | error failure => exact lost
    | ok fence =>
      apply held.withWorker works
      cases safe : fence.safe with
      | false => trivial
      | true =>
        rcases canDeleteSupersededGenerationState_safe ran safe with
          ⟨fenced, unread⟩
        have guarded : Guarded { system with world := last } worker.body :=
          ⟨⟨generation, covers, fenced⟩, fun capture _ _ _ _ =>
            unread capture.token⟩
        cases worker.body.removeCatalogRows with
        | true => exact guarded
        | false => exact guards_confirmed (List.Subset.refl _) guarded

theorem DeletionInvariant.claimed {slot : Nat} {worker : DeleteWorker}
    {last : World} {result : Option (Except RepoFailure SupersededPacksResult)}
    (invariant : DeletionInvariant system)
    (works : system.workers[slot]? = some worker)
    (phase : worker.phase = .claim)
    (ran : RunsAlone (claimSupersededGcPacksState worker.body.packKeys)
      system.world last result) :
    DeletionInvariant
      ({ system with world := last }.withWorker slot (worker.claimed result)) := by
  have aside := Aside.of_run (claimSupersededGcPacksState_aside _) ran
  have held := invariant.none_began aside
  have guarded := held.guards worker (List.mem_of_getElem? works)
  rw [phase] at guarded
  have lost : DeletionInvariant ({ system with world := last }.withWorker slot
      { worker with phase := .ended false }) :=
    held.withWorker works trivial
  cases result with
  | none => exact lost
  | some result =>
    cases result with
    | error failure => exact lost
    | ok answer =>
      cases answer with
      | retry reason => exact lost
      | packs packKeys =>
        apply held.withWorker works
        exact guards_confirmed (claimSupersededGcPacksState_subset ran) guarded

theorem DeletionInvariant.removed {last : World}
    (invariant : DeletionInvariant system) (removes : Removes system.world last) :
    DeletionInvariant { system with world := last } := by
  refine invariant.later (.beside removes.readers rfl rfl) invariant.issued ?_
    (fun _ member => .inl member) fun _ member => member
  intro packKey member active
  apply invariant.inactive packKey member
  rcases List.mem_map.mp active with ⟨row, found, rfl⟩
  rcases mem_listActivePackCatalog.mp found with ⟨there, current⟩
  apply List.mem_map_of_mem
  exact mem_listActivePackCatalog.mpr ⟨removes.rows row there, current⟩

theorem DeletionStep.invariant {next : DeletionSystem}
    (stepped : DeletionStep ownedPackPrefix Relied system next)
    (invariant : DeletionInvariant system) : DeletionInvariant next := by
  have beside : ∀ {after : DeletionSystem}, after.world = system.world →
      after.supersededAt = system.supersededAt →
      after.captures = system.captures → Later system after :=
    fun world => .beside (world ▸ .refl _)
  cases stepped with
  | changed called allowed => exact invariant.moved called allowed
  | published generation =>
    exact invariant.later (beside rfl rfl rfl) invariant.issued
      invariant.inactive (fun _ member => .inl member) fun _ member => member
  | began fresh ran =>
    refine invariant.aside (Aside.of_run (beginRepositoryReadState_aside _ _) ran)
      ?_ fun _ member => List.mem_cons_of_mem _ member
    intro token same
    cases same
    exact fresh
  | renewed ran =>
    exact invariant.none_began
      (Aside.of_run (renewRepositoryReadState_aside _) ran)
  | finished ran =>
    exact invariant.none_began
      (Aside.of_run (finishRepositoryReadState_aside _) ran)
  | captured issued =>
    refine invariant.later ?_ ?_ invariant.inactive
      (fun _ member => .inl member) fun _ member => member
    · refine ⟨fun _ member => member, fun _ member => .inl member,
        ⟨none, .refl _, fun _ same => by cases same⟩, ?_⟩
      intro capture member
      rcases List.mem_cons.mp member with rfl | earlier
      · right
        intro packKey active superseded
        exact invariant.inactive packKey superseded active
      · exact .inl earlier
    · intro capture member
      rcases List.mem_cons.mp member with rfl | earlier
      · exact issued
      · exact invariant.issued capture earlier
  | prepared generation catalog =>
    exact invariant.later (beside rfl rfl rfl) invariant.issued
      invariant.inactive (fun _ member => .inl member) fun _ member => member
  | acquired known ran =>
    exact invariant.none_began
      (Aside.of_run (acquireNativeCatalogReaderLease_aside _) ran)
  | nativeRenewed ran =>
    exact invariant.none_began
      (Aside.of_run (renewNativeCatalogReaderLease_aside _) ran)
  | released ran =>
    exact invariant.none_began
      (Aside.of_run (releaseNativeCatalogReaderLease_aside _) ran)
  | elsewhere aside => exact invariant.none_began aside
  | sent superseded =>
    refine invariant.later (beside rfl rfl rfl) invariant.issued
      invariant.inactive ?_ fun _ member => member
    intro body member
    rcases List.mem_cons.mp member with rfl | earlier
    · exact .inr superseded
    · exact .inl earlier
  | @delivered body queued =>
    refine ⟨invariant.issued, invariant.inactive, invariant.sent, ?_, ?_⟩
    · intro worker member
      rcases List.mem_append.mp member with earlier | new
      · exact invariant.bodies worker earlier
      · cases List.mem_singleton.mp new
        exact invariant.sent body queued
    · intro worker member
      rcases List.mem_append.mp member with earlier | new
      · exact (invariant.guards worker earlier).later (beside rfl rfl rfl)
          invariant.issued (invariant.bodies worker earlier)
      · cases List.mem_singleton.mp new
        unfold DeleteWorker.received
        dsimp only
        split_ifs <;> trivial
  | gotPublished works phase =>
    apply invariant.withWorker works
    split
    · trivial
    · dsimp only
      split_ifs <;> trivial
  | checked works phase allowed ran =>
    exact invariant.checked works (not_not.mp allowed) ran
  | claimed works phase ran => exact invariant.claimed works phase ran
  | @deleted slot worker packKeys works phase =>
    have kept : DeletionInvariant
        { system with deletedPacks := packKeys ++ system.deletedPacks } :=
      invariant.later (beside rfl rfl rfl) invariant.issued invariant.inactive
        (fun _ member => .inl member) fun _ member => member
    apply kept.withWorker works
    split_ifs <;> trivial
  | @removed slot worker packKeys last result works phase ran =>
    have kept := invariant.removed (removeSupersededGcPacksState_removes ran)
    have ended : ∀ acknowledged, DeletionInvariant
        ({ system with world := last }.withWorker slot
          { worker with phase := .ended acknowledged }) :=
      fun _ => kept.withWorker works trivial
    unfold DeleteWorker.removed
    split
    · exact ended true
    · exact ended false
  | failed works => exact invariant.withWorker works trivial

theorem DeletionInvariant.reaches {start last : DeletionSystem}
    (reached : Relation.ReflTransGen (DeletionStep ownedPackPrefix Relied) start
      last) (invariant : DeletionInvariant start) : DeletionInvariant last := by
  induction reached with
  | refl => exact invariant
  | tail _ stepped ih => exact stepped.invariant ih

theorem DeletionInvariant.safe (invariant : DeletionInvariant system)
    (member : worker ∈ system.workers)
    (deletes : worker.phase = .delete packKeys) :
    SafeDeletion system packKeys := by
  have guards := invariant.guards worker member
  rw [deletes] at guards
  rcases guards with ⟨subset, guarded⟩
  refine ⟨?_, ?_, ?_⟩
  · intro capture there packKey named held
    exact guarded.unread capture there packKey (subset named) held
  · intro operation _ packKey named _ lease held _ unexpired supersededAt entry
    rcases guarded.fenced with ⟨generation, covers, fenced⟩
    exact (covers packKey (subset named) supersededAt entry).trans
      (fenced.native lease held unexpired)
  · intro packKey named
    exact invariant.inactive packKey
      (invariant.bodies worker member packKey (subset named))

/-- A repository without packs, and a compaction that has begun. -/
def leasedRepository : DeletionSystem where
  world :=
    { repo := { compactLease := some ⟨"compaction", 0, 1000, some .compaction⟩ }
      now := 0 }
  published := none
  tokens := []
  captures := []
  operations := []
  supersededAt := []
  deletedPacks := []
  messages := []
  workers := []

/-- The first receive is cut off behind the row of its pack. -/
def cutBehindRow (world : World) : World :=
  (((activateStagedPack firstReceive).segment world).commits.take 1).getLastD
    world

def interrupted : World := cutBehindRow leasedRepository.world

/-- The published generation, the fence and the claim have been answered. -/
def DeleteWorker.answered (body : CompactionDeleteMessage)
    (published : PublishedGeneration) : DeleteWorker :=
  (((DeleteWorker.received "" body).gotPublished (some published)).checked
    (some (.ok ⟨true, none⟩))).claimed (some (.ok (.packs ["first"])))

/-- A delivery up to the fence. -/
def DeleteWorker.published (body : CompactionDeleteMessage)
    (published : PublishedGeneration) : DeleteWorker :=
  (DeleteWorker.received "" body).gotPublished (some published)

/-- Any step may leave what the handler relies on. -/
def Anyhow : Departure → Prop := fun _ => True

end GitOnCloudflare.Deletion
