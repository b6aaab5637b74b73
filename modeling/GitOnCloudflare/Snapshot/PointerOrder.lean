import GitOnCloudflare.Snapshot.History

/-!
# Current pointers do not depend on the order of deliveries

The calls that touch the snapshot record are the ref transactions of the two
receive paths, `setRefs` and the two projections.  In every run of them the
pointers are the newest of the delivered entries, never move back and never
meet a conflict.
-/

namespace GitOnCloudflare.Snapshot

open Foundations
open Receive
open Repo

/-- One transaction on the snapshot record. -/
inductive SnapshotEvent where
  | receive (token : String) (intent : ReceiveFinalizeIntent)
  | stockReceive (update : StockRefUpdate)
  | setRefs (refs : List Ref)
  | projectAcceptedWrite (args : ProjectAcceptedWriteArgs)
  | projectReconciledHead (args : ProjectReconciledHeadArgs)

/-- What the ref transaction of a push delivers: its pin, where it moves the
pointer. -/
def receiveOffers (current : World) (intent : ReceiveFinalizeIntent) :
    List PointerOffer :=
  match acceptedWriteFactsForIntent intent with
  | none => []
  | some facts =>
    facts.flatMap
      (factOffers current.repo intent.nextRefsVersion
        (receiveSnapshotPin intent current.settings))

namespace SnapshotEvent

/-- The entries a transaction delivers and the repository it commits. -/
def body (event : SnapshotEvent) (current : World) :
    Except RepoFailure (List PointerOffer × RepoState) :=
  match event with
  | receive token intent =>
    (applyRefUpdate current token intent).map fun result =>
      (receiveOffers current intent, result.2)
  | stockReceive update =>
    (commitStockRefs current.repo update).map fun result => ([], result.2)
  | setRefs refs => .ok ([], (Repo.setRefs current refs).2)
  | projectAcceptedWrite args =>
    (projectAcceptedWriteState current args).map fun result =>
      (ProjectionResult.offers result.1
          (entryOffers current.repo args.entryId),
        result.2)
  | projectReconciledHead args =>
    (projectReconciledHeadState current args).map fun result =>
      (ProjectionResult.offers result.1
          [⟨args.ref, args.sequence, args.commitSha⟩],
        result.2)

/-- What its caller has checked before the transaction: the intent of a push
is for the next version of the refs, and a stock receive passed its checks. -/
def admitted : SnapshotEvent → Prop
  | receive _ intent =>
    intent.nextRefsVersion = intent.expectedRefsVersion + 1
  | stockReceive update => update.admitted = true
  | setRefs _ => True
  | projectAcceptedWrite _ => True
  | projectReconciledHead _ => True

/-- The commits and trees a transaction may pin. -/
def Pins : SnapshotEvent → String → String → Prop
  | receive _ intent, commitSha, treeSha =>
    ∃ receipt, intent.ingestionReceipt = some receipt ∧
      receipt.acceptedWrite.afterSha = commitSha ∧
      receipt.treeSha = treeSha
  | stockReceive _, _, _ => False
  | setRefs _, _, _ => False
  | projectAcceptedWrite args, commitSha, treeSha =>
    args.commitSha ≠ zeroOid ∧ args.commitSha = commitSha ∧
      args.treeSha = treeSha
  | projectReconciledHead args, commitSha, treeSha =>
    args.commitSha ≠ zeroOid ∧ args.commitSha = commitSha ∧
      args.treeSha = treeSha

end SnapshotEvent

/-! ## What one transaction preserves -/

/-- A transaction continues the history, delivers entries of it and pins what
it may. -/
structure Progress
    (history : Nat → List Ref)
    (pinned : String → String → Prop)
    (offers : List PointerOffer)
    (before after : RepoState)
    (extended : Nat → List Ref) : Prop where
  continues : Continues history extended before after
  recorded : Recorded extended after
  published :
    ∀ offer ∈ offers,
      PublishedAt extended after.refsVersion offer.key offer.stamp offer.value
  accepted :
    (pointers before).offerAll offers = some (pointers after)
  pins :
    ∀ commitSha pin, after.snapshotPins.find? commitSha = some pin →
      before.snapshotPins.find? commitSha = some pin ∨
        pinned commitSha pin.treeSha

/-- The outcome of a transaction: progress, or a failure other than the
pointer conflict. -/
def Proceeds (history : Nat → List Ref) (pinned : String → String → Prop)
    (before : RepoState) :
    Except RepoFailure (List PointerOffer × RepoState) → Prop
  | .ok (offers, after) =>
    ∃ extended, Progress history pinned offers before after extended
  | .error failure => failure ≠ .snapshotCurrentConflict

variable {before after repo : RepoState}

section Steps

variable {history : Nat → List Ref}
variable {pinned : String → String → Prop}
  {offers : List PointerOffer} {current : World}
  {extended : Nat → List Ref}

theorem Progress.of_change (recorded : Recorded history before)
    (offered :
      ∀ offer ∈ offers,
        PublishedAt history before.refsVersion offer.key offer.stamp
          offer.value)
    (changed :
      RecordChange (PublishedAt history before.refsVersion) pinned offers
        before after) :
    Progress history pinned offers before after history where
  continues := ⟨changed.refsVersion.ge, fun _ _ => rfl⟩
  recorded := recorded.change offered changed
  published := by
    intro offer member
    rw [changed.refsVersion]
    exact offered offer member
  accepted := changed.pointers
  pins := changed.pins

variable {stored middle : RepoState} {expected expectedPin nextPin : Nat}
  {nextPackset : Option Nat} {intent : ReceiveFinalizeIntent}

/-- Storing refs and then recording their writes. -/
theorem Progress.of_stored (recorded : Recorded history before)
    (heads : stored.acceptedWriteHead = before.acceptedWriteHead)
    (journal : stored.acceptedWriteJournal = before.acceptedWriteJournal)
    (current : stored.snapshotCurrent = before.snapshotCurrent)
    (pins : stored.snapshotPins = before.snapshotPins)
    (version :
      stored.refsVersion = before.refsVersion + 1 ∨
        stored.refsVersion = before.refsVersion ∧ stored.refs = before.refs)
    (offered :
      ∀ offer ∈ offers,
        PublishedAt
          (Function.update history stored.refsVersion stored.refs)
          stored.refsVersion offer.key offer.stamp offer.value)
    (changed :
      RecordChange
        (PublishedAt
          (Function.update history stored.refsVersion stored.refs)
          stored.refsVersion)
        pinned offers stored after) :
    Progress history pinned offers before after
      (Function.update history stored.refsVersion stored.refs) := by
  rcases recorded.stored heads journal current version with
    ⟨continues, kept⟩
  have step := Progress.of_change kept offered changed
  refine ⟨⟨?_, ?_⟩, step.recorded, step.published, ?_, ?_⟩
  · exact continues.version.trans step.continues.version
  · exact continues.past
  · have start : pointers before = pointers stored := by
      unfold pointers
      rw [current]
    rw [start]
    exact step.accepted
  · rw [← pins]
    exact step.pins

theorem Delivers.proceeds
    {outcome : Except RepoFailure (ProjectionResult × RepoState)}
    (recorded : Recorded history before)
    (offered :
      ∀ offer ∈ offers,
        PublishedAt history before.refsVersion offer.key offer.stamp
          offer.value)
    (delivers :
      Delivers (PublishedAt history before.refsVersion) pinned offers before
        outcome) :
    Proceeds history pinned before
      (outcome.map fun result =>
        (ProjectionResult.offers result.1 offers, result.2)) := by
  cases outcome with
  | ok result =>
    refine ⟨history, .of_change recorded ?_ delivers⟩
    cases result.1 with
    | projected _ => exact offered
    | refused _ => exact nofun
  | error failure =>
    intro conflict
    subst conflict
    exact recorded.accepts offered (delivers rfl)

theorem projectAcceptedWrite_proceeds (recorded : Recorded history current.repo)
    (args : ProjectAcceptedWriteArgs) :
    Proceeds history (SnapshotEvent.projectAcceptedWrite args).Pins
      current.repo
      ((SnapshotEvent.projectAcceptedWrite args).body current) := by
  apply Delivers.proceeds recorded
  · intro offer member
    unfold entryOffers at member
    cases found : current.repo.acceptedWriteJournal args.entryId with
    | none => simp [found] at member
    | some entry =>
      simp only [found, Option.map_some, Option.toList_some,
        List.mem_singleton] at member
      subst member
      rcases recorded.journal args.entryId entry found with
        ⟨sequence, ref, published⟩
      rw [sequence, ref]
      exact published
  · apply projectAcceptedWriteState_delivers
    intro nonzero
    exact ⟨nonzero, rfl, rfl⟩

theorem projectReconciledHead_proceeds
    (recorded : Recorded history current.repo)
    (args : ProjectReconciledHeadArgs) :
    Proceeds history (SnapshotEvent.projectReconciledHead args).Pins
      current.repo
      ((SnapshotEvent.projectReconciledHead args).body current) := by
  by_cases fresh :
      authoritativeOid current.repo.refs args.ref = args.commitSha ∧
        refSequence current.repo args.ref = args.sequence
  · apply Delivers.proceeds recorded
    · intro offer member
      rw [List.mem_singleton] at member
      subst member
      rw [← fresh.1, ← fresh.2]
      exact recorded.refSequence args.ref
    · apply projectReconciledHeadState_delivers
      intro nonzero
      exact ⟨nonzero, rfl, rfl⟩
  · have refused :
        ∃ reason,
          projectReconciledHeadState current args =
            .ok (.refused reason, current.repo) := by
      unfold projectReconciledHeadState
      dsimp only
      split
      · exact ⟨_, rfl⟩
      · rw [if_pos (by simpa [Classical.or_iff_not_imp_left] using fresh)]
        exact ⟨_, rfl⟩
    rcases refused with ⟨reason, refused⟩
    unfold SnapshotEvent.body
    dsimp only
    rw [refused]
    exact ⟨history, .of_change recorded nofun (.refl current.repo)⟩

/-! ## The ref updates -/

theorem advanceGcReceiveVersions_same {next : Nat}
    (advanced :
      advanceGcReceiveVersions repo expected next nextPackset expectedPin
        nextPin = .ok after) :
    SameRecord repo after ∧ after.snapshotPins = repo.snapshotPins := by
  unfold advanceGcReceiveVersions at advanced
  repeat' split at advanced
  all_goals try cases advanced
  all_goals exact ⟨⟨rfl, rfl, rfl, rfl, rfl⟩, rfl⟩

theorem advanceGcReceiveVersions_error {next : Nat} {failure : RepoFailure}
    (failed :
      advanceGcReceiveVersions repo expected next nextPackset expectedPin
        nextPin = .error failure) : failure = .gcVersionsDiverged := by
  unfold advanceGcReceiveVersions at failed
  repeat' split at failed
  all_goals try cases failed
  rfl

theorem hasActiveReceiveMutation_same (repo : RepoState) (now : Nat) :
    SameRecord repo (hasActiveReceiveMutation repo now).2 ∧
      (hasActiveReceiveMutation repo now).2.snapshotPins =
        repo.snapshotPins := by
  unfold hasActiveReceiveMutation
  repeat' split
  all_goals exact ⟨⟨rfl, rfl, rfl, rfl, rfl⟩, rfl⟩

theorem setRefs_proceeds (recorded : Recorded history current.repo)
    (refs : List Ref) :
    Proceeds history (SnapshotEvent.setRefs refs).Pins current.repo
      ((SnapshotEvent.setRefs refs).body current) := by
  have mutation := hasActiveReceiveMutation_same current.repo current.now
  have kept
      {after : RepoState}
      (same : SameRecord current.repo after)
      (pins : after.snapshotPins = current.repo.snapshotPins) :
      ∃ extended,
        Progress history (SnapshotEvent.setRefs refs).Pins [] current.repo
          after extended := by
    refine ⟨history, .of_change recorded nofun (.of_same same ?_)⟩
    intro commitSha pin found
    rw [pins] at found
    exact Or.inl found
  unfold SnapshotEvent.body Repo.setRefs
  dsimp only
  split
  · exact kept (.refl current.repo) rfl
  · split
    · exact kept (.refl current.repo) rfl
    · split
      · exact kept mutation.1 mutation.2
      · split
        · exact kept mutation.1 mutation.2
        · let stored : RepoState :=
            { (hasActiveReceiveMutation current.repo current.now).2 with
              refs := refs
              refsVersion :=
                (hasActiveReceiveMutation current.repo
                  current.now).2.refsVersion + 1 }
          have heads :
              stored.acceptedWriteHead = current.repo.acceptedWriteHead :=
            mutation.1.heads
          exact ⟨_, .of_stored recorded heads mutation.1.journal
            mutation.1.current mutation.2
            (Or.inl (congrArg (· + 1) mutation.1.refsVersion)) nofun
            (.refl stored)⟩

theorem eq_of_mem_factOffers {sequence : Nat}
    {snapshotPin : Option SnapshotPinInput} {fact : AcceptedWriteFact}
    {offer : PointerOffer}
    (member : offer ∈ factOffers repo sequence snapshotPin fact) :
    offer = ⟨fact.ref, sequence, fact.afterSha⟩ := by
  unfold factOffers pinOffers at member
  cases snapshotPin with
  | none => cases member
  | some input =>
    dsimp only at member
    split_ifs at member with publishes fits
    · rw [List.mem_singleton] at member
      rw [member, publishes]
    · cases member
    · cases member

/-- The writes of a push are recorded at the version they create. -/
theorem recordIntentWrites_changes {token : String}
    {settings : DeploymentSettings}
    (version : stored.refsVersion = intent.nextRefsVersion)
    (now : extended stored.refsVersion = stored.refs)
    (refs : stored.refs = applyReceiveCommands before.refs intent.commands) :
    let offers :=
      match acceptedWriteFactsForIntent intent with
      | none => []
      | some facts =>
        facts.flatMap
          (factOffers stored intent.nextRefsVersion
            (receiveSnapshotPin intent settings))
    Changes (PublishedAt extended stored.refsVersion)
        (SnapshotEvent.receive token intent).Pins offers stored
        (recordIntentWrites stored intent settings) ∧
      ∀ offer ∈ offers,
        PublishedAt extended stored.refsVersion offer.key offer.stamp
          offer.value := by
  unfold recordIntentWrites acceptedWriteFactsForIntent
  cases intent.acceptedWriteContext with
  | none => exact ⟨.refl stored, nofun⟩
  | some context =>
    have published :
        ∀ fact ∈ acceptedWriteFactsForCommands context intent.commands,
          PublishedAt extended stored.refsVersion fact.ref
            intent.nextRefsVersion fact.afterSha := by
      intro fact member
      refine ⟨version.ge, ?_⟩
      rw [← version, now, refs]
      exact authoritativeOid_of_intentFact member
    constructor
    · have mayPin :
          ∀ input, receiveSnapshotPin intent settings = some input →
            (SnapshotEvent.receive token intent).Pins input.commitSha
              input.treeSha := by
        intro input found
        unfold receiveSnapshotPin at found
        rcases Option.map_eq_some_iff.mp found with ⟨receipt, held, rfl⟩
        exact ⟨receipt, held, rfl, rfl⟩
      have recorded :
          Changes (PublishedAt extended stored.refsVersion) _ _ stored
            ((recordAcceptedWrites stored intent.nextRefsVersion
              (acceptedWriteFactsForCommands context intent.commands)
              intent.createdAt settings.snapshotEventProbeEnabled
              (receiveSnapshotPin intent settings)).map Prod.snd) :=
        recordAcceptedWrites_changes published mayPin stored
      dsimp only [Option.map_some]
      revert recorded
      cases recordAcceptedWrites stored intent.nextRefsVersion
          (acceptedWriteFactsForCommands context intent.commands)
          intent.createdAt settings.snapshotEventProbeEnabled
          (receiveSnapshotPin intent settings) with
      | ok result => exact id
      | error failure => exact id
    · intro offer member
      rcases List.mem_flatMap.mp member with ⟨fact, listed, offered⟩
      rw [eq_of_mem_factOffers offered]
      exact published fact listed

/-- A change after the writes are recorded that leaves the record alone. -/
theorem Progress.and_beside
    (step : Progress history pinned offers before middle extended)
    (same : SameRecord middle after)
    (pins : after.snapshotPins = middle.snapshotPins) :
    Progress history pinned offers before after extended := by
  have beside :
      RecordChange (PublishedAt extended middle.refsVersion) pinned [] middle
        after := by
    apply RecordChange.of_same same
    intro commitSha pin found
    rw [pins] at found
    exact Or.inl found
  refine ⟨⟨?_, step.continues.past⟩,
    step.recorded.change (by simp) beside, ?_, ?_, ?_⟩
  · rw [same.refsVersion]
    exact step.continues.version
  · rw [same.refsVersion]
    exact step.published
  · rw [step.accepted]
    exact beside.pointers
  · rw [pins]
    exact step.pins

theorem receive_proceeds (recorded : Recorded history current.repo)
    (token : String)
    (next : intent.nextRefsVersion = intent.expectedRefsVersion + 1) :
    Proceeds history (SnapshotEvent.receive token intent).Pins current.repo
      ((SnapshotEvent.receive token intent).body current) := by
  unfold SnapshotEvent.body applyRefUpdate
  dsimp only
  cases resolved : resolveRefUpdate current.repo current.now intent with
  | error failure =>
    unfold resolveRefUpdate at resolved
    dsimp only at resolved
    split_ifs at resolved
    cases resolved
    intro conflict
    cases conflict
  | ok result =>
    rcases result with ⟨refs, publication⟩
    have update :
        refs = applyReceiveCommands current.repo.refs intent.commands ∧
          (intent.nextRefsVersion = current.repo.refsVersion + 1 ∨
            intent.nextRefsVersion = current.repo.refsVersion ∧
              refs = current.repo.refs) := by
      unfold resolveRefUpdate at resolved
      dsimp only at resolved
      split_ifs at resolved with fresh repeated
      · cases resolved
        rw [next, fresh]
        exact ⟨rfl, Or.inl rfl⟩
      · cases resolved
        exact ⟨repeated.2.symm, Or.inr ⟨repeated.1.symm, rfl⟩⟩
    let stored :=
      storeRefUpdate current.repo token intent refs publication
    have written :
        Changes
            (PublishedAt
              (Function.update history stored.refsVersion stored.refs)
              stored.refsVersion)
            (SnapshotEvent.receive token intent).Pins
            (receiveOffers current intent) stored
            (recordIntentWrites stored intent current.settings) ∧
          ∀ offer ∈ receiveOffers current intent,
            PublishedAt
              (Function.update history stored.refsVersion stored.refs)
              stored.refsVersion offer.key offer.stamp offer.value :=
      recordIntentWrites_changes rfl (Function.update_self ..) update.1
    rcases written with ⟨changes, offered⟩
    have heads :
        stored.acceptedWriteHead = current.repo.acceptedWriteHead := rfl
    dsimp only
    cases done : recordIntentWrites stored intent current.settings with
    | error failure =>
      rw [done] at changes
      intro conflict
      subst conflict
      exact (recorded.stored heads rfl rfl update.2).2.accepts offered
        (changes rfl)
    | ok final =>
      rw [done] at changes
      have step :
          Progress history (SnapshotEvent.receive token intent).Pins
            (receiveOffers current intent) current.repo final _ :=
        .of_stored recorded heads rfl rfl rfl update.2 offered changes
      dsimp only
      cases advanced :
          advanceGcReceiveVersions final intent.expectedRefsVersion
            intent.nextRefsVersion intent.nextPacksetVersion
            stored.snapshotPinVersion final.snapshotPinVersion with
      | error failure =>
        rw [advanceGcReceiveVersions_error advanced]
        intro conflict
        cases conflict
      | ok last =>
        have same := advanceGcReceiveVersions_same advanced
        exact ⟨_, step.and_beside same.1 same.2⟩

theorem stockReceive_proceeds (recorded : Recorded history current.repo)
    {update : StockRefUpdate} (admitted : update.admitted = true) :
    Proceeds history (SnapshotEvent.stockReceive update).Pins current.repo
      ((SnapshotEvent.stockReceive update).body current) := by
  unfold StockRefUpdate.admitted at admitted
  simp only [Bool.and_eq_true, decide_eq_true_eq] at admitted
  rcases admitted with ⟨⟨⟨-, matching⟩, expected⟩, next⟩
  unfold SnapshotEvent.body commitStockRefs
  dsimp only
  split
  · exact ⟨history, .of_change recorded nofun (.refl current.repo)⟩
  · next held =>
      have version : current.repo.refsVersion = update.refsVersion := by
        unfold stockAuthorityHolds at held
        simp only [Bool.not_eq_true', Bool.not_eq_false, Bool.and_eq_true,
          decide_eq_true_eq] at held
        exact held.1.2
      cases advanced :
          advanceGcReceiveVersions (storeStockRefs current.repo update)
            update.refsVersion update.intent.nextRefsVersion
            (update.stagedPack.map fun _ => update.packsetVersion + 1)
            current.repo.snapshotPinVersion
            current.repo.snapshotPinVersion with
      | error failure =>
        rw [advanceGcReceiveVersions_error advanced]
        exact nofun
      | ok stored =>
        rcases advanceGcReceiveVersions_same advanced with ⟨same, pins⟩
        have sameRefs : stored.refs = update.nextRefs := same.refs
        have sameVersion :
            stored.refsVersion = current.repo.refsVersion + 1 := by
          rw [same.refsVersion, version]
          exact next
        have changes :
            Changes
              (PublishedAt
                (Function.update history stored.refsVersion stored.refs)
                stored.refsVersion)
              (SnapshotEvent.stockReceive update).Pins
              (update.acceptedWrites.flatMap fun _ => []) stored
              ((recordAcceptedWrites stored update.intent.nextRefsVersion
                update.acceptedWrites update.intent.createdAt true
                none).map Prod.snd) := by
          refine recordAcceptedWrites_changes ?_ nofun stored
          intro fact member
          have created :
              update.intent.nextRefsVersion = stored.refsVersion := by
            rw [sameVersion, version]
            exact next
          refine ⟨created.le, ?_⟩
          rw [created, Function.update_self, sameRefs]
          exact authoritativeOid_of_matching matching member
        rw [List.flatMap_eq_nil_iff.mpr fun _ _ => rfl] at changes
        dsimp only
        revert changes
        cases recordAcceptedWrites stored update.intent.nextRefsVersion
            update.acceptedWrites update.intent.createdAt true none with
        | error failure =>
          intro changes conflict
          subst conflict
          cases changes rfl
        | ok result =>
          intro changes
          have step :
              Progress history (SnapshotEvent.stockReceive update).Pins
                [] current.repo result.2 _ :=
            .of_stored recorded same.heads same.journal same.current pins
              (Or.inl sameVersion) nofun changes
          have beside :
              SameRecord result.2 (finishStockRefs result.2 update) :=
            ⟨rfl, rfl, rfl, rfl, rfl⟩
          exact ⟨_, step.and_beside beside rfl⟩

/-- Every transaction continues the history or fails without a conflict. -/
theorem SnapshotEvent.proceeds (recorded : Recorded history current.repo)
    (event : SnapshotEvent) (admitted : event.admitted) :
    Proceeds history event.Pins current.repo (event.body current) := by
  cases event with
  | receive token intent => exact receive_proceeds recorded token admitted
  | stockReceive update => exact stockReceive_proceeds recorded admitted
  | setRefs refs => exact setRefs_proceeds recorded refs
  | projectAcceptedWrite args =>
    exact projectAcceptedWrite_proceeds recorded args
  | projectReconciledHead args =>
    exact projectReconciledHead_proceeds recorded args

theorem Progress.refl (recorded : Recorded history repo) :
    Progress history pinned [] repo repo history :=
  .of_change recorded nofun (.refl repo)

theorem Progress.trans {first second : List PointerOffer}
    {early late : Nat → List Ref}
    (one : Progress history pinned first before middle early)
    (two : Progress early pinned second middle after late) :
    Progress history pinned (first ++ second) before after late where
  continues := by
    refine ⟨one.continues.version.trans two.continues.version, ?_⟩
    intro version below
    rw [two.continues.past version (below.trans one.continues.version)]
    exact one.continues.past version below
  recorded := two.recorded
  published := by
    intro offer member
    rcases List.mem_append.mp member with old | fresh
    · exact two.continues.published (one.published offer old)
    · exact two.published offer fresh
  accepted := by
    rw [Registers.offerAll_append, one.accepted]
    exact two.accepted
  pins := by
    intro commitSha pin found
    rcases two.pins commitSha pin found with old | fresh
    · exact one.pins commitSha pin old
    · exact Or.inr fresh

theorem Progress.mono {wider : String → String → Prop}
    (step : Progress history pinned offers before after extended)
    (widens :
      ∀ commitSha treeSha, pinned commitSha treeSha →
        wider commitSha treeSha) :
    Progress history wider offers before after extended :=
  { step with
    pins := fun commitSha pin found =>
      (step.pins commitSha pin found).imp_right (widens commitSha _) }

end Steps

/-! ## Runs -/

/-- A transaction that was run, with the entries it delivered or its
failure. -/
structure SnapshotRecord where
  event : SnapshotEvent
  result : Except RepoFailure (List PointerOffer)

/-- What the other calls of the repository may do: they move no ref, head or
pointer, and at most drop journal entries and release pins. -/
structure BesideSnapshots (before after : RepoState) : Prop where
  refs : after.refs = before.refs
  refsVersion : after.refsVersion = before.refsVersion
  heads : after.acceptedWriteHead = before.acceptedWriteHead
  current : after.snapshotCurrent = before.snapshotCurrent
  journal :
    ∀ id entry, after.acceptedWriteJournal id = some entry →
      before.acceptedWriteJournal id = some entry
  pins :
    ∀ commitSha pin, after.snapshotPins.find? commitSha = some pin →
      before.snapshotPins.find? commitSha = some pin

/-- The transactions of a repository in any order, with anything else the
repository does between them. -/
inductive SnapshotRun (start : World) :
    List SnapshotRecord → World → Prop where
  | start : SnapshotRun start [] start
  | committed
      {trace : List SnapshotRecord}
      {current : World}
      {offers : List PointerOffer}
      {repo : RepoState}
      (run : SnapshotRun start trace current)
      (event : SnapshotEvent)
      (admitted : event.admitted)
      (done : event.body current = .ok (offers, repo)) :
      SnapshotRun start (trace ++ [⟨event, .ok offers⟩])
        (current.withRepo repo)
  | failed
      {trace : List SnapshotRecord}
      {current : World}
      {failure : RepoFailure}
      (run : SnapshotRun start trace current)
      (event : SnapshotEvent)
      (admitted : event.admitted)
      (done : event.body current = .error failure) :
      SnapshotRun start (trace ++ [⟨event, .error failure⟩]) current
  | elsewhere
      {trace : List SnapshotRecord}
      {current later : World}
      (run : SnapshotRun start trace current)
      (beside : BesideSnapshots current.repo later.repo) :
      SnapshotRun start trace later

/-- The entries a record delivered. -/
def SnapshotRecord.deliveries (record : SnapshotRecord) : List PointerOffer :=
  match record.result with
  | .ok offers => offers
  | .error _ => []

def deliveries (trace : List SnapshotRecord) : List PointerOffer :=
  trace.flatMap SnapshotRecord.deliveries

/-- The pins some transaction of a trace may install. -/
def TracePins (trace : List SnapshotRecord) (commitSha treeSha : String) :
    Prop :=
  ∃ record ∈ trace, record.event.Pins commitSha treeSha

variable {history : Nat → List Ref} {start last : World}
  {trace : List SnapshotRecord}

theorem BesideSnapshots.progress {pinned : String → String → Prop}
    (recorded : Recorded history before) (beside : BesideSnapshots before after) :
    Progress history pinned [] before after history := by
  have same :
      RecordChange (PublishedAt history before.refsVersion) pinned [] before
        after := by
    refine ⟨beside.refs, beside.refsVersion, ?_, ?_, ?_, ?_⟩
    · intro ref head found
      rw [beside.heads] at found
      exact Or.inl found
    · intro id entry found
      exact Or.inl ⟨entry, beside.journal id entry found, rfl, rfl⟩
    · intro commitSha pin found
      exact Or.inl (beside.pins commitSha pin found)
    · unfold pointers
      rw [beside.current]
      rfl
  exact .of_change recorded nofun same

/-- Every run continues the history it starts from and meets no conflict. -/
theorem SnapshotRun.progress (recorded : Recorded history start.repo)
    (run : SnapshotRun start trace last) :
    (∃ extended,
        Progress history (TracePins trace) (deliveries trace) start.repo
          last.repo extended) ∧
      ∀ record ∈ trace,
        record.result ≠ .error .snapshotCurrentConflict := by
  have wider
      (trace : List SnapshotRecord)
      (record : SnapshotRecord) :
      ∀ commitSha treeSha, TracePins trace commitSha treeSha →
        TracePins (trace ++ [record]) commitSha treeSha := by
    rintro commitSha treeSha ⟨old, member, may⟩
    exact ⟨old, List.mem_append_left _ member, may⟩
  induction run with
  | start => exact ⟨⟨history, .refl recorded⟩, by simp⟩
  | @committed trace current offers repo run event admitted done ih =>
    rcases ih with ⟨⟨early, progress⟩, calm⟩
    have proceeds := event.proceeds progress.recorded admitted
    rw [done] at proceeds
    rcases proceeds with ⟨extended, step⟩
    refine ⟨⟨extended, ?_⟩, ?_⟩
    · have both :=
        (progress.mono (wider trace ⟨event, .ok offers⟩)).trans
          (step.mono fun commitSha treeSha may =>
            ⟨⟨event, .ok offers⟩,
              List.mem_append_right _ (List.mem_singleton_self _), may⟩)
      have listed :
          deliveries (trace ++ [⟨event, .ok offers⟩]) =
            deliveries trace ++ offers := by
        simp [deliveries, SnapshotRecord.deliveries]
      rw [listed]
      exact both
    · intro record member
      rcases List.mem_append.mp member with old | fresh
      · exact calm record old
      · rw [List.mem_singleton.mp fresh]
        simp
  | @failed trace current failure run event admitted done ih =>
    rcases ih with ⟨⟨early, progress⟩, calm⟩
    have proceeds := event.proceeds progress.recorded admitted
    rw [done] at proceeds
    refine ⟨⟨early, ?_⟩, ?_⟩
    · have listed :
          deliveries (trace ++ [⟨event, .error failure⟩]) =
            deliveries trace := by
        simp [deliveries, SnapshotRecord.deliveries]
      rw [listed]
      exact progress.mono (wider trace _)
    · intro record member
      rcases List.mem_append.mp member with old | fresh
      · exact calm record old
      · rw [List.mem_singleton.mp fresh]
        intro conflict
        exact proceeds (Except.error.inj conflict)
  | elsewhere run beside ih =>
    rcases ih with ⟨⟨early, progress⟩, calm⟩
    refine ⟨⟨early, ?_⟩, calm⟩
    have both := progress.trans (beside.progress progress.recorded)
    rwa [List.append_nil] at both

theorem SnapshotRun.append {middle : World} {more : List SnapshotRecord}
    (run : SnapshotRun start trace middle) (rest : SnapshotRun middle more last) :
    SnapshotRun start (trace ++ more) last := by
  induction rest with
  | start =>
    rw [List.append_nil]
    exact run
  | committed _ event admitted done ih =>
    rw [← List.append_assoc]
    exact ih.committed event admitted done
  | failed _ event admitted done ih =>
    rw [← List.append_assoc]
    exact ih.failed event admitted done
  | elsewhere _ beside ih => exact ih.elsewhere beside

/-! ## Running a list of transactions -/

def SnapshotEvent.next (event : SnapshotEvent) (current : World) : World :=
  match event.body current with
  | .ok (_, repo) => current.withRepo repo
  | .error _ => current

def SnapshotEvent.record (event : SnapshotEvent) (current : World) :
    SnapshotRecord :=
  ⟨event, (event.body current).map Prod.fst⟩

def runEvents (start : World) :
    List SnapshotEvent → List SnapshotRecord × World
  | [] => ([], start)
  | event :: rest =>
    let later := runEvents (event.next start) rest
    (event.record start :: later.1, later.2)

theorem SnapshotEvent.run (event : SnapshotEvent) (admitted : event.admitted)
    (current : World) :
    SnapshotRun current [event.record current] (event.next current) := by
  unfold SnapshotEvent.record SnapshotEvent.next
  cases done : event.body current with
  | ok result => exact SnapshotRun.start.committed event admitted done
  | error failure => exact SnapshotRun.start.failed event admitted done

theorem run_runEvents (start : World) {events : List SnapshotEvent}
    (admitted : ∀ event ∈ events, event.admitted) :
    SnapshotRun start (runEvents start events).1
      (runEvents start events).2 := by
  induction events generalizing start with
  | nil => exact .start
  | cons event rest ih =>
    have first := event.run (admitted event List.mem_cons_self) start
    exact first.append
      (ih (event.next start) fun other member =>
        admitted other (List.mem_cons_of_mem event member))

/-! ## Order independence -/

/-- A repository without any snapshot record; its refs may be anything. -/
structure FreshRecord (repo : RepoState) : Prop where
  heads : ∀ ref, repo.acceptedWriteHead ref = none
  journal : ∀ id, repo.acceptedWriteJournal id = none
  current : ∀ ref, repo.snapshotCurrent ref = none

theorem FreshRecord.recorded (fresh : FreshRecord repo) :
    Recorded (fun _ => repo.refs) repo where
  now := rfl
  pointers := by
    intro ref held found
    simp [pointers, fresh.current] at found
  heads := by
    intro ref head found
    rw [fresh.heads] at found
    cases found
  journal := by
    intro id entry found
    rw [fresh.journal] at found
    cases found

/-- What holds of the pointers over a run and a continuation of it. -/
structure PointerLaws
    (start middle last : World)
    (trace more : List SnapshotRecord) : Prop where
  calm :
    ∀ record ∈ trace ++ more,
      record.result ≠ .error .snapshotCurrentConflict
  forward :
    ∀ ref current, middle.repo.snapshotCurrent ref = some current →
      ∃ later, last.repo.snapshotCurrent ref = some later ∧
        current.sequence ≤ later.sequence
  newest :
    Registers.Newest (pointers last.repo) (deliveries (trace ++ more))
  orderFree :
    ∀ other final, SnapshotRun start other final →
      (∀ offer,
        offer ∈ deliveries other ↔ offer ∈ deliveries (trace ++ more)) →
        pointers final.repo = pointers last.repo

theorem snapshot_pointers_order_free {start middle last : World}
    {trace more : List SnapshotRecord} (fresh : FreshRecord start.repo)
    (run : SnapshotRun start trace middle) (rest : SnapshotRun middle more last) :
    PointerLaws start middle last trace more := by
  have newest
      {all : List SnapshotRecord}
      {final : World}
      (whole : SnapshotRun start all final) :
      Registers.Newest (pointers final.repo) (deliveries all) := by
    rcases (whole.progress fresh.recorded).1 with ⟨extended, progress⟩
    have empty : pointers start.repo = fun _ => none := by
      funext ref
      simp [pointers, fresh.current]
    have accepted := progress.accepted
    rw [empty] at accepted
    exact Registers.Newest.nil.offerAll accepted
  have whole := run.append rest
  rcases whole.progress fresh.recorded with ⟨⟨extended, progress⟩, calm⟩
  refine ⟨calm, ?_, newest whole, ?_⟩
  · intro ref current found
    rcases (run.progress fresh.recorded).1 with ⟨early, first⟩
    rcases (rest.progress first.recorded).1 with ⟨late, second⟩
    have held :
        pointers middle.repo ref =
          some ⟨current.sequence, current.commitSha⟩ := by
      simp [pointers, found]
    rcases Registers.offerAll_mono second.accepted held with
      ⟨reached, pointed, above⟩
    rcases Option.map_eq_some_iff.mp pointed with ⟨later, present, rfl⟩
    exact ⟨later, present, above⟩
  · intro other final run same
    have left := newest run
    have right := newest whole
    refine (Registers.Newest.unique ?_ (fun offer => (same offer).symm) right
      left).symm
    intro one first two second key stamp
    have known := progress.published one first
    rw [key, stamp] at known
    exact PublishedAt.functional _ _ _ _ known (progress.published two second)

/-! ### A branch pushed twice and delivered out of order -/

def mainRef : String := "refs/heads/main"

def firstCommit : String := String.ofList (List.replicate 40 'a')

def secondCommit : String := String.ofList (List.replicate 40 'b')

def someTree : String := String.ofList (List.replicate 40 'c')

def probedWorld : World :=
  { repo :=
      { repositoryReadLeases := [⟨"reader", 0, 100, .snapshotProjection⟩] }
    now := 10
    settings := { snapshotEventProbeEnabled := true } }

/-- The intent that moves the branch at a version of the refs. -/
def mainIntent (oldOid newOid : String) (version : Nat) :
    ReceiveFinalizeIntent :=
  { token := "push"
    refPublication := none
    commands := [⟨oldOid, newOid, mainRef⟩]
    expectedRefsVersion := version
    nextHead := ⟨mainRef, some newOid, false⟩
    nextRefsVersion := version + 1
    stagedPack := none
    packSequence := none
    nextPacksetVersion := none
    ingestionReceipt := none
    acceptedWriteContext := some ⟨"repo", "actor", .gitPush, none⟩
    recoveryAttempts := 0
    recoveryEscalated := false
    createdAt := 5 }

def deliverMain (commitSha : String) (sequence : Nat) : SnapshotEvent :=
  .projectAcceptedWrite
    { entryId := ⟨sequence, mainRef⟩
      commitSha := commitSha
      treeSha := someTree
      materializedAt := 20
      readerToken := some "reader" }

def twoPushes : List SnapshotEvent :=
  [.receive "push" (mainIntent zeroOid firstCommit 0),
    .receive "push" (mainIntent firstCommit secondCommit 1)]

def lateDeliveries : List SnapshotEvent :=
  [deliverMain secondCommit 2, deliverMain firstCommit 1,
    deliverMain firstCommit 1]

theorem snapshot_pointers_order_free_twoPushes :
    let pushed := (runEvents probedWorld twoPushes).2
    let last := (runEvents pushed lateDeliveries).2
    deliveries (runEvents pushed lateDeliveries).1 =
        [⟨mainRef, 2, secondCommit⟩, ⟨mainRef, 1, firstCommit⟩,
          ⟨mainRef, 1, firstCommit⟩] ∧
      pointers last.repo mainRef = some ⟨2, secondCommit⟩ ∧
      PointerLaws probedWorld pushed last
        (runEvents probedWorld twoPushes).1
        (runEvents pushed lateDeliveries).1 := by
  refine ⟨by decide +kernel, by decide +kernel, ?_⟩
  apply snapshot_pointers_order_free
  · exact ⟨fun _ => rfl, fun _ => rfl, fun _ => rfl⟩
  · apply run_runEvents
    simp [twoPushes, SnapshotEvent.admitted, mainIntent]
  · apply run_runEvents
    simp [lateDeliveries, deliverMain, SnapshotEvent.admitted]

end GitOnCloudflare.Snapshot
