import GitOnCloudflare.Receive.Replay

/-!
# Every interrupted finalization ends like the run that is not cut

The runs of a first call and of its replays, each cut anywhere or completed,
and the theorem that a completed replay reports the receive as committed and
leaves what the uncut run leaves.  A committed run has found everything in
order that a replay relies on, which is read off the run itself.
-/

namespace GitOnCloudflare.Receive

open Foundations
open Repo

/-! ## What a committed run has found in order -/

/-- What is known of the state and the value of a call when it ends. -/
def Observes {Value : Type} (program : RepoProgram Value)
    (post : Value → World → Prop) (current : World) : Prop :=
  program.Ensures AnyAnswer (fun _ _ => True) ClockDrift post
    (fun _ _ => True) current

variable {current origin : World} {Value : Type}

theorem Observes.bind {Other : Type} {program : RepoProgram Value}
    {rest : Value → RepoProgram Other} {middle : Value → World → Prop}
    {post : Other → World → Prop} (first : Observes program middle current)
    (second : ∀ value last, middle value last → Observes (rest value) post last) :
    Observes (program.bind rest) post current := by
  unfold Observes
  rw [Program.ensures_bind]
  exact first.mono (fun _ _ kept => kept) second (fun _ _ failure => failure)

/-- A fact that is known at the start is known at the end. -/
theorem observes_const {fact : Prop} (known : fact)
    (program : RepoProgram Value) (current : World) :
    Observes program (fun _ _ => fact) current := by
  induction program generalizing current with
  | done value => exact known
  | fail failure => trivial
  | read next ih => exact ih current current
  | commit write next ih => exact ⟨trivial, ih (write current)⟩
  | await request next ih =>
    intro later _ answer _
    exact ih answer later

/-- The landing of a call with a write context. -/
def landingOf (args : FinalizeReceiveArgs) (origin : World)
    (context : Option AcceptedWriteContext) : Landing :=
  { args := args
    origin := origin
    context := context
    account :=
      match (gcAccount origin.repo.gcOperation).advance
          origin.repo.refsVersion (origin.repo.refsVersion + 1)
          (args.stagedPack.map fun _ => origin.repo.packsetVersion + 1) with
      | .ok account => account
      | .error _ => none }

variable {repo : RepoState} {lease : RepoLease} {args : FinalizeReceiveArgs}
  {uncut : World}

namespace Landing

variable {landing : Landing}

/-- The repository after the intent is written, with the same account. -/
structure Begun (landing : Landing) (current : World) : Prop where
  settings : current.settings = landing.origin.settings
  repo :
    ∃ lease operation intents,
      current.repo =
          { landing.found with
            receiveLease := lease
            gcOperation := operation
            receiveFinalizeIntent := intents } ∧
        gcAccount operation = gcAccount landing.found.gcOperation

/-- The repository after the staged pack is activated. -/
structure Staged (landing : Landing) (current : World) : Prop where
  settings : current.settings = landing.origin.settings
  pins : current.repo.snapshotPins = landing.found.snapshotPins
  currentPins : current.repo.snapshotCurrent = landing.found.snapshotCurrent
  journal :
    current.repo.acceptedWriteJournal = landing.found.acceptedWriteJournal
  receipts : current.repo.ingestionReceipt = landing.found.ingestionReceipt
  account :
    gcAccount current.repo.gcOperation =
      gcAccount landing.found.gcOperation

/-- The row of the staged pack, if it was active, was the intent's row. -/
def RowFits (landing : Landing) : Prop :=
  ∀ pack row, landing.args.stagedPack = some pack →
    activeRow landing.found.packCatalog pack.packKey = some row →
      rowMatchesIntent row pack (some landing.found.packSequence) = true

theorem Begun.staged {current : World} (begun : landing.Begun current) :
    landing.Staged current := by
  obtain ⟨lease, operation, intents, same, account⟩ := begun.repo
  refine ⟨begun.settings, ?_, ?_, ?_, ?_, ?_⟩
  · rw [same]
  · rw [same]
  · rw [same]
  · rw [same]
  · rw [same]
    exact account

variable {intent : ReceiveFinalizeIntent}

theorem observes_activateStagedPack (begun : landing.Begun current)
    (promises : landing.Promises intent) :
    Observes (activateStagedPack intent)
      (fun _ last => landing.Staged last ∧ landing.RowFits) current := by
  have staged := begun.staged
  obtain ⟨lease, operation, intents, same, -⟩ := begun.repo
  have sameCatalog : current.repo.packCatalog = landing.found.packCatalog := by
    rw [same]
  unfold activateStagedPack
  rw [promises.stagedPack, promises.packSequence]
  cases wanted : landing.args.stagedPack with
  | none =>
    refine ⟨staged, fun pack row asked => ?_⟩
    rw [wanted] at asked
    cases asked
  | some pack =>
    unfold Observes
    simp only [Program.bind_eq_bind, Program.ensures_bind, ensures_get,
      Option.map_some, sameCatalog]
    split
    · trivial
    · next fits =>
        have rowFits : landing.RowFits := by
          intro other row asked active
          obtain rfl : pack = other :=
            Option.some.inj (wanted.symm.trans asked)
          unfold activeRow at active
          rw [active] at fits
          simpa using fits
        split
        · simp only [Program.bind_eq_bind, Program.pure_eq_done,
            Program.ensures_bind, Program.ensures_ite, ensures_get,
            ensures_dateNow, ensures_put, ensures_done,
            activateReceiveRow, raiseNextPackSeq, raisePacksetVersion,
            true_and]
          split_ifs
          all_goals exact ⟨{ staged with }, rowFits⟩
        · trivial

/-- What a ref transaction that succeeds has found in order. -/
theorem sound_of_applyRefUpdate (staged : landing.Staged current)
    (promises : landing.Promises intent)
    {value : List Ref × Option ReceiveRefPublication}
    (applied :
      applyRefUpdate current landing.args.token intent = .ok (value, repo)) :
    landing.Records landing.found ∧
      (∃ account,
        (gcAccount landing.found.gcOperation).advance
            landing.found.refsVersion landing.refsVersion
            landing.nextPacksetVersion = .ok account) ∧
      repo.ingestionReceipt = landing.found.ingestionReceipt := by
  unfold applyRefUpdate at applied
  cases resolved : resolveRefUpdate current.repo current.now intent with
  | error failure =>
    rw [resolved] at applied
    cases applied
  | ok result =>
    obtain ⟨refs, publication⟩ := result
    simp only [resolved] at applied
    cases written :
        recordIntentWrites
          (storeRefUpdate current.repo landing.args.token intent refs
            publication)
          intent current.settings with
    | error failure =>
      rw [written] at applied
      cases applied
    | ok recorded =>
      simp only [written] at applied
      have counted :=
        advanceGcReceiveVersions_account recorded
          landing.found.refsVersion landing.refsVersion
          landing.nextPacksetVersion
          (storeRefUpdate current.repo landing.args.token intent refs
            publication).snapshotPinVersion recorded.snapshotPinVersion
      rw [promises.expectedRefsVersion, promises.nextRefsVersion,
        promises.nextPacksetVersion] at applied
      rw [staged.settings] at written
      obtain ⟨records, frame⟩ :=
        records_of_recordIntentWrites promises written
      have sameOperation :
          gcAccount recorded.gcOperation =
            gcAccount landing.found.gcOperation := by
        rw [frame]
        exact staged.account
      rw [sameOperation] at counted
      cases advanced :
          advanceGcReceiveVersions recorded landing.found.refsVersion
            landing.refsVersion landing.nextPacksetVersion
            (storeRefUpdate current.repo landing.args.token intent refs
              publication).snapshotPinVersion
            recorded.snapshotPinVersion with
      | error failure =>
        rw [advanced] at applied
        cases applied
      | ok last =>
        rw [advanced] at applied counted
        obtain ⟨account, framed⟩ := counted
        have lastEq := framed last rfl
        have same : last = repo :=
          congrArg Prod.snd (Except.ok.inj applied)
        refine ⟨?_, ⟨_, account⟩, ?_⟩
        · exact Records.of_record landing records staged.pins.symm
            staged.currentPins.symm staged.journal.symm
        · rw [← same, lastEq, frame]
          exact staged.receipts

theorem setReceiveOutcomes_receipts (repo : RepoState)
    (outcomes : String → Option ReceiveCommitOutcome) (index : List String) :
    (repo.setReceiveOutcomes outcomes index).ingestionReceipt =
      repo.ingestionReceipt :=
  rfl

theorem observes_storeOptionalReceipt
    (same : current.repo.ingestionReceipt = landing.found.ingestionReceipt) :
    Observes (storeOptionalReceipt landing.args.ingestionReceipt)
      (fun _ _ => landing.ReceiptsFit landing.found) current := by
  unfold Landing.ReceiptsFit
  cases asked : landing.args.ingestionReceipt with
  | none => exact nofun
  | some receipt =>
    unfold Observes storeOptionalReceipt storeIngestionReceipt
    simp only [ensures_repoTransaction]
    split
    · next value repo stored =>
        refine ⟨trivial, ?_⟩
        rintro _ ⟨⟩
        unfold ReceiptFits
        rw [← same]
        intro conflict
        rw [if_pos conflict] at stored
        cases stored
    · trivial

/-- What a run from the intent to the end has found in order. -/
structure Commits (landing : Landing) : Prop where
  row : landing.RowFits
  records : landing.Records landing.found
  account :
    ∃ account,
      (gcAccount landing.found.gcOperation).advance
          landing.found.refsVersion landing.refsVersion
          landing.nextPacksetVersion = .ok account
  receipts : landing.ReceiptsFit landing.found

theorem observes_commitFinalizeIntent (begun : landing.Begun current)
    (promises : landing.Promises intent) (verification : OutputVerification) :
    Observes (commitFinalizeIntent landing.args.token intent verification)
      (fun _ _ => landing.Commits) current := by
  unfold commitFinalizeIntent
  refine (observes_activateStagedPack begun promises).bind ?_
  rintro wanted second ⟨staged, row⟩
  have applies :
      Observes
        (transaction fun current =>
          applyRefUpdate current landing.args.token intent)
        (fun _ last =>
          landing.Records landing.found ∧
            (∃ account,
              (gcAccount landing.found.gcOperation).advance
                  landing.found.refsVersion landing.refsVersion
                  landing.nextPacksetVersion = .ok account) ∧
            last.repo.ingestionReceipt = landing.found.ingestionReceipt)
        second := by
    unfold Observes
    rw [ensures_repoTransaction]
    cases applied : applyRefUpdate second landing.args.token intent with
    | error failure => trivial
    | ok result =>
      exact ⟨trivial, sound_of_applyRefUpdate staged promises applied⟩
  refine applies.bind ?_
  rintro ⟨refs, publication⟩ third ⟨records, account, receipts⟩
  have stores :
      Observes
        (storeReceiveOutcome
          ((committedResult intent verification wanted refs
            publication).outcome landing.args.token))
        (fun _ last =>
          last.repo.ingestionReceipt = landing.found.ingestionReceipt)
        third :=
    ⟨trivial, (setReceiveOutcomes_receipts _ _ _).trans receipts⟩
  refine stores.bind fun _ fourth same => ?_
  rw [promises.ingestionReceipt]
  refine (observes_storeOptionalReceipt same).bind fun _ fifth fits => ?_
  exact observes_const ⟨row, records, account, fits⟩ _ _

end Landing

/-- What a first call has found in order when it has written its intent. -/
structure Prepared
    (args : FinalizeReceiveArgs)
    (origin : World)
    (context : Option AcceptedWriteContext)
    (intent : ReceiveFinalizeIntent)
    (last : World) : Prop where
  begun : (landingOf args origin context).Begun last
  promises : (landingOf args origin context).Promises intent
  validRefs : invalidRefStatuses args.commands = []
  validated :
    (validateReceiveCommands origin.repo.refs args.commands).all
      (fun status => status.ok) = true
  matching :
    ¬ (args.acceptedWrites.any fun facts =>
      !acceptedWritesMatchCommands args.commands facts) = true
  context :
    acceptedWriteContextForFacts args.acceptedWrites = .ok context

theorem observes_writeFinalizeIntent (args : FinalizeReceiveArgs)
    (context : Option AcceptedWriteContext)
    (settings : current.settings = origin.settings)
    (same : current.repo = origin.repo.setReceiveLease (some lease))
    (intent : ReceiveFinalizeIntent) (proof : Option GcReceiveProtection) :
    Observes (writeFinalizeIntent intent proof)
      (fun _ last => (landingOf args origin context).Begun last) current := by
  unfold Observes writeFinalizeIntent
  rw [ensures_repoTransaction]
  cases retained :
      retainGcReceiveProtection current.repo intent.token proof with
  | error failure => trivial
  | ok last =>
    obtain ⟨operation, rfl, account⟩ := retainGcReceiveProtection_ok retained
    refine ⟨trivial, settings, some lease, operation,
      Function.update origin.repo.receiveFinalizeIntent intent.token
        (some intent), ?_, ?_⟩
    · rw [same]
      rfl
    · rw [same] at account
      exact account

theorem observes_prepareFinalizeIntent (args : FinalizeReceiveArgs)
    (origin current : World) (settings : current.settings = origin.settings)
    (own : lease.token = args.token)
    (same : current.repo = origin.repo.setReceiveLease (some lease))
    (bare : ∀ pack, args.stagedPack = some pack → pack.integrity = none) :
    Observes (prepareFinalizeIntent args)
      (fun value last =>
        (∃ result, value = .inl result ∧
            ∀ committed, result ≠ .committed committed) ∨
          ∃ context intent verification,
            value = .inr (intent, verification) ∧
              Prepared args origin context intent last)
      current := by
  have verified :
      verifyReceiveOutputIntegrity args.stagedPack =
        Program.done ⟨0, 0, none⟩ := by
    unfold verifyReceiveOutputIntegrity
    cases staged : args.stagedPack with
    | none => rfl
    | some pack =>
      simp only [Option.bind_some, bare pack staged, Option.map_none]
      rfl
  have sameRefs : current.repo.refs = origin.repo.refs := by
    rw [same]
    rfl
  have sameVersion : current.repo.refsVersion = origin.repo.refsVersion := by
    rw [same]
    rfl
  unfold prepareFinalizeIntent
  simp only [Program.bind_eq_bind, Program.ensures_bind, ensures_world,
    Observes]
  split
  · exact (observes_const trivial _ _).bind fun _ _ _ =>
      Or.inl ⟨_, rfl, by intro _ impossible; cases impossible⟩
  · split
    · exact (observes_const trivial _ _).bind fun _ _ _ =>
        Or.inl ⟨_, rfl, by intro _ impossible; cases impossible⟩
    · next valid =>
        split
        · exact (observes_const trivial _ _).bind fun _ _ _ =>
            Or.inl ⟨_, rfl, by intro _ impossible; cases impossible⟩
        · next rejected =>
            split
            · trivial
            · next matching =>
                have validated :
                    (validateReceiveCommands origin.repo.refs
                      args.commands).all (fun status => status.ok) = true := by
                  rw [← sameRefs]
                  simpa using rejected
                unfold recordFinalizeIntent
                simp only [Program.bind_eq_bind, verified, Program.bind,
                  Program.ensures_bind, ensures_world]
                cases context :
                    acceptedWriteContextForFacts args.acceptedWrites with
                | error failure => trivial
                | ok context' =>
                  simp only [Program.ensures_bind]
                  refine
                    (ensures_prepareGcReceiveProtection current _ _ _
                      _).mono (fun _ _ kept => kept) ?_
                      (fun _ _ failure => failure)
                  rintro proof last ⟨⟨lastRepo, lastSettings, -⟩, -⟩
                  refine (observes_writeFinalizeIntent args context'
                    (lastSettings.trans settings)
                    (lastRepo.trans same) _ proof).mono
                    (fun _ _ kept => kept) ?_ (fun _ _ failure => failure)
                  intro _ final begun
                  refine Or.inr ⟨context', _, _, rfl, begun, ?_,
                    not_not.mp valid, validated, matching, context⟩
                  rw [sameRefs, sameVersion]
                  exact Landing.promises_finalizeIntent
                    ⟨lease, own, same⟩ current.now

/-- Without a record of the token, the fence needs the call's live lease. -/
theorem fenceAllows_inv {now : Nat} {token : String}
    (allowed : repo.fenceAllows now token false = true) :
    repo.repositoryDeleting = false ∧
      ∃ lease, repo.receiveLease = some lease ∧ lease.token = token ∧
        lease.live now := by
  unfold RepoState.fenceAllows at allowed
  split_ifs at allowed with deleting
  refine ⟨by simpa using deleting, ?_⟩
  cases held : repo.receiveLease with
  | none => simp [held] at allowed
  | some lease =>
    simp only [held, Bool.or_false, Bool.and_false] at allowed
    split_ifs at allowed with own
    exact ⟨lease, rfl, own, by simpa using allowed⟩

theorem landingOf_account {context : Option AcceptedWriteContext}
    (lands :
      ∃ account,
        (gcAccount (landingOf args origin context).found.gcOperation).advance
            (landingOf args origin context).found.refsVersion
            (landingOf args origin context).refsVersion
            (landingOf args origin context).nextPacksetVersion =
          .ok account) :
    (gcAccount (landingOf args origin context).found.gcOperation).advance
        (landingOf args origin context).found.refsVersion
        (landingOf args origin context).refsVersion
        (landingOf args origin context).nextPacksetVersion =
      .ok (landingOf args origin context).account := by
  obtain ⟨account, advanced⟩ := lands
  have same : (landingOf args origin context).account = account := by
    unfold landingOf
    change
      (match (gcAccount origin.repo.gcOperation).advance
          origin.repo.refsVersion (origin.repo.refsVersion + 1)
          (args.stagedPack.map fun _ => origin.repo.packsetVersion + 1) with
        | Except.ok account => account
        | Except.error _ => none) = account
    rw [show (gcAccount origin.repo.gcOperation).advance
        origin.repo.refsVersion (origin.repo.refsVersion + 1)
        (args.stagedPack.map fun _ => origin.repo.packsetVersion + 1) =
          .ok account from advanced]
  rw [same]
  exact advanced

/-- What a committed first call has found in order. -/
theorem committed_sound {result : CommittedReceive}
    (unpromised : origin.repo.receiveFinalizeIntent args.token = none)
    (unanswered : origin.repo.receiveOutcome args.token = none)
    (bare : ∀ pack, args.stagedPack = some pack → pack.integrity = none)
    (ran :
      RunsAlone (finalizeReceiveState args) origin uncut
        (some (.ok (.committed result)))) :
    ∃ context, (landingOf args origin context).Sound ∧
      ∀ lease, origin.repo.receiveLease = some lease →
        lease.live origin.now := by
  have observed :
      Observes (finalizeReceiveState args)
        (fun value _ =>
          (∃ result, value = .committed result) →
            ∃ context, (landingOf args origin context).Sound ∧
              ∀ lease, origin.repo.receiveLease = some lease →
                lease.live origin.now)
        origin := by
    unfold finalizeReceiveState Observes
    simp only [Program.bind_eq_bind, Program.ensures_bind, ensures_get,
      unpromised, unanswered, Option.isSome_none, Bool.or_self,
      holdReceiveCompletionFence, ensures_repoTransaction]
    by_cases allowed :
        origin.repo.fenceAllows origin.now args.token false = true
    · obtain ⟨active, lease, held, own, live⟩ := fenceAllows_inv allowed
      simp only [allowed, if_true, Bool.not_true, Bool.false_eq_true,
        if_false, true_and, Program.ensures_bind]
      have prepared :=
        observes_prepareFinalizeIntent args origin
          (origin.withRepo
            (origin.repo.setReceiveLease
              (some (origin.repo.fenceLease origin.now args.token))))
          rfl rfl rfl bare
      refine prepared.mono (fun _ _ kept => kept) ?_
        (fun _ _ failure => failure)
      rintro value last
        (⟨rejection, rfl, rejects⟩ |
          ⟨context, intent, verification, rfl, found⟩)
      · rintro ⟨result, committed⟩
        exact absurd committed (rejects result)
      · refine (Landing.observes_commitFinalizeIntent found.begun
          found.promises verification).mono (fun _ _ kept => kept) ?_
          (fun _ _ failure => failure)
        intro value final commits _
        refine ⟨context, ?_, ?_⟩
        · exact
            { unpromised := unpromised
              unanswered := unanswered
              active := active
              lease := ⟨lease, held, own⟩
              validRefs := found.validRefs
              validated := found.validated
              matching := found.matching
              context := found.context
              row := commits.row
              records := commits.records
              account := landingOf_account commits.account
              receipts := commits.receipts }
        · intro other same
          rw [← Option.some.inj (held.symm.trans same)]
          exact live
    · simp only [allowed]
      refine ⟨trivial, ?_⟩
      rintro ⟨result, committed⟩
      cases committed
  exact
    (Program.Ensures.runs (fun _ => True) ran observed trivial
      (fun _ _ _ _ => trivial) (fun _ _ _ _ => trivial)).2 ⟨result, rfl⟩

/-! ## Replays -/

/-- The three ways an interrupted finalization is taken up again. -/
inductive ReceiveReplay where
  | finalize
  | reconcile
  | alarm
deriving DecidableEq

/-- The arguments with which the worker of a receive asks for its outcome. -/
def reconcileArgs (args : FinalizeReceiveArgs) : ReconcileReceiveArgs :=
  { token := args.token
    commands := args.commands
    stagedPackKey := args.stagedPack.map StagedPack.packKey
    ingestionReceipt := args.ingestionReceipt }

/-- A replay, answering whether it reports the receive as committed. -/
def ReceiveReplay.program (args : FinalizeReceiveArgs) :
    ReceiveReplay → RepoProgram Bool
  | .finalize => do
      match ← finalizeReceiveState args with
      | .committed _ => return true
      | _ => return false
  | .reconcile => do
      match ← reconcileReceiveState (reconcileArgs args) with
      | .committed _ => return true
      | _ => return false
  | .alarm => resumeReceiveFinalizeFromAlarm

/--
A call takes a finalization up again when it finds its durable intent, its
recorded outcome or, for a repeated finalization, its own live lease.  The
alarm only knows the intent of the lease on record.
-/
def ReceiveReplay.Resumes (token : String) (current : World) :
    ReceiveReplay → Prop
  | .finalize =>
    (current.repo.receiveFinalizeIntent token).isSome = true ∨
      (current.repo.receiveOutcome token).isSome = true ∨
      ∃ lease, current.repo.receiveLease = some lease ∧
        lease.token = token ∧ lease.live current.now
  | .reconcile =>
    (current.repo.receiveFinalizeIntent token).isSome = true ∨
      (current.repo.receiveOutcome token).isSome = true
  | .alarm =>
    (current.repo.receiveFinalizeIntent token).isSome = true ∧
      ∃ lease, current.repo.receiveLease = some lease ∧
        lease.token = token

/-- Reconciliation is not asked while outcome and intent are both on
record. -/
def ReceiveReplay.SparesIntent (token : String) (replay : ReceiveReplay)
    (current : World) : Prop :=
  replay = .reconcile →
    (current.repo.receiveOutcome token).isSome = true →
      current.repo.receiveFinalizeIntent token = none

/-- The states reached from a first call and any number of allowed replays,
each cut or completed. -/
inductive Interrupted
    (allowed : ReceiveReplay → World → Prop)
    (args : FinalizeReceiveArgs)
    (origin : World) : World → Prop where
  | first
      {last : World}
      {result : Option (Except RepoFailure FinalizeReceiveResult)}
      (ran : RunsAlone (finalizeReceiveState args) origin last result) :
      Interrupted allowed args origin last
  | replayed
      {reached later last : World}
      {result : Option (Except RepoFailure Bool)}
      (replay : ReceiveReplay)
      (before : Interrupted allowed args origin reached)
      (drifted : ClockDrift reached later)
      (resumes : replay.Resumes args.token later)
      (permitted : allowed replay later)
      (ran : RunsAlone (replay.program args) later last result) :
      Interrupted allowed args origin last

/-- A completed state ends like the uncut run, with lease and intent gone. -/
structure CompletedAs
    (token : String)
    (uncut last : RepoState) : Prop where
  refs : last.refs = uncut.refs
  head : last.head = uncut.head
  refsVersion : last.refsVersion = uncut.refsVersion
  catalog :
    rowsUpToCreation last.packCatalog = rowsUpToCreation uncut.packCatalog
  nextPackSeq : last.nextPackSeq = uncut.nextPackSeq
  packsetVersion : last.packsetVersion = uncut.packsetVersion
  acceptedWriteHead : last.acceptedWriteHead = uncut.acceptedWriteHead
  accepted : acceptedReceives last = acceptedReceives uncut
  lease : last.receiveLease = none
  intent : last.receiveFinalizeIntent token = none

/--
Every allowed replay of every interrupted state can run to its end, and each
time it does it reports the receive as committed and ends like the uncut run.
-/
def CrashReplayable (allowed : ReceiveReplay → World → Prop)
    (args : FinalizeReceiveArgs) (origin uncut : World) : Prop :=
  ∀ reached, Interrupted allowed args origin reached →
    ∀ later, ClockDrift reached later →
      ∀ replay : ReceiveReplay, replay.Resumes args.token later →
        allowed replay later →
          (∃ last, RunsAlone (replay.program args) later last
            (some (.ok true))) ∧
            ∀ last answer,
              RunsAlone (replay.program args) later last (some answer) →
                answer = .ok true ∧
                  CompletedAs args.token uncut.repo last.repo

namespace Landing

variable {landing : Landing}
  {last : World}

/-- Two completed states of one landing agree. -/
theorem Finished.completedAs (first : landing.Finished uncut)
    (second : landing.Finished last) :
    CompletedAs landing.args.token uncut.repo last.repo := by
  have before := first.state.recorded
  have after := second.state.recorded
  refine ⟨?_, ?_, ?_, ?_, ?_, ?_, ?_, ?_, second.lease, second.intent⟩
  · rw [after.refs.refs, before.refs.refs]
  · rw [after.refs.head, before.refs.head]
  · rw [after.refs.refsVersion, before.refs.refsVersion]
  · obtain ⟨firstTime, firstRows⟩ := before.activated.catalog
    obtain ⟨secondTime, secondRows⟩ := after.activated.catalog
    rw [firstRows, secondRows]
    exact landing.rowsUpToCreation_catalog secondTime firstTime
  · rw [after.activated.nextPackSeq, before.activated.nextPackSeq]
  · rw [after.activated.packsetVersion, before.activated.packsetVersion]
  · rw [after.refs.heads, before.refs.heads]
  · refine acceptedReceives_eq_of_account ?_
    rw [after.refs.account, before.refs.account]

/-- A replay of any stage completes the receive. -/
theorem carries_replay (sound : landing.Sound)
    (settles : Settles landing.args landing.found.refs)
    (bare : ∀ pack, landing.args.stagedPack = some pack → pack.integrity = none)
    (progress : landing.Progress current) {replay : ReceiveReplay}
    (resumes : replay.Resumes landing.args.token current)
    (spares : replay.SparesIntent landing.args.token current) :
    landing.Carries (replay.program landing.args)
      (fun value last => value = true ∧ landing.Finished last) current := by
  cases replay with
  | finalize =>
    have completes :
        landing.Carries (finalizeReceiveState landing.args)
          (fun value last =>
            (∃ result, value = .committed result) ∧ landing.Finished last)
          current := by
      rcases progress.stage with untouched | pending | recorded
      · refine carries_finalize_untouched sound settles progress.settings
          untouched ?_ bare
        obtain ⟨lease, -, same⟩ := untouched
        have noIntent :
            current.repo.receiveFinalizeIntent landing.args.token =
              none := by
          rw [same]
          exact sound.unpromised
        have noOutcome :
            current.repo.receiveOutcome landing.args.token = none := by
          rw [same]
          exact sound.unanswered
        rcases resumes with intent | outcome | ⟨held, holds, -, live⟩
        · rw [noIntent] at intent
          cases intent
        · rw [noOutcome] at outcome
          cases outcome
        · intro other found
          rw [← Option.some.inj (holds.symm.trans found)]
          exact live
      · exact carries_finalize_pending sound settles
          ⟨progress.settings, pending⟩ (repeats_args sound bare) bare
      · exact carries_finalize_recorded ⟨progress.settings, recorded⟩ rfl
          rfl
    refine completes.bind ?_
    rintro _ last ⟨⟨result, rfl⟩, finished⟩
    exact carries_done ⟨rfl, finished⟩
  | reconcile =>
    have completes :
        landing.Carries (reconcileReceiveState (reconcileArgs landing.args))
          (fun value last =>
            (∃ result, value = .committed result) ∧ landing.Finished last)
          current := by
      rcases progress.stage with ⟨lease, -, same⟩ | pending | recorded
      · rcases resumes with intent | outcome
        · rw [same] at intent
          rw [show (landing.found.setReceiveLease
            (some lease)).receiveFinalizeIntent landing.args.token =
              none from sound.unpromised] at intent
          cases intent
        · rw [same] at outcome
          rw [show (landing.found.setReceiveLease
            (some lease)).receiveOutcome landing.args.token =
              none from sound.unanswered] at outcome
          cases outcome
      · exact carries_reconcile_pending sound settles bare
          ⟨progress.settings, pending⟩ rfl
      · obtain ⟨outcome, known, -⟩ := recorded.outcome
        have noIntent := spares rfl (by rw [known]; rfl)
        exact carries_reconcile_recorded ⟨progress.settings, recorded⟩
          noIntent rfl rfl
    refine completes.bind ?_
    rintro _ last ⟨⟨result, rfl⟩, finished⟩
    exact carries_done ⟨rfl, finished⟩
  | alarm =>
    obtain ⟨intent, lease, held, own⟩ := resumes
    obtain ⟨found, known⟩ := Option.isSome_iff_exists.mp intent
    exact carries_alarm sound settles bare progress held own known

/-- A run of a carried program, cut or not, keeps the progress. -/
theorem Carries.run {program : RepoProgram Value} {post : Value → World → Prop}
    {result : Option (Except RepoFailure Value)}
    (carries : landing.Carries program post current)
    (progress : landing.Progress current)
    (ran : RunsAlone program current last result) :
    landing.Progress last ∧
      Program.Satisfies post (fun _ _ => False) last result :=
  Program.Ensures.runs landing.Progress ran carries progress
    (fun _ _ _ kept => kept)
    (fun _ _ held drifted => held.drift drifted)

end Landing

/--
A finalization is crash-replayable.  Whatever its first call and its replays
were cut at, a replay that runs to its end reports the receive as committed
and leaves the refs, HEAD, versions, catalog rows, counters, write heads and
accepted receives of the uncut run, with lease and intent gone; and the
uncut run advances the ref version by one.
-/
theorem finalize_crash_replayable (args : FinalizeReceiveArgs)
    (origin uncut : World) (result : CommittedReceive)
    (unpromised : origin.repo.receiveFinalizeIntent args.token = none)
    (unanswered : origin.repo.receiveOutcome args.token = none)
    (bare : ∀ pack, args.stagedPack = some pack → pack.integrity = none)
    (settles : Landing.Settles args origin.repo.refs)
    (ran :
      RunsAlone (finalizeReceiveState args) origin uncut
        (some (.ok (.committed result)))) :
    CrashReplayable (ReceiveReplay.SparesIntent args.token) args origin
        uncut ∧
      uncut.repo.refsVersion = origin.repo.refsVersion + 1 ∧
      uncut.repo.receiveLease = none ∧
      uncut.repo.receiveFinalizeIntent args.token = none := by
  obtain ⟨context, sound, live⟩ :=
    committed_sound unpromised unanswered bare ran
  have untouched : (landingOf args origin context).Untouched origin.repo := by
    obtain ⟨lease, held, own⟩ := sound.lease
    refine ⟨lease, own, ?_⟩
    change origin.repo = origin.repo.setReceiveLease (some lease)
    rw [← show origin.repo.receiveLease = some lease from held]
    rfl
  have start : (landingOf args origin context).Progress origin :=
    ⟨rfl, Or.inl untouched⟩
  have first :=
    Landing.carries_finalize_untouched sound settles rfl untouched live bare
  have finished := (first.run start ran).2.2
  have progress :
      ∀ reached,
        Interrupted (ReceiveReplay.SparesIntent args.token) args origin
            reached →
          (landingOf args origin context).Progress reached := by
    intro reached interrupted
    induction interrupted with
    | first ran => exact (first.run start ran).1
    | replayed replay before drifted resumes spares ran ih =>
      have carried :=
        Landing.carries_replay sound settles bare (ih.drift drifted)
          resumes spares
      exact (carried.run (ih.drift drifted) ran).1
  refine ⟨?_, finished.state.recorded.refs.refsVersion, finished.lease,
    finished.intent⟩
  intro reached interrupted later drifted replay resumes spares
  have reachedLater := (progress reached interrupted).drift drifted
  have carried :=
    Landing.carries_replay sound settles bare reachedLater resumes spares
  have ends :
      ∀ last answer,
        RunsAlone (replay.program args) later last (some answer) →
          answer = .ok true ∧ CompletedAs args.token uncut.repo last.repo := by
    intro last answer ended
    have satisfied := (carried.run reachedLater ended).2
    cases answer with
    | error failure => exact satisfied.elim
    | ok value =>
      obtain ⟨rfl, done⟩ := satisfied
      exact ⟨rfl, finished.completedAs done⟩
  refine ⟨?_, ends⟩
  obtain ⟨last, answer, ended⟩ := exists_runAlone (replay.program args) later
  obtain ⟨rfl, -⟩ := ends last answer ended
  exact ⟨last, ended⟩

/-! ## Runs of calls that do not wait -/

/-- The uncut run of a call that does not wait. -/
def uncutRun (args : FinalizeReceiveArgs) (origin : World) : World :=
  ((finalizeReceiveState args).segment origin).final

/-- The state after the first writes of a call. -/
def cutRun (args : FinalizeReceiveArgs) (origin : World) (count : Nat) :
    World :=
  (((finalizeReceiveState args).segment origin).commits.take
    count).getLastD origin

/-- What a call without pack and receipt answers when it commits. -/
def plainAnswer (args : FinalizeReceiveArgs) : FinalizeReceiveResult :=
  .committed
    { statuses := args.commands.map fun command => ⟨command.ref, true, none⟩
      changed := true
      empty := false
      shouldQueueCompaction := false
      outputValidationBytes := 0
      outputValidationRequests := 0
      outputEtags := none
      refPublication := some ⟨0, 1⟩ }

/-- A push without pack, receipt and write context. -/
def plainPush (commands : List ReceiveCommand) : FinalizeReceiveArgs :=
  { token := "t"
    commands := commands
    stagedPack := none
    ingestionReceipt := none
    acceptedWrites := none }

/-- A repository in which the token `t` holds the receive lease. -/
def leasedWorld (refs : List Ref) : World :=
  { repo :=
      { refs := refs
        receiveLease := some { token := "t", createdAt := 0, expiresAt := 1 } }
    now := 0 }

/-- A push that moves its one branch. -/
def movePush : FinalizeReceiveArgs :=
  plainPush [⟨"aaaa", "bbbb", "refs/heads/main"⟩]

def moveWorld : World := leasedWorld [⟨"refs/heads/main", "aaaa"⟩]

theorem movePush_commits :
    ((finalizeReceiveState movePush).segment moveWorld).stop.answer? =
      some (.ok (plainAnswer movePush)) := by
  decide +kernel

theorem finalize_crash_replayable_movePush :
    CrashReplayable (ReceiveReplay.SparesIntent movePush.token) movePush
        moveWorld (uncutRun movePush moveWorld) ∧
      (uncutRun movePush moveWorld).repo.refsVersion = 1 := by
  have replayable :=
    finalize_crash_replayable movePush moveWorld
      (uncutRun movePush moveWorld) _ rfl rfl nofun
      (by unfold Landing.Settles; decide +kernel)
      (.of_segment movePush_commits)
  exact ⟨replayable.1, replayable.2.1⟩

/-- A push that deletes and recreates a branch before it creates another. -/
def reorderPush : FinalizeReceiveArgs :=
  plainPush
    [⟨"aaaa", zeroOid, "refs/heads/main"⟩,
      ⟨"aaaa", "bbbb", "refs/heads/main"⟩,
      ⟨zeroOid, "dddd", "refs/heads/topic"⟩]

def reorderWorld : World :=
  leasedWorld [⟨"refs/heads/main", "aaaa"⟩, ⟨"refs/heads/next", "cccc"⟩]

theorem reorderPush_commits :
    ((finalizeReceiveState reorderPush).segment reorderWorld).stop.answer? =
      some (.ok (plainAnswer reorderPush)) := by
  decide +kernel

/--
Without the conditions it is not: a push whose commands reorder the refs when
they are applied again is cut after its ref transaction and can never be
completed, and a plain push that is cut after its outcome is reported as
committed by reconciliation with its intent still on record.
-/
theorem finalize_not_crash_replayable :
    (∃ uncut result,
        RunsAlone (finalizeReceiveState reorderPush) reorderWorld uncut
            (some (.ok (.committed result))) ∧
          ¬ CrashReplayable (fun _ _ => True) reorderPush reorderWorld
            uncut) ∧
      ∃ uncut result,
        RunsAlone (finalizeReceiveState movePush) moveWorld uncut
            (some (.ok (.committed result))) ∧
          ¬ CrashReplayable (fun _ _ => True) movePush moveWorld uncut := by
  constructor
  · refine ⟨_, _, .of_segment reorderPush_commits, fun replayable => ?_⟩
    have replayed :=
      replayable (cutRun reorderPush reorderWorld 3)
        (.first (.of_cut _ _ 3)) _ ⟨rfl, rfl, le_refl _⟩ .finalize
        (Or.inl (by decide +kernel)) trivial
    have failed :
        ((ReceiveReplay.finalize.program reorderPush).segment
            (cutRun reorderPush reorderWorld 3)).stop.answer? =
          some (.error .refsDiverged) := by
      decide +kernel
    cases (replayed.2 _ _ (.of_segment failed)).1
  · refine ⟨_, _, .of_segment movePush_commits, fun replayable => ?_⟩
    have replayed :=
      replayable (cutRun movePush moveWorld 4) (.first (.of_cut _ _ 4)) _
        ⟨rfl, rfl, le_refl _⟩ .reconcile (Or.inl (by decide +kernel)) trivial
    have answered :
        ((ReceiveReplay.reconcile.program movePush).segment
            (cutRun movePush moveWorld 4)).stop.answer? =
          some (.ok true) := by
      decide +kernel
    have gone := (replayed.2 _ _ (.of_segment answered)).2.intent
    have kept :
        (((ReceiveReplay.reconcile.program movePush).segment
            (cutRun movePush moveWorld 4)).final.repo.receiveFinalizeIntent
          "t").isSome = true := by
      decide +kernel
    rw [show movePush.token = "t" from rfl] at gone
    rw [gone] at kept
    cases kept

end GitOnCloudflare.Receive
