import GitOnCloudflare.Receive.FinalizeProgress

/-!
# Replaying an interrupted finalization

A finalization may be cut between any two of its writes and is then replayed
by a repeated call, by reconciliation or by the alarm, any number of times
and each time possibly cut again.  Every such schedule ends like the run that
is not cut, provided that the commands change nothing when they are applied
a second time, that the staged pack carries no integrity declaration, and
that reconciliation is not asked while outcome and intent are both on
record.
-/

namespace GitOnCloudflare.Receive

open Foundations
open Repo

namespace Landing

variable {landing : Landing}

/-- Every write of a program keeps the progress, and the program succeeds. -/
def Carries {Value : Type} (landing : Landing) (program : RepoProgram Value)
    (post : Value → World → Prop) (current : World) : Prop :=
  program.Ensures AnyAnswer (fun _ after => landing.Progress after) ClockDrift
    post (fun _ _ => False) current

variable {current : World} {Value : Type} {repo : RepoState}
  {call : FinalizeReceiveArgs} {pack : StagedPack}
  {intent : ReceiveFinalizeIntent}
  {program : RepoProgram Value} {post : Value → World → Prop}
  {outcome : ReceiveCommitOutcome} {stored recorded : RepoState}

theorem Carries.bind {Other : Type} {rest : Value → RepoProgram Other}
    {middle : Value → World → Prop} {post : Other → World → Prop}
    (first : landing.Carries program middle current)
    (second :
      ∀ value last, middle value last →
        landing.Carries (rest value) post last) :
    landing.Carries (program.bind rest) post current := by
  unfold Carries
  rw [Program.ensures_bind]
  exact first.mono (fun _ _ kept => kept) second (fun _ _ failure => failure)

theorem Carries.mono {post' : Value → World → Prop}
    (carries : landing.Carries program post current)
    (weaker : ∀ value last, post value last → post' value last) :
    landing.Carries program post' current :=
  Program.Ensures.mono carries (fun _ _ kept => kept) weaker
    (fun _ _ failure => failure)

theorem carries_done {value : Value} (holds : post value current) :
    landing.Carries (Program.done value) post current :=
  holds

theorem carries_put {write : RepoState → RepoState} {post : Unit → World → Prop}
    (progress : landing.Progress (current.withRepo (write current.repo)))
    (holds : post () (current.withRepo (write current.repo))) :
    landing.Carries (put write) post current :=
  ⟨progress, holds⟩

/-- The state of a receive whose outcome is on record. -/
structure RecordedAt (landing : Landing) (current : World) : Prop where
  settings : current.settings = landing.origin.settings
  recorded : landing.Recorded current.repo

theorem RecordedAt.progress (state : landing.RecordedAt current) :
    landing.Progress current :=
  ⟨state.settings, Or.inr (Or.inr state.recorded)⟩

theorem RecordedAt.withRepo (state : landing.RecordedAt current)
    (recorded : landing.Recorded repo) :
    landing.RecordedAt (current.withRepo repo) :=
  ⟨state.settings, recorded⟩

/-- The state of a receive whose intent is on record without its outcome. -/
structure PendingAt (landing : Landing) (current : World) : Prop where
  settings : current.settings = landing.origin.settings
  pending : landing.Pending current.repo

theorem PendingAt.withRepo (state : landing.PendingAt current)
    (pending : landing.Pending repo) :
    landing.PendingAt (current.withRepo repo) :=
  ⟨state.settings, pending⟩

theorem PendingAt.record (state : landing.PendingAt current)
    (recorded : landing.Recorded repo) :
    landing.RecordedAt (current.withRepo repo) :=
  ⟨state.settings, recorded⟩

theorem PendingAt.progress (state : landing.PendingAt current) :
    landing.Progress current :=
  ⟨state.settings, Or.inr (Or.inl state.pending)⟩

/-- The completed state: nothing of the receive is left to do. -/
structure Finished (landing : Landing) (current : World) : Prop where
  state : landing.RecordedAt current
  intent : current.repo.receiveFinalizeIntent landing.args.token = none
  lease : current.repo.receiveLease = none

/-! ## The end of a finalization -/

section Tail

variable {current : World}

theorem setIngestionReceipts_intent (repo : RepoState)
    (receipts : String → Option IngestionReceipt) (index : List String) :
    (repo.setIngestionReceipts receipts index).receiveFinalizeIntent =
      repo.receiveFinalizeIntent :=
  rfl

theorem setReceiveOutcomes_intent (repo : RepoState)
    (outcomes : String → Option ReceiveCommitOutcome) (index : List String) :
    (repo.setReceiveOutcomes outcomes index).receiveFinalizeIntent =
      repo.receiveFinalizeIntent :=
  rfl

theorem carries_storeOptionalReceipt (state : landing.RecordedAt current) :
    landing.Carries (storeOptionalReceipt landing.args.ingestionReceipt)
      (fun _ last =>
        landing.RecordedAt last ∧
          last.repo.receiveFinalizeIntent =
            current.repo.receiveFinalizeIntent)
      current := by
  cases asked : landing.args.ingestionReceipt with
  | none => exact carries_done ⟨state, rfl⟩
  | some receipt =>
    have fits := state.recorded.receipts receipt asked
    unfold Carries storeOptionalReceipt storeIngestionReceipt
    simp only [ensures_repoTransaction]
    rw [if_neg fits]
    -- The receipt kept on record has the fingerprint of the call's receipt.
    have kept :
        landing.Recorded
          (current.repo.setIngestionReceipts
            (recordBounded maxIngestionReceipts
              current.repo.ingestionReceipt
              current.repo.ingestionReceiptIndex receipt.keyHash
              ((current.repo.ingestionReceipt receipt.keyHash).getD
                receipt)).1
            (recordBounded maxIngestionReceipts
              current.repo.ingestionReceipt
              current.repo.ingestionReceiptIndex receipt.keyHash
              ((current.repo.ingestionReceipt receipt.keyHash).getD
                receipt)).2) := by
      refine state.recorded.setIngestionReceipts ?_
      intro other same
      obtain rfl : receipt = other := Option.some.inj (asked.symm.trans same)
      have positive : 0 < maxIngestionReceipts := by decide
      have stored :=
        recordBounded_self maxIngestionReceipts positive
          current.repo.ingestionReceipt
          current.repo.ingestionReceiptIndex receipt.keyHash
          ((current.repo.ingestionReceipt receipt.keyHash).getD receipt)
      rw [stored]
      unfold ReceiptFits at fits
      cases before : current.repo.ingestionReceipt receipt.keyHash with
      | none => simp
      | some existing =>
        rw [before] at fits
        exact fits
    exact ⟨(state.withRepo kept).progress, state.withRepo kept,
      setIngestionReceipts_intent _ _ _⟩

theorem carries_queueCompaction (state : landing.RecordedAt current)
    (wanted : Bool) :
    landing.Carries (queueCompaction wanted)
      (fun _ last =>
        landing.RecordedAt last ∧
          last.repo.receiveFinalizeIntent =
            current.repo.receiveFinalizeIntent)
      current := by
  unfold queueCompaction
  cases wanted with
  | false => exact carries_done ⟨state, rfl⟩
  | true =>
    have noted : landing.RecordedAt
        (current.withRepo
          (current.repo.setCompactionWantedAt (some current.now))) :=
      state.withRepo (state.recorded.setCompactionWantedAt _)
    unfold Carries markCompactionActivity
    simp only [if_true, Program.bind_eq_bind, Program.ensures_bind,
      ensures_dateNow, ensures_put, ensures_get]
    refine ⟨noted.progress, ?_⟩
    split_ifs
    · have pending : landing.RecordedAt
          ((current.withRepo
            (current.repo.setCompactionWantedAt
              (some current.now))).withRepo
            ((current.repo.setCompactionWantedAt
              (some current.now)).setCompactionPendingSince
              (some current.now))) :=
        state.withRepo (noted.recorded.setCompactionPendingSince _)
      exact ⟨pending.progress, pending, rfl⟩
    · exact ⟨noted, rfl⟩

theorem carries_deleteFinalizeIntent (state : landing.RecordedAt current) :
    landing.Carries (deleteFinalizeIntent landing.args.token)
      (fun _ last =>
        landing.RecordedAt last ∧
          last.repo.receiveFinalizeIntent landing.args.token = none)
      current := by
  have deleted : landing.RecordedAt
      (current.withRepo
        (current.repo.setFinalizeIntent landing.args.token none)) :=
    state.withRepo state.recorded.deleteIntent
  refine carries_put deleted.progress ⟨deleted, ?_⟩
  simp [RepoState.setFinalizeIntent]

theorem carries_deleteReceiveLease (state : landing.RecordedAt current)
    (noIntent : current.repo.receiveFinalizeIntent landing.args.token = none) :
    landing.Carries deleteReceiveLease (fun _ last => landing.Finished last)
      current := by
  have released : landing.RecordedAt
      (current.withRepo (current.repo.setReceiveLease none)) :=
    state.withRepo (state.recorded.setReceiveLease nofun)
  exact carries_put released.progress ⟨released, noIntent, rfl⟩

theorem carries_clearMatchingReceiveLease (state : landing.RecordedAt current)
    (noIntent : current.repo.receiveFinalizeIntent landing.args.token = none) :
    landing.Carries (clearMatchingReceiveLease landing.args.token)
      (fun _ last => landing.Finished last) current := by
  unfold clearMatchingReceiveLease
  cases held : current.repo.receiveLease with
  | none =>
    unfold Carries
    simp only [Program.bind_eq_bind, Program.ensures_bind, ensures_get,
      held, Option.any_none, Bool.false_eq_true, if_false]
    exact ⟨state, noIntent, held⟩
  | some lease =>
    have own := state.recorded.lease lease held
    unfold Carries
    simp only [Program.bind_eq_bind, Program.ensures_bind, ensures_get,
      held, Option.any_some, own, decide_true, if_true]
    exact carries_deleteReceiveLease state noIntent

/-- A call for a recorded receive completes it. -/
theorem carries_repeatCommittedReceive (state : landing.RecordedAt current)
    (sameToken : call.token = landing.args.token)
    (sameReceipt : call.ingestionReceipt = landing.args.ingestionReceipt)
    (own : outcome.token = landing.args.token) :
    landing.Carries (repeatCommittedReceive call outcome)
      (fun value last =>
        (∃ result, value = .committed result) ∧ landing.Finished last)
      current := by
  unfold repeatCommittedReceive
  rw [sameToken, sameReceipt]
  have stored : landing.RecordedAt
      (current.withRepo (current.repo.storeOutcome outcome)) :=
    state.withRepo
      (state.recorded.setReceiveOutcomes (stored_storeOutcome own))
  have first :
      landing.Carries (storeReceiveOutcome outcome)
        (fun _ last => landing.RecordedAt last) current :=
    carries_put stored.progress stored
  refine first.bind fun _ first firstState => ?_
  refine (carries_storeOptionalReceipt firstState).bind ?_
  rintro _ second ⟨secondState, -⟩
  refine (carries_queueCompaction secondState _).bind ?_
  rintro _ third ⟨thirdState, -⟩
  refine (carries_deleteFinalizeIntent thirdState).bind ?_
  rintro _ fourth ⟨fourthState, noIntent⟩
  refine (carries_clearMatchingReceiveLease fourthState noIntent).bind
    fun _ last finished => ?_
  exact carries_done ⟨⟨_, rfl⟩, finished⟩

end Tail

/-! ## Activating the staged pack -/

theorem rowMatchesIntent_receiveRow (pack : StagedPack) (sequence time : Nat) :
    rowMatchesIntent (receiveRow pack sequence time) pack (some sequence) =
      true := by
  simp [rowMatchesIntent, receiveRow]

/-- The row of the staged pack is the intent's row once it is active, and
writing it otherwise lands the catalog. -/
theorem staged_row (sound : landing.Sound)
    (staged : landing.args.stagedPack = some pack) {catalog : PackCatalog}
    (stage :
      catalog = landing.found.packCatalog ∨
        ∃ time, catalog = landing.catalog time) :
    (∀ row, activeRow catalog pack.packKey = some row →
        rowMatchesIntent row pack (some landing.found.packSequence) = true ∧
          ∃ time, catalog = landing.catalog time) ∧
      (activeRow catalog pack.packKey = none →
        ∀ time,
          upsertPackCatalogRow catalog
              (receiveRow pack landing.found.packSequence time) =
            landing.catalog time) := by
  have landed (time : Nat) :
      landing.catalog time =
        if activeRow landing.found.packCatalog pack.packKey = none then
          upsertPackCatalogRow landing.found.packCatalog
            (receiveRow pack landing.found.packSequence time)
        else
          landing.found.packCatalog := by
    unfold Landing.catalog
    rw [staged]
  by_cases fresh : activeRow landing.found.packCatalog pack.packKey = none
  · rcases stage with rfl | ⟨time, rfl⟩
    · refine ⟨fun row active => ?_, fun _ time => ?_⟩
      · rw [fresh] at active
        cases active
      · rw [landed, if_pos fresh]
    · have active :
          activeRow (landing.catalog time) pack.packKey =
            some (receiveRow pack landing.found.packSequence time) := by
        rw [landed, if_pos fresh]
        exact
          activeRow_upsert landing.found.packCatalog
            (receiveRow pack landing.found.packSequence time) rfl
      refine ⟨fun row found => ?_, fun absent => ?_⟩
      · rw [active] at found
        rw [← Option.some.inj found]
        exact ⟨rowMatchesIntent_receiveRow pack _ time, time, rfl⟩
      · rw [active] at absent
        cases absent
  · have same : ∀ time, landing.catalog time = landing.found.packCatalog := by
      intro time
      rw [landed, if_neg fresh]
    have unchanged : catalog = landing.found.packCatalog := by
      rcases stage with same' | ⟨time, rfl⟩
      · exact same'
      · exact same time
    subst unchanged
    refine ⟨fun row active => ?_, fun absent => absurd absent fresh⟩
    exact ⟨sound.row pack row staged active, 0, (same 0).symm⟩

theorem carries_activateReceiveRow (sound : landing.Sound)
    (state : landing.PendingAt current)
    (staged : landing.args.stagedPack = some pack) :
    landing.Carries
      (activateReceiveRow pack landing.found.packSequence
        (activeRow current.repo.packCatalog pack.packKey))
      (fun _ last =>
        landing.PendingAt last ∧
          ∃ time, last.repo.packCatalog = landing.catalog time)
      current := by
  obtain ⟨present, absent⟩ := staged_row sound staged state.pending.catalog
  unfold activateReceiveRow
  by_cases missing : activeRow current.repo.packCatalog pack.packKey = none
  · have written :=
      state.withRepo
        (state.pending.setPackCatalog
          ⟨current.now, absent missing current.now⟩)
    rw [if_pos missing]
    exact ⟨written.progress, written, current.now,
      absent missing current.now⟩
  · rw [if_neg missing]
    obtain ⟨row, found⟩ := Option.ne_none_iff_exists'.mp missing
    exact carries_done ⟨state, (present row found).2⟩

theorem carries_raiseNextPackSeq (state : landing.PendingAt current)
    (staged : landing.args.stagedPack = some pack)
    (landed : ∃ time, current.repo.packCatalog = landing.catalog time) :
    landing.Carries (raiseNextPackSeq landing.found.packSequence)
      (fun _ last =>
        landing.PendingAt last ∧
          (∃ time, last.repo.packCatalog = landing.catalog time) ∧
          last.repo.nextPackSeq = landing.nextPackSeq)
      current := by
  have target : landing.nextPackSeq = landing.found.packSequence + 1 := by
    unfold Landing.nextPackSeq
    rw [staged]
  have raised := state.withRepo state.pending.setNextPackSeq
  unfold raiseNextPackSeq Carries
  simp only [Program.bind_eq_bind, Program.ensures_bind, ensures_get]
  split_ifs with low
  · rw [← target]
    exact ⟨raised.progress, raised, landed, rfl⟩
  · refine ⟨state, landed, ?_⟩
    rcases state.pending.nextPackSeq with same | same
    · unfold RepoState.packSequence at low
      rw [same] at low
      exact absurd (le_refl _) low
    · exact same

theorem carries_raisePacksetVersion (state : landing.PendingAt current)
    (staged : landing.args.stagedPack = some pack)
    (landed : ∃ time, current.repo.packCatalog = landing.catalog time)
    (sequenced : current.repo.nextPackSeq = landing.nextPackSeq) :
    landing.Carries (raisePacksetVersion (landing.found.packsetVersion + 1))
      (fun _ last => landing.PendingAt last ∧ landing.Activated last.repo)
      current := by
  have target : landing.packsetVersion = landing.found.packsetVersion + 1 := by
    unfold Landing.packsetVersion
    rw [staged]
  have raised := state.withRepo state.pending.setPacksetVersion
  unfold raisePacksetVersion Carries
  simp only [Program.bind_eq_bind, Program.ensures_bind, ensures_get]
  split_ifs with low
  · rw [← target]
    exact ⟨raised.progress, raised, landed, sequenced, rfl⟩
  · refine ⟨state, landed, sequenced, ?_⟩
    rcases state.pending.packsetVersion with same | same
    · omega
    · exact same

theorem carries_activateStagedPack (sound : landing.Sound)
    (state : landing.PendingAt current) (promises : landing.Promises intent) :
    landing.Carries (activateStagedPack intent)
      (fun _ last => landing.PendingAt last ∧ landing.Activated last.repo)
      current := by
  unfold activateStagedPack
  rw [promises.stagedPack, promises.packSequence,
    promises.nextPacksetVersion]
  unfold Landing.nextPacksetVersion
  cases staged : landing.args.stagedPack with
  | none =>
    have pending := state.pending
    refine carries_done ⟨state, ?_, ?_, ?_⟩
    · refine ⟨0, ?_⟩
      rcases pending.catalog with same | ⟨time, same⟩
      · rw [same]
        unfold Landing.catalog
        rw [staged]
      · rw [same]
        unfold Landing.catalog
        rw [staged]
    · refine pending.nextPackSeq.elim (fun same => ?_) (fun same => same)
      unfold Landing.nextPackSeq
      rw [same, staged]
    · refine pending.packsetVersion.elim (fun same => ?_)
        (fun same => same)
      unfold Landing.packsetVersion
      rw [same, staged]
  | some pack =>
    have matches' :
        ¬ ((activeRow current.repo.packCatalog pack.packKey).any fun row =>
          !rowMatchesIntent row pack
            (some landing.found.packSequence)) = true := by
      cases found : activeRow current.repo.packCatalog pack.packKey with
      | none => simp
      | some row =>
        have known :=
          (staged_row sound staged state.pending.catalog).1 row found
        simp [known.1]
    unfold Carries
    simp only [Program.bind_eq_bind, Program.ensures_bind, ensures_get,
      Option.map_some]
    change (Program.Ensures _ _ _ _ _
      (if ((activeRow current.repo.packCatalog pack.packKey).any fun row =>
          !rowMatchesIntent row pack
            (some landing.found.packSequence)) = true then _ else _) _)
    rw [if_neg matches']
    refine (carries_activateReceiveRow sound state staged).bind ?_
    rintro _ second ⟨secondState, landed⟩
    change landing.Carries
      ((raiseNextPackSeq landing.found.packSequence).bind _) _ second
    refine (carries_raiseNextPackSeq secondState staged landed).bind ?_
    rintro _ third ⟨thirdState, stillLanded, sequenced⟩
    refine (carries_raisePacksetVersion thirdState staged stillLanded
      sequenced).bind ?_
    rintro _ last activated
    exact carries_done activated

/-! ## The ref transaction -/

/-- Applying the commands to the refs they produce changes nothing. -/
def Settles (args : FinalizeReceiveArgs) (refs : List Ref) : Prop :=
  applyReceiveCommands (applyReceiveCommands refs args.commands)
      args.commands =
    applyReceiveCommands refs args.commands

theorem recordIntentWrites_records (promises : landing.Promises intent)
    (records : landing.Records stored) :
    ∃ recorded,
      recordIntentWrites stored intent landing.origin.settings =
          .ok recorded ∧
        recorded = stored.withWriteRecord recorded ∧
        recorded.acceptedWriteHead =
          landing.facts.foldl (noteHead landing.refsVersion)
            stored.acceptedWriteHead ∧
        landing.Records recorded := by
  have samePin :
      receiveSnapshotPin intent landing.origin.settings =
        landing.pin intent.createdAt := by
    unfold receiveSnapshotPin Landing.pin
    rw [promises.ingestionReceipt]
  unfold recordIntentWrites acceptedWriteFactsForIntent
  rw [promises.acceptedWriteContext, promises.commands, samePin,
    promises.nextRefsVersion]
  cases context : landing.context with
  | none =>
    have noFacts : landing.facts = [] := by
      unfold Landing.facts
      rw [context]
      rfl
    refine ⟨stored, rfl, rfl, ?_, records⟩
    rw [noFacts]
    rfl
  | some known =>
    have facts :
        acceptedWriteFactsForCommands known landing.args.commands =
          landing.facts := by
      unfold Landing.facts
      rw [context]
      rfl
    simp only [Option.map_some]
    rw [facts]
    have recordable :
        ∃ result,
          recordAcceptedWrites stored landing.refsVersion landing.facts
            intent.createdAt
            landing.origin.settings.snapshotEventProbeEnabled
            (landing.pin intent.createdAt) = .ok result :=
      (recordAcceptedWrites_isOk_iff landing.nodup_facts stored).mpr
        ((landing.records_iff stored intent.createdAt).mpr records)
    obtain ⟨⟨retained, recorded⟩, ok⟩ := recordable
    obtain ⟨frame, heads, again⟩ :=
      recordAcceptedWrites_ok landing.nodup_facts ok
    refine ⟨recorded, ?_, frame, heads,
      (landing.records_iff recorded intent.createdAt).mp again⟩
    rw [ok]

/-- An intent whose writes are recorded could record them. -/
theorem records_of_recordIntentWrites (promises : landing.Promises intent)
    (written :
      recordIntentWrites stored intent landing.origin.settings =
        .ok recorded) :
    landing.Records stored ∧ recorded = stored.withWriteRecord recorded := by
  have samePin :
      receiveSnapshotPin intent landing.origin.settings =
        landing.pin intent.createdAt := by
    unfold receiveSnapshotPin Landing.pin
    rw [promises.ingestionReceipt]
  unfold recordIntentWrites acceptedWriteFactsForIntent at written
  rw [promises.acceptedWriteContext, promises.commands, samePin,
    promises.nextRefsVersion] at written
  cases context : landing.context with
  | none =>
    have noFacts : landing.facts = [] := by
      unfold Landing.facts
      rw [context]
      rfl
    rw [context] at written
    cases written
    refine ⟨fun nonempty => absurd noFacts nonempty, rfl⟩
  | some known =>
    have facts :
        acceptedWriteFactsForCommands known landing.args.commands =
          landing.facts := by
      unfold Landing.facts
      rw [context]
      rfl
    rw [context] at written
    simp only [Option.map_some] at written
    rw [facts] at written
    cases ok :
        recordAcceptedWrites stored landing.refsVersion landing.facts
          intent.createdAt
          landing.origin.settings.snapshotEventProbeEnabled
          (landing.pin intent.createdAt) with
    | error failure =>
      rw [ok] at written
      cases written
    | ok result =>
      obtain ⟨retained, last⟩ := result
      rw [ok] at written
      obtain rfl : last = recorded := Except.ok.inj written
      refine ⟨?_, (recordAcceptedWrites_ok landing.nodup_facts ok).1⟩
      exact (landing.records_iff stored intent.createdAt).mp
        ((recordAcceptedWrites_isOk_iff landing.nodup_facts stored).mp
          ⟨_, ok⟩)

theorem Pending.land (pending : landing.Pending repo)
    (promises : landing.Promises intent)
    (publication : Option ReceiveRefPublication)
    (operation : Option GcOperation)
    (after :
      landing.RefsAfter
        (((storeRefUpdate repo landing.args.token intent landing.refs
          publication).withWriteRecord recorded).setGcOperation operation)) :
    landing.Pending
      (((storeRefUpdate repo landing.args.token intent landing.refs
        publication).withWriteRecord recorded).setGcOperation operation) where
  active := pending.active
  outcome := pending.outcome
  intent := by
    cases publication with
    | none => exact pending.intent
    | some published =>
      exact ⟨{ intent with refPublication := some published },
        by simp [storeRefUpdate, RepoState.withWriteRecord,
          RepoState.setGcOperation],
        { promises with }⟩
  lease := pending.lease
  catalog := pending.catalog
  nextPackSeq := pending.nextPackSeq
  packsetVersion := pending.packsetVersion
  refs := Or.inr after
  receipts := pending.receipts

/-- The refs the transaction stores are the landing's, before and after. -/
theorem resolveRefUpdate_lands (pending : landing.Pending current.repo)
    (settles : Settles landing.args landing.found.refs)
    (promises : landing.Promises intent) :
    ∃ publication,
      resolveRefUpdate current.repo current.now intent =
        .ok (landing.refs, publication) := by
  unfold resolveRefUpdate
  rw [promises.commands, promises.expectedRefsVersion,
    promises.nextRefsVersion]
  rcases pending.refs with before | after
  · rw [before.refs, before.refsVersion, if_pos rfl]
    exact ⟨_, rfl⟩
  · have moved : landing.refsVersion ≠ landing.found.refsVersion := by
      unfold Landing.refsVersion
      omega
    have applied :
        applyReceiveCommands landing.refs landing.args.commands =
          landing.refs :=
      settles
    rw [after.refs, after.refsVersion, if_neg moved, applied,
      if_pos ⟨rfl, rfl⟩]
    exact ⟨_, rfl⟩

theorem applyRefUpdate_lands (sound : landing.Sound)
    (state : landing.PendingAt current)
    (activated : landing.Activated current.repo)
    (settles : Settles landing.args landing.found.refs)
    (promises : landing.Promises intent) :
    ∃ publication repo,
      applyRefUpdate current landing.args.token intent =
          .ok ((landing.refs, publication), repo) ∧
        landing.Pending repo ∧ landing.RefsAfter repo ∧
        landing.Activated repo := by
  have pending := state.pending
  obtain ⟨publication, resolved⟩ :=
    resolveRefUpdate_lands pending settles promises
  have recordsNow : landing.Records current.repo :=
    pending.refs.elim (fun before => before.records)
      (fun after => after.records)
  have storedRecords :
      landing.Records
        (storeRefUpdate current.repo landing.args.token intent landing.refs
          publication) :=
    Records.of_record landing recordsNow rfl rfl rfl
  obtain ⟨recorded, written, frame, heads, again⟩ :=
    recordIntentWrites_records promises storedRecords
  have landedHeads : recorded.acceptedWriteHead = landing.heads := by
    rw [heads]
    change landing.facts.foldl (noteHead landing.refsVersion)
      current.repo.acceptedWriteHead = _
    rcases pending.refs with before | after
    · rw [before.heads]
      rfl
    · rw [after.heads]
      exact foldl_noteHead_again _ _
  have account :
      (gcAccount recorded.gcOperation).advance landing.found.refsVersion
        landing.refsVersion landing.nextPacksetVersion =
          .ok landing.account := by
    rw [frame]
    change (gcAccount current.repo.gcOperation).advance _ _ _ = _
    rcases pending.refs with before | after
    · rw [before.account]
      exact sound.account
    · rw [after.account]
      exact GcAccount.advance_again sound.account
  obtain ⟨counted, framed⟩ :=
    advanceGcReceiveVersions_account recorded landing.found.refsVersion
      landing.refsVersion landing.nextPacksetVersion
      (storeRefUpdate current.repo landing.args.token intent landing.refs
        publication).snapshotPinVersion recorded.snapshotPinVersion
  rw [account] at counted
  cases advanced :
      advanceGcReceiveVersions recorded landing.found.refsVersion
        landing.refsVersion landing.nextPacksetVersion
        (storeRefUpdate current.repo landing.args.token intent landing.refs
          publication).snapshotPinVersion recorded.snapshotPinVersion with
  | error failure =>
    rw [advanced] at counted
    cases counted
  | ok last =>
    rw [advanced] at counted
    have lastEq := framed last advanced
    have lastAccount : gcAccount last.gcOperation = landing.account :=
      (Except.ok.inj counted).symm
    have form :
        last =
          ((storeRefUpdate current.repo landing.args.token intent
            landing.refs publication).withWriteRecord
              recorded).setGcOperation last.gcOperation := by
      rw [← frame]
      exact lastEq
    have after : landing.RefsAfter last := by
      refine ⟨?_, ?_, ?_, ?_, ?_, lastAccount⟩
      · rw [form]
        rfl
      · rw [form]
        exact congrArg some promises.nextHead
      · rw [form]
        exact promises.nextRefsVersion
      · rw [lastEq]
        exact landedHeads
      · rw [lastEq]
        exact Records.of_record landing again rfl rfl rfl
    refine ⟨publication, last, ?_, ?_, after, ?_⟩
    · unfold applyRefUpdate
      rw [resolved]
      dsimp only
      rw [state.settings, written]
      dsimp only
      rw [promises.expectedRefsVersion, promises.nextRefsVersion,
        promises.nextPacksetVersion, advanced]
    · rw [form] at after ⊢
      exact pending.land promises publication _ after
    · rw [form]
      exact { activated with }

/-! ## From the intent to the end -/

section Finalize

variable (sound : landing.Sound)
variable (settles : Settles landing.args landing.found.refs)

include sound settles in
theorem carries_commitFinalizeIntent (state : landing.PendingAt current)
    (promises : landing.Promises intent) (verification : OutputVerification) :
    landing.Carries
      (commitFinalizeIntent landing.args.token intent verification)
      (fun value last =>
        (∃ result, value = .committed result) ∧ landing.Finished last)
      current := by
  unfold commitFinalizeIntent
  refine (carries_activateStagedPack sound state promises).bind ?_
  rintro wanted second ⟨secondState, activated⟩
  obtain ⟨publication, repo, applied, pending, after, landed⟩ :=
    applyRefUpdate_lands sound secondState activated settles promises
  have applies :
      landing.Carries
        (transaction fun current =>
          applyRefUpdate current landing.args.token intent)
        (fun _ last =>
          landing.PendingAt last ∧ landing.RefsAfter last.repo ∧
            landing.Activated last.repo)
        second := by
    unfold Carries
    rw [ensures_repoTransaction, applied]
    have next := secondState.withRepo pending
    exact ⟨next.progress, next, after, landed⟩
  refine applies.bind ?_
  rintro ⟨refs, published⟩ third ⟨thirdState, thirdAfter, thirdActivated⟩
  have stored :
      landing.RecordedAt
        (third.withRepo
          (third.repo.storeOutcome
            ((committedResult intent verification wanted refs
              published).outcome landing.args.token))) :=
    thirdState.record
      (thirdState.pending.setReceiveOutcomes thirdAfter thirdActivated
        (stored_storeOutcome rfl))
  have records :
      landing.Carries
        (storeReceiveOutcome
          ((committedResult intent verification wanted refs
            published).outcome landing.args.token))
        (fun _ last => landing.RecordedAt last) third :=
    carries_put stored.progress stored
  refine records.bind fun _ fourth fourthState => ?_
  rw [promises.ingestionReceipt]
  refine (carries_storeOptionalReceipt fourthState).bind ?_
  rintro _ fifth ⟨fifthState, -⟩
  refine (carries_queueCompaction fifthState _).bind ?_
  rintro _ sixth ⟨sixthState, -⟩
  refine (carries_deleteFinalizeIntent sixthState).bind ?_
  rintro _ seventh ⟨seventhState, noIntent⟩
  refine (carries_deleteReceiveLease seventhState noIntent).bind
    fun _ last finished => ?_
  exact carries_done ⟨⟨_, rfl⟩, finished⟩

/-- A call that takes the landing up again. -/
structure Repeats
    (landing : Landing)
    (call : FinalizeReceiveArgs) : Prop where
  token : call.token = landing.args.token
  receipt : call.ingestionReceipt = landing.args.ingestionReceipt
  retries :
    ∀ intent, landing.Promises intent →
      retryMatchesIntent intent call = .ok true

theorem fenceAllows_recovery {now : Nat}
    (active : repo.repositoryDeleting = false)
    (own :
      ∀ lease, repo.receiveLease = some lease →
        lease.token = landing.args.token) :
    repo.fenceAllows now landing.args.token true = true := by
  unfold RepoState.fenceAllows
  rw [active]
  cases held : repo.receiveLease with
  | none => simp
  | some lease => simp [own lease held]

theorem carries_fence_recovery (condition : RepoState → Prop)
    (settings : current.settings = landing.origin.settings)
    (allowed :
      current.repo.fenceAllows current.now landing.args.token true = true)
    (kept :
      ∀ lease : RepoLease, lease.token = landing.args.token →
        condition (current.repo.setReceiveLease (some lease)))
    (progress :
      ∀ repo, condition repo →
        landing.Untouched repo ∨ landing.Pending repo ∨
          landing.Recorded repo) :
    landing.Carries (holdReceiveCompletionFence landing.args.token true)
      (fun value last =>
        value = true ∧ last.settings = landing.origin.settings ∧
          condition last.repo)
      current := by
  unfold Carries holdReceiveCompletionFence
  rw [ensures_repoTransaction, allowed]
  have held :=
    kept (current.repo.fenceLease current.now landing.args.token) rfl
  exact ⟨⟨settings, progress _ held⟩, rfl, settings, held⟩

/-- The fence of a receive that has an intent. -/
theorem carries_fence_pending (state : landing.PendingAt current) :
    landing.Carries (holdReceiveCompletionFence landing.args.token true)
      (fun value last =>
        value = true ∧ last.settings = landing.origin.settings ∧
          landing.Pending last.repo)
      current := by
  have pending := state.pending
  have own :
      ∀ lease, current.repo.receiveLease = some lease →
        lease.token = landing.args.token := by
    obtain ⟨held, holds, token⟩ := pending.lease
    intro lease same
    rw [← Option.some.inj (holds.symm.trans same)]
    exact token
  exact carries_fence_recovery landing.Pending state.settings
    (fenceAllows_recovery pending.active own)
    (fun lease token => pending.setReceiveLease token)
    (fun _ kept => Or.inr (Or.inl kept))

/-- The fence of a receive whose outcome is known. -/
theorem carries_fence_recorded (state : landing.RecordedAt current) :
    landing.Carries (holdReceiveCompletionFence landing.args.token true)
      (fun value last =>
        value = true ∧ last.settings = landing.origin.settings ∧
          landing.Recorded last.repo ∧
            last.repo.receiveFinalizeIntent landing.args.token =
              current.repo.receiveFinalizeIntent landing.args.token)
      current := by
  have recorded := state.recorded
  refine carries_fence_recovery (fun repo => landing.Recorded repo ∧
      repo.receiveFinalizeIntent _ = current.repo.receiveFinalizeIntent _)
    state.settings (fenceAllows_recovery recorded.active recorded.lease)
    (fun lease token => ⟨recorded.setReceiveLease fun held same => ?_, rfl⟩)
    (fun _ kept => Or.inr (Or.inr kept.1))
  rw [← Option.some.inj same]
  exact token

include sound settles in
/-- A repeated finalization completes a receive that has an intent. -/
theorem carries_finalize_pending (state : landing.PendingAt current)
    (repeats : landing.Repeats call)
    (bare : ∀ pack, landing.args.stagedPack = some pack → pack.integrity = none) :
    landing.Carries (finalizeReceiveState call)
      (fun value last =>
        (∃ result, value = .committed result) ∧ landing.Finished last)
      current := by
  have pending := state.pending
  obtain ⟨intent, found, promises⟩ := pending.intent
  unfold finalizeReceiveState Carries
  simp only [Program.bind_eq_bind, Program.ensures_bind, ensures_get,
    repeats.token, pending.outcome, found, Option.isSome_some,
    Option.isSome_none, Bool.or_false]
  refine (carries_fence_pending state).mono ?_
  rintro _ second ⟨rfl, settings, secondPending⟩
  simp only [Bool.not_true, Bool.false_eq_true, if_false]
  have verified :
      verifyReceiveOutputIntegrity intent.stagedPack =
        Program.done ⟨0, 0, none⟩ := by
    unfold verifyReceiveOutputIntegrity
    rw [promises.stagedPack]
    cases staged : landing.args.stagedPack with
    | none => rfl
    | some pack =>
      simp only [Option.bind_some, bare pack staged, Option.map_none]
      rfl
  unfold resumeFinalizeIntent
  rw [repeats.retries intent promises, verified, repeats.token]
  exact carries_commitFinalizeIntent sound settles ⟨settings, secondPending⟩
    promises _

/-- A repeated finalization completes a receive whose outcome is known. -/
theorem carries_finalize_recorded (state : landing.RecordedAt current)
    (sameToken : call.token = landing.args.token)
    (sameReceipt : call.ingestionReceipt = landing.args.ingestionReceipt) :
    landing.Carries (finalizeReceiveState call)
      (fun value last =>
        (∃ result, value = .committed result) ∧ landing.Finished last)
      current := by
  have recorded := state.recorded
  obtain ⟨outcome, known, own⟩ := recorded.outcome
  unfold finalizeReceiveState Carries
  simp only [Program.bind_eq_bind, Program.ensures_bind, ensures_get,
    sameToken, known, Option.isSome_some, Bool.or_true]
  refine (carries_fence_recorded state).mono ?_
  rintro _ second ⟨rfl, settings, secondRecorded, _⟩
  simp only [Bool.not_true, Bool.false_eq_true, if_false]
  exact carries_repeatCommittedReceive ⟨settings, secondRecorded⟩ sameToken
    sameReceipt own

theorem StagedPack.withEtags_none (pack : StagedPack) :
    pack.withEtags none = pack := by
  unfold StagedPack.withEtags
  cases pack.integrity <;> rfl

/-- The intent a first call writes is the landing's. -/
theorem promises_finalizeIntent (untouched : landing.Untouched repo) (now : Nat) :
    landing.Promises
      (repo.finalizeIntent now landing.args landing.refs
        landing.found.refsVersion none landing.context) := by
  obtain ⟨lease, -, rfl⟩ := untouched
  refine ⟨rfl, rfl, rfl, rfl, rfl, ?_, rfl, rfl, rfl, rfl⟩
  change landing.args.stagedPack.map (fun pack => pack.withEtags none) = _
  simp only [StagedPack.withEtags_none, Option.map_id']

/-- Writing the intent begins the pending stage. -/
theorem Untouched.setFinalizeIntent (sound : landing.Sound)
    (untouched : landing.Untouched repo) {operation : Option GcOperation}
    (account : gcAccount operation = gcAccount repo.gcOperation)
    (promises : landing.Promises intent) :
    landing.Pending
      ((repo.setGcOperation operation).setFinalizeIntent landing.args.token
        (some intent)) := by
  obtain ⟨lease, own, rfl⟩ := untouched
  exact
    { active := sound.active
      outcome := sound.unanswered
      intent :=
        ⟨intent, by simp [RepoState.setFinalizeIntent], promises⟩
      lease := ⟨lease, rfl, own⟩
      catalog := Or.inl rfl
      nextPackSeq := Or.inl rfl
      packsetVersion := Or.inl rfl
      refs :=
        Or.inl
          { refs := rfl
            head := rfl
            refsVersion := rfl
            heads := rfl
            records := Records.of_record landing sound.records rfl rfl rfl
            account := account }
      receipts := sound.receipts }

theorem Untouched.leased (untouched : landing.Untouched repo) :
    repo.receiveLease.map RepoLease.token = some landing.args.token := by
  obtain ⟨lease, own, rfl⟩ := untouched
  exact congrArg some own

theorem Untouched.progress
    (settings : current.settings = landing.origin.settings)
    (untouched : landing.Untouched current.repo) : landing.Progress current :=
  ⟨settings, Or.inl untouched⟩

theorem carries_writeFinalizeIntent (sound : landing.Sound)
    (settings : current.settings = landing.origin.settings)
    (untouched : landing.Untouched current.repo)
    {proof : Option GcReceiveProtection}
    (protects : Protects current.repo current.repo.refsVersion proof)
    (promises : landing.Promises intent) :
    landing.Carries (writeFinalizeIntent intent proof)
      (fun _ last => landing.PendingAt last) current := by
  obtain ⟨retained, kept⟩ :=
    retainGcReceiveProtection_isOk protects untouched.leased
  obtain ⟨operation, rfl, account⟩ := retainGcReceiveProtection_ok kept
  have state :
      landing.PendingAt
        (current.withRepo
          ((current.repo.setGcOperation operation).setFinalizeIntent
            landing.args.token (some intent))) :=
    ⟨settings, untouched.setFinalizeIntent sound account promises⟩
  unfold Carries writeFinalizeIntent
  rw [ensures_repoTransaction, promises.token, kept]
  exact ⟨state.progress, state⟩

include sound in
/-- The first call validates its commands and writes its intent. -/
theorem carries_prepareFinalizeIntent
    (bare : ∀ pack, landing.args.stagedPack = some pack → pack.integrity = none)
    (current : World) (settings : current.settings = landing.origin.settings)
    (untouched : landing.Untouched current.repo)
    (live :
      ∀ lease, current.repo.receiveLease = some lease →
        lease.live current.now) :
    landing.Carries (prepareFinalizeIntent landing.args)
      (fun value last =>
        ∃ intent verification, value = .inr (intent, verification) ∧
          landing.PendingAt last ∧ landing.Promises intent)
      current := by
  have promises := promises_finalizeIntent untouched current.now
  obtain ⟨lease, own, sameRepo⟩ := untouched
  have held : current.repo.receiveLease = some lease := by
    rw [sameRepo]
    rfl
  have sameRefs : current.repo.refs = landing.found.refs := by
    rw [sameRepo]
    rfl
  have sameVersion : current.repo.refsVersion = landing.found.refsVersion := by
    rw [sameRepo]
    rfl
  have leased :
      (!(current.repo.receiveLease.any fun lease =>
        lease.token = landing.args.token && lease.live current.now)) =
        false := by
    rw [held]
    simp [own, live lease held]
  have verified :
      verifyReceiveOutputIntegrity landing.args.stagedPack =
        Program.done ⟨0, 0, none⟩ := by
    unfold verifyReceiveOutputIntegrity
    cases staged : landing.args.stagedPack with
    | none => rfl
    | some pack =>
      simp only [Option.bind_some, bare pack staged, Option.map_none]
      rfl
  unfold prepareFinalizeIntent recordFinalizeIntent Carries
  simp only [Program.bind_eq_bind, Program.ensures_bind, ensures_world,
    leased, Bool.false_eq_true, if_false, sound.validRefs, sameRefs,
    sound.validated, Bool.not_true, ne_eq, not_true_eq_false,
    sound.matching, verified, Program.bind, sound.context, sameVersion]
  refine
    (ensures_prepareGcReceiveProtection current landing.found.refs
      landing.found.refsVersion landing.args.commands
      (landing.args.stagedPack.map StagedPack.packKey)).mono
      (fun _ _ kept => kept) ?_ (fun _ _ failure => failure)
  rintro proof last ⟨⟨lastRepo, lastSettings, -⟩, protects⟩
  have lastUntouched : landing.Untouched last.repo := by
    rw [lastRepo]
    exact ⟨lease, own, sameRepo⟩
  rw [← sameVersion, ← lastRepo] at protects
  have written :=
    carries_writeFinalizeIntent sound (lastSettings.trans settings)
      lastUntouched protects promises
  refine written.mono fun _ final state => ?_
  exact ⟨_, _, rfl, state, promises⟩

include sound settles in
/-- The first call, or a repeated one that finds its own live lease. -/
theorem carries_finalize_untouched
    (settings : current.settings = landing.origin.settings)
    (untouched : landing.Untouched current.repo)
    (live :
      ∀ lease, current.repo.receiveLease = some lease →
        lease.live current.now)
    (bare : ∀ pack, landing.args.stagedPack = some pack → pack.integrity = none) :
    landing.Carries (finalizeReceiveState landing.args)
      (fun value last =>
        (∃ result, value = .committed result) ∧ landing.Finished last)
      current := by
  obtain ⟨lease, own, sameRepo⟩ := untouched
  have held : current.repo.receiveLease = some lease := by
    rw [sameRepo]
    rfl
  have allowed :
      current.repo.fenceAllows current.now landing.args.token false =
        true := by
    unfold RepoState.fenceAllows
    rw [show current.repo.repositoryDeleting = false by
      rw [sameRepo]; exact sound.active, held]
    simp [own, live lease held]
  have unpromised :
      current.repo.receiveFinalizeIntent landing.args.token = none := by
    rw [sameRepo]
    exact sound.unpromised
  have unanswered :
      current.repo.receiveOutcome landing.args.token = none := by
    rw [sameRepo]
    exact sound.unanswered
  have fenced :
      landing.Untouched
        (current.repo.setReceiveLease
          (some (current.repo.fenceLease current.now landing.args.token))) := by
    refine ⟨current.repo.fenceLease current.now landing.args.token, rfl, ?_⟩
    rw [sameRepo]
    rfl
  unfold finalizeReceiveState Carries
  simp only [Program.bind_eq_bind, Program.ensures_bind, ensures_get,
    unpromised, unanswered, Option.isSome_none, Bool.or_self,
    holdReceiveCompletionFence, ensures_repoTransaction, allowed, if_true]
  refine ⟨Untouched.progress settings fenced, ?_⟩
  simp only [Bool.not_true, Bool.false_eq_true, if_false,
    Program.ensures_bind]
  have prepared :=
    carries_prepareFinalizeIntent sound bare
      (current.withRepo
        (current.repo.setReceiveLease
          (some (current.repo.fenceLease current.now landing.args.token))))
      settings fenced
      (by
        rintro _ ⟨⟩
        change current.now < current.now + receiveLeaseTtlMs
        have positive : 0 < receiveLeaseTtlMs := by decide
        omega)
  refine prepared.mono ?_
  rintro _ last ⟨intent, verification, rfl, state, promises⟩
  exact carries_commitFinalizeIntent sound settles state promises verification

/-! ## Reconciliation and the alarm -/

variable {call : ReconcileReceiveArgs}

/-- Reconciliation completes a receive whose intent is already gone. -/
theorem carries_reconcileCommitted (state : landing.RecordedAt current)
    (noIntent : current.repo.receiveFinalizeIntent landing.args.token = none)
    (sameToken : call.token = landing.args.token)
    (sameReceipt : call.ingestionReceipt = landing.args.ingestionReceipt)
    (own : outcome.token = landing.args.token) :
    landing.Carries (reconcileCommitted call outcome)
      (fun value last =>
        (∃ result, value = .committed result) ∧ landing.Finished last)
      current := by
  unfold reconcileCommitted
  rw [sameToken, sameReceipt]
  have stored : landing.RecordedAt
      (current.withRepo (current.repo.storeOutcome outcome)) :=
    state.withRepo
      (state.recorded.setReceiveOutcomes (stored_storeOutcome own))
  have first :
      landing.Carries (storeReceiveOutcome outcome)
        (fun _ last =>
          landing.RecordedAt last ∧
            last.repo.receiveFinalizeIntent =
              current.repo.receiveFinalizeIntent)
        current :=
    carries_put stored.progress
      ⟨stored, setReceiveOutcomes_intent _ _ _⟩
  refine first.bind ?_
  rintro _ first ⟨firstState, firstIntent⟩
  refine (carries_storeOptionalReceipt firstState).bind ?_
  rintro _ second ⟨secondState, secondIntent⟩
  refine (carries_queueCompaction secondState _).bind ?_
  rintro _ third ⟨thirdState, thirdIntent⟩
  have stillNone :
      third.repo.receiveFinalizeIntent landing.args.token = none := by
    rw [thirdIntent, secondIntent, firstIntent]
    exact noIntent
  refine (carries_clearMatchingReceiveLease thirdState stillNone).bind
    fun _ last finished => ?_
  exact carries_done ⟨⟨_, rfl⟩, finished⟩

include sound in
theorem contextForIntent (promises : landing.Promises intent) :
    acceptedWriteContextForFacts (acceptedWriteFactsForIntent intent) =
      .ok landing.context := by
  unfold acceptedWriteFactsForIntent
  rw [promises.acceptedWriteContext, promises.commands]
  cases known : landing.context with
  | none => rfl
  | some context =>
    have shared := sound.context
    have matching := sound.matching
    rw [known] at shared
    refine acceptedWriteContextForFacts_commands fun empty => ?_
    cases facts : landing.args.acceptedWrites with
    | none =>
      rw [facts] at shared
      cases shared
    | some list =>
      rw [facts] at shared matching
      have counted :=
        length_acceptedWriteFactsForCommands context
          (by simpa using matching :
            acceptedWritesMatchCommands landing.args.commands list = true)
      rw [empty] at counted
      have none' : list = [] := List.length_eq_zero_iff.mp counted.symm
      rw [none'] at shared
      cases shared

section Bare

variable
  (bare : ∀ pack, landing.args.stagedPack = some pack →
    pack.integrity = none)

include bare in
theorem stagedPackMatchesRequest_bare :
    stagedPackMatchesRequest landing.args.stagedPack
      landing.args.stagedPack = true := by
  unfold stagedPackMatchesRequest
  cases staged : landing.args.stagedPack with
  | none => rfl
  | some pack => simp [bare pack staged]

include sound bare in
theorem repeats_args : landing.Repeats landing.args where
  token := rfl
  receipt := rfl
  retries := by
    intro intent promises
    unfold retryMatchesIntent
    rw [promises.commands, promises.stagedPack,
      stagedPackMatchesRequest_bare bare, sound.context,
      promises.acceptedWriteContext]
    simp

include sound bare in
theorem repeats_intent (promises : landing.Promises intent) :
    landing.Repeats intent.args where
  token := promises.token
  receipt := promises.ingestionReceipt
  retries := by
    intro other others
    unfold retryMatchesIntent ReceiveFinalizeIntent.args
    dsimp only
    rw [others.commands, others.stagedPack, promises.commands,
      promises.stagedPack, stagedPackMatchesRequest_bare bare,
      contextForIntent sound promises, others.acceptedWriteContext]
    simp

include sound settles bare in
/-- Reconciliation completes a pending receive. -/
theorem carries_reconcile_pending (state : landing.PendingAt current)
    (sameToken : call.token = landing.args.token) :
    landing.Carries (reconcileReceiveState call)
      (fun value last =>
        (∃ result, value = .committed result) ∧ landing.Finished last)
      current := by
  have pending := state.pending
  obtain ⟨intent, found, promises⟩ := pending.intent
  unfold reconcileReceiveState Carries
  simp only [Program.bind_eq_bind, Program.ensures_bind, ensures_get,
    sameToken, pending.outcome, found, Option.isSome_some,
    Option.isSome_none, Bool.or_false]
  refine (carries_fence_pending state).mono ?_
  rintro _ second ⟨rfl, settings, secondPending⟩
  simp only [Bool.not_true, Bool.false_eq_true, if_false]
  unfold reconcileIntent
  refine (carries_finalize_pending sound settles ⟨settings, secondPending⟩
    (repeats_intent sound bare promises) bare).bind ?_
  rintro _ last ⟨⟨result, rfl⟩, finished⟩
  exact carries_done ⟨⟨result, rfl⟩, finished⟩

theorem carries_reconcile_recorded (state : landing.RecordedAt current)
    (noIntent : current.repo.receiveFinalizeIntent landing.args.token = none)
    (sameToken : call.token = landing.args.token)
    (sameReceipt : call.ingestionReceipt = landing.args.ingestionReceipt) :
    landing.Carries (reconcileReceiveState call)
      (fun value last =>
        (∃ result, value = .committed result) ∧ landing.Finished last)
      current := by
  have recorded := state.recorded
  obtain ⟨outcome, known, own⟩ := recorded.outcome
  unfold reconcileReceiveState Carries
  simp only [Program.bind_eq_bind, Program.ensures_bind, ensures_get,
    sameToken, known, Option.isSome_some, Bool.or_true]
  refine (carries_fence_recorded state).mono ?_
  rintro _ second ⟨rfl, settings, secondRecorded, secondIntent⟩
  rw [noIntent] at secondIntent
  simp only [Bool.not_true, Bool.false_eq_true, if_false]
  exact carries_reconcileCommitted ⟨settings, secondRecorded⟩ secondIntent
    sameToken sameReceipt own

include sound settles bare in
/-- The alarm completes the receive whose lease and intent it finds. -/
theorem carries_alarm (progress : landing.Progress current) {lease : RepoLease}
    (held : current.repo.receiveLease = some lease)
    (own : lease.token = landing.args.token)
    (found :
      current.repo.receiveFinalizeIntent landing.args.token = some intent) :
    landing.Carries resumeReceiveFinalizeFromAlarm
      (fun value last => value = true ∧ landing.Finished last) current := by
  have resumed :
      landing.Carries (finalizeReceiveState intent.args)
        (fun value last =>
          (∃ result, value = .committed result) ∧ landing.Finished last)
        current := by
    rcases progress.stage with ⟨first, -, same⟩ | pending | recorded
    · rw [same] at found
      rw [show (landing.found.setReceiveLease
        (some first)).receiveFinalizeIntent landing.args.token = none from
          sound.unpromised] at found
      cases found
    · obtain ⟨promised, known, promises⟩ := pending.intent
      obtain rfl : promised = intent :=
        Option.some.inj (known.symm.trans found)
      exact carries_finalize_pending sound settles
        ⟨progress.settings, pending⟩ (repeats_intent sound bare promises) bare
    · obtain ⟨sameToken, sameReceipt⟩ := recorded.intent intent found
      exact carries_finalize_recorded ⟨progress.settings, recorded⟩ sameToken
        sameReceipt
  unfold resumeReceiveFinalizeFromAlarm Carries
  simp only [Program.bind_eq_bind, Program.ensures_bind, ensures_get, held,
    own, found, Program.ensures_handle]
  refine Program.Ensures.mono resumed (fun _ _ kept => kept) ?_
    (fun _ _ failure => failure.elim)
  rintro _ last ⟨-, finished⟩
  exact ⟨rfl, finished⟩

end Bare

end Finalize

end Landing

end GitOnCloudflare.Receive
