import GitOnCloudflare.Repo.AcceptedWrites

/-!
# When a ref update can record its writes

Recording the accepted writes of a push fails only on a current pointer or a
journal entry of the same sequence number that names another transition.
The condition does not mention the time of the record, and a record leaves it
true, so that recording the same writes again succeeds and leaves the heads
where they are.
-/

namespace GitOnCloudflare.Repo

open Foundations
open Receive

/-- The fields of `record` that recording accepted writes may change. -/
def RepoState.withWriteRecord (repo record : RepoState) : RepoState :=
  { repo with
    acceptedWriteHead := record.acceptedWriteHead
    acceptedWriteJournal := record.acceptedWriteJournal
    snapshotPins := record.snapshotPins
    snapshotPinVersion := record.snapshotPinVersion
    releasedSnapshot := record.releasedSnapshot
    materializedSnapshot := record.materializedSnapshot
    snapshotCurrent := record.snapshotCurrent }

/-- The head a fact leaves for its ref. -/
def noteHead (sequence : Nat) (heads : String → Option AcceptedWriteHead)
    (fact : AcceptedWriteFact) : String → Option AcceptedWriteHead :=
  Function.update heads fact.ref
    (some ⟨fact.ref, fact.beforeSha, fact.afterSha, sequence⟩)

/-- The pin of a push names a tree and no other tree is pinned for its
commit. -/
def PinAccepts (repo : RepoState) (input : SnapshotPinInput) : Prop :=
  isValidPinnedObjectSha input.treeSha = true ∧
    ∀ existing, repo.snapshotPins.find? input.commitSha = some existing →
      existing.treeSha = input.treeSha

def CurrentAgrees (repo : RepoState) (sequence : Nat) (fact : AcceptedWriteFact) :
    Prop :=
  ∀ current, repo.snapshotCurrent fact.ref = some current →
    current.sequence = sequence → current.commitSha = fact.afterSha

def JournalAgrees (repo : RepoState) (sequence : Nat) (fact : AcceptedWriteFact) :
    Prop :=
  ∀ existing, repo.acceptedWriteJournal ⟨sequence, fact.ref⟩ = some existing →
    existing.sequence = sequence ∧ existing.fact.ref = fact.ref ∧
      existing.fact.beforeSha = fact.beforeSha ∧
      existing.fact.afterSha = fact.afterSha

/-- No durable record of the same sequence number contradicts a fact. -/
@[mk_iff recordable_iff_and]
structure Recordable
    (repo : RepoState)
    (sequence : Nat)
    (journal : Bool)
    (snapshotPin : Option SnapshotPinInput)
    (fact : AcceptedWriteFact) : Prop where
  current :
    ∀ input, snapshotPin = some input → fact.afterSha = input.commitSha →
      input.advanceCurrent = true → PinAccepts repo input →
        CurrentAgrees repo sequence fact
  journaled : journal = true → JournalAgrees repo sequence fact

/-! ## The facts of a command list -/

def AcceptedWriteFact.transition (fact : AcceptedWriteFact) : RefTransition :=
  ⟨fact.ref, fact.beforeSha, fact.afterSha⟩

theorem AcceptedWriteFact.transition_ref (fact : AcceptedWriteFact) :
    fact.transition.ref = fact.ref :=
  rfl

/-- The facts carry the transitions the commands make. -/
theorem map_transition_foldl (context : AcceptedWriteContext)
    (commands : List ReceiveCommand) (facts : KeyedList AcceptedWriteFact.ref)
    (transitions : KeyedList RefTransition.ref)
    (same : facts.items.map AcceptedWriteFact.transition = transitions.items) :
    (commands.foldl (noteAcceptedWrite context) facts).items.map
        AcceptedWriteFact.transition =
      (commands.foldl noteTransition transitions).items := by
  induction commands generalizing facts transitions with
  | nil => exact same
  | cons command commands ih =>
    refine ih _ _ ?_
    have found :
        transitions.find? command.ref =
          (facts.find? command.ref).map AcceptedWriteFact.transition := by
      unfold KeyedList.find?
      rw [← same]
      exact KeyedList.findItem_map AcceptedWriteFact.transition_ref _ _
    have written (fact : AcceptedWriteFact) :
        (facts.upsert fact).items.map AcceptedWriteFact.transition =
          (transitions.upsert fact.transition).items := by
      calc
        (facts.upsert fact).items.map AcceptedWriteFact.transition =
            KeyedList.upsertItem RefTransition.ref fact.transition
              (facts.items.map AcceptedWriteFact.transition) :=
          KeyedList.map_upsertItem AcceptedWriteFact.transition_ref _ _
        _ = (transitions.upsert fact.transition).items := by
          rw [same]
          rfl
    unfold noteAcceptedWrite noteTransition
    rw [found]
    cases facts.find? command.ref with
    | none => exact written _
    | some existing => exact written _

theorem fact_context_foldl (context : AcceptedWriteContext)
    (commands : List ReceiveCommand) (facts : KeyedList AcceptedWriteFact.ref)
    (shared :
      ∀ fact ∈ facts.items,
        fact = context.fact fact.ref fact.beforeSha fact.afterSha) :
    ∀ fact ∈ (commands.foldl (noteAcceptedWrite context) facts).items,
      fact = context.fact fact.ref fact.beforeSha fact.afterSha := by
  induction commands generalizing facts with
  | nil => exact shared
  | cons command commands ih =>
    refine ih _ ?_
    intro fact member
    unfold noteAcceptedWrite at member
    cases found : facts.find? command.ref with
    | none =>
      simp only [found] at member
      rcases KeyedList.mem_upsert.mp member with rfl | ⟨old, -⟩
      · rfl
      · exact shared fact old
    | some existing =>
      simp only [found] at member
      rcases KeyedList.mem_upsert.mp member with rfl | ⟨old, -⟩
      · have known :=
          shared existing (KeyedList.find?_eq_some_iff.mp found).1
        rw [known]
        rfl
      · exact shared fact old

theorem nodup_acceptedWriteFactsForCommands (context : AcceptedWriteContext)
    (commands : List ReceiveCommand) :
    ((acceptedWriteFactsForCommands context commands).map
      AcceptedWriteFact.ref).Nodup :=
  (commands.foldl (noteAcceptedWrite context)
    KeyedList.empty).distinct.sublist (List.filter_sublist.map _)

variable {facts : List AcceptedWriteFact} {repo last : RepoState}
  {fact : AcceptedWriteFact} {input : SnapshotPinInput}
  {sequence acceptedAt : Nat} {snapshotPin : Option SnapshotPinInput}
  {retained journal : Bool}
  {commands : List ReceiveCommand}

/-- A push whose facts match its commands leaves as many facts. -/
theorem length_acceptedWriteFactsForCommands (context : AcceptedWriteContext)
    (matching : acceptedWritesMatchCommands commands facts = true) :
    (acceptedWriteFactsForCommands context commands).length =
      facts.length := by
  unfold acceptedWritesMatchCommands at matching
  simp only [Bool.and_eq_true, decide_eq_true_eq] at matching
  rw [← matching.1.1,
    ← map_transition_foldl context commands KeyedList.empty KeyedList.empty
      rfl,
    List.filter_map, List.length_map]
  rfl

/-- The context of an intent is found again in the facts it stands for. -/
theorem acceptedWriteContextForFacts_commands {context : AcceptedWriteContext}
    (nonempty : acceptedWriteFactsForCommands context commands ≠ []) :
    acceptedWriteContextForFacts
        (some (acceptedWriteFactsForCommands context commands)) =
      .ok (some context) := by
  have shared :
      ∀ fact ∈ acceptedWriteFactsForCommands context commands,
        fact = context.fact fact.ref fact.beforeSha fact.afterSha := by
    intro fact member
    exact fact_context_foldl context commands KeyedList.empty nofun fact
      (List.mem_of_mem_filter member)
  cases listed : acceptedWriteFactsForCommands context commands with
  | nil => exact absurd listed nonempty
  | cons first rest =>
    rw [listed] at shared
    have firstShared := shared first List.mem_cons_self
    unfold acceptedWriteContextForFacts
    have all :
        ((first :: rest).all fun fact =>
          fact.repositoryId = first.repositoryId &&
            fact.actor = first.actor &&
            fact.sourceSurface = first.sourceSurface &&
            fact.idempotencyKey = first.idempotencyKey) = true := by
      rw [List.all_eq_true]
      intro fact member
      rw [shared fact member, firstShared]
      simp [AcceptedWriteContext.fact]
    dsimp only
    rw [if_pos all, firstShared]
    rfl

/-! ## The pin of one fact -/

theorem pinRefused_iff (repo : RepoState) (fact : AcceptedWriteFact)
    (input : SnapshotPinInput) (publishes : fact.afterSha = input.commitSha) :
    (¬ ((fact.pinFact.commitSha ≠ input.commitSha ||
          !isValidPinnedObjectSha input.treeSha) = true) ∧
        ¬ ((repo.snapshotPins.find? fact.pinFact.commitSha).any
            (fun existing =>
              existing.treeSha ≠ input.treeSha ||
                existing.commitSha ≠ fact.pinFact.commitSha)) = true) ↔
      PinAccepts repo input := by
  have sameCommit : fact.pinFact.commitSha = input.commitSha := publishes
  unfold PinAccepts
  rw [sameCommit]
  cases found : repo.snapshotPins.find? input.commitSha with
  | none => simp
  | some existing =>
    have key := (KeyedList.find?_eq_some_iff.mp found).2
    simp [key]

/-- What retaining the pin of an accepted push does, once it is accepted. -/
theorem retainSnapshotPin_of_accepts
    (publishes : fact.afterSha = input.commitSha)
    (accepts : PinAccepts repo input) (sequence : Nat) :
    retainSnapshotPin repo sequence fact.pinFact input =
      if input.advanceCurrent then
        match advanceSnapshotCurrent
            (recordMaterialization
              (installPin repo sequence fact.pinFact input) sequence
              fact.pinFact input)
            fact.ref fact.afterSha sequence input.materializedAt with
        | .ok (_, advanced) => .ok (true, advanced)
        | .error failure => .error failure
      else
        .ok (true,
          recordMaterialization
            (installPin repo sequence fact.pinFact input) sequence
            fact.pinFact input) := by
  obtain ⟨valid, fits⟩ := (pinRefused_iff repo fact input publishes).mpr accepts
  unfold retainSnapshotPin
  rw [if_neg valid, if_neg fits]
  rfl

theorem retainSnapshotPin_of_refuses
    (publishes : fact.afterSha = input.commitSha)
    (refuses : ¬ PinAccepts repo input) (sequence : Nat) :
    retainSnapshotPin repo sequence fact.pinFact input = .ok (false, repo) := by
  rw [← pinRefused_iff repo fact input publishes, not_and_or, not_not,
    not_not] at refuses
  unfold retainSnapshotPin
  split
  · rfl
  · next valid =>
      rw [if_pos (refuses.resolve_left valid)]

/-- What recording one fact leaves true, whatever the time. -/
structure RecordStep
    (repo last : RepoState)
    (sequence : Nat)
    (snapshotPin : Option SnapshotPinInput)
    (fact : AcceptedWriteFact) : Prop where
  frame : last = repo.withWriteRecord last
  otherCurrent :
    ∀ ref, ref ≠ fact.ref →
      last.snapshotCurrent ref = repo.snapshotCurrent ref
  otherJournal :
    ∀ id : AcceptedWriteJournalId, id.ref ≠ fact.ref →
      last.acceptedWriteJournal id = repo.acceptedWriteJournal id
  accepts :
    ∀ input, snapshotPin = some input →
      (PinAccepts last input ↔ PinAccepts repo input)
  current :
    ∀ input, snapshotPin = some input → fact.afterSha = input.commitSha →
      input.advanceCurrent = true → PinAccepts repo input →
        CurrentAgrees last sequence fact

theorem RecordStep.refl
    (agrees :
      ∀ input, snapshotPin = some input → fact.afterSha = input.commitSha →
        input.advanceCurrent = true → PinAccepts repo input →
          CurrentAgrees repo sequence fact) :
    RecordStep repo repo sequence snapshotPin fact where
  frame := rfl
  otherCurrent := fun _ _ => rfl
  otherJournal := fun _ _ => rfl
  accepts := fun _ _ => Iff.rfl
  current := agrees

/-- The repository in which the pin is installed and materialized. -/
def materializePin (repo : RepoState) (sequence : Nat)
    (fact : AcceptedWriteFact) (input : SnapshotPinInput) : RepoState :=
  recordMaterialization (installPin repo sequence fact.pinFact input) sequence
    fact.pinFact input

theorem materializePin_frame (repo : RepoState) (sequence : Nat)
    (fact : AcceptedWriteFact) (input : SnapshotPinInput) :
    let last := materializePin repo sequence fact input
    last = repo.withWriteRecord last ∧
      last.snapshotCurrent = repo.snapshotCurrent ∧
      last.acceptedWriteHead = repo.acceptedWriteHead ∧
      last.acceptedWriteJournal = repo.acceptedWriteJournal := by
  unfold materializePin installPin
  cases repo.snapshotPins.find? fact.pinFact.commitSha with
  | none => exact ⟨rfl, rfl, rfl, rfl⟩
  | some existing => exact ⟨rfl, rfl, rfl, rfl⟩

theorem materializePin_accepts (publishes : fact.afterSha = input.commitSha)
    (accepts : PinAccepts repo input) :
    PinAccepts (materializePin repo sequence fact input) input := by
  refine ⟨accepts.1, fun existing found => ?_⟩
  have sameCommit : fact.pinFact.commitSha = input.commitSha := publishes
  unfold materializePin recordMaterialization installPin at found
  cases before : repo.snapshotPins.find? input.commitSha with
  | some pinned =>
    simp only [sameCommit, before] at found
    cases found
    exact accepts.2 _ before
  | none =>
    simp only [sameCommit, before, KeyedList.find?_upsert, if_true] at found
    cases found
    rfl

/-- Advancing the current pointer changes that pointer only, and leaves it
agreeing with the fact. -/
theorem advanceSnapshotCurrent_ok {ref commitSha : String} {updatedAt : Nat}
    {moved : Bool}
    (advanced :
      advanceSnapshotCurrent repo ref commitSha sequence updatedAt =
        .ok (moved, last)) :
    (∃ current, last = { repo with snapshotCurrent := current }) ∧
      (∀ other, other ≠ ref →
        last.snapshotCurrent other = repo.snapshotCurrent other) ∧
      ∀ current, last.snapshotCurrent ref = some current →
        current.sequence = sequence → current.commitSha = commitSha := by
  unfold advanceSnapshotCurrent at advanced
  have written :
      last =
          { repo with
            snapshotCurrent :=
              Function.update repo.snapshotCurrent ref
                (some ⟨ref, commitSha, sequence, updatedAt⟩) } →
        (∃ current, last = { repo with snapshotCurrent := current }) ∧
          (∀ other, other ≠ ref →
            last.snapshotCurrent other = repo.snapshotCurrent other) ∧
          ∀ current, last.snapshotCurrent ref = some current →
            current.sequence = sequence → current.commitSha = commitSha := by
    rintro rfl
    refine ⟨⟨_, rfl⟩, fun other different => ?_, fun current found _ => ?_⟩
    · exact Function.update_of_ne different _ _
    · simp only [Function.update_self, Option.some.injEq] at found
      rw [← found]
  cases before : repo.snapshotCurrent ref with
  | none =>
    simp only [before, Except.ok.injEq, Prod.mk.injEq] at advanced
    exact written advanced.2.symm
  | some current =>
    simp only [before] at advanced
    split_ifs at advanced with newer conflict
    · simp only [Except.ok.injEq, Prod.mk.injEq] at advanced
      exact written advanced.2.symm
    · simp only [Except.ok.injEq, Prod.mk.injEq] at advanced
      obtain ⟨-, rfl⟩ := advanced
      refine ⟨⟨_, rfl⟩, fun _ _ => rfl, fun found same equal => ?_⟩
      rw [before, Option.some.injEq] at same
      subst same
      by_contra different
      exact conflict ⟨equal.symm, different⟩

theorem advanceSnapshotCurrent_isOk_iff {repo : RepoState}
    {ref commitSha : String} {sequence updatedAt : Nat} :
    (∃ result,
        advanceSnapshotCurrent repo ref commitSha sequence updatedAt =
          .ok result) ↔
      ∀ current, repo.snapshotCurrent ref = some current →
        current.sequence = sequence → current.commitSha = commitSha := by
  unfold advanceSnapshotCurrent
  cases repo.snapshotCurrent ref with
  | none => simp
  | some current =>
    dsimp only
    split_ifs with newer conflict
    · simp only [Except.ok.injEq, exists_eq', true_iff]
      rintro _ ⟨⟩ equal
      omega
    · simp only [exists_false, false_iff]
      intro agrees
      exact conflict.2 (agrees current rfl conflict.1.symm)
    · simp only [Except.ok.injEq, exists_eq', true_iff]
      rintro _ ⟨⟩ equal
      by_contra different
      exact conflict ⟨equal.symm, different⟩

theorem pinAcceptedWrite_isOk_iff {repo : RepoState} {sequence : Nat}
    {snapshotPin : Option SnapshotPinInput} {fact : AcceptedWriteFact} :
    (∃ result,
        pinAcceptedWrite repo sequence snapshotPin fact = .ok result) ↔
      ∀ input, snapshotPin = some input → fact.afterSha = input.commitSha →
        input.advanceCurrent = true → PinAccepts repo input →
          CurrentAgrees repo sequence fact := by
  unfold pinAcceptedWrite
  cases snapshotPin with
  | none => simp
  | some input =>
    by_cases publishes : fact.afterSha = input.commitSha
    · by_cases accepts : PinAccepts repo input
      · have frame := materializePin_frame repo sequence fact input
        have advance :=
          @advanceSnapshotCurrent_isOk_iff
            (materializePin repo sequence fact input) fact.ref
            fact.afterSha sequence input.materializedAt
        rw [frame.2.1] at advance
        simp only [publishes, if_true, Option.some.injEq, forall_eq',
          forall_const, accepts]
        rw [retainSnapshotPin_of_accepts publishes accepts]
        by_cases advances : input.advanceCurrent = true
        · simp only [advances, if_true, forall_const]
          unfold CurrentAgrees
          rw [← advance]
          unfold materializePin
          cases advanceSnapshotCurrent
              (recordMaterialization
                (installPin repo sequence fact.pinFact input) sequence
                fact.pinFact input)
              fact.ref fact.afterSha sequence input.materializedAt with
          | ok result => simp
          | error failure => simp
        · simp [advances]
      · simp only [publishes, if_true, Option.some.injEq, forall_eq',
          accepts, IsEmpty.forall_iff, implies_true, iff_true]
        exact ⟨_, retainSnapshotPin_of_refuses publishes accepts sequence⟩
    · simp [publishes]

theorem RecordStep.of_materialized (publishes : fact.afterSha = input.commitSha)
    (accepts : PinAccepts repo input)
    (written :
      ∃ current,
        last =
          { materializePin repo sequence fact input with
            snapshotCurrent := current })
    (others :
      ∀ ref, ref ≠ fact.ref →
        last.snapshotCurrent ref = repo.snapshotCurrent ref)
    (agrees : input.advanceCurrent = true → CurrentAgrees last sequence fact) :
    RecordStep repo last sequence (some input) fact := by
  obtain ⟨current, rfl⟩ := written
  have frame := materializePin_frame repo sequence fact input
  have accepted : PinAccepts (materializePin repo sequence fact input) input :=
    materializePin_accepts publishes accepts
  refine ⟨?_, others, ?_, ?_, ?_⟩
  · calc
      { materializePin repo sequence fact input with
          snapshotCurrent := current } =
          { repo.withWriteRecord (materializePin repo sequence fact input) with
            snapshotCurrent := current } := by rw [← frame.1]
      _ = _ := rfl
  · intro id _
    exact congrFun frame.2.2.2 id
  · rintro _ ⟨⟩
    exact ⟨fun _ => accepts, fun _ => accepted⟩
  · rintro _ ⟨⟩ _ advances _
    exact agrees advances

theorem pinAcceptedWrite_ok
    (pinned :
      pinAcceptedWrite repo sequence snapshotPin fact =
        .ok (retained, last)) :
    RecordStep repo last sequence snapshotPin fact ∧
      last.acceptedWriteHead = repo.acceptedWriteHead ∧
      last.acceptedWriteJournal = repo.acceptedWriteJournal := by
  have agrees := pinAcceptedWrite_isOk_iff.mp ⟨_, pinned⟩
  unfold pinAcceptedWrite at pinned
  cases snapshotPin with
  | none =>
    cases pinned
    exact ⟨.refl agrees, rfl, rfl⟩
  | some input =>
    by_cases publishes : fact.afterSha = input.commitSha
    · simp only [publishes, if_true] at pinned
      by_cases accepts : PinAccepts repo input
      · have frame := materializePin_frame repo sequence fact input
        rw [retainSnapshotPin_of_accepts publishes accepts] at pinned
        change
          (if input.advanceCurrent = true then
            match advanceSnapshotCurrent
                (materializePin repo sequence fact input) fact.ref
                fact.afterSha sequence input.materializedAt with
            | .ok (_, advanced) => .ok (true, advanced)
            | .error failure => .error failure
          else
            .ok (true, materializePin repo sequence fact input)) =
              Except.ok (retained, last) at pinned
        split_ifs at pinned with advances
        · cases moved :
              advanceSnapshotCurrent
                (materializePin repo sequence fact input) fact.ref
                fact.afterSha sequence input.materializedAt with
          | error failure => simp [moved] at pinned
          | ok result =>
            obtain ⟨flag, advanced⟩ := result
            simp only [moved, Except.ok.injEq, Prod.mk.injEq] at pinned
            obtain ⟨-, rfl⟩ := pinned
            obtain ⟨written, others, agreed⟩ :=
              advanceSnapshotCurrent_ok moved
            refine ⟨.of_materialized publishes accepts written ?_ ?_, ?_⟩
            · intro ref different
              rw [others ref different, frame.2.1]
            · intro _
              exact agreed
            · obtain ⟨current, rfl⟩ := written
              exact ⟨frame.2.2.1, frame.2.2.2⟩
        · simp only [Except.ok.injEq, Prod.mk.injEq] at pinned
          obtain ⟨-, rfl⟩ := pinned
          refine ⟨.of_materialized publishes accepts ⟨_, rfl⟩ ?_ ?_,
            frame.2.2.1, frame.2.2.2⟩
          · intro ref _
            rw [frame.2.1]
          · intro advance
            exact absurd advance advances
      · rw [retainSnapshotPin_of_refuses publishes accepts] at pinned
        cases pinned
        exact ⟨.refl agrees, rfl, rfl⟩
    · simp only [publishes, if_false] at pinned
      cases pinned
      exact ⟨.refl agrees, rfl, rfl⟩

/-! ## The journal and the head of one fact -/

theorem journalAcceptedWrite_isOk_iff {repo : RepoState}
    {sequence acceptedAt : Nat} {fact : AcceptedWriteFact} :
    (∃ last, journalAcceptedWrite repo sequence acceptedAt fact = .ok last) ↔
      JournalAgrees repo sequence fact := by
  unfold journalAcceptedWrite JournalAgrees
  cases repo.acceptedWriteJournal ⟨sequence, fact.ref⟩ with
  | none => simp
  | some existing =>
    dsimp only
    split_ifs with conflict
    · simp only [exists_false, false_iff]
      intro agrees
      simp [agrees existing rfl] at conflict
    · simp only [Except.ok.injEq, exists_eq', true_iff]
      rintro _ ⟨⟩
      simpa [and_assoc] using conflict

theorem journalAcceptedWrite_ok
    (written : journalAcceptedWrite repo sequence acceptedAt fact = .ok last) :
    (∃ journal, last = { repo with acceptedWriteJournal := journal }) ∧
      (∀ id : AcceptedWriteJournalId, id.ref ≠ fact.ref →
        last.acceptedWriteJournal id = repo.acceptedWriteJournal id) ∧
      JournalAgrees last sequence fact := by
  have agrees := journalAcceptedWrite_isOk_iff.mp ⟨_, written⟩
  unfold journalAcceptedWrite at written
  cases before : repo.acceptedWriteJournal ⟨sequence, fact.ref⟩ with
  | none =>
    simp only [before, Except.ok.injEq] at written
    subst written
    refine ⟨⟨_, rfl⟩, fun id different => ?_, fun existing found => ?_⟩
    · refine Function.update_of_ne (fun same => different ?_) _ _
      rw [same]
    · simp only [Function.update_self, Option.some.injEq] at found
      subst found
      exact ⟨rfl, rfl, rfl, rfl⟩
  | some existing =>
    simp only [before] at written
    split_ifs at written
    cases written
    exact ⟨⟨_, rfl⟩, fun _ _ => rfl, agrees⟩

theorem recordAcceptedWrite_isOk_iff {repo : RepoState}
    {sequence acceptedAt : Nat} {journal : Bool}
    {snapshotPin : Option SnapshotPinInput} {fact : AcceptedWriteFact} :
    (∃ result,
        recordAcceptedWrite repo sequence acceptedAt journal snapshotPin
          fact = .ok result) ↔
      Recordable repo sequence journal snapshotPin fact := by
  have pin :=
    @pinAcceptedWrite_isOk_iff (putAcceptedWriteHead repo sequence fact)
      sequence snapshotPin fact
  unfold recordAcceptedWrite
  cases pinned :
      pinAcceptedWrite (putAcceptedWriteHead repo sequence fact) sequence
        snapshotPin fact with
  | error failure =>
    simp only [pinned, reduceCtorEq, exists_false, false_iff] at pin ⊢
    exact fun recordable => pin recordable.current
  | ok result =>
    obtain ⟨retained, middle⟩ := result
    have current := pin.mp ⟨_, pinned⟩
    have sameJournal : middle.acceptedWriteJournal = repo.acceptedWriteJournal :=
      (pinAcceptedWrite_ok pinned).2.2
    dsimp only
    cases journal with
    | false =>
      simp only [Bool.false_eq_true, if_false, Except.ok.injEq,
        exists_eq', true_iff]
      exact ⟨current, nofun⟩
    | true =>
      have journaled :=
        @journalAcceptedWrite_isOk_iff middle sequence acceptedAt fact
      have sameAgrees :
          JournalAgrees middle sequence fact ↔
            JournalAgrees repo sequence fact := by
        unfold JournalAgrees
        rw [sameJournal]
      rw [sameAgrees] at journaled
      simp only [if_true]
      cases written : journalAcceptedWrite middle sequence acceptedAt fact with
      | error failure =>
        simp only [written, reduceCtorEq, exists_false, false_iff]
          at journaled ⊢
        exact fun recordable => journaled (recordable.journaled rfl)
      | ok last =>
        simp only [Except.ok.injEq, exists_eq', true_iff]
        exact ⟨current, fun _ => journaled.mp ⟨_, written⟩⟩

/-- Recording a fact changes the records of its own ref only, and leaves
them agreeing with the fact. -/
theorem recordAcceptedWrite_ok
    (recorded :
      recordAcceptedWrite repo sequence acceptedAt journal snapshotPin fact =
        .ok (retained, last)) :
    RecordStep repo last sequence snapshotPin fact ∧
      (journal = true → JournalAgrees last sequence fact) ∧
      last.acceptedWriteHead = noteHead sequence repo.acceptedWriteHead fact := by
  unfold recordAcceptedWrite at recorded
  cases pinned :
      pinAcceptedWrite (putAcceptedWriteHead repo sequence fact) sequence
        snapshotPin fact with
  | error failure => simp [pinned] at recorded
  | ok result =>
    obtain ⟨flag, middle⟩ := result
    obtain ⟨step, sameHead, sameJournal⟩ := pinAcceptedWrite_ok pinned
    have framed : middle = repo.withWriteRecord middle := by
      calc
        middle =
            (putAcceptedWriteHead repo sequence fact).withWriteRecord
              middle := step.frame
        _ = repo.withWriteRecord middle := rfl
    simp only [pinned] at recorded
    cases journal with
    | false =>
      simp only [Bool.false_eq_true, if_false, Except.ok.injEq,
        Prod.mk.injEq] at recorded
      obtain ⟨-, rfl⟩ := recorded
      exact ⟨⟨framed, step.otherCurrent, step.otherJournal, step.accepts,
        step.current⟩, nofun, sameHead⟩
    | true =>
      simp only [if_true] at recorded
      cases written : journalAcceptedWrite middle sequence acceptedAt fact with
      | error failure => simp [written] at recorded
      | ok final =>
        simp only [written, Except.ok.injEq, Prod.mk.injEq] at recorded
        obtain ⟨-, rfl⟩ := recorded
        obtain ⟨⟨entries, rfl⟩, others, agrees⟩ :=
          journalAcceptedWrite_ok written
        refine ⟨⟨?_, step.otherCurrent, ?_, step.accepts,
          step.current⟩, fun _ => agrees, sameHead⟩
        · calc
            { middle with acceptedWriteJournal := entries } =
                { repo.withWriteRecord middle with
                  acceptedWriteJournal := entries } := by rw [← framed]
            _ = _ := rfl
        · intro id different
          rw [others id different, sameJournal]
          rfl

/-! ## The facts of one ref update -/

/-- Recording one fact decides nothing about the fact of another ref. -/
theorem RecordStep.recordable_iff {other : AcceptedWriteFact}
    (step : RecordStep repo last sequence snapshotPin fact)
    (different : other.ref ≠ fact.ref) :
    Recordable last sequence journal snapshotPin other ↔
      Recordable repo sequence journal snapshotPin other := by
  have sameCurrent :
      CurrentAgrees last sequence other ↔
        CurrentAgrees repo sequence other := by
    unfold CurrentAgrees
    rw [step.otherCurrent other.ref different]
  have sameJournal :
      JournalAgrees last sequence other ↔
        JournalAgrees repo sequence other := by
    unfold JournalAgrees
    rw [step.otherJournal ⟨sequence, other.ref⟩ different]
  constructor
  · rintro ⟨current, journaled⟩
    refine ⟨fun input pin publishes advances accepts => ?_, fun wanted => ?_⟩
    · exact sameCurrent.mp
        (current input pin publishes advances
          ((step.accepts input pin).mpr accepts))
    · exact sameJournal.mp (journaled wanted)
  · rintro ⟨current, journaled⟩
    refine ⟨fun input pin publishes advances accepts => ?_, fun wanted => ?_⟩
    · exact sameCurrent.mpr
        (current input pin publishes advances
          ((step.accepts input pin).mp accepts))
    · exact sameJournal.mpr (journaled wanted)

/-- A recorded fact can be recorded again. -/
theorem recordable_of_recorded
    (recorded :
      recordAcceptedWrite repo sequence acceptedAt journal snapshotPin fact =
        .ok (retained, last)) :
    Recordable last sequence journal snapshotPin fact := by
  obtain ⟨step, journaled, -⟩ := recordAcceptedWrite_ok recorded
  refine ⟨fun input pin publishes advances accepts => ?_, journaled⟩
  exact step.current input pin publishes advances
    ((step.accepts input pin).mp accepts)

section Facts

variable {sequence acceptedAt : Nat}
variable {journal : Bool}
variable {snapshotPin : Option SnapshotPinInput}

theorem recordAcceptedWriteFacts_isOk_iff
    (distinct : (facts.map AcceptedWriteFact.ref).Nodup) (repo : RepoState) :
    (∃ result,
        recordAcceptedWriteFacts sequence acceptedAt journal snapshotPin
          facts repo = .ok result) ↔
      ∀ fact ∈ facts, Recordable repo sequence journal snapshotPin fact := by
  induction facts generalizing repo with
  | nil => simp [recordAcceptedWriteFacts]
  | cons fact facts ih =>
    rw [List.map_cons, List.nodup_cons] at distinct
    have first :=
      @recordAcceptedWrite_isOk_iff repo sequence acceptedAt journal
        snapshotPin fact
    rw [List.forall_mem_cons, ← first]
    unfold recordAcceptedWriteFacts
    cases recorded :
        recordAcceptedWrite repo sequence acceptedAt journal snapshotPin
          fact with
    | error failure => simp
    | ok result =>
      obtain ⟨retained, middle⟩ := result
      have step := (recordAcceptedWrite_ok recorded).1
      have others :
          (∀ other ∈ facts,
              Recordable middle sequence journal snapshotPin other) ↔
            ∀ other ∈ facts,
              Recordable repo sequence journal snapshotPin other := by
        refine forall₂_congr fun other member => ?_
        refine step.recordable_iff fun same => distinct.1 ?_
        rw [← same]
        exact List.mem_map_of_mem member
      have rest := ih distinct.2 middle
      rw [others] at rest
      rw [← rest]
      dsimp only
      cases recordAcceptedWriteFacts sequence acceptedAt journal
          snapshotPin facts middle with
      | error failure => simp
      | ok result => simp

/-- After the facts of an update are recorded, only the write record has
changed, the heads are those of the facts, and every fact can be recorded
again. -/
theorem recordAcceptedWriteFacts_ok
    (distinct : (facts.map AcceptedWriteFact.ref).Nodup)
    (recorded :
      recordAcceptedWriteFacts sequence acceptedAt journal snapshotPin facts
        repo = .ok (retained, last)) :
    last = repo.withWriteRecord last ∧
      last.acceptedWriteHead =
        facts.foldl (noteHead sequence) repo.acceptedWriteHead ∧
      ((∀ other, other.ref ∉ facts.map AcceptedWriteFact.ref →
          Recordable repo sequence journal snapshotPin other →
            Recordable last sequence journal snapshotPin other) ∧
        ∀ fact ∈ facts,
          Recordable last sequence journal snapshotPin fact) := by
  induction facts generalizing repo retained with
  | nil =>
    cases recorded
    exact ⟨rfl, rfl, fun _ _ recordable => recordable, nofun⟩
  | cons fact facts ih =>
    rw [List.map_cons, List.nodup_cons] at distinct
    unfold recordAcceptedWriteFacts at recorded
    cases first :
        recordAcceptedWrite repo sequence acceptedAt journal snapshotPin
          fact with
    | error failure => simp [first] at recorded
    | ok result =>
      obtain ⟨flag, middle⟩ := result
      simp only [first] at recorded
      cases rest :
          recordAcceptedWriteFacts sequence acceptedAt journal
            snapshotPin facts middle with
      | error failure => simp [rest] at recorded
      | ok result =>
        obtain ⟨restFlag, final⟩ := result
        simp only [rest, Except.ok.injEq, Prod.mk.injEq] at recorded
        obtain ⟨-, rfl⟩ := recorded
        obtain ⟨step, -, head⟩ := recordAcceptedWrite_ok first
        obtain ⟨frame, heads, others, again⟩ := ih distinct.2 rest
        refine ⟨?_, ?_, ?_, ?_⟩
        · calc
            final = middle.withWriteRecord final := frame
            _ = (repo.withWriteRecord middle).withWriteRecord final := by
              rw [← step.frame]
            _ = repo.withWriteRecord final := rfl
        · rw [heads, head, List.foldl_cons]
        · intro other absent recordable
          rw [List.map_cons, List.mem_cons, not_or] at absent
          exact others other absent.2
            ((step.recordable_iff absent.1).mpr recordable)
        · intro other member
          rcases List.mem_cons.mp member with rfl | later
          · exact others other distinct.1 (recordable_of_recorded first)
          · exact again other later

/-- The pin of an update names a commit and a tree that it publishes. -/
def PinPublished (snapshotPin : Option SnapshotPinInput)
    (facts : List AcceptedWriteFact) : Prop :=
  ∀ input, snapshotPin = some input →
    isValidPinnedObjectSha input.commitSha = true ∧
      isValidPinnedObjectSha input.treeSha = true ∧
      ∃ fact ∈ facts, fact.afterSha = input.commitSha

/-- The condition under which an update can record its facts. -/
def RecordsWrites (repo : RepoState) (sequence : Nat)
    (facts : List AcceptedWriteFact) (journal : Bool)
    (snapshotPin : Option SnapshotPinInput) : Prop :=
  facts ≠ [] →
    PinPublished snapshotPin facts ∧
      ∀ fact ∈ facts, Recordable repo sequence journal snapshotPin fact

theorem pinPublished_iff (facts : List AcceptedWriteFact) :
    ¬ (snapshotPin.any fun input =>
        !isValidPinnedObjectSha input.commitSha ||
          !isValidPinnedObjectSha input.treeSha ||
          !facts.any fun fact => fact.afterSha = input.commitSha) = true ↔
      PinPublished snapshotPin facts := by
  unfold PinPublished
  cases snapshotPin with
  | none => simp
  | some input => simp [and_assoc]

theorem recordAcceptedWrites_isOk_iff
    (distinct : (facts.map AcceptedWriteFact.ref).Nodup) (repo : RepoState) :
    (∃ result,
        recordAcceptedWrites repo sequence facts acceptedAt journal
          snapshotPin = .ok result) ↔
      RecordsWrites repo sequence facts journal snapshotPin := by
  unfold recordAcceptedWrites RecordsWrites
  by_cases empty : facts = []
  · simp [empty]
  · rw [if_neg empty]
    split
    · next refused =>
        have unpublished : ¬ PinPublished snapshotPin facts := fun published =>
          (pinPublished_iff facts).mpr published refused
        simp [empty, unpublished]
    · next accepted =>
        have published := (pinPublished_iff facts).mp accepted
        rw [recordAcceptedWriteFacts_isOk_iff distinct]
        simp [empty, published]

theorem recordAcceptedWrites_ok
    (distinct : (facts.map AcceptedWriteFact.ref).Nodup)
    (recorded :
      recordAcceptedWrites repo sequence facts acceptedAt journal
        snapshotPin = .ok (retained, last)) :
    last = repo.withWriteRecord last ∧
      last.acceptedWriteHead =
        facts.foldl (noteHead sequence) repo.acceptedWriteHead ∧
      RecordsWrites last sequence facts journal snapshotPin := by
  have records :=
    (recordAcceptedWrites_isOk_iff distinct repo).mp ⟨_, recorded⟩
  unfold recordAcceptedWrites at recorded
  split at recorded
  · next empty =>
      cases recorded
      subst empty
      exact ⟨rfl, rfl, fun nonempty => absurd rfl nonempty⟩
  · split at recorded
    · cases recorded
    · obtain ⟨frame, heads, -, again⟩ :=
        recordAcceptedWriteFacts_ok distinct recorded
      exact ⟨frame, heads, fun nonempty => ⟨(records nonempty).1, again⟩⟩

/-- Noting the same facts twice leaves the heads of the first time. -/
theorem foldl_noteHead_again (facts : List AcceptedWriteFact)
    (heads : String → Option AcceptedWriteHead) :
    facts.foldl (noteHead sequence) (facts.foldl (noteHead sequence) heads) =
      facts.foldl (noteHead sequence) heads := by
  have value :
      ∀ (list : List AcceptedWriteFact)
        (first second : String → Option AcceptedWriteHead) (ref : String),
        (ref ∉ list.map AcceptedWriteFact.ref → first ref = second ref) →
          list.foldl (noteHead sequence) first ref =
            list.foldl (noteHead sequence) second ref := by
    intro list
    induction list with
    | nil => intro first second ref agree; exact agree (by simp)
    | cons fact list ih =>
      intro first second ref agree
      refine ih _ _ ref fun absent => ?_
      unfold noteHead
      by_cases same : ref = fact.ref
      · subst same
        simp
      · rw [Function.update_of_ne same, Function.update_of_ne same]
        exact agree (by simp [same]; simpa using absent)
  have untouched :
      ∀ (list : List AcceptedWriteFact)
        (first : String → Option AcceptedWriteHead) (ref : String),
        ref ∉ list.map AcceptedWriteFact.ref →
          list.foldl (noteHead sequence) first ref = first ref := by
    intro list
    induction list with
    | nil => intro first ref _; rfl
    | cons fact list ih =>
      intro first ref absent
      rw [List.map_cons, List.mem_cons, not_or] at absent
      rw [List.foldl_cons, ih _ ref absent.2]
      exact Function.update_of_ne absent.1 _ _
  funext ref
  exact value facts _ _ ref fun absent => untouched facts heads ref absent

end Facts

end GitOnCloudflare.Repo
