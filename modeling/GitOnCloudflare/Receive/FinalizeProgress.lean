import GitOnCloudflare.Repo.ReceiveRecovery
import GitOnCloudflare.Repo.WriteRecord

/-!
# How far a finalization has come

The durable states between the first write of a finalization and its last,
relative to the repository the call found.  Before the intent only the lease
has changed; with an intent each of the later writes either has its old or
its final value; with an outcome every value the push decides is final.
-/

namespace GitOnCloudflare.Receive

open Foundations
open Repo

/-! ## The accounts of a running collection -/

/-- What a landing receive reads of a collection: whether it owns its source
and the versions and the count of its coordination. -/
abbrev GcAccount := Option (Bool × Option (Nat × Nat × Nat))

def gcAccount (operation : Option GcOperation) : GcAccount :=
  operation.map fun current =>
    (current.ownsSource,
      current.coordination.map fun coordination =>
        (coordination.refsVersion, coordination.packsetVersion,
          coordination.acceptedReceives))

/-- The number of receives the running collection has accepted. -/
def acceptedReceives (repo : RepoState) : Option Nat :=
  repo.gcOperation.bind fun operation =>
    operation.coordination.map GcCoordination.acceptedReceives

variable {first second repo : RepoState} {token : String}
  {proof : Option GcReceiveProtection}

theorem acceptedReceives_eq_of_account
    (same : gcAccount first.gcOperation = gcAccount second.gcOperation) :
    acceptedReceives first = acceptedReceives second := by
  have read (repo : RepoState) :
      acceptedReceives repo =
        (gcAccount repo.gcOperation).bind fun account =>
          account.2.map fun counts => counts.2.2 := by
    unfold acceptedReceives gcAccount
    cases repo.gcOperation with
    | none => rfl
    | some operation =>
      cases coordinated : operation.coordination with
      | none => simp [coordinated]
      | some coordination => simp [coordinated]
  rw [read, read, same]

/-- Retaining a protection never changes an account. -/
theorem retainGcReceiveProtection_ok {last : RepoState}
    (retained : retainGcReceiveProtection repo token proof = .ok last) :
    ∃ operation, last = repo.setGcOperation operation ∧
      gcAccount operation = gcAccount repo.gcOperation := by
  unfold retainGcReceiveProtection at retained
  cases proof with
  | none =>
    cases retained
    exact ⟨repo.gcOperation, rfl, rfl⟩
  | some proof =>
    cases running : repo.gcOperation with
    | none => simp [running] at retained
    | some operation =>
      cases coordinated : operation.coordination with
      | none => simp [running, coordinated] at retained
      | some coordination =>
        simp only [running, coordinated] at retained
        split_ifs at retained
        cases reasoned : proof.reason with
        | none =>
          simp only [reasoned, Except.ok.injEq] at retained
          exact ⟨some operation, by rw [← running, ← retained]; rfl,
            rfl⟩
        | some reason =>
          simp only [reasoned, Except.ok.injEq] at retained
          refine ⟨_, retained.symm, ?_⟩
          simp only [gcAccount, Option.map_some, coordinated]
          rfl

/-- A protection was read off the collection that is running. -/
def Protects (repo : RepoState) (refsVersion : Nat)
    (proof : Option GcReceiveProtection) : Prop :=
  ∀ protection, proof = some protection →
    ∃ operation coordination, repo.gcOperation = some operation ∧
      operation.coordination = some coordination ∧
      operation.commit = none ∧
      protection.operationId = operation.id ∧
      protection.refsVersion = refsVersion

/-- The guard waits for the bucket and writes nothing. -/
theorem ensures_prepareGcReceiveProtection {keeps : World → World → Prop}
    {failed : RepoFailure → World → Prop} (current : World) (refs : List Ref)
    (refsVersion : Nat) (commands : List ReceiveCommand)
    (stagedKey : Option String) :
    (prepareGcReceiveProtection refs refsVersion commands
      stagedKey).Ensures AnyAnswer keeps ClockDrift
      (fun proof last =>
        ClockDrift current last ∧ Protects last.repo refsVersion proof)
      failed current := by
  have still : ClockDrift current current := ⟨rfl, rfl, le_refl _⟩
  unfold prepareGcReceiveProtection
  simp only [Program.bind_eq_bind, Program.ensures_bind, ensures_get]
  cases running : current.repo.gcOperation with
  | none =>
    refine ⟨still, ?_⟩
    intro proof proved
    cases proved
  | some operation =>
    dsimp only
    split
    · next coordination snapshot owns coordinated fixed =>
        have uncommitted : operation.commit = none := by
          unfold GcOperation.ownsSource at owns
          simp only [Bool.and_eq_true, Option.isNone_iff_eq_none] at owns
          exact owns.1.1.2
        have protects (later : World) (drifted : ClockDrift current later)
            (reason : Option GcRetentionReason) :
            Protects later.repo refsVersion
              (some ⟨operation.id, refsVersion, reason⟩) := by
          rintro _ ⟨⟩
          rw [drifted.1]
          exact ⟨operation, coordination, running, coordinated,
            uncommitted, rfl, rfl⟩
        split_ifs
        · exact ⟨still, protects current still none⟩
        · exact ⟨still, protects current still none⟩
        · simp only [Program.ensures_bind, ensures_r2PackRefViews]
          intro later drifted views _
          cases views with
          | none => exact ⟨drifted, protects later drifted _⟩
          | some packs => exact ⟨drifted, protects later drifted _⟩
    · refine ⟨still, ?_⟩
      intro proof proved
      cases proved

/-- A protection is retained while the call holds its lease. -/
theorem retainGcReceiveProtection_isOk
    (protects : Protects repo repo.refsVersion proof)
    (leased : repo.receiveLease.map RepoLease.token = some token) :
    ∃ last, retainGcReceiveProtection repo token proof = .ok last := by
  unfold retainGcReceiveProtection
  cases proof with
  | none => exact ⟨_, rfl⟩
  | some protection =>
    obtain ⟨operation, coordination, running, coordinated, uncommitted,
      sameOperation, sameVersion⟩ := protects protection rfl
    simp only [running, coordinated, sameOperation, uncommitted, leased,
      sameVersion, ne_eq, not_true_eq_false, decide_false,
      Option.isSome_none, Bool.or_self, Bool.false_eq_true, if_false]
    cases protection.reason with
    | none => exact ⟨_, rfl⟩
    | some reason => exact ⟨_, rfl⟩

/-- The account after a receive with these versions has landed. -/
def GcAccount.advance (account : GcAccount) (expected next : Nat)
    (packset : Option Nat) : Except RepoFailure GcAccount :=
  match account with
  | some (true, some (refsVersion, packsetVersion, accepted)) =>
    if refsVersion = next then
      .ok account
    else if refsVersion ≠ expected ||
        packset.any fun wanted => packsetVersion + 1 ≠ wanted then
      .error .gcVersionsDiverged
    else
      .ok (some (true,
        some (next, packset.getD packsetVersion, accepted + 1)))
  | _ => .ok account

/-- An account that has been advanced is not advanced again. -/
theorem GcAccount.advance_again {account landed : GcAccount}
    {expected next : Nat} {packset : Option Nat}
    (advanced : account.advance expected next packset = .ok landed) :
    landed.advance expected next packset = .ok landed := by
  unfold advance at advanced
  split at advanced
  · split_ifs at advanced with same diverged
    · cases advanced
      simp [advance, same]
    · cases advanced
      simp [advance]
  · next idle =>
      cases advanced
      unfold advance
      split
      · next refsVersion packsetVersion accepted =>
          exact (idle refsVersion packsetVersion accepted rfl).elim
      · rfl

theorem setGcOperation_self (repo : RepoState) :
    repo = repo.setGcOperation repo.gcOperation :=
  rfl

/-- A landing receive changes the collection as its account says. -/
theorem advanceGcReceiveVersions_account (repo : RepoState)
    (expected next : Nat) (packset : Option Nat) (expectedPin nextPin : Nat) :
    (gcAccount repo.gcOperation).advance expected next packset =
        (advanceGcReceiveVersions repo expected next packset expectedPin
          nextPin).map (fun last => gcAccount last.gcOperation) ∧
      ∀ last,
        advanceGcReceiveVersions repo expected next packset expectedPin
            nextPin = .ok last →
          last = repo.setGcOperation last.gcOperation := by
  unfold advanceGcReceiveVersions
  cases running : repo.gcOperation with
  | none =>
    refine ⟨?_, ?_⟩
    · simp [gcAccount, GcAccount.advance, running, Except.map]
    · intro last same
      rw [← Except.ok.inj same]
      exact setGcOperation_self _
  | some operation =>
    dsimp only
    cases owned : operation.ownsSource with
    | false =>
      refine ⟨?_, ?_⟩
      · simp [gcAccount, GcAccount.advance, running, owned, Except.map]
      · intro last same
        rw [← Except.ok.inj same]
        exact setGcOperation_self _
    | true =>
      cases coordinated : operation.coordination with
      | none =>
        refine ⟨?_, ?_⟩
        · simp [gcAccount, GcAccount.advance, running, owned,
            coordinated, Except.map]
        · intro last same
          rw [← Except.ok.inj same]
          exact setGcOperation_self _
      | some coordination =>
        have stillOwns (current : Option GcCoordination) :
            GcOperation.ownsSource
                { operation with coordination := current } = true :=
          owned
        have account :
            gcAccount (some operation) =
              some (true, some (coordination.refsVersion,
                coordination.packsetVersion,
                coordination.acceptedReceives)) := by
          simp [gcAccount, owned, coordinated]
        rw [account]
        unfold GcAccount.advance
        dsimp only
        split_ifs with landed diverged
        · refine ⟨?_, ?_⟩
          · simp [Except.map, running, account]
          · intro last same
            rw [← Except.ok.inj same]
            exact setGcOperation_self _
        · exact ⟨by simp only [Except.map], by simp⟩
        · refine ⟨?_, ?_⟩
          · simp [Except.map, gcAccount, RepoState.setGcOperation,
              stillOwns, GcCoordination.advance]
          · intro last same
            rw [← Except.ok.inj same]
            exact setGcOperation_self _

/-! ## The row of a staged pack -/

/-- The active row of a key, as a finalization looks it up. -/
def activeRow (catalog : PackCatalog) (packKey : String) :
    Option PackCatalogRow :=
  (listActivePackCatalog catalog).find? fun row => row.packKey = packKey

theorem activeRow_eq_some_iff {catalog : PackCatalog} {packKey : String}
    {row : PackCatalogRow} :
    activeRow catalog packKey = some row ↔
      IsActive catalog row ∧ row.packKey = packKey := by
  have distinct :
      ((listActivePackCatalog catalog).map PackCatalogRow.packKey).Nodup := by
    unfold listActivePackCatalog
    rw [((List.perm_insertionSort rowPrecedes _).map _).nodup_iff]
    exact catalog.distinct.sublist (List.filter_sublist.map _)
  rw [← mem_listActivePackCatalog]
  exact KeyedList.findItem_eq_some_iff distinct

theorem activeRow_upsert (catalog : PackCatalog) (row : PackCatalogRow)
    (active : row.state = .active) :
    activeRow (upsertPackCatalogRow catalog row) row.packKey = some row := by
  rw [activeRow_eq_some_iff, isActive_upsert]
  exact ⟨Or.inl ⟨rfl, active⟩, rfl⟩

/-- The catalog up to the times at which its rows were written. -/
def rowsUpToCreation (catalog : PackCatalog) : List PackCatalogRow :=
  catalog.items.map fun row => { row with createdAt := 0 }

/-- The time of a row is all that distinguishes two ways of writing it. -/
theorem rowsUpToCreation_upsert (catalog : PackCatalog) (pack : StagedPack)
    (sequence first second : Nat) :
    rowsUpToCreation
        (upsertPackCatalogRow catalog (receiveRow pack sequence first)) =
      rowsUpToCreation
        (upsertPackCatalogRow catalog (receiveRow pack sequence second)) := by
  have sameKey (row : PackCatalogRow) :
      ({ row with createdAt := 0 } : PackCatalogRow).packKey = row.packKey :=
    rfl
  have written (time : Nat) :
      rowsUpToCreation
          (upsertPackCatalogRow catalog (receiveRow pack sequence time)) =
        KeyedList.upsertItem PackCatalogRow.packKey
          (receiveRow pack sequence 0) (rowsUpToCreation catalog) :=
    KeyedList.map_upsertItem sameKey _ _
  rw [written, written]

/-! ## What a push decides -/

/-- The parts of a receive that its state is measured against: the call, the
world it found, its write context and the account it lands on. -/
structure Landing where
  args : FinalizeReceiveArgs
  origin : World
  context : Option AcceptedWriteContext
  account : GcAccount

namespace Landing

variable (landing : Landing)

/-- The repository the call found. -/
def found : RepoState := landing.origin.repo

def refs : List Ref :=
  applyReceiveCommands landing.found.refs landing.args.commands

def head : Head := resolveHeadAfterReceive landing.found.head landing.refs

def refsVersion : Nat := landing.found.refsVersion + 1

def catalog (time : Nat) : PackCatalog :=
  match landing.args.stagedPack with
  | none => landing.found.packCatalog
  | some pack =>
    if activeRow landing.found.packCatalog pack.packKey = none then
      upsertPackCatalogRow landing.found.packCatalog
        (receiveRow pack landing.found.packSequence time)
    else
      landing.found.packCatalog

def nextPackSeq : Nat :=
  match landing.args.stagedPack with
  | none => landing.found.nextPackSeq
  | some _ => landing.found.packSequence + 1

def packsetVersion : Nat :=
  match landing.args.stagedPack with
  | none => landing.found.packsetVersion
  | some _ => landing.found.packsetVersion + 1

/-- The packset version the intent asks for. -/
def nextPacksetVersion : Option Nat :=
  landing.args.stagedPack.map fun _ => landing.found.packsetVersion + 1

def facts : List AcceptedWriteFact :=
  (landing.context.map fun context =>
    acceptedWriteFactsForCommands context landing.args.commands).getD []

def heads : String → Option AcceptedWriteHead :=
  landing.facts.foldl (noteHead landing.refsVersion)
    landing.found.acceptedWriteHead

/-- The pin the ref transaction retains, as of a time. -/
def pin (time : Nat) : Option SnapshotPinInput :=
  landing.args.ingestionReceipt.map fun receipt =>
    { commitSha := receipt.acceptedWrite.afterSha
      treeSha := receipt.treeSha
      materializedAt := time
      advanceCurrent := !landing.origin.settings.snapshotEventProbeEnabled
      qualificationOwned := landing.origin.settings.qualificationMode }

/-- The ref transaction can record its facts. -/
def Records (repo : RepoState) : Prop :=
  RecordsWrites repo landing.refsVersion landing.facts
    landing.origin.settings.snapshotEventProbeEnabled (landing.pin 0)

theorem rowsUpToCreation_catalog (first second : Nat) :
    rowsUpToCreation (landing.catalog first) =
      rowsUpToCreation (landing.catalog second) := by
  unfold catalog
  split
  · rfl
  · split_ifs
    · exact rowsUpToCreation_upsert _ _ _ _ _
    · rfl

theorem nodup_facts :
    (landing.facts.map AcceptedWriteFact.ref).Nodup := by
  unfold facts
  cases landing.context with
  | none => exact List.nodup_nil
  | some context => exact nodup_acceptedWriteFactsForCommands context _

/-- The time of a pin does not decide whether the facts can be recorded. -/
theorem records_iff (repo : RepoState) (time : Nat) :
    RecordsWrites repo landing.refsVersion landing.facts
        landing.origin.settings.snapshotEventProbeEnabled
        (landing.pin time) ↔
      landing.Records repo := by
  have published :
      PinPublished (landing.pin time) landing.facts ↔
        PinPublished (landing.pin 0) landing.facts := by
    unfold PinPublished pin
    cases landing.args.ingestionReceipt with
    | none => simp
    | some receipt => simp
  have recordable (fact : AcceptedWriteFact) :
      Recordable repo landing.refsVersion
          landing.origin.settings.snapshotEventProbeEnabled
          (landing.pin time) fact ↔
        Recordable repo landing.refsVersion
          landing.origin.settings.snapshotEventProbeEnabled
          (landing.pin 0) fact := by
    rw [recordable_iff_and, recordable_iff_and]
    unfold pin
    cases landing.args.ingestionReceipt with
    | none => simp
    | some receipt => simp [PinAccepts]
  unfold Records RecordsWrites
  rw [published]
  simp only [recordable]

/-- Whether facts can be recorded is read off the write record alone. -/
theorem Records.of_record (records : landing.Records first)
    (pins : second.snapshotPins = first.snapshotPins)
    (current : second.snapshotCurrent = first.snapshotCurrent)
    (journal : second.acceptedWriteJournal = first.acceptedWriteJournal) :
    landing.Records second := by
  intro nonempty
  obtain ⟨published, recordable⟩ := records nonempty
  refine ⟨published, fun fact member => ?_⟩
  have known := recordable fact member
  rw [recordable_iff_and] at known ⊢
  unfold PinAccepts CurrentAgrees JournalAgrees at known ⊢
  rw [pins, current, journal]
  exact known

/-! ## The stages of a finalization -/

/-- A durable intent records this landing. -/
structure Promises (intent : ReceiveFinalizeIntent) : Prop where
  token : intent.token = landing.args.token
  commands : intent.commands = landing.args.commands
  expectedRefsVersion : intent.expectedRefsVersion = landing.found.refsVersion
  nextHead : intent.nextHead = landing.head
  nextRefsVersion : intent.nextRefsVersion = landing.refsVersion
  stagedPack : intent.stagedPack = landing.args.stagedPack
  packSequence :
    intent.packSequence =
      landing.args.stagedPack.map fun _ => landing.found.packSequence
  nextPacksetVersion : intent.nextPacksetVersion = landing.nextPacksetVersion
  ingestionReceipt : intent.ingestionReceipt = landing.args.ingestionReceipt
  acceptedWriteContext : intent.acceptedWriteContext = landing.context

/-- A receipt does not contradict the one on record. -/
def ReceiptFits (repo : RepoState) (receipt : IngestionReceipt) : Prop :=
  ¬ ((repo.ingestionReceipt receipt.keyHash).any fun stored =>
    stored.fingerprint ≠ receipt.fingerprint) = true

def ReceiptsFit (repo : RepoState) : Prop :=
  ∀ receipt, landing.args.ingestionReceipt = some receipt →
    ReceiptFits repo receipt

/-- What a call that commits has found in order. -/
structure Sound : Prop where
  unpromised : landing.found.receiveFinalizeIntent landing.args.token = none
  unanswered : landing.found.receiveOutcome landing.args.token = none
  active : landing.found.repositoryDeleting = false
  lease :
    ∃ lease, landing.found.receiveLease = some lease ∧
      lease.token = landing.args.token
  validRefs : invalidRefStatuses landing.args.commands = []
  validated :
    (validateReceiveCommands landing.found.refs landing.args.commands).all
      (fun status => status.ok) = true
  matching :
    ¬ (landing.args.acceptedWrites.any fun facts =>
      !acceptedWritesMatchCommands landing.args.commands facts) = true
  context :
    acceptedWriteContextForFacts landing.args.acceptedWrites =
      .ok landing.context
  row :
    ∀ pack row, landing.args.stagedPack = some pack →
      activeRow landing.found.packCatalog pack.packKey = some row →
        rowMatchesIntent row pack (some landing.found.packSequence) = true
  records : landing.Records landing.found
  account :
    (gcAccount landing.found.gcOperation).advance landing.found.refsVersion
      landing.refsVersion landing.nextPacksetVersion = .ok landing.account
  receipts : landing.ReceiptsFit landing.found

/-- The lease on record is the call's own. -/
def Leased (repo : RepoState) : Prop :=
  ∃ lease, repo.receiveLease = some lease ∧
    lease.token = landing.args.token

/-- Only the lease has changed. -/
def Untouched (repo : RepoState) : Prop :=
  ∃ lease : RepoLease, lease.token = landing.args.token ∧
    repo = landing.found.setReceiveLease (some lease)

/-- The ref transaction has not been made. -/
structure RefsBefore (repo : RepoState) : Prop where
  refs : repo.refs = landing.found.refs
  head : repo.head = landing.found.head
  refsVersion : repo.refsVersion = landing.found.refsVersion
  heads : repo.acceptedWriteHead = landing.found.acceptedWriteHead
  records : landing.Records repo
  account :
    gcAccount repo.gcOperation = gcAccount landing.found.gcOperation

/-- The ref transaction has been made. -/
structure RefsAfter (repo : RepoState) : Prop where
  refs : repo.refs = landing.refs
  head : repo.head = some landing.head
  refsVersion : repo.refsVersion = landing.refsVersion
  heads : repo.acceptedWriteHead = landing.heads
  records : landing.Records repo
  account : gcAccount repo.gcOperation = landing.account

/-- The catalog and the two counters have their final values. -/
structure Activated (repo : RepoState) : Prop where
  catalog : ∃ time, repo.packCatalog = landing.catalog time
  nextPackSeq : repo.nextPackSeq = landing.nextPackSeq
  packsetVersion : repo.packsetVersion = landing.packsetVersion

/-- A durable intent is on record, and each later write is old or final. -/
structure Pending (repo : RepoState) : Prop where
  active : repo.repositoryDeleting = false
  outcome : repo.receiveOutcome landing.args.token = none
  intent :
    ∃ intent, repo.receiveFinalizeIntent landing.args.token = some intent ∧
      landing.Promises intent
  lease : landing.Leased repo
  catalog :
    repo.packCatalog = landing.found.packCatalog ∨
      ∃ time, repo.packCatalog = landing.catalog time
  nextPackSeq :
    repo.nextPackSeq = landing.found.nextPackSeq ∨
      repo.nextPackSeq = landing.nextPackSeq
  packsetVersion :
    repo.packsetVersion = landing.found.packsetVersion ∨
      repo.packsetVersion = landing.packsetVersion
  refs : landing.RefsBefore repo ∨ landing.RefsAfter repo
  receipts : landing.ReceiptsFit repo

/-- The outcome is on record and everything the push decides is final. -/
structure Recorded (repo : RepoState) : Prop where
  active : repo.repositoryDeleting = false
  outcome :
    ∃ outcome, repo.receiveOutcome landing.args.token = some outcome ∧
      outcome.token = landing.args.token
  intent :
    ∀ intent, repo.receiveFinalizeIntent landing.args.token = some intent →
      intent.token = landing.args.token ∧
        intent.ingestionReceipt = landing.args.ingestionReceipt
  lease :
    ∀ lease, repo.receiveLease = some lease →
      lease.token = landing.args.token
  refs : landing.RefsAfter repo
  activated : landing.Activated repo
  receipts : landing.ReceiptsFit repo

/-- Where an interrupted finalization stands. -/
structure Progress (current : World) : Prop where
  settings : current.settings = landing.origin.settings
  stage :
    landing.Untouched current.repo ∨ landing.Pending current.repo ∨
      landing.Recorded current.repo

theorem Progress.drift {landing : Landing} {current later : World}
    (progress : landing.Progress current) (drifted : ClockDrift current later) :
    landing.Progress later := by
  obtain ⟨sameRepo, sameSettings, -⟩ := drifted
  refine ⟨sameSettings.trans progress.settings, ?_⟩
  rw [sameRepo]
  exact progress.stage

/-! ## The writes that keep a stage -/

/-- Two repositories agree on all that the ref transaction writes. -/
structure SameRefPart (first second : RepoState) : Prop where
  refs : second.refs = first.refs
  head : second.head = first.head
  refsVersion : second.refsVersion = first.refsVersion
  heads : second.acceptedWriteHead = first.acceptedWriteHead
  pins : second.snapshotPins = first.snapshotPins
  current : second.snapshotCurrent = first.snapshotCurrent
  journal : second.acceptedWriteJournal = first.acceptedWriteJournal
  operation : second.gcOperation = first.gcOperation

variable {landing}
variable {repo : RepoState}
  {other : RepoState}

theorem RefsBefore.congr (before : landing.RefsBefore repo)
    (same : SameRefPart repo other) : landing.RefsBefore other where
  refs := same.refs.trans before.refs
  head := same.head.trans before.head
  refsVersion := same.refsVersion.trans before.refsVersion
  heads := same.heads.trans before.heads
  records :=
    Records.of_record landing before.records same.pins same.current
      same.journal
  account := (congrArg gcAccount same.operation).trans before.account

theorem RefsAfter.congr (after : landing.RefsAfter repo)
    (same : SameRefPart repo other) : landing.RefsAfter other where
  refs := same.refs.trans after.refs
  head := same.head.trans after.head
  refsVersion := same.refsVersion.trans after.refsVersion
  heads := same.heads.trans after.heads
  records :=
    Records.of_record landing after.records same.pins same.current
      same.journal
  account := (congrArg gcAccount same.operation).trans after.account

theorem refs_congr (refs : landing.RefsBefore repo ∨ landing.RefsAfter repo)
    (same : SameRefPart repo other) :
    landing.RefsBefore other ∨ landing.RefsAfter other :=
  refs.imp (fun before => before.congr same) (fun after => after.congr same)

theorem Pending.setReceiveLease (pending : landing.Pending repo)
    {lease : RepoLease} (own : lease.token = landing.args.token) :
    landing.Pending (repo.setReceiveLease (some lease)) :=
  { pending with
    lease := ⟨lease, rfl, own⟩
    refs := refs_congr pending.refs ⟨rfl, rfl, rfl, rfl, rfl, rfl, rfl, rfl⟩ }

theorem Pending.setPackCatalog (pending : landing.Pending repo)
    {catalog : PackCatalog} (landed : ∃ time, catalog = landing.catalog time) :
    landing.Pending (repo.setPackCatalog catalog) :=
  { pending with
    catalog := Or.inr landed
    refs := refs_congr pending.refs ⟨rfl, rfl, rfl, rfl, rfl, rfl, rfl, rfl⟩ }

theorem Pending.setNextPackSeq (pending : landing.Pending repo) :
    landing.Pending (repo.setNextPackSeq landing.nextPackSeq) :=
  { pending with
    nextPackSeq := Or.inr rfl
    refs := refs_congr pending.refs ⟨rfl, rfl, rfl, rfl, rfl, rfl, rfl, rfl⟩ }

theorem Pending.setPacksetVersion (pending : landing.Pending repo) :
    landing.Pending (repo.setPacksetVersion landing.packsetVersion) :=
  { pending with
    packsetVersion := Or.inr rfl
    refs := refs_congr pending.refs ⟨rfl, rfl, rfl, rfl, rfl, rfl, rfl, rfl⟩ }

theorem Recorded.setReceiveLease (recorded : landing.Recorded repo)
    {lease : Option RepoLease}
    (own : ∀ held, lease = some held → held.token = landing.args.token) :
    landing.Recorded (repo.setReceiveLease lease) :=
  { recorded with
    lease := own
    refs := recorded.refs.congr ⟨rfl, rfl, rfl, rfl, rfl, rfl, rfl, rfl⟩
    activated := { recorded.activated with } }

theorem Recorded.deleteIntent (recorded : landing.Recorded repo) :
    landing.Recorded (repo.setFinalizeIntent landing.args.token none) :=
  { recorded with
    intent := by
      intro intent found
      simp [RepoState.setFinalizeIntent] at found
    refs := recorded.refs.congr ⟨rfl, rfl, rfl, rfl, rfl, rfl, rfl, rfl⟩
    activated := { recorded.activated with } }

theorem Recorded.setCompactionWantedAt (recorded : landing.Recorded repo)
    (time : Option Nat) : landing.Recorded (repo.setCompactionWantedAt time) :=
  { recorded with
    refs := recorded.refs.congr ⟨rfl, rfl, rfl, rfl, rfl, rfl, rfl, rfl⟩
    activated := { recorded.activated with } }

theorem Recorded.setCompactionPendingSince (recorded : landing.Recorded repo)
    (time : Option Nat) :
    landing.Recorded (repo.setCompactionPendingSince time) :=
  { recorded with
    refs := recorded.refs.congr ⟨rfl, rfl, rfl, rfl, rfl, rfl, rfl, rfl⟩
    activated := { recorded.activated with } }

end Landing

/-! ## Bounded records -/

theorem recordBounded_self {Record : Type} (limit : Nat) (positive : 0 < limit)
    (records : String → Option Record) (index : List String) (key : String)
    (record : Record) :
    (recordBounded limit records index key record).1 key = some record := by
  have absent :
      key ∉
        ((index.filter fun other => other ≠ key) ++ [key]).take
          (((index.filter fun other => other ≠ key) ++ [key]).length -
            limit) := by
    rw [List.take_append_of_le_length (by simp; omega)]
    intro member
    have kept := List.mem_of_mem_take member
    simp at kept
  simp only [recordBounded, absent, false_and, if_false,
    Function.update_self]

namespace Landing

variable {landing : Landing}
variable {repo : RepoState}
  {index : List String}
  {outcomes : String → Option ReceiveCommitOutcome}

theorem Recorded.setReceiveOutcomes (recorded : landing.Recorded repo)
    (stored :
      ∃ outcome, outcomes landing.args.token = some outcome ∧
        outcome.token = landing.args.token) :
    landing.Recorded (repo.setReceiveOutcomes outcomes index) :=
  { recorded with
    outcome := stored
    refs := recorded.refs.congr ⟨rfl, rfl, rfl, rfl, rfl, rfl, rfl, rfl⟩
    activated := { recorded.activated with } }

theorem Recorded.setIngestionReceipts (recorded : landing.Recorded repo)
    {receipts : String → Option IngestionReceipt}
    (fits :
      ∀ receipt, landing.args.ingestionReceipt = some receipt →
        ¬ ((receipts receipt.keyHash).any fun stored =>
          stored.fingerprint ≠ receipt.fingerprint) = true) :
    landing.Recorded (repo.setIngestionReceipts receipts index) :=
  { recorded with
    receipts := fits
    refs := recorded.refs.congr ⟨rfl, rfl, rfl, rfl, rfl, rfl, rfl, rfl⟩
    activated := { recorded.activated with } }

/-- With everything final, the outcome ends the pending stage. -/
theorem Pending.setReceiveOutcomes (pending : landing.Pending repo)
    (after : landing.RefsAfter repo) (activated : landing.Activated repo)
    (stored :
      ∃ outcome, outcomes landing.args.token = some outcome ∧
        outcome.token = landing.args.token) :
    landing.Recorded (repo.setReceiveOutcomes outcomes index) where
  active := pending.active
  outcome := stored
  intent := by
    obtain ⟨promised, found, promises⟩ := pending.intent
    intro intent same
    have known : some promised = some intent := found.symm.trans same
    rw [← Option.some.inj known]
    exact ⟨promises.token, promises.ingestionReceipt⟩
  lease := by
    obtain ⟨own, held, token⟩ := pending.lease
    intro lease same
    have known : some own = some lease := held.symm.trans same
    rw [← Option.some.inj known]
    exact token
  refs := after.congr ⟨rfl, rfl, rfl, rfl, rfl, rfl, rfl, rfl⟩
  activated := { activated with }
  receipts := pending.receipts

theorem stored_storeOutcome {outcome : ReceiveCommitOutcome}
    (own : outcome.token = landing.args.token) :
    ∃ stored,
      (recordBounded maxReceiveOutcomes repo.receiveOutcome
          repo.receiveOutcomeIndex outcome.token outcome).1
          landing.args.token = some stored ∧
        stored.token = landing.args.token := by
  have positive : 0 < maxReceiveOutcomes := by decide
  refine ⟨outcome, ?_, own⟩
  rw [← own]
  exact recordBounded_self _ positive _ _ _ _

end Landing

end GitOnCloudflare.Receive
