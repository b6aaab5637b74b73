import GitOnCloudflare.Repo.GcPublication

/-!
# What a call may write to the collection ledger

The ledger is the one operation record, the admitted ids and the catalog keys
of outputs.  Each committed write of an admission, a claim, a progress
report, a commit, a helped publication or an alarm is one of the changes
below, whatever the state it starts from.
-/

namespace GitOnCloudflare.Gc

open Foundations
open Repo

/-- The calls that edit or read the operation record. -/
inductive GcCall where
  | register (args : RegisterGcArgs)
  | claim (operationId claimId : String)
  | progress (operationId claimId : String) (progress : GcProgress)
  | commit (operationId claimId : String)
  | help
  | discardKeys (operationId claimId : String)
  | alarm

inductive GcReply where
  | operation (result : GcOperationResult)
  | commit (result : CommitReachabilityGcResult)
  | keys (keys : Option (List String))
  | helped
  | woken (running : Bool)

def GcCall.body : GcCall → RepoProgram GcReply
  | .register args => do return .operation (← registerGcOperation args)
  | .claim operationId claimId => do
      return .operation (← claimGcOperation operationId claimId)
  | .progress operationId claimId reported => do
      return .operation (← recordGcProgress operationId claimId reported)
  | .commit operationId claimId => do
      return .commit (← commitGcOperation operationId claimId)
  | .help => do
      helpPreparedGcPublication
      return .helped
  | .discardKeys operationId claimId => do
      return .keys (← gcDiscardKeys operationId claimId)
  | .alarm => do return .woken (← resumeGcFromAlarm)

/-- The catalog has a row under a key, active or superseded. -/
def HasRow (repo : RepoState) (packKey : String) : Prop :=
  (getPackCatalogRow repo.packCatalog packKey).isSome = true

/-- The call acts for the holder of a claim. -/
def GcCall.ActsFor (claimId : String) : GcCall → Prop
  | .progress _ holder _ => holder = claimId
  | .commit _ holder => holder = claimId
  | .help => True
  | _ => False

/-- The operation with which a claim starts: as it was, or given up. -/
def ClaimBase (operation : GcOperation) (now : Nat) (base : GcOperation) :
    Prop :=
  base = operation ∨
    ∃ reason, base = operation.giveUp reason now ∧
      operation.phase ∈ [GcPhase.queued, .rewrite, .index]

/-- The rows after a write: those before it and the output of an operation
that is publishing. -/
def RowsFrom (before after : RepoState) : Prop :=
  ∀ packKey, HasRow after packKey →
    HasRow before packKey ∨
      ∃ operation, before.gcOperation = some operation ∧
        operation.phase = .publish ∧ packKey = operation.outputPackKey

/-- The changes a single write may make to the ledger. -/
inductive LedgerChange
    (call : GcCall)
    (doId : String)
    (now : Nat)
    (before after : RepoState) : Prop where
  | kept
      (operation : after.gcOperation = before.gcOperation)
      (admission : after.gcAdmission = before.gcAdmission)
      (rows : RowsFrom before after)
  | admitted
      (args : RegisterGcArgs)
      (free :
        ∀ running, before.gcOperation = some running →
          isGcTerminal running = true)
      (fresh : args.operationId ∉ before.gcAdmission)
      (operation : after.gcOperation = some (args.operation doId now))
      (admission :
        after.gcAdmission = before.gcAdmission ++ [args.operationId])
      (rows : after.packCatalog = before.packCatalog)
  | claimed
      (operation base : GcOperation)
      (claimId : String)
      (called : call = .claim operation.id claimId)
      (found : before.gcOperation = some operation)
      (running : isGcTerminal operation = false)
      (waited :
        ∀ old, operation.claim = some old → old.safeRetryAt ≤ now)
      (based : ClaimBase operation now base)
      (issued : after.gcOperation = some (base.issueClaim claimId now))
      (admission : after.gcAdmission = before.gcAdmission)
      (rows : after.packCatalog = before.packCatalog)
  | progressed
      (operation moved : GcOperation)
      (claim : GcClaim)
      (progress : GcProgress)
      (called : call = .progress operation.id claim.id progress)
      (found : before.gcOperation = some operation)
      (held : operation.claim = some claim)
      (live : now < claim.expiresAt)
      (moves : operation.progress claim before now progress = .ok moved)
      (settled :
        after.gcOperation =
          some (moved.settle operation.phase progress now))
      (admission : after.gcAdmission = before.gcAdmission)
      (rows : after.packCatalog = before.packCatalog)
  | armed
      (operation : GcOperation)
      (coordination : GcCoordination)
      (found : before.gcOperation = some operation)
      (armed :
        after.gcOperation =
          some { operation with coordination := some coordination })
      (admission : after.gcAdmission = before.gcAdmission)
      (rows : after.packCatalog = before.packCatalog)
  | published
      (operation : GcOperation)
      (claim : GcClaim)
      (commit : GcCommit)
      (coordination : Option GcCoordination)
      (found : before.gcOperation = some operation)
      (publishing : operation.phase = .publish)
      (uncommitted : operation.commit = none)
      (held : operation.claim = some claim)
      (acts : call.ActsFor claim.id)
      (live : now < claim.expiresAt)
      (receipt :
        after.gcOperation =
          some
            { operation.retainReceipt commit now with
              coordination := coordination })
      (admission : after.gcAdmission = before.gcAdmission)
      (rows : RowsFrom before after)

/-- One write at one clock reading. -/
structure LedgerWrite (call : GcCall) (before after : World) : Prop where
  settings : after.settings = before.settings
  now : after.now = before.now
  change :
    LedgerChange call before.settings.doId before.now before.repo after.repo

variable {before after : RepoState}

theorem RowsFrom.of_catalog (same : after.packCatalog = before.packCatalog) :
    RowsFrom before after := by
  intro packKey present
  unfold HasRow at present
  rw [same] at present
  exact Or.inl present

variable {call : GcCall} {repo : RepoState}

/-- A write beside the ledger. -/
theorem LedgerWrite.keep {before : World}
    (operation : repo.gcOperation = before.repo.gcOperation)
    (admission : repo.gcAdmission = before.repo.gcAdmission)
    (rows : repo.packCatalog = before.repo.packCatalog) :
    LedgerWrite call before (before.withRepo repo) :=
  ⟨rfl, rfl, .kept operation admission (.of_catalog rows)⟩

section Programs

variable {honest : (request : R2Request) → R2Answer request → World → Prop}
variable {rely : World → World → Prop}

/-- Every write of a program is a ledger write of its call. -/
def Writes {Value : Type}
    (honest : (request : R2Request) → R2Answer request → World → Prop)
    (rely : World → World → Prop) (call : GcCall) (program : RepoProgram Value)
    (post : World → Prop) (current : World) : Prop :=
  program.Ensures honest (LedgerWrite call) rely (fun _ last => post last)
    (fun _ _ => True) current

variable {current : World} {Value : Type} {post : World → Prop}
  {operation : GcOperation} {now : Nat} {row : PackCatalogRow}
  {args : CommitReachabilityGcArgs}

theorem Writes.bind {Other : Type} {program : RepoProgram Value}
    {rest : Value → RepoProgram Other} {middle : World → Prop}
    (first : Writes honest rely call program middle current)
    (second :
      ∀ value last, middle last →
        Writes honest rely call (rest value) post last) :
    Writes honest rely call (program.bind rest) post current := by
  unfold Writes
  rw [Program.ensures_bind]
  exact first.mono (fun _ _ kept => kept) second (fun _ _ failure => failure)

/-- A transaction that answers and writes as one function of the world. -/
theorem writes_transaction
    {body : World → Except RepoFailure (Value × RepoState)}
    (written :
      ∀ value repo, body current = .ok (value, repo) →
        LedgerWrite call current (current.withRepo repo) ∧
          post (current.withRepo repo)) :
    Writes honest rely call (transaction body) post current := by
  unfold Writes
  rw [ensures_repoTransaction]
  cases result : body current with
  | error failure => trivial
  | ok pair =>
    obtain ⟨value, repo⟩ := pair
    exact written value repo result

theorem writes_ite {condition : Prop} [Decidable condition]
    {first second : RepoProgram Value}
    (holds : condition → Writes honest rely call first post current)
    (fails : ¬condition → Writes honest rely call second post current) :
    Writes honest rely call (if condition then first else second) post
      current := by
  split
  · next yes => exact holds yes
  · next no => exact fails no

theorem LedgerWrite.same (current : World) :
    LedgerWrite call current (current.withRepo current.repo) :=
  .keep rfl rfl rfl

/-! ## Admission, claims and progress -/

theorem registerGcOperation_writes (args : RegisterGcArgs) (current : World) :
    Writes honest rely (.register args) (registerGcOperation args)
      (fun _ => True) current := by
  unfold Writes registerGcOperation
  simp only [Program.bind_eq_bind, Program.ensures_bind, ensures_dateNow,
    Program.ensures_ite]
  split
  · trivial
  · refine writes_transaction ?_
    intro value repo result
    refine ⟨?_, trivial⟩
    split at result
    · cases result
      exact .same current
    · split at result
      · next running found =>
        repeat' split at result
        · cases result
          exact .same current
        · cases result
          exact .same current
        · cases result
          exact .same current
        · cases result
          exact .same current
        · next fresh terminal =>
          cases result
          refine ⟨rfl, rfl, .admitted args ?_ fresh rfl rfl rfl⟩
          intro other found'
          cases found.symm.trans found'
          simpa using terminal
      · next vacant =>
        split at result
        · cases result
          exact .same current
        · next fresh =>
          cases result
          refine ⟨rfl, rfl, .admitted args ?_ fresh rfl rfl rfl⟩
          intro other found
          cases vacant.symm.trans found

/-- An expired operation is given up; any other is taken as it is. -/
theorem ClaimBase.expire (operation : GcOperation) (now : Nat) :
    ClaimBase operation now (operation.expire now) := by
  unfold GcOperation.expire
  split
  · next expired => exact Or.inr ⟨_, rfl, expired.2.2⟩
  · exact Or.inl rfl

variable {base : GcOperation} {sourcePackKeys : List String}
  {target : Option PackCatalogRow} {source : GcSnapshot}
  {coordination : GcCoordination} {closure : GcClosure}

/-- Renewing the source gives up an operation whose source has changed. -/
theorem renewGcSource_base {snapshot : GcSnapshot}
    (based : ClaimBase operation now base)
    (phase : base.phase ∈ [GcPhase.rewrite, .index, .publish]) :
    ClaimBase operation now (repo.renewGcSource base snapshot now).1 := by
  unfold RepoState.renewGcSource
  split
  · exact based
  · split
    · next unpublished =>
      rcases based with rfl | ⟨reason, rfl, _⟩
      · refine Or.inr ⟨.sourceChanged, rfl, ?_⟩
        simp only [List.mem_cons, List.not_mem_nil, or_false] at phase ⊢
        rcases phase with rewriting | indexing | publishing
        · exact Or.inr (Or.inl rewriting)
        · exact Or.inr (Or.inr indexing)
        · exact absurd publishing unpublished
      · simp [GcOperation.giveUp] at phase
    · exact based

theorem renewGcSource_repo (repo : RepoState) (operation : GcOperation)
    (snapshot : GcSnapshot) (now : Nat) :
    let renewed := (repo.renewGcSource operation snapshot now).2
    renewed.gcAdmission = repo.gcAdmission ∧
      renewed.packCatalog = repo.packCatalog := by
  unfold RepoState.renewGcSource
  split
  · exact ⟨rfl, rfl⟩
  · split <;> exact ⟨rfl, rfl⟩

/-- A claim is refused without a write, or issued on its base. -/
theorem claimGc_cases (claimId : String) (based : ClaimBase operation now base) :
    (repo.claimGc base claimId now).2 = repo ∨
      ∃ issued, ClaimBase operation now issued ∧
        (repo.claimGc base claimId now).2.gcOperation =
            some (issued.issueClaim claimId now) ∧
        (repo.claimGc base claimId now).2.gcAdmission = repo.gcAdmission ∧
        (repo.claimGc base claimId now).2.packCatalog =
          repo.packCatalog := by
  unfold RepoState.claimGc
  dsimp only
  split
  · exact Or.inr ⟨base, based, rfl, rfl, rfl⟩
  · next snapshot _ =>
    split
    · next phase =>
      split
      · exact Or.inl rfl
      · obtain ⟨admission, rows⟩ :=
          renewGcSource_repo repo base snapshot now
        exact Or.inr
          ⟨_, renewGcSource_base based phase, rfl, admission, rows⟩
    · exact Or.inr ⟨base, based, rfl, rfl, rfl⟩

theorem claimGcOperation_writes (operationId claimId : String) (current : World) :
    Writes honest rely (.claim operationId claimId)
      (claimGcOperation operationId claimId) (fun _ => True) current := by
  refine writes_transaction ?_
  intro value repo result
  refine ⟨?_, trivial⟩
  dsimp only at result
  split at result
  · cases result
    exact .same current
  · split at result
    · cases result
      exact .same current
    · next operation found =>
      repeat' split at result
      · cases result
        exact .same current
      · cases result
        exact .same current
      · cases result
        exact .same current
      · cases result
        exact .same current
      · next same running _ waited =>
        have written := congrArg Prod.snd (Except.ok.inj result)
        dsimp only at written
        subst written
        rcases claimGc_cases claimId
            (ClaimBase.expire operation current.now) with
          kept | ⟨issued, based, record, admission, rows⟩
        · rw [kept]
          exact .same current
        · refine ⟨rfl, rfl, .claimed operation issued claimId ?_ found
            (by simpa using running) ?_ based record admission rows⟩
          · rw [not_not.mp same]
          · intro old held
            rw [held] at waited
            simpa using waited

theorem releaseBlocked_repo (repo : RepoState) (operation : GcOperation) :
    (repo.releaseBlocked operation).gcAdmission = repo.gcAdmission ∧
      (repo.releaseBlocked operation).packCatalog = repo.packCatalog := by
  unfold RepoState.releaseBlocked
  dsimp only
  repeat' split
  all_goals exact ⟨rfl, rfl⟩

theorem recordGcProgress_writes (operationId claimId : String)
    (reported : GcProgress) (current : World) :
    Writes honest rely (.progress operationId claimId reported)
      (recordGcProgress operationId claimId reported) (fun _ => True)
      current := by
  refine writes_transaction ?_
  intro value repo result
  refine ⟨?_, trivial⟩
  dsimp only at result
  split at result
  · cases result
    exact .same current
  · split at result
    · cases result
      exact .same current
    · next operation found =>
      split at result
      · cases result
        exact .same current
      · next same =>
        split at result
        · cases result
          exact .same current
        · next claim held =>
          split at result
          · cases result
            exact .same current
          · next live =>
            rw [not_or, not_not, not_le] at live
            split at result
            · cases result
              exact .same current
            · next moved moves =>
              cases result
              obtain ⟨admission, rows⟩ :=
                releaseBlocked_repo current.repo
                  (moved.settle operation.phase reported current.now)
              refine ⟨rfl, rfl, .progressed operation moved claim reported ?_
                found held live.2 moves rfl admission rows⟩
              rw [not_not.mp same, live.1]

/-! ## Rows of a commit -/

/-- A source that still matches has a row. -/
theorem hasRow_of_rowsMatch {sourcePacks : List PackCatalogRow}
    (matched :
      rowsMatchForCommit sourcePacks
        (currentSourceRows repo.packCatalog sourcePacks) = true)
    (member : row ∈ sourcePacks) : HasRow repo row.packKey := by
  have sameLength :
      (currentSourceRows repo.packCatalog sourcePacks).length =
        sourcePacks.length := by
    unfold rowsMatchForCommit at matched
    rw [Bool.and_eq_true, decide_eq_true_iff] at matched
    exact matched.1.symm
  unfold currentSourceRows at sameLength
  rw [List.length_filterMap_eq_countP, List.countP_eq_length] at sameLength
  exact sameLength row member

/-- Replacing the catalog adds at most the row of its target. -/
theorem hasRow_replaceActivePackCatalog {packKey : String}
    (present :
      (getPackCatalogRow
        (replaceActivePackCatalog repo.packCatalog sourcePackKeys target)
        packKey).isSome = true) :
    HasRow repo packKey ∨ target.map PackCatalogRow.packKey = some packKey := by
  unfold replaceActivePackCatalog getPackCatalogRow at present
  dsimp only at present
  unfold supersedePackCatalogRows at present
  rw [KeyedList.find?_mapItems, Option.isSome_map] at present
  cases target with
  | none => exact Or.inl present
  | some row =>
    dsimp only at present
    rw [KeyedList.find?_upsert] at present
    split at present
    · next same => exact Or.inr (congrArg some same)
    · exact Or.inl present

/-- The target of a commit is a row on record or the publishing output. -/
theorem RowsFrom.of_replace (found : before.gcOperation = some operation)
    (publishing : operation.phase = .publish)
    (replaced :
      after.packCatalog =
        replaceActivePackCatalog before.packCatalog sourcePackKeys target)
    (targeted :
      ∀ row, target = some row →
        HasRow before row.packKey ∨ row.packKey = operation.outputPackKey) :
    RowsFrom before after := by
  intro packKey present
  unfold HasRow at present
  rw [replaced] at present
  rcases hasRow_replaceActivePackCatalog present with old | added
  · exact Or.inl old
  · obtain ⟨row, chosen, rfl⟩ := Option.map_eq_some_iff.mp added
    rcases targeted row chosen with old | output
    · exact Or.inl old
    · exact Or.inr ⟨operation, found, publishing, output⟩

/-! ## The commits -/

/-- The operation that a call publishes for its live claim holder. -/
structure Publishing
    (call : GcCall)
    (operation : GcOperation)
    (current : World) : Prop where
  found : current.repo.gcOperation = some operation
  phase : operation.phase = .publish
  uncommitted : operation.commit = none
  holder :
    ∃ claim, operation.claim = some claim ∧ call.ActsFor claim.id ∧
      current.now < claim.expiresAt

theorem Publishing.of_publishes {claimId : String} (acts : call.ActsFor claimId)
    (found : current.repo.gcOperation = some operation)
    (publishes : operation.publishes claimId current.now = true)
    (uncommitted : operation.commit = none) :
    Publishing call operation current := by
  unfold GcOperation.publishes at publishes
  rw [Bool.and_eq_true, decide_eq_true_iff, Option.any_eq_true] at publishes
  obtain ⟨phase, claim, held, live⟩ := publishes
  rw [Bool.and_eq_true, decide_eq_true_iff, decide_eq_true_iff] at live
  exact ⟨found, phase, uncommitted, claim, held, live.1 ▸ acts, live.2⟩

/-- A write that leaves the operation, the admissions and the rows alone. -/
structure BesideLedger (before after : RepoState) : Prop where
  operation : after.gcOperation = before.gcOperation
  admission : after.gcAdmission = before.gcAdmission
  rows : after.packCatalog = before.packCatalog

theorem Publishing.beside (held : Publishing call operation current)
    (beside : BesideLedger current.repo repo) :
    Publishing call operation (current.withRepo repo) :=
  { held with found := beside.operation.trans held.found }

theorem LedgerWrite.beside (beside : BesideLedger current.repo repo) :
    LedgerWrite call current (current.withRepo repo) :=
  .keep beside.operation beside.admission beside.rows

theorem writes_put_beside {write : RepoState → RepoState}
    (held : Publishing call operation current)
    (beside : BesideLedger current.repo (write current.repo)) :
    Writes honest rely call (put write) (Publishing call operation)
      current := by
  unfold Writes
  rw [ensures_put]
  exact ⟨.beside beside, held.beside beside⟩

theorem writes_transaction_beside
    {body : World → Except RepoFailure (Value × RepoState)}
    (held : Publishing call operation current)
    (beside :
      ∀ value repo, body current = .ok (value, repo) →
        BesideLedger current.repo repo) :
    Writes honest rely call (transaction body) (Publishing call operation)
      current :=
  writes_transaction fun value repo result =>
    ⟨.beside (beside value repo result),
      held.beside (beside value repo result)⟩

theorem clearGcAttempt_beside (repo : RepoState) (token : String) :
    BesideLedger repo (repo.clearGcAttempt token) := by
  unfold RepoState.clearGcAttempt
  dsimp only
  repeat' split
  all_goals exact ⟨rfl, rfl, rfl⟩

theorem clearGcAttemptState_writes (call : GcCall) (token : String)
    (current : World) :
    Writes honest rely call (clearGcAttemptState token) (fun _ => True)
      current := by
  refine writes_transaction fun value repo result => ⟨?_, trivial⟩
  cases result
  exact .beside (clearGcAttempt_beside _ token)

theorem gcCommitFence_beside (repo : RepoState) (now : Nat)
    (args : CommitReachabilityGcArgs) :
    BesideLedger repo (repo.gcCommitFence now args).2 := by
  unfold RepoState.gcCommitFence
  dsimp only
  repeat' split
  all_goals exact ⟨rfl, rfl, rfl⟩

/-- The receipt of the operation that is being published. -/
theorem retainGcCommitReceipt_writes (held : Publishing call operation current)
    (operationId : Option String) (token : String) (commit : GcCommit) :
    Writes honest rely call
      (retainGcCommitReceipt operationId token commit) (fun _ => True)
      current := by
  unfold retainGcCommitReceipt
  split
  · trivial
  · split
    · trivial
    · refine writes_transaction fun value repo result => ⟨?_, trivial⟩
      rw [held.found] at result
      dsimp only at result
      repeat' split at result
      · cases result
      · cases result
        exact .same current
      · cases result
        obtain ⟨claim, owned, acts, live⟩ := held.holder
        exact ⟨rfl, rfl,
          .published operation claim commit operation.coordination held.found
            held.phase held.uncommitted owned acts live rfl rfl
            (.of_catalog rfl)⟩

/-- The end every commit shares: the receipt, then the release. -/
theorem recordGcCommit_writes (held : Publishing call operation current)
    (operationId : Option String) (token : String) (commit : GcCommit) :
    Writes honest rely call
      ((retainGcCommitReceipt operationId token commit).bind fun _ =>
        (clearGcAttemptState token).bind fun _ =>
          Program.done (CommitReachabilityGcResult.committed commit))
      (fun _ => True) current := by
  refine (retainGcCommitReceipt_writes held operationId token commit).bind
    fun _ last _ => ?_
  refine (clearGcAttemptState_writes call token last).bind
    fun _ _ _ => ?_
  trivial

theorem clearCompactionSchedule_writes
    (held : Publishing call operation current) :
    Writes honest rely call clearCompactionSchedule
      (Publishing call operation) current := by
  unfold clearCompactionSchedule
  rw [Program.bind_eq_bind]
  refine Writes.bind (writes_put_beside held ?_) fun _ first kept => ?_
  · exact ⟨rfl, rfl, rfl⟩
  · exact writes_put_beside kept ⟨rfl, rfl, rfl⟩

theorem bumpPacksetVersion_writes (held : Publishing call operation current) :
    Writes honest rely call bumpPacksetVersion (Publishing call operation)
      current := by
  unfold bumpPacksetVersion Writes
  simp only [Program.bind_eq_bind, Program.pure_eq_done,
    Program.ensures_bind, ensures_get, ensures_put, ensures_done]
  exact ⟨.beside ⟨rfl, rfl, rfl⟩, held.beside ⟨rfl, rfl, rfl⟩⟩

theorem writes_get (held : post current) :
    Writes honest rely call get post current :=
  held

theorem writes_done {value : Value} (held : post current) :
    Writes honest rely call (Program.done value) post current :=
  held

/-- After its version a reconciled commit asks for a publication and records
the receipt. -/
theorem reconcileTail_writes (held : Publishing call operation current)
    (args : CommitReachabilityGcArgs) (repo : RepoState) (version : Nat) :
    let committed : GcCommit :=
      ⟨version, args.sourcePackKeys, args.expectedTargetKey⟩
    let record :=
      (retainGcCommitReceipt args.gcOperationId args.token committed).bind
        fun _ =>
          (clearGcAttemptState args.token).bind fun _ =>
            Program.done (CommitReachabilityGcResult.committed committed)
    Writes honest rely call
      ((put fun repo =>
        repo.setGenerationPublicationPending
          (some
            ⟨version,
              (listActivePackCatalog repo.packCatalog).map
                PackCatalogRow.packKey⟩)).bind fun _ =>
        if repo.packsetVersion ≤ args.packsetVersion + 1 then
          clearCompactionSchedule.bind fun _ => record
        else
          record)
      (fun _ => True) current := by
  refine (writes_put_beside held ⟨rfl, rfl, rfl⟩).bind fun _ third held => ?_
  split
  · refine (clearCompactionSchedule_writes held).bind fun _ fourth held => ?_
    exact recordGcCommit_writes held _ _ _
  · exact recordGcCommit_writes held _ _ _

theorem reconcileCommittedGc_writes (held : Publishing call operation current)
    (args : CommitReachabilityGcArgs) :
    Writes honest rely call (reconcileCommittedGc args) (fun _ => True)
      current := by
  unfold reconcileCommittedGc
  simp only [Program.bind_eq_bind, Program.pure_eq_done]
  refine (writes_get held).bind fun repo first held => ?_
  split
  · refine (writes_done held).bind ?_
    intro version second held
    exact reconcileTail_writes held args repo version
  · refine (bumpPacksetVersion_writes held).bind ?_
    intro version second held
    exact reconcileTail_writes held args repo version

/-- A retained source that still matches has a row. -/
theorem retainedSource_hasRow (accepted : repo.gcCommitRefusal now args = none)
    (retained : args.retainedSource = some row) : HasRow repo row.packKey := by
  have matched :
      rowsMatchForCommit args.sourcePacks
        (currentSourceRows repo.packCatalog args.sourcePacks) = true := by
    unfold RepoState.gcCommitRefusal at accepted
    repeat' split at accepted
    all_goals try cases accepted
    next matched => simpa using matched
  have member : row ∈ args.sourcePacks := by
    unfold CommitReachabilityGcArgs.retainedSource at retained
    split at retained
    · exact List.mem_of_find?_eq_some retained
    · cases retained
  exact hasRow_of_rowsMatch matched member

theorem replaceGcCatalog_writes (held : Publishing call operation current)
    (staged :
      ∀ pack, args.stagedPack = some pack →
        pack.packKey = operation.outputPackKey)
    (accepted : current.repo.gcCommitRefusal current.now args = none) :
    Writes honest rely call (replaceGcCatalog args) (fun _ => True)
      current := by
  have targeted :
      ∀ row,
        args.targetPack current.now = some row →
        HasRow current.repo row.packKey ∨
          row.packKey = operation.outputPackKey := by
    intro row chosen
    unfold CommitReachabilityGcArgs.targetPack at chosen
    split at chosen
    · next pack output =>
      cases chosen
      exact Or.inr (staged pack output)
    · exact Or.inl (retainedSource_hasRow accepted chosen)
  unfold replaceGcCatalog
  simp only [Program.bind_eq_bind, Program.pure_eq_done]
  unfold Writes
  rw [Program.ensures_bind, ensures_world]
  generalize args.targetPack current.now = target at targeted ⊢
  rw [Program.ensures_bind, ensures_put]
  refine ⟨⟨rfl, rfl, .kept rfl rfl
    (.of_replace held.found held.phase rfl targeted)⟩, ?_⟩
  have kept :
      Publishing call operation
        (current.withRepo
          (current.repo.setPackCatalog
            (replaceActivePackCatalog current.repo.packCatalog
              args.sourcePackKeys target))) :=
    { held with found := held.found }
  refine Writes.bind (writes_get kept) fun replaced second held => ?_
  refine writes_ite (fun _ => trivial) fun _ => ?_
  refine (bumpPacksetVersion_writes held).bind fun version third held => ?_
  refine (writes_put_beside held ⟨rfl, rfl, rfl⟩).bind fun _ fourth held => ?_
  refine (clearCompactionSchedule_writes held).bind fun _ fifth held => ?_
  exact recordGcCommit_writes held _ _ _

theorem commitHeldGc_writes (held : Publishing call operation current)
    (staged :
      ∀ pack, args.stagedPack = some pack →
        pack.packKey = operation.outputPackKey) :
    Writes honest rely call (commitHeldGc args) (fun _ => True) current := by
  unfold commitHeldGc Writes
  simp only [Program.bind_eq_bind, Program.pure_eq_done]
  rw [Program.ensures_bind, ensures_world]
  split
  · refine (clearGcAttemptState_writes call args.token current).bind
      fun _ _ _ => ?_
    trivial
  · next accepted =>
    split
    · exact recordGcCommit_writes held _ _ _
    · exact replaceGcCatalog_writes held staged accepted

theorem commitReachabilityGcState_writes
    (held : Publishing call operation current)
    (staged :
      ∀ pack, args.stagedPack = some pack →
        pack.packKey = operation.outputPackKey) :
    Writes honest rely call (commitReachabilityGcState args) (fun _ => True)
      current := by
  unfold commitReachabilityGcState
  simp only [Program.bind_eq_bind, Program.pure_eq_done]
  split
  · trivial
  · refine (writes_get held).bind fun repo first held => ?_
    split
    · exact reconcileCommittedGc_writes held args
    · refine Writes.bind (writes_transaction_beside held ?_)
        fun fence second held => ?_
      · intro value repo result
        have written := congrArg Prod.snd (Except.ok.inj result)
        subst written
        exact gcCommitFence_beside _ _ args
      · cases fence with
        | some reason => trivial
        | none => exact commitHeldGc_writes held staged

/-- The target of a coordinated commit is a row or the output. -/
theorem targetRow_hasRow
    (accepted :
      repo.coordinatedRefusal now operation source coordination closure =
        none) (chosen : operation.targetRow source now = some row) :
    HasRow repo row.packKey ∨ row.packKey = operation.outputPackKey := by
  have matched :
      rowsMatchForCommit source.sourcePacks
        (currentSourceRows repo.packCatalog source.sourcePacks) = true := by
    unfold RepoState.coordinatedRefusal at accepted
    repeat' split at accepted
    all_goals try cases accepted
    next matched _ _ => simpa using matched
  unfold GcOperation.targetRow at chosen
  split at chosen
  · cases chosen
    exact Or.inr rfl
  · exact Or.inl
      (hasRow_of_rowsMatch matched (List.mem_of_find?_eq_some chosen))

/-- What the transaction of a coordinated commit leaves behind. -/
theorem publishGc_repo (found : repo.gcOperation = some operation)
    (publishing : operation.phase = .publish)
    (accepted :
      repo.coordinatedRefusal now operation source coordination closure =
        none) :
    let published := repo.publishGc now operation source coordination
    published.2.gcOperation =
        some (operation.published coordination published.1 now) ∧
      published.2.gcAdmission = repo.gcAdmission ∧
      RowsFrom repo published.2 := by
  refine ⟨rfl, ?_, ?_⟩
  · unfold RepoState.publishGc
    dsimp only
    split <;> rfl
  · unfold RepoState.publishGc
    dsimp only
    split
    · exact .of_replace found publishing rfl
        fun row chosen => targetRow_hasRow accepted chosen
    · exact .of_catalog rfl

theorem commitCoordinatedGc_writes (call : GcCall)
    (operationId claimId : String) (acts : call.ActsFor claimId)
    (current : World) :
    Writes honest rely call (commitCoordinatedGc operationId claimId)
      (fun _ => True) current := by
  refine writes_transaction fun value repo result => ⟨?_, trivial⟩
  dsimp only at result
  split at result
  · cases result
    exact .same current
  · next operation found =>
    split at result
    · cases result
      exact .same current
    · split at result
      · cases result
        exact .same current
      · next uncommitted =>
        split at result
        · cases result
          exact .same current
        · split at result
          · next source coordination closure _ _ _ =>
            split at result
            · cases result
              exact .same current
            · next ready =>
              split at result
              · cases result
                exact .same current
              · next accepted =>
                have written := congrArg Prod.snd (Except.ok.inj result)
                subst written
                have publishes :
                    operation.publishes claimId current.now = true := by
                  simp only [Bool.or_eq_true, not_or, Bool.not_eq_true',
                    Bool.not_eq_false] at ready
                  exact ready.1.1
                have held :=
                  Publishing.of_publishes acts found publishes uncommitted
                obtain ⟨claim, owned, acting, live⟩ := held.holder
                obtain ⟨receipt, admission, rows⟩ :=
                  publishGc_repo found held.phase accepted
                exact ⟨rfl, rfl,
                  .published operation claim _ _ found held.phase
                    uncommitted owned acting live receipt admission rows⟩
          · cases result
            exact .same current

theorem helpPreparedGcPublication_writes (current : World) :
    Writes honest rely .help helpPreparedGcPublication (fun _ => True)
      current := by
  unfold helpPreparedGcPublication Writes
  simp only [Program.bind_eq_bind, Program.pure_eq_done]
  rw [Program.ensures_bind, ensures_world]
  split
  · trivial
  · split
    · trivial
    · next claimId _ =>
      refine writes_ite (fun _ => ?_) fun _ => trivial
      refine (commitCoordinatedGc_writes .help _ claimId trivial current).bind
        fun _ _ _ => ?_
      trivial

theorem armGcPublication_writes (call : GcCall) (operationId claimId : String)
    (current : World) :
    Writes honest rely call (armGcPublication operationId claimId)
      (fun _ => True) current := by
  refine writes_transaction fun value repo result => ⟨?_, trivial⟩
  split at result
  · cases result
    exact .same current
  · next operation found =>
    split at result
    · cases result
      exact .same current
    · next coordination _ =>
      split at result
      · cases result
        exact ⟨rfl, rfl,
          .armed operation
            { coordination with publicationClaimId := some claimId }
            found rfl rfl rfl⟩
      · cases result
        exact .same current

theorem stageGcOutput_writes (held : Publishing call operation current)
    (source : GcSnapshot) :
    Writes honest rely call (stageGcOutput operation source)
      (Publishing call operation) current := by
  unfold stageGcOutput
  simp only [Program.bind_eq_bind, Program.pure_eq_done]
  split
  · exact held
  · refine Writes.bind (writes_transaction_beside held ?_)
      fun _ _ held => writes_done held
    intro value repo result
    dsimp only at result
    repeat' split at result
    all_goals
      cases result
      exact ⟨rfl, rfl, rfl⟩

theorem commitGcOperation_writes (operationId claimId : String)
    (current : World) :
    Writes honest rely (.commit operationId claimId)
      (commitGcOperation operationId claimId) (fun _ => True) current := by
  unfold commitGcOperation Writes
  simp only [Program.bind_eq_bind, Program.pure_eq_done]
  rw [Program.ensures_bind, ensures_world]
  split
  · trivial
  · next operation found =>
    refine writes_ite (fun _ => trivial) fun _ => ?_
    split
    · trivial
    · next uncommitted =>
      split
      · trivial
      · next source _ =>
        refine writes_ite (fun _ => trivial) fun ready => ?_
        have publishes :
            operation.publishes claimId current.now = true := by
          simp only [Bool.or_eq_true, not_or, Bool.not_eq_true',
            Bool.not_eq_false] at ready
          exact ready.2
        have held : Publishing (.commit operationId claimId) operation
            current :=
          .of_publishes rfl found publishes uncommitted
        refine (stageGcOutput_writes held source).bind
          fun staged second held => ?_
        refine writes_ite (fun _ => ?_) fun _ => trivial
        refine writes_ite (fun _ => ?_) fun _ => ?_
        · refine (armGcPublication_writes (.commit operationId claimId)
            operationId claimId second).bind
            fun _ third _ => ?_
          exact commitCoordinatedGc_writes (.commit operationId claimId)
            operationId claimId rfl third
        · refine commitReachabilityGcState_writes held ?_
          intro pack output
          obtain ⟨result, _, rfl⟩ := Option.map_eq_some_iff.mp output
          rfl

theorem resumeGcFromAlarm_writes (current : World) :
    Writes honest rely .alarm resumeGcFromAlarm (fun _ => True)
      current := by
  refine writes_transaction fun value repo result => ⟨?_, trivial⟩
  dsimp only at result
  repeat' split at result
  all_goals
    cases result
    exact .keep rfl rfl rfl

/-- Every write of every call is one of the ledger changes. -/
theorem GcCall.writes (call : GcCall) (current : World) :
    Writes honest rely call call.body (fun _ => True) current := by
  cases call with
  | register args =>
    exact (registerGcOperation_writes args current).bind
      fun _ _ _ => trivial
  | claim operationId claimId =>
    exact (claimGcOperation_writes operationId claimId current).bind
      fun _ _ _ => trivial
  | progress operationId claimId reported =>
    exact
      (recordGcProgress_writes operationId claimId reported current).bind
        fun _ _ _ => trivial
  | commit operationId claimId =>
    exact (commitGcOperation_writes operationId claimId current).bind
      fun _ _ _ => trivial
  | help =>
    exact (helpPreparedGcPublication_writes current).bind
      fun _ _ _ => trivial
  | discardKeys operationId claimId => trivial
  | alarm =>
    exact (resumeGcFromAlarm_writes current).bind fun _ _ _ => trivial

end Programs

end GitOnCloudflare.Gc
