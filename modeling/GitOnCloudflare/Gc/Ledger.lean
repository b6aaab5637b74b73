import GitOnCloudflare.Gc.LedgerRecord

/-!
# The collection ledger over whole runs

Admissions, claims, progress, commits, helped publications and alarms in any
order, at any time and cut anywhere.  The ledger invariant holds in every
reachable state, every write obeys the claim law, and a discarded output
never gets a catalog row.
-/

namespace GitOnCloudflare.Gc

open Foundations
open Repo

/-- What the ledger satisfies in every state. -/
structure LedgerSound (current : World) : Prop where
  admitted :
    ∀ operation, current.repo.gcOperation = some operation →
      operation.id ∈ current.repo.gcAdmission
  distinct : current.repo.gcAdmission.Nodup
  record :
    ∀ operation, current.repo.gcOperation = some operation →
      RecordSound current.settings.doId operation

/-- An admitted operation whose output may be deleted: it is given up and its
output has no row. -/
structure Discarded (current : World) (operationId : String) : Prop where
  admitted : operationId ∈ current.repo.gcAdmission
  discarded :
    ∀ operation, current.repo.gcOperation = some operation →
      operation.id = operationId → IsDiscarded operation
  absent :
    ¬HasRow current.repo (gcOutputPackKey current.settings.doId operationId)

/-- What a later state keeps of the ledger. -/
structure LedgerKeeps (before after : World) : Prop where
  settings : after.settings = before.settings
  admissions : before.repo.gcAdmission <+: after.repo.gcAdmission
  operation :
    ∀ operation, before.repo.gcOperation = some operation →
      ∃ later, after.repo.gcOperation = some later ∧
        (Succeeds operation later ∨
          later.id ∉ before.repo.gcAdmission)
  discarded :
    ∀ operationId, Discarded before operationId →
      Discarded after operationId

/-- How a write may change the execution claim of an operation. -/
inductive ClaimChange
    (call : GcCall)
    (now : Nat)
    (operation later : GcOperation) : Prop where
  | same (claim : later.claim = operation.claim)
  | issued
      (claimId : String)
      (called : call = .claim operation.id claimId)
      (claim : later.claim.map GcClaim.id = some claimId)
      (waited :
        ∀ old, operation.claim = some old → old.safeRetryAt ≤ now)
  | givenUp
      (old : GcClaim)
      (held : operation.claim = some old)
      (acts : call.ActsFor old.id)
      (live : now < old.expiresAt)
      (claim : later.claim = none)

/-- The claim law: an operation keeps its claim, gets a new one once the old
one may be retried, or its holder gives it up.  A new operation has none. -/
def ClaimLaw (call : GcCall) (before after : World) : Prop :=
  ∀ later, after.repo.gcOperation = some later →
    (∃ operation, before.repo.gcOperation = some operation ∧
        operation.id = later.id ∧
        ClaimChange call before.now operation later) ∨
      later.id ∉ before.repo.gcAdmission ∧ later.claim = none

theorem LedgerKeeps.refl (current : World) : LedgerKeeps current current :=
  ⟨rfl, List.prefix_rfl,
    fun operation found => ⟨operation, found, Or.inl (.refl operation)⟩,
    fun _ held => held⟩

theorem LedgerKeeps.trans {first second third : World}
    (before : LedgerKeeps first second) (after : LedgerKeeps second third) :
    LedgerKeeps first third where
  settings := after.settings.trans before.settings
  admissions := before.admissions.trans after.admissions
  discarded := fun id held => after.discarded id (before.discarded id held)
  operation := by
    intro operation found
    obtain ⟨middle, foundMiddle, kept⟩ := before.operation operation found
    obtain ⟨last, foundLast, keptLast⟩ := after.operation middle foundMiddle
    refine ⟨last, foundLast, ?_⟩
    rcases keptLast with still | replaced
    · rcases kept with succeeds | fresh
      · exact Or.inl (succeeds.trans still)
      · rw [← still.id] at fresh
        exact Or.inr fresh
    · exact Or.inr fun known => replaced (before.admissions.subset known)

/-- Operations with different ids write different outputs. -/
theorem gcOutputPackKey_injective (doId : String) {first second : String}
    (same : gcOutputPackKey doId first = gcOutputPackKey doId second) :
    first = second := by
  unfold gcOutputPackKey r2PackKey at same
  have texts := congrArg String.toList same
  simp only [String.toList_append, List.append_assoc] at texts
  have named :=
    List.append_cancel_left (List.append_cancel_left
      (List.append_cancel_left texts))
  exact String.ext (List.append_cancel_right named)

/-! ## One write -/

section OneWrite

variable {call : GcCall}
variable {before after : World}

/-- A discarded output stays without a row, and stays discarded. -/
theorem Discarded.kept {operationId : String} (sound : LedgerSound before)
    (settings : after.settings = before.settings)
    (admissions : before.repo.gcAdmission <+: after.repo.gcAdmission)
    (succession :
      ∀ later, after.repo.gcOperation = some later →
        (∃ operation, before.repo.gcOperation = some operation ∧
          Succeeds operation later) ∨
          later.id ∉ before.repo.gcAdmission)
    (rows : RowsFrom before.repo after.repo)
    (held : Discarded before operationId) : Discarded after operationId := by
  refine ⟨admissions.subset held.admitted, ?_, ?_⟩
  · intro later found same
    rcases succession later found with ⟨operation, old, succeeds⟩ | fresh
    · exact succeeds.discarded
        (held.discarded operation old (succeeds.id.symm.trans same))
    · rw [same] at fresh
      exact absurd held.admitted fresh
  · intro present
    rw [settings] at present
    rcases rows _ present with old | ⟨operation, found, publishing, output⟩
    · exact held.absent old
    · have same : operation.id = operationId := by
        refine gcOutputPackKey_injective before.settings.doId ?_
        rw [output, (sound.record operation found).output]
      have discarded := held.discarded operation found same
      unfold IsDiscarded at discarded
      rw [publishing] at discarded
      simp at discarded

/-- A write that changes the one record into a successor. -/
theorem keeps_of_succeeds {operation later : GcOperation}
    (sound : LedgerSound before) (settings : after.settings = before.settings)
    (found : before.repo.gcOperation = some operation)
    (written : after.repo.gcOperation = some later)
    (admission : after.repo.gcAdmission = before.repo.gcAdmission)
    (rows : RowsFrom before.repo after.repo)
    (record : RecordSound before.settings.doId later)
    (succeeds : Succeeds operation later) :
    LedgerSound after ∧ LedgerKeeps before after := by
  have admissions : before.repo.gcAdmission <+: after.repo.gcAdmission := by
    rw [admission]
  constructor
  · refine ⟨?_, ?_, ?_⟩
    · intro other present
      cases written.symm.trans present
      rw [admission, succeeds.id]
      exact sound.admitted operation found
    · rw [admission]
      exact sound.distinct
    · intro other present
      cases written.symm.trans present
      rw [settings]
      exact record
  · refine ⟨settings, admissions, ?_, ?_⟩
    · intro other present
      cases found.symm.trans present
      exact ⟨later, written, Or.inl succeeds⟩
    · intro operationId held
      refine held.kept sound settings admissions ?_ rows
      intro other present
      cases written.symm.trans present
      exact Or.inl ⟨operation, found, succeeds⟩

/-- A write that leaves the record as it is. -/
theorem keeps_of_same (sound : LedgerSound before)
    (settings : after.settings = before.settings)
    (same : after.repo.gcOperation = before.repo.gcOperation)
    (admission : after.repo.gcAdmission = before.repo.gcAdmission)
    (rows : RowsFrom before.repo after.repo) :
    LedgerSound after ∧ LedgerKeeps before after := by
  cases found : before.repo.gcOperation with
  | some operation =>
    exact keeps_of_succeeds sound settings found (same.trans found)
      admission rows (sound.record operation found) (.refl operation)
  | none =>
    have vacant : after.repo.gcOperation = none := same.trans found
    have admissions :
        before.repo.gcAdmission <+: after.repo.gcAdmission := by
      rw [admission]
    refine ⟨⟨?_, ?_, ?_⟩, ⟨settings, admissions, ?_, ?_⟩⟩
    · simp [vacant]
    · rw [admission]
      exact sound.distinct
    · simp [vacant]
    · simp [found]
    · intro operationId held
      refine held.kept sound settings admissions ?_ rows
      simp [vacant]

/-- An admission puts a new record in the place of an ended one. -/
theorem keeps_of_admitted {args : RegisterGcArgs} (sound : LedgerSound before)
    (settings : after.settings = before.settings)
    (fresh : args.operationId ∉ before.repo.gcAdmission)
    (written :
      after.repo.gcOperation =
        some (args.operation before.settings.doId before.now))
    (admission :
      after.repo.gcAdmission =
        before.repo.gcAdmission ++ [args.operationId])
    (rows : after.repo.packCatalog = before.repo.packCatalog) :
    LedgerSound after ∧ LedgerKeeps before after := by
  have admissions : before.repo.gcAdmission <+: after.repo.gcAdmission := by
    rw [admission]
    exact List.prefix_append _ _
  constructor
  · refine ⟨?_, ?_, ?_⟩
    · intro other present
      cases written.symm.trans present
      rw [admission]
      exact List.mem_append_right _ List.mem_cons_self
    · rw [admission]
      rw [← List.concat_eq_append]
      exact sound.distinct.concat fresh
    · intro other present
      cases written.symm.trans present
      rw [settings]
      exact admitted_sound args before.settings.doId before.now
  · refine ⟨settings, admissions, ?_, ?_⟩
    · intro _ _
      exact ⟨_, written, Or.inr fresh⟩
    · intro operationId held
      refine held.kept sound settings admissions ?_ (.of_catalog rows)
      intro other present
      cases written.symm.trans present
      exact Or.inr fresh

/-- Every ledger write keeps the invariant, the receipts and identities, and
the claim law. -/
theorem LedgerWrite.sound (write : LedgerWrite call before after)
    (sound : LedgerSound before) :
    LedgerSound after ∧ LedgerKeeps before after ∧
      ClaimLaw call before after := by
  obtain ⟨settings, now, change⟩ := write
  rw [← and_assoc]
  cases change with
  | kept same admission rows =>
    refine ⟨keeps_of_same sound settings same admission rows, ?_⟩
    intro later present
    exact Or.inl ⟨later, same.symm.trans present, rfl, .same rfl⟩
  | admitted args free fresh written admission rows =>
    refine ⟨keeps_of_admitted sound settings fresh written admission rows,
      ?_⟩
    intro later present
    cases written.symm.trans present
    exact Or.inr ⟨fresh, rfl⟩
  | claimed operation base claimId called found running waited based written
      admission rows =>
      obtain ⟨baseSound, baseSucceeds⟩ :=
        claimBase_sound (sound.record operation found) based
      obtain ⟨record, succeeds⟩ :=
        issueClaim_sound baseSound (based.running running) claimId before.now
      refine ⟨keeps_of_succeeds sound settings found written admission
        (.of_catalog rows) record (baseSucceeds.trans succeeds), ?_⟩
      intro later present
      cases written.symm.trans present
      exact Or.inl
        ⟨operation, found, (baseSucceeds.trans succeeds).id.symm,
          .issued claimId called rfl waited⟩
  | progressed operation moved claim reported called found held live moves
      written admission rows =>
      have running : isGcTerminal operation = false := by
        rw [← Bool.not_eq_true]
        intro ended
        have free := (sound.record operation found).ended ended
        rw [held] at free
        cases free
      have move :=
        progress_moved (sound.record operation found) running moves
      obtain ⟨record, succeeds, claims⟩ := settle_sound move before.now
      refine ⟨keeps_of_succeeds sound settings found written admission
        (.of_catalog rows) record succeeds, ?_⟩
      intro later present
      cases written.symm.trans present
      refine Or.inl ⟨operation, found, succeeds.id.symm, ?_⟩
      rcases claims with same | dropped
      · exact .same same
      · refine .givenUp claim held ?_ live dropped
        rw [called]
        rfl
  | armed operation coordination found written admission rows =>
    refine ⟨keeps_of_succeeds sound settings found written admission
      (.of_catalog rows) { sound.record operation found with }
      { Succeeds.refl operation with }, ?_⟩
    intro later present
    cases written.symm.trans present
    exact Or.inl ⟨operation, found, rfl, .same rfl⟩
  | published operation claim commit coordination found publishing
      uncommitted held acts live written admission rows =>
      obtain ⟨record, succeeds⟩ :=
        retainReceipt_sound (sound.record operation found) publishing
          uncommitted commit before.now
      refine ⟨keeps_of_succeeds sound settings found written admission rows
        { record with } { succeeds with }, ?_⟩
      intro later present
      cases written.symm.trans present
      exact Or.inl
        ⟨operation, found, rfl, .givenUp claim held acts live rfl⟩

end OneWrite

/-! ## Runs -/

/-- What else may happen to the repository: any change that leaves the record
of the operation alone up to its annotations, and that adds no row under the
output key of an admitted operation. -/
structure GcEnvironment (before after : World) : Prop where
  settings : after.settings = before.settings
  admission : after.repo.gcAdmission = before.repo.gcAdmission
  vacant : before.repo.gcOperation = none → after.repo.gcOperation = none
  operation :
    ∀ operation, before.repo.gcOperation = some operation →
      ∃ coordination qualification,
        after.repo.gcOperation =
          some
            { operation with
              coordination := coordination
              qualification := qualification }
  rows :
    ∀ operationId ∈ before.repo.gcAdmission,
      HasRow after.repo
          (gcOutputPackKey before.settings.doId operationId) →
        HasRow before.repo
          (gcOutputPackKey before.settings.doId operationId)

variable {before after current : World} {operationId : String}

theorem Discarded.environment (moved : GcEnvironment before after)
    (held : Discarded before operationId) : Discarded after operationId := by
  refine ⟨?_, ?_, ?_⟩
  · rw [moved.admission]
    exact held.admitted
  · intro later found same
    cases present : before.repo.gcOperation with
    | none => exact absurd (moved.vacant present ▸ found) nofun
    | some operation =>
      obtain ⟨coordination, qualification, written⟩ :=
        moved.operation operation present
      cases written.symm.trans found
      exact held.discarded operation present same
  · intro present
    rw [moved.settings] at present
    exact held.absent (moved.rows operationId held.admitted present)

theorem GcEnvironment.sound (moved : GcEnvironment before after)
    (sound : LedgerSound before) :
    LedgerSound after ∧ LedgerKeeps before after := by
  have kept :
      ∀ later, after.repo.gcOperation = some later →
        ∃ operation, before.repo.gcOperation = some operation ∧
          Succeeds operation later ∧
          RecordSound before.settings.doId later := by
    intro later found
    cases present : before.repo.gcOperation with
    | none => exact absurd (moved.vacant present ▸ found) nofun
    | some operation =>
      obtain ⟨coordination, qualification, written⟩ :=
        moved.operation operation present
      cases written.symm.trans found
      exact ⟨operation, rfl, { Succeeds.refl operation with },
        (sound.record operation present).annotate _ _⟩
  refine ⟨⟨?_, ?_, ?_⟩, ⟨moved.settings, ?_, ?_, ?_⟩⟩
  · intro later found
    obtain ⟨operation, present, succeeds, _⟩ := kept later found
    rw [moved.admission, succeeds.id]
    exact sound.admitted operation present
  · rw [moved.admission]
    exact sound.distinct
  · intro later found
    rw [moved.settings]
    obtain ⟨_, _, _, record⟩ := kept later found
    exact record
  · rw [moved.admission]
  · intro operation present
    obtain ⟨coordination, qualification, written⟩ :=
      moved.operation operation present
    exact ⟨_, written, Or.inl { Succeeds.refl operation with }⟩
  · intro operationId held
    exact held.environment moved

/-- The calls of the ledger, at any time and in any order. -/
def gcRuntime :
    Runtime World R2Request R2Answer RepoFailure GcCall GcReply where
  body := GcCall.body
  environment := GcEnvironment
  honest := AnyAnswer
  admits := fun _ _ => True
  resumes := fun _ _ => True
  enter := fun _ current => current
  leave := fun _ _ current => current

/-- The ledger calls keep the ledger. -/
def gcContract : gcRuntime.Contract where
  holds := LedgerSound
  moves := LedgerKeeps
  guarantee := ClaimLaw
  refl := LedgerKeeps.refl
  trans := LedgerKeeps.trans
  environment := fun moved sound => moved.sound sound
  enters := fun _ sound => ⟨sound, .refl _⟩
  calls := by
    intro call current _ sound
    have written :
        call.body.Ensures AnyAnswer (LedgerWrite call)
          (fun _ _ => True) (fun _ _ => True) (fun _ _ => True) current :=
      call.writes current
    refine Program.Ensures.mono (written.carry LedgerSound sound ?_ ?_)
      (fun _ _ kept => kept) ?_ ?_
    · intro before after held write
      exact ⟨(write.sound held).1, write.sound held⟩
    · intro before later allowed
      exact ⟨allowed.1, trivial⟩
    · exact fun _ last held => ⟨held.1, .refl last⟩
    · exact fun _ last held => ⟨held.1, .refl last⟩

/-- A ledger without an operation and without admissions. -/
def FreshLedger (current : World) : Prop :=
  current.repo.gcOperation = none ∧ current.repo.gcAdmission = []

theorem FreshLedger.sound (fresh : FreshLedger current) :
    LedgerSound current := by
  obtain ⟨vacant, unadmitted⟩ := fresh
  refine ⟨?_, ?_, ?_⟩
  · simp [vacant]
  · rw [unadmitted]
    exact List.nodup_nil
  · simp [vacant]

/-- The keys that may be deleted are those of a discarded output. -/
theorem discarded_of_gcDiscardKeys {claimId : String} {keys : List String}
    (sound : LedgerSound current)
    (answered : current.gcDiscardKeys operationId claimId = some keys) :
    gcOutputPackKey current.settings.doId operationId ∈ keys ∧
      Discarded current operationId := by
  unfold World.gcDiscardKeys at answered
  dsimp only at answered
  split at answered
  · cases answered
  · next operation found =>
    split at answered
    · cases answered
    · next ready =>
      split at answered
      · cases answered
      · next rowless =>
        split at answered
        · cases answered
        · cases answered
          simp only [Bool.or_eq_true, not_or, decide_eq_true_iff,
            not_not] at ready
          obtain ⟨⟨⟨⟨⟨_, same⟩, discarding⟩, _⟩, _⟩, _⟩ := ready
          have output := (sound.record operation found).output
          rw [same] at output
          refine ⟨?_, ?_, ?_, ?_⟩
          · rw [← output]
            simp [GcOperation.discardKeys]
          · rw [← same]
            exact sound.admitted operation found
          · intro other present _
            cases found.symm.trans present
            simp [IsDiscarded, discarding]
          · rw [← output]
            exact rowless

/-- The laws of the ledger at a reachable configuration. -/
structure LedgerLaws
    (config : Config World R2Request R2Answer RepoFailure GcCall GcReply) :
    Prop where
  /-- Later states keep the receipt, the identities and an ended phase of the
  operation, or hold an operation that was not admitted before. -/
  succession :
    ∀ next, gcRuntime.Later config next →
      ∀ operation, config.state.repo.gcOperation = some operation →
        ∃ later, next.state.repo.gcOperation = some later ∧
          (Succeeds operation later ∨
            later.id ∉ config.state.repo.gcAdmission)
  /-- No id is admitted twice, and no admission is forgotten. -/
  admissions : config.state.repo.gcAdmission.Nodup
  admissionsKept :
    ∀ next, gcRuntime.Later config next →
      config.state.repo.gcAdmission <+: next.state.repo.gcAdmission
  operationAdmitted :
    ∀ operation, config.state.repo.gcOperation = some operation →
      operation.id ∈ config.state.repo.gcAdmission
  /-- Every write of every call obeys the claim law. -/
  claims :
    ∀ event next call, gcRuntime.Step config event next →
      event.call = some call →
        List.IsChain (ClaimLaw call) (event.origin :: event.writes)
  /-- Keys are handed out for deletion only when the output has no row now
  and none later. -/
  discards :
    ∀ operationId claimId keys,
      config.state.gcDiscardKeys operationId claimId = some keys →
        let output :=
          gcOutputPackKey config.state.settings.doId operationId
        output ∈ keys ∧ ¬HasRow config.state.repo output ∧
          ∀ next, gcRuntime.Later config next →
            ¬HasRow next.state.repo output
  /-- What is about to be published is consistent. -/
  publishing :
    ∀ operation, config.state.repo.gcOperation = some operation →
      operation.phase = .publish → ConsistentOutput operation

/-- The ledger laws hold at every point of every run from a fresh ledger. -/
theorem gc_ledger_laws {initial : World}
    {config : Config World R2Request R2Answer RepoFailure GcCall GcReply}
    (fresh : FreshLedger initial) (reached : gcRuntime.Reachable initial config) :
    LedgerLaws config := by
  have start : gcContract.holds initial := fresh.sound
  have sound : LedgerSound config.state :=
    gcContract.reachable_holds start reached
  have keeps :
      ∀ next, gcRuntime.Later config next →
        LedgerKeeps config.state next.state :=
    fun next later => (gcContract.later_moves start reached later).2
  refine
    { succession := fun next later => (keeps next later).operation
      admissions := sound.distinct
      admissionsKept := fun next later => (keeps next later).admissions
      operationAdmitted := sound.admitted
      claims := ?_
      discards := ?_
      publishing := ?_ }
  · intro event next call stepped performed
    exact gcContract.reachable_guarantee start reached stepped performed
  · intro operationId claimId keys answered
    obtain ⟨output, discarded⟩ :=
      discarded_of_gcDiscardKeys sound answered
    refine ⟨output, discarded.absent, ?_⟩
    intro next later
    have kept := keeps next later
    have absent := (kept.discarded operationId discarded).absent
    rwa [kept.settings] at absent
  · intro operation found publishing
    exact (sound.record operation found).publishes publishing

/-- The laws at a repository that has just admitted an operation. -/
theorem gc_ledger_laws_admitted :
    ∃ config, config.state.repo.gcAdmission = ["g1"] ∧ LedgerLaws config := by
  let initial : World := ⟨{}, 0, {}⟩
  let admitted : GcCall := .register ⟨"r", "g1", none⟩
  refine ⟨gcRuntime.settle admitted [] (admitted.body.segment initial), ?_,
    ?_⟩
  · decide +kernel
  · have fresh : FreshLedger initial := ⟨rfl, rfl⟩
    exact gc_ledger_laws fresh
      (.step .initial (.start ⟨initial, []⟩ admitted trivial))

end GitOnCloudflare.Gc
