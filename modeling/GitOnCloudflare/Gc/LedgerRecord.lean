import GitOnCloudflare.Gc.LedgerWrites

/-!
# The well-formed operation record

What the record of a collection satisfies in every state, and what one
change keeps of it: its receipt, the identities of its outputs and, once the
operation has ended, its phase.
-/

namespace GitOnCloudflare.Gc

open Foundations
open Repo

/-- The phases in which unpublished work is over. -/
def IsDiscarded (operation : GcOperation) : Prop :=
  operation.phase ∈ [GcPhase.discard, .blocked]

/-- The output of the native processor is the planned rewrite of the planned
closure. -/
def BuiltOutput (operation : GcOperation) (closure : GcClosure) : Prop :=
  ∃ rewrite result,
    operation.rewrite = some rewrite ∧
      operation.rewriteIntent = some rewrite.toGcRewriteIdentity ∧
      operation.nativeResult = some result ∧
      result.fits operation rewrite closure = true

/-- Nothing was built: a source pack is kept, or nothing is reachable. -/
def KeptOutput (operation : GcOperation) (closure : GcClosure) : Prop :=
  operation.rewriteIntent = none ∧ operation.rewrite = none ∧
    operation.nativeResult = none ∧
    (closure.objectCount = 0 ∨
      truthy operation.retainedPackKey = true ∧
        operation.retains operation.retainedPackKey = true)

/-- The identities of an operation that is publishing agree. -/
def ConsistentOutput (operation : GcOperation) : Prop :=
  ∃ closure, operation.closure = some closure ∧
    (BuiltOutput operation closure ∨ KeptOutput operation closure)

/-- What every operation record satisfies. -/
structure RecordSound (doId : String) (operation : GcOperation) : Prop where
  output : operation.outputPackKey = gcOutputPackKey doId operation.id
  ended : isGcTerminal operation = true → operation.claim = none
  planned : operation.closure.isSome = true → operation.phase ≠ .queued
  intended :
    operation.rewriteIntent.isSome = true → operation.closure.isSome = true
  rewritten :
    ∀ rewrite, operation.rewrite = some rewrite →
      operation.rewriteIntent = some rewrite.toGcRewriteIdentity ∧
        operation.phase ∉ [GcPhase.queued, .rewrite]
  built :
    operation.nativeResult.isSome = true →
      (∃ closure, operation.closure = some closure ∧
        BuiltOutput operation closure) ∧
        operation.phase ∉ [GcPhase.queued, .rewrite, .index]
  publishes : operation.phase = .publish → ConsistentOutput operation
  receipt :
    operation.commit.isSome = true ↔
      operation.phase ∈ [GcPhase.reclaim, .complete]

/-- What a later record of the same operation keeps of an earlier one. -/
structure Succeeds (operation later : GcOperation) : Prop where
  id : later.id = operation.id
  commit :
    ∀ commit, operation.commit = some commit → later.commit = some commit
  closure :
    ∀ closure, operation.closure = some closure →
      later.closure = some closure
  rewriteIntent :
    ∀ intent, operation.rewriteIntent = some intent →
      later.rewriteIntent = some intent
  rewrite :
    ∀ rewrite, operation.rewrite = some rewrite →
      later.rewrite = some rewrite
  nativeResult :
    ∀ result, operation.nativeResult = some result →
      later.nativeResult = some result
  ended : isGcTerminal operation = true → later.phase = operation.phase
  discarded : IsDiscarded operation → IsDiscarded later

namespace Succeeds

theorem refl (operation : GcOperation) : Succeeds operation operation :=
  ⟨rfl, fun _ held => held, fun _ held => held, fun _ held => held,
    fun _ held => held, fun _ held => held, fun _ => rfl, fun held => held⟩

theorem trans {first second third : GcOperation}
    (before : Succeeds first second) (after : Succeeds second third) :
    Succeeds first third where
  id := after.id.trans before.id
  commit := fun _ held => after.commit _ (before.commit _ held)
  closure := fun _ held => after.closure _ (before.closure _ held)
  rewriteIntent :=
    fun _ held => after.rewriteIntent _ (before.rewriteIntent _ held)
  rewrite := fun _ held => after.rewrite _ (before.rewrite _ held)
  nativeResult :=
    fun _ held => after.nativeResult _ (before.nativeResult _ held)
  ended := by
    intro terminal
    have kept := before.ended terminal
    have still : isGcTerminal second = true := by
      unfold isGcTerminal at terminal ⊢
      rwa [kept]
    rw [after.ended still, kept]
  discarded := fun held => after.discarded (before.discarded held)

end Succeeds

variable {operation moved : GcOperation} {doId : String} {now : Nat}
  {reported : GcProgress}

/-- Changing the annotations of a record changes nothing of this. -/
theorem RecordSound.annotate (sound : RecordSound doId operation)
    (coordination : Option GcCoordination)
    (qualification : Option GcQualificationState) :
    RecordSound doId
      { operation with
        coordination := coordination
        qualification := qualification } :=
  { sound with }

/-! ## Admission -/

theorem admitted_sound (args : RegisterGcArgs) (doId : String) (now : Nat) :
    RecordSound doId (args.operation doId now) := by
  constructor
  · rfl
  all_goals simp [RegisterGcArgs.operation, isGcTerminal]

/-! ## Claims -/

/-- An operation that has not been published has no receipt. -/
theorem RecordSound.uncommitted (sound : RecordSound doId operation)
    (open_ : operation.phase ∉ [GcPhase.reclaim, .complete]) :
    operation.commit = none := by
  rw [← Option.not_isSome_iff_eq_none, sound.receipt]
  exact open_

/-- Nothing is intended before the closure is planned. -/
theorem RecordSound.unintended (sound : RecordSound doId operation)
    (unplanned : operation.closure = none) :
    operation.rewriteIntent = none := by
  rw [← Option.not_isSome_iff_eq_none]
  intro intended
  have planned := sound.intended intended
  rw [unplanned] at planned
  cases planned

/-- Nothing is rewritten while the rewrite is running. -/
theorem RecordSound.unwritten (sound : RecordSound doId operation)
    (early : operation.phase ∈ [GcPhase.queued, .rewrite]) :
    operation.rewrite = none := by
  rw [Option.eq_none_iff_forall_ne_some]
  intro rewrite written
  exact (sound.rewritten rewrite written).2 early

/-- Nothing is built before the index is. -/
theorem RecordSound.unbuilt (sound : RecordSound doId operation)
    (early : operation.phase ∈ [GcPhase.queued, .rewrite, .index]) :
    operation.nativeResult = none := by
  rw [← Option.not_isSome_iff_eq_none]
  intro built
  exact (sound.built built).2 early

theorem giveUp_sound (sound : RecordSound doId operation)
    (unpublished : operation.phase ∈ [GcPhase.queued, .rewrite, .index])
    (reason : GcBlockedReason) (now : Nat) :
    RecordSound doId (operation.giveUp reason now) ∧
      Succeeds operation (operation.giveUp reason now) := by
  have uncommitted : operation.commit = none := by
    refine sound.uncommitted ?_
    intro published
    simp only [List.mem_cons, List.not_mem_nil, or_false] at unpublished published
    rcases published with phase | phase <;> simp [phase] at unpublished
  have running : isGcTerminal operation = false := by
    simp only [List.mem_cons, List.not_mem_nil, or_false] at unpublished
    rcases unpublished with phase | phase | phase <;>
      simp [isGcTerminal, phase]
  constructor
  · constructor
    · exact sound.output
    · simp [isGcTerminal, GcOperation.giveUp]
    · simp [GcOperation.giveUp]
    · exact sound.intended
    · intro rewrite built
      exact ⟨(sound.rewritten rewrite built).1, by simp [GcOperation.giveUp]⟩
    · intro built
      exact ⟨(sound.built built).1, by simp [GcOperation.giveUp]⟩
    · simp [GcOperation.giveUp]
    · simp [GcOperation.giveUp, uncommitted]
  · refine
      { Succeeds.refl operation with
        ended := ?_
        discarded := ?_ }
    · rw [running]
      simp
    · intro _
      simp [IsDiscarded, GcOperation.giveUp]

variable {base : GcOperation}

theorem claimBase_sound (sound : RecordSound doId operation)
    (based : ClaimBase operation now base) :
    RecordSound doId base ∧ Succeeds operation base := by
  rcases based with rfl | ⟨reason, rfl, unpublished⟩
  · exact ⟨sound, .refl base⟩
  · exact giveUp_sound sound unpublished reason now

theorem ClaimBase.running (based : ClaimBase operation now base)
    (running : isGcTerminal operation = false) : isGcTerminal base = false := by
  rcases based with rfl | ⟨reason, rfl, _⟩
  · exact running
  · simp [isGcTerminal, GcOperation.giveUp]

theorem issueClaim_sound (sound : RecordSound doId operation)
    (running : isGcTerminal operation = false) (claimId : String) (now : Nat) :
    RecordSound doId (operation.issueClaim claimId now) ∧
      Succeeds operation (operation.issueClaim claimId now) := by
  constructor
  · refine { sound with ended := ?_ }
    intro ended
    exact absurd (running.symm.trans ended) (by decide)
  · exact { Succeeds.refl operation with }

/-! ## Publication -/

theorem retainReceipt_sound (sound : RecordSound doId operation)
    (publishing : operation.phase = .publish)
    (uncommitted : operation.commit = none) (commit : GcCommit) (now : Nat) :
    RecordSound doId (operation.retainReceipt commit now) ∧
      Succeeds operation (operation.retainReceipt commit now) := by
  constructor
  · constructor
    · exact sound.output
    · intro _
      rfl
    · simp [GcOperation.retainReceipt]
    · exact sound.intended
    · intro rewrite built
      exact
        ⟨(sound.rewritten rewrite built).1,
          by simp [GcOperation.retainReceipt]⟩
    · intro built
      exact ⟨(sound.built built).1, by simp [GcOperation.retainReceipt]⟩
    · simp [GcOperation.retainReceipt]
    · simp [GcOperation.retainReceipt]
  · refine
      { Succeeds.refl operation with
        commit := ?_
        ended := ?_
        discarded := ?_ }
    · rw [uncommitted]
      simp
    · simp [isGcTerminal, publishing]
    · simp [IsDiscarded, publishing]

/-! ## Progress -/

/-- What one reported transition makes of a running operation, whatever
becomes of its claim. -/
structure Moved
    (doId : String)
    (operation moved : GcOperation)
    (reported : GcProgress) : Prop where
  sound : RecordSound doId { moved with claim := none }
  succeeds : Succeeds operation moved
  claim : moved.claim = operation.claim ∨ moved.claim = none
  ends :
    isGcTerminal moved = true →
      moved.phase ≠ operation.phase ∧
        ∀ snapshot, reported ≠ .snapshot snapshot

/-- A transition that changes neither the phase nor an identity. -/
theorem Moved.note (running : isGcTerminal operation = false)
    (sound : RecordSound doId { moved with claim := none })
    (succeeds : Succeeds operation moved)
    (claim : moved.claim = operation.claim ∨ moved.claim = none)
    (phase : moved.phase = operation.phase) :
    Moved doId operation moved reported := by
  refine ⟨sound, succeeds, claim, ?_⟩
  intro ended
  unfold isGcTerminal at ended running
  rw [phase, running] at ended
  cases ended

theorem progress_moved {claim : GcClaim} {repo : RepoState}
    (sound : RecordSound doId operation)
    (running : isGcTerminal operation = false)
    (moves : operation.progress claim repo now reported = .ok moved) :
    Moved doId operation moved reported := by
  have unclaimed : RecordSound doId { operation with claim := none } :=
    { sound with ended := fun _ => rfl }
  cases reported with
  | step step elapsedMs observedRequests writtenBytes =>
    simp only [GcOperation.progress] at moves
    split at moves
    · cases moves
    · cases moves
      exact .note running { unclaimed with } { Succeeds.refl operation with }
        (Or.inl rfl) rfl
  | yield =>
    cases moves
    exact .note running unclaimed { Succeeds.refl operation with }
      (Or.inr rfl) rfl
  | snapshot snapshot =>
    simp only [GcOperation.progress] at moves
    split at moves
    · cases moves
    · next queued =>
      rw [not_not] at queued
      split at moves
      · cases moves
      · cases moves
        have unplanned : operation.closure = none := by
          rw [← Option.not_isSome_iff_eq_none]
          exact fun planned => sound.planned planned queued
        have unintended : operation.rewriteIntent = none :=
          sound.unintended unplanned
        have unwritten : operation.rewrite = none :=
          sound.unwritten (by simp [queued])
        have unbuilt : operation.nativeResult = none :=
          sound.unbuilt (by simp [queued])
        have uncommitted : operation.commit = none :=
          sound.uncommitted (by simp [queued])
        refine ⟨?_, ?_, Or.inl rfl, ?_⟩
        · constructor
          · exact sound.output
          all_goals
            simp [unplanned, unintended, unwritten, unbuilt, uncommitted]
        · exact
            { Succeeds.refl operation with
              ended := by simp [isGcTerminal, queued]
              discarded := by simp [IsDiscarded, queued] }
        · simp [isGcTerminal]
  | plan closure retainedPackKey =>
    simp only [GcOperation.progress] at moves
    split at moves
    · cases moves
    · next ready =>
      simp only [Bool.or_eq_true, decide_eq_true_iff, not_or, not_not,
        Bool.not_eq_true, Option.isSome_eq_false_iff,
        Option.isNone_iff_eq_none] at ready
      obtain ⟨rewriting, unplanned⟩ := ready
      split at moves
      · cases moves
      · next valid =>
        cases moves
        have unintended : operation.rewriteIntent = none :=
          sound.unintended unplanned
        have unwritten : operation.rewrite = none :=
          sound.unwritten (by simp [rewriting])
        have unbuilt : operation.nativeResult = none :=
          sound.unbuilt (by simp [rewriting])
        have uncommitted : operation.commit = none :=
          sound.uncommitted (by simp [rewriting])
        have retains : operation.retains retainedPackKey = true := by
          simp only [Bool.or_eq_true, not_or, Bool.not_eq_true',
            Bool.not_eq_false] at valid
          exact valid.2
        refine ⟨?_, ?_, Or.inl rfl, ?_⟩
        · refine ⟨sound.output, fun _ => rfl, ?_, ?_, ?_, ?_, ?_, ?_⟩
          · dsimp only
            split <;> simp [rewriting]
          · simp [unintended]
          · simp [unwritten]
          · simp [unbuilt]
          · intro publishing
            refine ⟨closure, rfl, Or.inr ⟨unintended, unwritten, unbuilt,
              ?_⟩⟩
            dsimp only at publishing ⊢
            split at publishing
            · next kept =>
              rcases kept with retained | empty
              · exact Or.inr ⟨retained, retains⟩
              · exact Or.inl empty
            · rw [rewriting] at publishing
              cases publishing
          · dsimp only
            split <;> simp [rewriting, uncommitted]
        · exact
            { Succeeds.refl operation with
              closure := by simp [unplanned]
              ended := by simp [isGcTerminal, rewriting]
              discarded := by simp [IsDiscarded, rewriting] }
        · dsimp only [isGcTerminal]
          split <;> simp [rewriting]
  | rewriteIntent identity =>
    simp only [GcOperation.progress] at moves
    split at moves
    · cases moves
    · next ready =>
      simp only [Bool.or_eq_true, decide_eq_true_iff, not_or, not_not,
        Bool.not_eq_true, Option.isNone_eq_false_iff] at ready
      obtain ⟨rewriting, planned⟩ := ready
      split at moves
      · cases moves
      · split at moves
        · cases moves
        · next agrees =>
          cases moves
          have unwritten : operation.rewrite = none :=
            sound.unwritten (by simp [rewriting])
          have unbuilt : operation.nativeResult = none :=
            sound.unbuilt (by simp [rewriting])
          refine .note running ?_ ?_ (Or.inl rfl) rfl
          · refine ⟨sound.output, fun _ => rfl, sound.planned,
              fun _ => planned, ?_, ?_, ?_, sound.receipt⟩
            · simp [unwritten]
            · simp [unbuilt]
            · simp [rewriting]
          · refine { Succeeds.refl operation with rewriteIntent := ?_ }
            intro known held
            rw [held] at agrees
            simp only [Option.any_some, decide_eq_true_iff, not_not]
              at agrees
            exact congrArg some agrees.symm
  | rewriteComplete identity etag =>
    simp only [GcOperation.progress] at moves
    split at moves
    · next rewriting intended =>
      split at moves
      · cases moves
      · next agrees =>
        rw [not_or, not_not] at agrees
        cases moves
        have unwritten : operation.rewrite = none :=
          sound.unwritten (by simp [rewriting])
        have unbuilt : operation.nativeResult = none :=
          sound.unbuilt (by simp [rewriting])
        have uncommitted : operation.commit = none :=
          sound.uncommitted (by simp [rewriting])
        refine ⟨?_, ?_, Or.inl rfl, ?_⟩
        · refine ⟨sound.output, fun _ => rfl, ?_, sound.intended, ?_, ?_,
            ?_, ?_⟩
          · simp
          · rintro rewrite ⟨⟩
            exact ⟨intended.trans (congrArg some agrees.1), by simp⟩
          · simp [unbuilt]
          · simp
          · simp [uncommitted]
        · exact
            { Succeeds.refl operation with
              rewrite := by simp [unwritten]
              ended := by simp [isGcTerminal, rewriting]
              discarded := by simp [IsDiscarded, rewriting] }
        · simp [isGcTerminal]
    · cases moves
  | nativeComplete result =>
    simp only [GcOperation.progress] at moves
    split at moves
    · next rewrite closure indexing written planned =>
      split at moves
      · next fits =>
        cases moves
        have unbuilt : operation.nativeResult = none :=
          sound.unbuilt (by simp [indexing])
        have uncommitted : operation.commit = none :=
          sound.uncommitted (by simp [indexing])
        have intended := (sound.rewritten rewrite written).1
        have built :
            BuiltOutput
              { operation with
                nativeResult := some result
                phase := .publish
                claim := none }
              closure :=
          ⟨rewrite, result, written, intended, rfl, fits⟩
        refine ⟨?_, ?_, Or.inl rfl, ?_⟩
        · refine ⟨sound.output, fun _ => rfl, ?_, sound.intended, ?_, ?_,
            ?_, ?_⟩
          · simp
          · intro other held
            exact ⟨(sound.rewritten other held).1, by simp⟩
          · exact fun _ => ⟨⟨closure, planned, built⟩, by simp⟩
          · exact fun _ => ⟨closure, planned, Or.inl built⟩
          · simp [uncommitted]
        · exact
            { Succeeds.refl operation with
              nativeResult := by simp [unbuilt]
              ended := by simp [isGcTerminal, indexing]
              discarded := by simp [IsDiscarded, indexing] }
        · simp [isGcTerminal]
      · cases moves
    · cases moves
  | reclaimed =>
    simp only [GcOperation.progress] at moves
    split at moves
    · cases moves
    · next ready =>
      simp only [Bool.or_eq_true, decide_eq_true_iff, not_or, not_not,
        Bool.not_eq_true, Option.isNone_eq_false_iff] at ready
      obtain ⟨reclaiming, committed⟩ := ready
      cases moves
      refine ⟨?_, ?_, Or.inl rfl, ?_⟩
      · refine ⟨sound.output, fun _ => rfl, ?_, sound.intended, ?_, ?_, ?_,
          ?_⟩
        · simp
        · intro rewrite held
          exact ⟨(sound.rewritten rewrite held).1, by simp⟩
        · intro built
          exact ⟨(sound.built built).1, by simp⟩
        · simp
        · simp [committed]
      · exact
          { Succeeds.refl operation with
            ended := by simp [isGcTerminal, reclaiming]
            discarded := by simp [IsDiscarded, reclaiming] }
      · simp [reclaiming]
  | discard reason =>
    simp only [GcOperation.progress] at moves
    split at moves
    · cases moves
    · next ready =>
      rw [not_or, not_not, Bool.not_eq_true, Option.isSome_eq_false_iff,
        Option.isNone_iff_eq_none] at ready
      obtain ⟨working, uncommitted⟩ := ready
      cases moves
      refine ⟨?_, ?_, Or.inl rfl, ?_⟩
      · refine ⟨sound.output, fun _ => rfl, ?_, sound.intended, ?_, ?_, ?_,
          ?_⟩
        · simp
        · intro rewrite held
          exact ⟨(sound.rewritten rewrite held).1, by simp⟩
        · intro built
          exact ⟨(sound.built built).1, by simp⟩
        · simp
        · simp [uncommitted]
      · exact
          { Succeeds.refl operation with
            ended := by simp [running]
            discarded := fun _ => by simp [IsDiscarded] }
      · simp [isGcTerminal]
  | discarded =>
    simp only [GcOperation.progress] at moves
    split at moves
    · cases moves
    · next ready =>
      simp only [Bool.or_eq_true, decide_eq_true_iff, not_or, not_not,
        Bool.not_eq_true, Option.isSome_eq_false_iff,
        Option.isNone_iff_eq_none] at ready
      obtain ⟨⟨discarding, uncommitted⟩, _⟩ := ready
      cases moves
      refine ⟨?_, ?_, Or.inl rfl, ?_⟩
      · refine ⟨sound.output, fun _ => rfl, ?_, sound.intended, ?_, ?_, ?_,
          ?_⟩
        · simp
        · intro rewrite held
          exact ⟨(sound.rewritten rewrite held).1, by simp⟩
        · intro built
          exact ⟨(sound.built built).1, by simp⟩
        · simp
        · simp [uncommitted]
      · exact
          { Succeeds.refl operation with
            ended := by simp [running]
            discarded := fun _ => by simp [IsDiscarded] }
      · simp [discarding]
  | blocked reason =>
    simp only [GcOperation.progress] at moves
    split at moves
    · cases moves
    · next ready =>
      simp only [Bool.or_eq_true, not_or, Bool.not_eq_true,
        Option.isSome_eq_false_iff, Option.isNone_iff_eq_none] at ready
      obtain ⟨⟨⟨unintended, unwritten⟩, unbuilt⟩, uncommitted⟩ := ready
      cases moves
      refine ⟨?_, ?_, Or.inl rfl, ?_⟩
      · constructor
        · exact sound.output
        all_goals simp [unintended, unwritten, unbuilt, uncommitted]
      · exact
          { Succeeds.refl operation with
            ended := by simp [running]
            discarded := fun _ => by simp [IsDiscarded] }
      · intro _
        refine ⟨?_, nofun⟩
        intro same
        dsimp only at same
        simp [isGcTerminal, ← same] at running

/-- What the bookkeeping after a transition keeps and may give up. -/
theorem settle_sound (move : Moved doId operation moved reported) (now : Nat) :
    let settled := moved.settle operation.phase reported now
    RecordSound doId settled ∧ Succeeds operation settled ∧
      (settled.claim = operation.claim ∨ settled.claim = none) := by
  have sound := move.sound
  have succeeds := move.succeeds
  dsimp only
  unfold GcOperation.settle
  split
  · next phase =>
    refine ⟨{ sound with ended := ?_ }, { succeeds with }, move.claim⟩
    intro ended
    exact absurd phase (move.ends ended).1
  · split
    · refine ⟨{ sound with ended := ?_ }, { succeeds with }, move.claim⟩
      intro ended
      exact absurd rfl ((move.ends ended).2 _)
    · exact
        ⟨{ sound with ended := fun _ => rfl }, { succeeds with }, Or.inr rfl⟩

end GitOnCloudflare.Gc
