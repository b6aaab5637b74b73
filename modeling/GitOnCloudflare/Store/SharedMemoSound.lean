import GitOnCloudflare.Store.SharedMemo

/-!
# What the memo holds

A promise for an id whose first copies form a chain goes down that chain, so
that it settles with the object, and so does what the memo keeps of the id.
-/

namespace GitOnCloudflare.Store

open Pack

section Frames

theorem unwind_cons (frame : Frame) (frames : List Frame) (result : ReadResult) :
    unwind (frame :: frames) result =
      unwind frames (result.bind (applyToBase frame.delta)) :=
  rfl

end Frames

/-! ## The invariant -/

section Invariant

variable {Oid : Type} (packs : List (IndexedPackSource Oid))

/-- The rows being read are above whatever the id is found as. -/
def FoundBelow (oid : Oid) (rows : List PackedObjectCandidate) : Prop :=
  ∀ candidate, findObject packs oid = some candidate →
    ∀ upper ∈ rows, Below packs candidate upper

/-- What is known of a promise, by where it stands. -/
def ReadSound (memo : Memo Oid) (read : PendingRead Oid) : Prop :=
  match read.phase with
  | .finding => read.frames = [] ∧ FoundBelow packs read.oid read.visited
  | .entering candidate =>
    (∀ upper ∈ read.rows, Below packs candidate upper) ∧
      ∀ length result, FirstCopy packs read.oid length result →
        ∃ shorter object, shorter ≤ length ∧
          FirstCopyChain packs shorter candidate object ∧
          unwind read.frames (.ok (some object)) = .ok (some result)
  | .awaiting base =>
    ∃ oid, memo.oidOf base = some oid ∧
      ∀ length result, FirstCopy packs read.oid length result →
        ∃ shorter object, shorter < length ∧
          FirstCopy packs oid shorter object ∧
          unwind read.frames (.ok (some object)) = .ok (some result)
  | .settled result =>
    ∀ length object, FirstCopy packs read.oid length object →
      result = .ok (some object)

structure MemoSound (memo : Memo Oid) : Prop where
  stored : ∀ {oid : Oid} {object : Option GitObject},
    memo.packedObjects oid = some object →
      ∀ length result, FirstCopy packs oid length result →
        object = some result
  started : ∀ {oid : Oid} {id : Nat},
    memo.packedObjectPromises oid = some id → memo.oidOf id = some oid
  reads : ∀ {id : Nat} {read : PendingRead Oid},
    memo.reads[id]? = some read → ReadSound packs memo read

end Invariant

variable {id : Nat}
  {result : ReadResult}

section Keeping

variable {Oid : Type} {packs : List (IndexedPackSource Oid)}
  {memo : Memo Oid}

/-- Promises stay and keep their ids. -/
def Grows (memo next : Memo Oid) : Prop :=
  ∀ id oid, memo.oidOf id = some oid → next.oidOf id = some oid

variable {read : PendingRead Oid}

theorem ReadSound.grows {next : Memo Oid} (sound : ReadSound packs memo read)
    (grows : Grows memo next) : ReadSound packs next read := by
  unfold ReadSound at sound ⊢
  cases phase_eq : read.phase with
  | finding => rw [phase_eq] at sound; exact sound
  | entering candidate => rw [phase_eq] at sound; exact sound
  | awaiting base =>
    rw [phase_eq] at sound
    rcases sound with ⟨oid, at_, leads⟩
    exact ⟨oid, grows base oid at_, leads⟩
  | settled result => rw [phase_eq] at sound; exact sound

variable {next : PendingRead Oid}

theorem setRead_grows (at_ : memo.reads[id]? = some read)
    (same : next.oid = read.oid) :
    Grows memo (memo.setRead id next) := by
  intro other oid known
  unfold Memo.oidOf Memo.setRead at *
  dsimp only
  by_cases here : id = other
  · subst here
    rcases List.getElem?_eq_some_iff.mp at_ with ⟨inside, _⟩
    rw [at_] at known
    rw [List.getElem?_set_self inside, Option.map_some, same]
    exact known
  · rw [List.getElem?_set_ne here]
    exact known

/-- Setting one promise keeps the invariant if that promise does. -/
theorem MemoSound.setRead (sound : MemoSound packs memo)
    (at_ : memo.reads[id]? = some read) (same : next.oid = read.oid)
    (kept : ReadSound packs memo next) :
    MemoSound packs (memo.setRead id next) := by
  have grows := setRead_grows at_ same
  constructor
  · exact sound.stored
  · intro oid other known
    exact grows other oid (sound.started known)
  · intro other found here
    by_cases equal : id = other
    · subst equal
      rcases List.getElem?_eq_some_iff.mp at_ with ⟨inside, _⟩
      have value : some next = some found :=
        (List.getElem?_set_self inside).symm.trans here
      rw [← Option.some.inj value]
      exact kept.grows grows
    · have old : memo.reads[other]? = some found :=
        (List.getElem?_set_ne equal).symm.trans here
      exact (sound.reads old).grows grows

theorem MemoSound.settle (sound : MemoSound packs memo)
    (at_ : memo.reads[id]? = some read) {frames : List Frame}
    (right : ∀ length object, FirstCopy packs read.oid length object →
      unwind frames result = .ok (some object)) :
    MemoSound packs (memo.settle id read frames result) := by
  apply sound.setRead at_
  · rfl
  · exact right

theorem empty_sound : MemoSound packs (.empty : Memo Oid) where
  stored := nofun
  started := nofun
  reads := nofun

variable [DecidableEq Oid]

/-- A call starts at most one promise, behind the others. -/
theorem call_older (oid : Oid) (visited : List PackedObjectCandidate)
    {read : PendingRead Oid} (at_ : memo.reads[id]? = some read) :
    (memo.call oid visited).1.reads[id]? = some read := by
  unfold Memo.call
  split
  · exact at_
  · split
    · exact at_
    · rcases List.getElem?_eq_some_iff.mp at_ with ⟨inside, _⟩
      exact (List.getElem?_append_left inside).trans at_

/-- What a call promises. -/
def CallSound (packs : List (IndexedPackSource Oid)) (oid : Oid)
    (next : Memo Oid) : Called → Prop
  | .value object => ∀ length result, FirstCopy packs oid length result →
      object = some result
  | .promise id => next.oidOf id = some oid

theorem call_spec (sound : MemoSound packs memo) (oid : Oid)
    {visited : List PackedObjectCandidate}
    (above : FoundBelow packs oid visited) :
    MemoSound packs (memo.call oid visited).1 ∧
      Grows memo (memo.call oid visited).1 ∧
      CallSound packs oid (memo.call oid visited).1
        (memo.call oid visited).2 := by
  unfold Memo.call
  cases stored : memo.packedObjects oid with
  | some object =>
    exact ⟨sound, fun _ _ known => known, sound.stored stored⟩
  | none =>
    cases started : memo.packedObjectPromises oid with
    | some id =>
      exact ⟨sound, fun _ _ known => known, sound.started started⟩
    | none =>
      dsimp only
      generalize next_eq : ({ memo with
        packedObjectPromises :=
          Function.update memo.packedObjectPromises oid
            (some memo.reads.length)
        reads := memo.reads ++ [⟨oid, visited, [], .finding⟩] } :
          Memo Oid) = next
      have older : ∀ (id : Nat) (read : PendingRead Oid),
          memo.reads[id]? = some read → next.reads[id]? = some read := by
        intro id read known
        rcases List.getElem?_eq_some_iff.mp known with ⟨inside, _⟩
        rw [← next_eq]
        exact (List.getElem?_append_left inside).trans known
      have newest : next.reads[memo.reads.length]? =
          some ⟨oid, visited, [], .finding⟩ := by
        rw [← next_eq]
        exact List.getElem?_concat_length
      have grows : Grows memo next := by
        intro id other known
        rcases Option.map_eq_some_iff.mp known with ⟨read, at_, same⟩
        exact Option.map_eq_some_iff.mpr ⟨read, older id read at_, same⟩
      have named : next.oidOf memo.reads.length = some oid :=
        congrArg (Option.map PendingRead.oid) newest
      refine ⟨⟨?_, ?_, ?_⟩, grows, named⟩
      · rw [← next_eq]
        exact sound.stored
      · intro other id known
        rw [← next_eq] at known
        dsimp only at known
        by_cases same : other = oid
        · subst same
          rw [Function.update_self] at known
          rw [← Option.some.inj known]
          exact named
        · rw [Function.update_of_ne same] at known
          exact grows id other (sound.started known)
      · intro id read at_
        by_cases inside : id < memo.reads.length
        · have old : memo.reads[id]? = some read := by
            rw [← next_eq] at at_
            exact (List.getElem?_append_left inside).symm.trans at_
          exact (sound.reads old).grows grows
        · have last : id = memo.reads.length := by
            rcases List.getElem?_eq_some_iff.mp at_ with ⟨within, _⟩
            rw [← next_eq] at within
            have size : id < (memo.reads ++
                [(⟨oid, visited, [], .finding⟩ : PendingRead Oid)]).length :=
              within
            rw [List.length_append, List.length_singleton] at size
            omega
          subst last
          rw [← Option.some.inj (newest.symm.trans at_)]
          exact ⟨rfl, above⟩

end Keeping

/-! ## Steps -/

section Steps

variable {Oid : Type} [DecidableEq Oid]
  {packs : List (IndexedPackSource Oid)} {memo next : Memo Oid}
  {read : PendingRead Oid}

theorem enter_sound (sound : MemoSound packs memo)
    (at_ : memo.reads[id]? = some read) {candidate : PackedObjectCandidate}
    (entering : read.phase = .entering candidate) :
    MemoSound packs (memo.enter packs id read candidate) := by
  have known := sound.reads at_
  unfold ReadSound at known
  rw [entering] at known
  rcases known with ⟨above, leadsOn⟩
  unfold Memo.enter
  split
  next again =>
    -- A row with a chain does not come up again.
    apply sound.settle at_
    intro length object first
    rcases leadsOn length object first with ⟨_, _, _, chain, _⟩
    exact absurd again (chain.not_mem above)
  next =>
    cases found : entryAt packs candidate with
    | none =>
      apply sound.settle at_
      intro length object first
      rcases leadsOn length object first with ⟨_, _, _, chain, _⟩
      cases chain with
      | full at' => cases found.symm.trans at'
      | delta at' => cases found.symm.trans at'
    | some entry =>
      dsimp only
      cases kind : entry.kind with
      | full type =>
        apply sound.settle at_
        intro length object first
        rcases leadsOn length object first with ⟨_, below, _, chain, up⟩
        rcases chain.inversion found with
          ⟨type', whole, _, rfl⟩ | ⟨base, _, _, leads, _⟩
        · rw [kind] at whole
          cases whole
          exact up
        · exact (baseCandidate_full kind leads).elim
      | ofsDelta baseOffset =>
        dsimp only
        have leads : baseCandidate packs candidate entry.kind =
            baseAtOffset packs candidate baseOffset := by
          rw [kind]
          rfl
        cases target : baseAtOffset packs candidate baseOffset with
        | none =>
          apply sound.settle at_
          intro length object first
          rcases leadsOn length object first with ⟨_, _, _, chain, _⟩
          rcases chain.inversion found with
            ⟨type, whole, _⟩ | ⟨base, _, _, leads', _⟩
          · rw [kind] at whole
            cases whole
          · cases (leads.trans target).symm.trans leads'
        | some base =>
          apply sound.setRead at_
          · rfl
          · refine ⟨rows_below found (leads.trans target) above, ?_⟩
            intro length result first
            rcases leadsOn length result first with
              ⟨shorter, object, within, chain, up⟩
            rcases chain.inversion found with
              ⟨type, whole, _⟩ |
                ⟨other, less, below, leads', shorter_eq, chain', applied⟩
            · rw [kind] at whole
              cases whole
            · have same := Option.some.inj
                ((leads.trans target).symm.trans leads')
              subst same
              refine ⟨less, below, by omega, chain', ?_⟩
              rw [unwind_cons]
              dsimp only [Except.bind]
              rw [applied]
              exact up
      | refDelta baseOid =>
        dsimp only
        have leads : baseCandidate packs candidate entry.kind =
            findObject packs baseOid := by
          rw [kind]
          rfl
        have foundBelow : FoundBelow packs baseOid
            (candidate :: read.rows) := by
          intro base target
          exact rows_below found (leads.trans target) above
        -- What the chain of the id says about the base.
        have downward : ∀ length result,
            FirstCopy packs read.oid length result →
              ∃ shorter object, shorter < length ∧
                FirstCopy packs baseOid shorter object ∧
                unwind (⟨candidate, entry.payload⟩ :: read.frames)
                  (.ok (some object)) = .ok (some result) := by
          intro length result first
          rcases leadsOn length result first with
            ⟨shorter, object, within, chain, up⟩
          rcases chain.inversion found with
            ⟨type, whole, _⟩ |
              ⟨other, less, below, leads', shorter_eq, chain', applied⟩
          · rw [kind] at whole
            cases whole
          · refine ⟨less, below, by omega,
              ⟨other, leads.symm.trans leads', chain'⟩, ?_⟩
            rw [unwind_cons]
            dsimp only [Except.bind]
            rw [applied]
            exact up
        have older := call_older baseOid (candidate :: read.rows) at_
        rcases call_spec sound baseOid foundBelow with
          ⟨calledSound, _, answer⟩
        generalize call_eq : memo.call baseOid (candidate :: read.rows) =
          pair at calledSound older answer
        rcases pair with ⟨called, reply⟩
        cases reply with
        | value object =>
          dsimp only
          apply calledSound.settle older
          intro length result first
          rcases downward length result first with
            ⟨shorter, below, _, base, up⟩
          rw [answer shorter below base]
          exact up
        | promise base =>
          dsimp only
          apply calledSound.setRead older
          · rfl
          · exact ⟨baseOid, answer, downward⟩

theorem advance_sound (sound : MemoSound packs memo)
    (ran : memo.advance packs id = some next) : MemoSound packs next := by
  unfold Memo.advance at ran
  cases at_ : memo.reads[id]? with
  | none => rw [at_] at ran; cases ran
  | some read =>
    rw [at_] at ran
    dsimp only at ran
    have known := sound.reads at_
    unfold ReadSound at known
    cases phase_eq : read.phase with
    | finding =>
      rw [phase_eq] at ran known
      dsimp only at ran
      rcases known with ⟨noFrames, below⟩
      cases found : findObject packs read.oid with
      | none =>
        rw [found] at ran
        rw [← Option.some.inj ran]
        apply sound.settle at_
        intro length object first
        rcases first with ⟨candidate, target, _⟩
        cases found.symm.trans target
      | some candidate =>
        rw [found] at ran
        rw [← Option.some.inj ran]
        apply sound.setRead at_
        · rfl
        · refine ⟨?_, ?_⟩
          · intro upper member
            unfold PendingRead.rows at member
            dsimp only at member
            rw [noFrames] at member
            exact below candidate found upper member
          · intro length result first
            rcases first with ⟨other, target, chain⟩
            have same := Option.some.inj (found.symm.trans target)
            subst same
            refine ⟨length, result, le_refl _, chain, ?_⟩
            dsimp only
            rw [noFrames]
            rfl
    | entering candidate =>
      rw [phase_eq] at ran
      rw [← Option.some.inj ran]
      exact enter_sound sound at_ phase_eq
    | awaiting base =>
      rw [phase_eq] at ran known
      dsimp only at ran
      rcases known with ⟨oid, named, leadsOn⟩
      rcases Option.map_eq_some_iff.mp named with ⟨other, otherAt, same⟩
      rw [otherAt] at ran
      dsimp only at ran
      cases otherPhase : other.phase with
      | settled result =>
        rw [otherPhase] at ran
        rw [← Option.some.inj ran]
        apply sound.settle at_
        intro length object first
        rcases leadsOn length object first with
          ⟨shorter, below, _, base, up⟩
        have settled := sound.reads otherAt
        unfold ReadSound at settled
        rw [otherPhase] at settled
        rw [settled shorter below (same ▸ base)]
        exact up
      | finding => rw [otherPhase] at ran; cases ran
      | entering candidate => rw [otherPhase] at ran; cases ran
      | awaiting promise => rw [otherPhase] at ran; cases ran
    | settled result => rw [phase_eq] at ran; cases ran

theorem publish_sound (sound : MemoSound packs memo)
    (at_ : memo.reads[id]? = some read) (settled : read.phase = .settled result) :
    MemoSound packs (memo.publish read.oid result) := by
  have known := sound.reads at_
  unfold ReadSound at known
  rw [settled] at known
  constructor
  · intro oid object stored length value first
    unfold Memo.publish at stored
    dsimp only at stored
    cases result with
    | error failure => exact sound.stored stored length value first
    | ok published =>
      dsimp only at stored
      by_cases same : oid = read.oid
      · subst same
        rw [Function.update_self] at stored
        rw [← Option.some.inj stored]
        exact Except.ok.inj (known length value first)
      · rw [Function.update_of_ne same] at stored
        exact sound.stored stored length value first
  · intro oid other started
    unfold Memo.publish at started
    dsimp only at started
    by_cases same : oid = read.oid
    · subst same
      rw [Function.update_self] at started
      cases started
    · rw [Function.update_of_ne same] at started
      exact sound.started started
  · intro other found here
    exact (sound.reads here).grows fun _ _ named => named

/-- Every step keeps the invariant. -/
theorem MemoStep.sound {label : Option Nat}
    (step : MemoStep packs memo label next)
    (sound : MemoSound packs memo) : MemoSound packs next := by
  cases step with
  | request oid =>
    exact (call_spec sound oid
      fun _ _ _ member => absurd member List.not_mem_nil).1
  | advance ran => exact advance_sound sound ran
  | publish at_ settled own => exact publish_sound sound at_ settled

theorem MemoRun.sound {labels : List (Option Nat)}
    (run : MemoRun packs memo labels next)
    (sound : MemoSound packs memo) : MemoSound packs next := by
  induction run with
  | refl => exact sound
  | step first _ ih => exact ih (first.sound sound)

theorem Reachable.sound (reachable : Reachable packs memo) :
    MemoSound packs memo := by
  rcases reachable with ⟨labels, run⟩
  exact run.sound empty_sound

end Steps

end GitOnCloudflare.Store
