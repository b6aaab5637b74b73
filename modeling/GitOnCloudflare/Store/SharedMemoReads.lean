import GitOnCloudflare.Store.SharedMemoSound

/-!
# Reads that share a memo return

A read of an id whose first copies form a chain waits only for reads with
shorter chains, so that it is never stuck and returns the object, whatever
the other reads of the request do.
-/

namespace GitOnCloudflare.Store

open Pack

/-! ## Waiting -/

variable {id length : Nat} {object : GitObject}

section Waiting

variable {Oid : Type} {packs : List (IndexedPackSource Oid)}
  {memo : Memo Oid}
  {oid : Oid}

/-- A promise that is waited for has a shorter chain. -/
theorem MemoSound.waits (sound : MemoSound packs memo) {base : Nat}
    (waits : memo.Waits id base) (named : memo.oidOf id = some oid)
    (first : FirstCopy packs oid length object) :
    ∃ other shorter below, memo.oidOf base = some other ∧
      FirstCopy packs other shorter below ∧ shorter < length := by
  rcases waits with ⟨read, at_, awaiting⟩
  have known := sound.reads at_
  unfold ReadSound at known
  rw [awaiting] at known
  rcases known with ⟨other, baseNamed, leadsOn⟩
  rcases Option.map_eq_some_iff.mp named with ⟨read', at', same⟩
  have equal := Option.some.inj (at_.symm.trans at')
  subst equal
  subst same
  rcases leadsOn length object first with ⟨shorter, below, less, chain, _⟩
  exact ⟨other, shorter, below, baseNamed, chain, less⟩

theorem MemoSound.waits_trans (sound : MemoSound packs memo) {last : Nat}
    (waits : Relation.TransGen memo.Waits id last)
    (named : memo.oidOf id = some oid)
    (first : FirstCopy packs oid length object) :
    ∃ other shorter below, memo.oidOf last = some other ∧
      FirstCopy packs other shorter below ∧ shorter < length := by
  induction waits with
  | single once => exact sound.waits once named first
  | tail _ once ih =>
    rcases ih with ⟨middle, shorter, below, middleNamed, chain, less⟩
    rcases sound.waits once middleNamed chain with
      ⟨other, shortest, lowest, lastNamed, lastChain, lesser⟩
    exact ⟨other, shortest, lowest, lastNamed, lastChain,
      Nat.lt_trans lesser less⟩

/-- A read never waits for its own promise. -/
theorem MemoSound.not_waits_itself (sound : MemoSound packs memo)
    (named : memo.oidOf id = some oid)
    (first : FirstCopy packs oid length object) :
    ¬ Relation.TransGen memo.Waits id id := by
  intro waits
  rcases sound.waits_trans waits named first with
    ⟨other, shorter, below, again, chain, less⟩
  have same := Option.some.inj (named.symm.trans again)
  subst same
  exact Nat.ne_of_gt less (first.unique chain).1

variable [DecidableEq Oid]

/-- A read is settled, or a promise that it waits for can go on. -/
theorem MemoSound.goesOn (sound : MemoSound packs memo)
    (named : memo.oidOf id = some oid)
    (first : FirstCopy packs oid length object) :
    (∃ read result, memo.reads[id]? = some read ∧
      read.phase = .settled result) ∨
    ∃ other, Relation.ReflTransGen memo.Waits id other ∧
      (memo.advance packs other).isSome = true := by
  induction length using Nat.strong_induction_on
    generalizing id oid object with
  | _ length ih =>
  rcases Option.map_eq_some_iff.mp named with ⟨read, at_, same⟩
  cases phase_eq : read.phase with
  | finding =>
    refine .inr ⟨id, .refl, ?_⟩
    unfold Memo.advance
    rw [at_]
    dsimp only
    rw [phase_eq]
    dsimp only
    cases findObject packs read.oid <;> rfl
  | entering candidate =>
    refine .inr ⟨id, .refl, ?_⟩
    unfold Memo.advance
    rw [at_]
    dsimp only
    rw [phase_eq]
    rfl
  | settled result => exact .inl ⟨read, result, at_, phase_eq⟩
  | awaiting base =>
    have waits : memo.Waits id base := ⟨read, at_, phase_eq⟩
    rcases sound.waits waits named first with
      ⟨other, shorter, below, baseNamed, chain, less⟩
    rcases ih shorter less baseNamed chain with
      ⟨baseRead, result, baseAt, settled⟩ | ⟨last, path, able⟩
    · refine .inr ⟨id, .refl, ?_⟩
      unfold Memo.advance
      rw [at_]
      dsimp only
      rw [phase_eq]
      dsimp only
      rw [baseAt]
      dsimp only
      rw [settled]
      rfl
    · exact .inr ⟨last, path.head waits, able⟩

end Waiting

/-! ## Counting steps -/

section Counting

variable {Oid : Type} {packs : List (IndexedPackSource Oid)}

/-- The promise has at most so many steps of its own left. -/
def ReadLeft (packs : List (IndexedPackSource Oid))
    (read : PendingRead Oid) (left : Nat) : Prop :=
  match read.phase with
  | .finding => ∃ length object,
      FirstCopy packs read.oid length object ∧ length + 3 ≤ left
  | .entering candidate => ∃ length object,
      FirstCopyChain packs length candidate object ∧ length + 2 ≤ left
  | .awaiting _ => 1 ≤ left
  | .settled _ => True

variable {memo next : Memo Oid}

/-- A step of a promise changes that promise, and may start others. -/
structure Changes (packs : List (IndexedPackSource Oid))
    (memo next : Memo Oid) (id : Nat) (read : PendingRead Oid) : Prop where
  change : ∃ (middle : Memo Oid) (after : PendingRead Oid),
    next = middle.setRead id after ∧
      (∀ (other : Nat) (kept : PendingRead Oid),
        memo.reads[other]? = some kept →
          middle.reads[other]? = some kept) ∧
      ∀ left, ReadLeft packs read left →
        0 < left ∧ ReadLeft packs after (left - 1)

variable {read : PendingRead Oid}

/-- A promise that settles has no step left. -/
theorem Changes.settle {middle : Memo Oid} (frames : List Frame)
    (result : ReadResult)
    (older : ∀ (other : Nat) (kept : PendingRead Oid),
      memo.reads[other]? = some kept → middle.reads[other]? = some kept)
    (some_ : ∀ left, ReadLeft packs read left → 0 < left) :
    Changes packs memo (middle.settle id read frames result) id read :=
  ⟨middle, _, rfl, older, fun left known => ⟨some_ left known, trivial⟩⟩

/-- A promise with a chain has no more steps left than its chain allows. -/
theorem MemoSound.left (sound : MemoSound packs memo)
    (at_ : memo.reads[id]? = some read)
    (first : FirstCopy packs read.oid length object) :
    ReadLeft packs read (length + 3) := by
  have known := sound.reads at_
  unfold ReadSound at known
  unfold ReadLeft
  cases phase_eq : read.phase with
  | finding => exact ⟨length, object, first, le_refl _⟩
  | entering candidate =>
    rw [phase_eq] at known
    rcases known.2 length object first with
      ⟨shorter, below, within, chain, _⟩
    exact ⟨shorter, below, chain, by omega⟩
  | awaiting base => exact Nat.le_add_left 1 (length + 2)
  | settled result => trivial

variable [DecidableEq Oid]

theorem enter_changes {candidate : PackedObjectCandidate}
    (entering : read.phase = .entering candidate) :
    Changes packs memo (memo.enter packs id read candidate) id read := by
  have known : ∀ left, ReadLeft packs read left → ∃ length object,
      FirstCopyChain packs length candidate object ∧
        length + 2 ≤ left := by
    intro left readLeft
    unfold ReadLeft at readLeft
    rw [entering] at readLeft
    exact readLeft
  have some_ : ∀ left, ReadLeft packs read left → 0 < left := by
    intro left readLeft
    rcases known left readLeft with ⟨_, _, _, enough⟩
    omega
  have same : ∀ (other : Nat) (kept : PendingRead Oid),
      memo.reads[other]? = some kept → memo.reads[other]? = some kept :=
    fun _ _ at_ => at_
  unfold Memo.enter
  split
  next => exact .settle _ _ same some_
  next =>
    cases found : entryAt packs candidate with
    | none => exact .settle _ _ same some_
    | some entry =>
      dsimp only
      cases kind : entry.kind with
      | full type => exact .settle _ _ same some_
      | ofsDelta baseOffset =>
        dsimp only
        cases target : baseAtOffset packs candidate baseOffset with
        | none => exact .settle _ _ same some_
        | some base =>
          refine ⟨memo, _, rfl, same, fun left readLeft =>
            ⟨some_ left readLeft, ?_⟩⟩
          rcases known left readLeft with ⟨length, object, chain, enough⟩
          have leads : baseCandidate packs candidate entry.kind =
              some base := by
            rw [kind]
            exact target
          rcases chain.inversion found with
            ⟨type, whole, _⟩ |
              ⟨other, less, below, leads', length_eq, chain', _⟩
          · exact (baseCandidate_full whole leads).elim
          · have equal := Option.some.inj (leads.symm.trans leads')
            subst equal
            exact ⟨less, below, chain', by omega⟩
      | refDelta baseOid =>
        dsimp only
        have older := fun (other : Nat) (kept : PendingRead Oid)
            (at_ : memo.reads[other]? = some kept) =>
          call_older baseOid (candidate :: read.rows) at_
        generalize memo.call baseOid (candidate :: read.rows) = pair
          at older
        rcases pair with ⟨called, reply⟩
        cases reply with
        | value object => exact .settle _ _ older some_
        | promise base =>
          refine ⟨called, _, rfl, older, fun left readLeft =>
            ⟨some_ left readLeft, ?_⟩⟩
          rcases known left readLeft with ⟨_, _, _, enough⟩
          change 1 ≤ left - 1
          omega

theorem advance_changes (at_ : memo.reads[id]? = some read)
    (ran : memo.advance packs id = some next) :
    Changes packs memo next id read := by
  have same : ∀ (other : Nat) (kept : PendingRead Oid),
      memo.reads[other]? = some kept → memo.reads[other]? = some kept :=
    fun _ _ kept => kept
  unfold Memo.advance at ran
  rw [at_] at ran
  dsimp only at ran
  cases phase_eq : read.phase with
  | finding =>
    have known : ∀ left, ReadLeft packs read left → ∃ length object,
        FirstCopy packs read.oid length object ∧ length + 3 ≤ left := by
      intro left readLeft
      unfold ReadLeft at readLeft
      rw [phase_eq] at readLeft
      exact readLeft
    have some_ : ∀ left, ReadLeft packs read left → 0 < left := by
      intro left readLeft
      rcases known left readLeft with ⟨_, _, _, enough⟩
      omega
    rw [phase_eq] at ran
    dsimp only at ran
    cases found : findObject packs read.oid with
    | none =>
      rw [found] at ran
      rw [← Option.some.inj ran]
      exact .settle _ _ same some_
    | some candidate =>
      rw [found] at ran
      rw [← Option.some.inj ran]
      refine ⟨memo, _, rfl, same, fun left readLeft =>
        ⟨some_ left readLeft, ?_⟩⟩
      rcases known left readLeft with ⟨length, object, first, enough⟩
      rcases first with ⟨other, target, chain⟩
      have equal := Option.some.inj (found.symm.trans target)
      subst equal
      exact ⟨length, object, chain, by omega⟩
  | entering candidate =>
    rw [phase_eq] at ran
    rw [← Option.some.inj ran]
    exact enter_changes phase_eq
  | awaiting base =>
    have some_ : ∀ left, ReadLeft packs read left → 0 < left := by
      intro left readLeft
      unfold ReadLeft at readLeft
      rw [phase_eq] at readLeft
      exact readLeft
    rw [phase_eq] at ran
    dsimp only at ran
    cases otherAt : memo.reads[base]? with
    | none => rw [otherAt] at ran; cases ran
    | some other =>
      rw [otherAt] at ran
      dsimp only at ran
      cases otherPhase : other.phase with
      | settled result =>
        rw [otherPhase] at ran
        rw [← Option.some.inj ran]
        exact .settle _ _ same some_
      | finding => rw [otherPhase] at ran; cases ran
      | entering candidate => rw [otherPhase] at ran; cases ran
      | awaiting promise => rw [otherPhase] at ran; cases ran
  | settled result => rw [phase_eq] at ran; cases ran

/-- A step counts against the promise that takes it, and no other. -/
theorem MemoStep.left {label : Option Nat}
    (step : MemoStep packs memo label next) (at_ : memo.reads[id]? = some read)
    {left : Nat} (readLeft : ReadLeft packs read left) :
    ∃ after, next.reads[id]? = some after ∧
      if label = some id then 0 < left ∧ ReadLeft packs after (left - 1)
      else ReadLeft packs after left := by
  cases step with
  | request oid =>
    refine ⟨read, call_older oid [] at_, ?_⟩
    rw [if_neg nofun]
    exact readLeft
  | publish =>
    refine ⟨read, at_, ?_⟩
    rw [if_neg nofun]
    exact readLeft
  | @advance _ other ran =>
    by_cases own : other = id
    · subst own
      rcases (advance_changes at_ ran).change with
        ⟨middle, after, rfl, older, fewer⟩
      rcases List.getElem?_eq_some_iff.mp (older other read at_) with
        ⟨inside, _⟩
      refine ⟨after, List.getElem?_set_self inside, ?_⟩
      rw [if_pos rfl]
      exact fewer left readLeft
    · cases moved : memo.reads[other]? with
      | none =>
        unfold Memo.advance at ran
        rw [moved] at ran
        cases ran
      | some mover =>
        rcases (advance_changes moved ran).change with
          ⟨middle, after, rfl, older, _⟩
        refine ⟨read,
          (List.getElem?_set_ne own).trans (older id read at_), ?_⟩
        rw [if_neg fun equal => own (Option.some.inj equal)]
        exact readLeft

/-- A run has no more steps of a promise than the promise had left. -/
theorem MemoRun.count_le {labels : List (Option Nat)}
    (run : MemoRun packs memo labels next) (at_ : memo.reads[id]? = some read)
    {left : Nat} (readLeft : ReadLeft packs read left) :
    labels.count (some id) ≤ left := by
  induction run generalizing read left with
  | refl => exact Nat.zero_le _
  | @step _ _ _ label labels first _ ih =>
    rcases first.left at_ readLeft with ⟨after, afterAt, counted⟩
    rw [List.count_cons]
    by_cases own : label = some id
    · rw [if_pos own] at counted
      have rest := ih afterAt counted.2
      rw [if_pos (beq_iff_eq.mpr own)]
      omega
    · rw [if_neg own] at counted
      have rest := ih afterAt counted
      rw [if_neg fun equal => own (beq_iff_eq.mp equal)]
      omega

end Counting

/-! ## Reads return -/

section Returning

variable {Oid : Type} [DecidableEq Oid]
  {packs : List (IndexedPackSource Oid)}

/-- What a promise of a request comes to, from any moment on: the object and
nothing else, without waiting for itself; while it is not settled, a promise
that it waits for can go on; and it takes only so many steps, as do those that
it waits for, which have shorter chains. -/
structure SharedRead (packs : List (IndexedPackSource Oid))
    (memo : Memo Oid) (id length : Nat) (object : GitObject) : Prop where
  returns : ∀ (read : PendingRead Oid) (result : ReadResult),
    memo.reads[id]? = some read → read.phase = .settled result →
      result = .ok (some object)
  notItself : ¬ Relation.TransGen memo.Waits id id
  goesOn : (∃ (read : PendingRead Oid) (result : ReadResult),
      memo.reads[id]? = some read ∧ read.phase = .settled result) ∨
    ∃ other, Relation.ReflTransGen memo.Waits id other ∧
      (memo.advance packs other).isSome = true
  shorter : ∀ other, Relation.TransGen memo.Waits id other →
    ∃ oid less below, memo.oidOf other = some oid ∧
      FirstCopy packs oid less below ∧ less < length
  bounded : ∀ (labels : List (Option Nat)) (next : Memo Oid),
    MemoRun packs memo labels next → labels.count (some id) ≤ length + 3

/-- Reads return the object of an id whose first copies form a chain, with a
memo and without one, whatever else is read in whichever order. -/
theorem firstCopy_reads {oid : Oid} {length : Nat} {object : GitObject}
    (first : FirstCopy packs oid length object) :
    (∀ fuel, length < fuel →
      readObject packs fuel oid = .ok (some object)) ∧
    ∀ memo, Reachable packs memo →
      (∀ value, (memo.call oid []).2 = .value value →
        value = some object) ∧
      (∀ id, (memo.call oid []).2 = .promise id →
        (memo.call oid []).1.oidOf id = some oid) ∧
      ∀ id, memo.oidOf id = some oid →
        SharedRead packs memo id length object := by
  refine ⟨fun fuel enough => first.readObject enough, ?_⟩
  intro memo reachable
  have sound := reachable.sound
  have answer := (call_spec sound oid
    fun _ _ _ member => absurd member List.not_mem_nil).2.2
  refine ⟨?_, ?_, ?_⟩
  · intro value reply
    rw [reply] at answer
    exact answer length object first
  · intro id reply
    rw [reply] at answer
    exact answer
  · intro id named
    rcases Option.map_eq_some_iff.mp named with ⟨read, at_, same⟩
    subst same
    constructor
    · intro other result here settled
      have equal := Option.some.inj (at_.symm.trans here)
      subst equal
      have known := sound.reads at_
      unfold ReadSound at known
      rw [settled] at known
      exact known length object first
    · exact sound.not_waits_itself named first
    · exact sound.goesOn named first
    · intro other waits
      exact sound.waits_trans waits named first
    · intro labels next run
      exact run.count_le at_ (sound.left at_ first)

end Returning

/-! ## Two deltas across packs -/

/-- A pack with one row. -/
def soloPack (entry : PackedEntry Nat) : IndexedPackSource Nat where
  entries := [entry]
  findOidIndex := fun oid => if entry.oid = oid then some 0 else none
  hits := by
    intro oid row hit
    split at hit
    next same =>
      cases hit
      exact ⟨entry, rfl, same⟩
    next => cases hit
  misses := by
    intro oid miss other member
    split at miss
    next => cases miss
    next differs =>
      rw [List.mem_singleton.mp member]
      exact differs

/-- A program that keeps one byte and appends another. -/
def appendEight : Bytes := [1, 2, 0x90, 1, 1, 8]

/-- A program that keeps the first of two bytes. -/
def dropLast : Bytes := [2, 1, 0x90, 1]

/-- The id `0` is a delta of `1`, which is whole. -/
def pairPacks : List (IndexedPackSource Nat) :=
  [soloPack ⟨0, 12, .refDelta 1, appendEight⟩,
    soloPack ⟨1, 12, .full .blob, [7]⟩]

theorem firstCopy_reads_pair :
    readObject pairPacks 2 0 = .ok (some ⟨.blob, [7, 8]⟩) := by
  have whole : FirstCopyChain pairPacks 0 ⟨1, 0⟩ ⟨.blob, [7]⟩ :=
    @FirstCopyChain.full _ _ _ ⟨1, 12, .full .blob, [7]⟩ .blob rfl rfl
  have chain : FirstCopyChain pairPacks 1 ⟨0, 0⟩ ⟨.blob, [7, 8]⟩ :=
    .delta rfl rfl whole rfl
  have first : FirstCopy pairPacks 0 1 ⟨.blob, [7, 8]⟩ :=
    ⟨⟨0, 0⟩, rfl, chain⟩
  exact (firstCopy_reads first).1 2 (by decide)

/-- The newer packs have `0` as a delta of `1` and `1` as a delta of `0`; the
oldest has `0` whole. -/
def crossedPacks : List (IndexedPackSource Nat) :=
  [soloPack ⟨0, 12, .refDelta 1, dropLast⟩,
    soloPack ⟨1, 12, .refDelta 0, appendEight⟩,
    soloPack ⟨0, 12, .full .blob, [7]⟩]

/-- The whole copy is there, every read of its id without a memo reports a
cycle, and a read with a memo comes to wait for itself. -/
theorem not_read_crossed :
    (∃ candidate entry, entryAt crossedPacks candidate = some entry ∧
      entry.oid = 0 ∧ SomeCopyChain crossedPacks candidate ⟨.blob, [7]⟩) ∧
    (∀ fuel, readObject crossedPacks (fuel + 3) 0 =
      .error recursionCycle) ∧
    ∃ memo, Reachable crossedPacks memo ∧ memo.oidOf 0 = some 0 ∧
      Relation.TransGen memo.Waits 0 0 := by
  have whole : SomeCopyChain crossedPacks ⟨2, 0⟩ ⟨.blob, [7]⟩ :=
    @SomeCopyChain.full _ _ _ ⟨0, 12, .full .blob, [7]⟩ .blob rfl rfl
  refine ⟨⟨⟨2, 0⟩, _, rfl, rfl, whole⟩, fun _ => rfl, ?_⟩
  refine ⟨_, ⟨[none, some 0, some 0, some 1, some 1],
    .step (.request 0) <| .step (.advance rfl) <| .step (.advance rfl) <|
      .step (.advance rfl) <| .step (.advance rfl) <| .refl _⟩, rfl, ?_⟩
  exact .tail (.single ⟨_, rfl, rfl⟩) ⟨_, rfl, rfl⟩

end GitOnCloudflare.Store
