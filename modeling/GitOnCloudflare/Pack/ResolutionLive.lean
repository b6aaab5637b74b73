import GitOnCloudflare.Pack.ResolutionWakes

/-!
# The invariant of delta resolution

Publishing a result keeps every unresolved entry where something will wake
it, and keeps every chain of bases finite.
-/

namespace GitOnCloudflare.Pack

open Foundations
open Relation

namespace ResolveOptions

variable {Oid : Type} {objectCount : Nat}
  {opts : ResolveOptions Oid objectCount}

variable (opts) in
/-- Every unresolved entry is where something will wake it.  `scheduled` are
the entries that the main pass still visits. -/
structure Wakes (scheduled : Fin objectCount → Prop)
    (state : ResolveState Oid objectCount) : Prop where
  ready : ∀ index base, ¬ state.Resolved index →
    state.baseIndex index = some base → state.Resolved base →
      index ∈ state.readyDeferred ∨ scheduled index
  onBase : ∀ index base, ¬ state.Resolved index →
    state.baseIndex index = some base → ¬ state.Resolved base →
      index ∈ state.waitingOnBase base
  onOid : ∀ index, ¬ state.Resolved index →
    state.baseIndex index = none →
      ∃ oid, opts.kind index = .refDelta oid ∧
        index ∈ state.waiting oid ∧
        ∀ holder, state.oids holder ≠ some oid
  ofsLinked : ∀ index base, ¬ state.Resolved index →
    opts.kind index = .ofsDelta (opts.offset base) →
      state.baseIndex index = some base
  refReady : ∀ index oid base, opts.kind index = .refDelta oid →
    state.baseIndex index = some base → state.Resolved base

variable (opts) in
/-- Everything that the passes keep. -/
structure Live (scheduled : Fin objectCount → Prop)
    (state : ResolveState Oid objectCount) : Prop where
  sound : opts.Sound state
  grounded : opts.Grounded state
  queue : state.Queue
  wakes : opts.Wakes scheduled state
  whole : ∀ index, (opts.fullObject index).isSome → state.Resolved index
  counted : state.resolved =
    (Finset.univ.filter fun index => state.Resolved index).card

/-- What publishing a result changes. -/
structure Published (state after : ResolveState Oid objectCount)
    (index : Fin objectCount) (oid : Oid) : Prop where
  oids : after.oids = Function.update state.oids index (some oid)
  counted : after.resolved = state.resolved
  deferred : after.deferred = state.deferred
  based : ∀ other,
    after.baseIndex other =
      if state.baseIndex other = none ∧ other ∈ state.waiting oid then
        some index
      else
        state.baseIndex other
  kept : ∀ other ∈ state.readyDeferred, other ∈ after.readyDeferred
  onOid : ∀ other, other ≠ oid → after.waiting other = state.waiting other
  onBase : ∀ base, base ≠ index →
    after.waitingOnBase base = state.waitingOnBase base
  wokenByOid : ∀ other ∈ state.waiting oid, state.baseIndex other = none →
    ¬ after.Resolved other → other ∈ after.readyDeferred
  wokenByBase : ∀ other ∈ state.waitingOnBase index,
    state.baseIndex other = some index → ¬ after.Resolved other →
      other ∈ after.readyDeferred
  queue : after.Queue
  backlog : state.idle index = true → after.backlog + 1 ≤ state.backlog

variable {other : Fin objectCount}

theorem Published.resolved {state after : ResolveState Oid objectCount}
    {index : Fin objectCount} {oid : Oid}
    (published : Published state after index oid) :
    after.Resolved other ↔ other = index ∨ state.Resolved other := by
  unfold ResolveState.Resolved
  rw [published.oids]
  by_cases same : other = index
  · subst same
    simp
  · simp [same]

/-! ## Publishing -/

section Publish

variable [DecidableEq Oid] {state : ResolveState Oid objectCount}
  {index : Fin objectCount} {object : GitObject}

omit [DecidableEq Oid] in
theorem recordResult_resolved :
    (opts.recordResult state index object).Resolved other ↔
      other = index ∨ state.Resolved other := by
  unfold ResolveState.Resolved recordResult
  by_cases same : other = index
  · subst same
    simp
  · simp [same]

omit [DecidableEq Oid] in
theorem recordResult_queue (queue : state.Queue) :
    (opts.recordResult state index object).Queue where
  queued := queue.queued
  distinct := queue.distinct
  ready := by
    intro other member
    rcases ResolveState.baseReady_iff.mp (queue.ready other member) with
      ⟨base, points, resolved⟩
    exact ResolveState.baseReady_iff.mpr
      ⟨base, points, recordResult_resolved.mpr (.inr resolved)⟩

omit [DecidableEq Oid] in
theorem recordResult_backlog (idle : state.idle index = true) :
    (opts.recordResult state index object).backlog + 1 ≤ state.backlog := by
  unfold ResolveState.backlog
  have erased :
      (Finset.univ.filter fun other =>
        (opts.recordResult state index object).idle other = true) ⊆
        (Finset.univ.filter fun other =>
          state.idle other = true).erase index := by
    intro other member
    rw [Finset.mem_filter] at member
    rw [Finset.mem_erase, Finset.mem_filter]
    have still := member.2
    unfold ResolveState.idle recordResult at still
    by_cases same : other = index
    · subst same
      simp at still
    · simp only [Function.update_of_ne same] at still
      exact ⟨same, Finset.mem_univ other, still⟩
  have member :
      index ∈ Finset.univ.filter fun other => state.idle other = true := by
    rw [Finset.mem_filter]
    exact ⟨Finset.mem_univ index, idle⟩
  have fewer := Finset.card_le_card erased
  rw [Finset.card_erase_of_mem member] at fewer
  have positive := Finset.card_pos.mpr ⟨index, member⟩
  have same :
      (opts.recordResult state index object).readyDeferred =
        state.readyDeferred := rfl
  rw [same]
  omega

/-- Entries that wait for the id of a resolved entry are promoted. -/
theorem promoteWaitingRefDeltas_spec {oid : Oid}
    (stored : state.oids index = some oid)
    (slots : ∀ waiter ∈ state.waiting oid, opts.hasSlot oid = true) :
    ResolveState.Enqueues state (opts.promoteWaitingRefDeltas state index) ∧
      (∀ other, other ≠ oid →
        (opts.promoteWaitingRefDeltas state index).waiting other =
          state.waiting other) ∧
      (opts.promoteWaitingRefDeltas state index).waitingOnBase =
        state.waitingOnBase ∧
      (∀ other,
        (opts.promoteWaitingRefDeltas state index).baseIndex other =
          if state.baseIndex other = none ∧ other ∈ state.waiting oid then
            some index
          else
            state.baseIndex other) ∧
      (state.Queue → ∀ other ∈ state.waiting oid,
        state.baseIndex other = none → ¬ state.Resolved other →
          other ∈
            (opts.promoteWaitingRefDeltas state index).readyDeferred) := by
  have nobody : state.waiting oid = [] → ∀ other,
      state.baseIndex other =
        if state.baseIndex other = none ∧ other ∈ state.waiting oid then
          some index
        else
          state.baseIndex other := by
    intro none_ other
    simp [none_]
  unfold promoteWaitingRefDeltas
  simp only [stored]
  by_cases slot : opts.hasSlot oid = true
  · have resolved : state.Resolved index := by
      unfold ResolveState.Resolved
      rw [stored]
      rfl
    have noted : opts.noteResolvedEntry state index =
        { state with
          resolvedEntries :=
            Function.update state.resolvedEntries oid (some index) } := by
      unfold noteResolvedEntry
      simp [stored, slot]
    simp only [slot, if_true, noted]
    cases waits : state.waiting oid with
    | nil =>
      have frame : ResolveState.Enqueues state
          { state with
            resolvedEntries :=
              Function.update state.resolvedEntries oid (some index) } :=
        ResolveState.enqueues_of_frame rfl rfl rfl
          (fun _ _ points => points) rfl rfl
      refine ⟨frame, ?_, ?_, ?_, ?_⟩
      · intro other _
        rfl
      · rfl
      · intro other
        simp
      · intro _ other member
        cases member
    | cons waiter waiters =>
      let prepared : ResolveState Oid objectCount :=
        { state with
          resolvedEntries :=
            Function.update state.resolvedEntries oid (some index)
          waiting := Function.update state.waiting oid []
          isBase := Function.update state.isBase index true }
      have frame : ResolveState.Enqueues state prepared :=
        ResolveState.enqueues_of_frame rfl rfl rfl
          (fun _ _ points => points) rfl rfl
      rcases @foldl_promoteWaiter _ _ opts index (waiter :: waiters)
          prepared with ⟨grown, waiting, onBase, bases, woken⟩
      refine ⟨frame.trans grown, ?_, onBase, bases, ?_⟩
      · intro other different
        show ((waiter :: waiters).foldl (opts.promoteWaiter index)
          prepared).waiting other = state.waiting other
        rw [waiting]
        exact Function.update_of_ne different _ _
      · intro queue other member unbased unresolved
        exact woken (frame.queue queue) resolved other member unbased
          unresolved
  · have empty : state.waiting oid = [] := by
      rw [List.eq_nil_iff_forall_not_mem]
      intro waiter member
      exact slot (slots waiter member)
    simp only [slot, if_false, Bool.false_eq_true]
    refine ⟨ResolveState.Enqueues.refl state, ?_, ?_, nobody empty, ?_⟩
    · intro other _
      trivial
    · trivial
    · intro _ other member
      rw [empty] at member
      cases member

omit [DecidableEq Oid] in
theorem cacheIfBase_enqueues (state : ResolveState Oid objectCount)
    (index : Fin objectCount) (object : GitObject) :
    ResolveState.Enqueues state (cacheIfBase state index object) ∧
      (cacheIfBase state index object).baseIndex = state.baseIndex ∧
      (cacheIfBase state index object).waiting = state.waiting ∧
      (cacheIfBase state index object).waitingOnBase =
        state.waitingOnBase := by
  unfold cacheIfBase
  split
  · exact ⟨ResolveState.enqueues_of_frame rfl rfl rfl
      (fun _ _ points => points) rfl rfl, rfl, rfl, rfl⟩
  · exact ⟨ResolveState.Enqueues.refl state, rfl, rfl, rfl⟩

/-- Publishing in a mixed pack wakes what waited for the id or the entry. -/
theorem publishResult_published (queue : state.Queue) (sound : opts.Sound state) :
    Published state (opts.publishResult true state index object) index
      (opts.computeOidBytes object) := by
  let oid := opts.computeOidBytes object
  let recorded := opts.recordResult state index object
  let promoted := opts.promoteWaitingRefDeltas recorded index
  let prepared : ResolveState Oid objectCount :=
    { promoted with
      waitingOnBase := Function.update promoted.waitingOnBase index [] }
  let woken := promoted.promoteReadyInPackDependents index
  have stored : recorded.oids index = some oid := by
    simp [recorded, recordResult, oid]
  have slots : ∀ waiter ∈ recorded.waiting oid,
      opts.hasSlot oid = true := by
    intro waiter member
    exact hasSlot_of_kind (sound.waits oid waiter member).1
  rcases promoteWaitingRefDeltas_spec stored slots with
    ⟨byOid, waiting, onBase, bases, wokenByOid⟩
  have frame : ResolveState.Enqueues promoted prepared :=
    ResolveState.enqueues_of_frame rfl rfl rfl
      (fun _ _ points => points) rfl rfl
  rcases ResolveState.foldl_wakeDependent (promoted.waitingOnBase index)
      prepared with ⟨byBase, sameBase, sameWaiting, sameOnBase, wokenByBase⟩
  rcases cacheIfBase_enqueues woken index object with
    ⟨cached, cachedBase, cachedWaiting, cachedOnBase⟩
  have recordedQueue : recorded.Queue := recordResult_queue queue
  have after : ResolveState.Enqueues recorded
      (opts.publishResult true state index object) :=
    ((byOid.trans frame).trans byBase).trans cached
  have fromPromoted : ResolveState.Enqueues promoted
      (opts.publishResult true state index object) :=
    (frame.trans byBase).trans cached
  have finalBase : ∀ other,
      (opts.publishResult true state index object).baseIndex other =
        promoted.baseIndex other := by
    intro other
    show (cacheIfBase woken index object).baseIndex other = _
    rw [cachedBase]
    show ((promoted.waitingOnBase index).foldl ResolveState.wakeDependent
      prepared).baseIndex other = _
    rw [sameBase]
  refine
    { oids := after.oids
      counted := after.counted
      deferred := after.deferred
      based := ?_
      kept := fun other member => after.kept other member
      onOid := ?_
      onBase := ?_
      wokenByOid := ?_
      wokenByBase := ?_
      queue := after.queue recordedQueue
      backlog := ?_ }
  · intro other
    rw [finalBase]
    exact bases other
  · intro other different
    show (cacheIfBase woken index object).waiting other = _
    rw [cachedWaiting]
    show ((promoted.waitingOnBase index).foldl ResolveState.wakeDependent
      prepared).waiting other = _
    rw [sameWaiting]
    exact waiting other different
  · intro base different
    show (cacheIfBase woken index object).waitingOnBase base = _
    rw [cachedOnBase]
    show ((promoted.waitingOnBase index).foldl ResolveState.wakeDependent
      prepared).waitingOnBase base = _
    rw [sameOnBase]
    show Function.update promoted.waitingOnBase index [] base = _
    rw [Function.update_of_ne different]
    exact congrFun onBase base
  · intro other member unbased unresolved
    apply fromPromoted.kept
    apply wokenByOid recordedQueue other member unbased
    exact fun resolved => unresolved (after.resolved.mpr resolved)
  · intro other member points unresolved
    apply cached.kept
    have registered : other ∈ promoted.waitingOnBase index := by
      have same : promoted.waitingOnBase = state.waitingOnBase := onBase
      rw [same]
      exact member
    have resolvedIndex : recorded.Resolved index := by
      unfold ResolveState.Resolved
      rw [stored]
      rfl
    have ready : recorded.baseReady other = true :=
      ResolveState.baseReady_iff.mpr ⟨index, points, resolvedIndex⟩
    apply wokenByBase ((byOid.trans frame).queue recordedQueue) other
      registered
    · intro resolved
      exact unresolved
        (after.resolved.mpr ((byOid.trans frame).resolved.mp resolved))
    · exact (byOid.trans frame).baseReady ready
  · intro idle
    have fewer : recorded.backlog + 1 ≤ state.backlog :=
      recordResult_backlog idle
    exact (Nat.add_le_add_right after.backlog 1).trans fewer

end Publish

/-! ## The invariant after publishing -/

section Keep

variable {state after : ResolveState Oid objectCount}
  {index : Fin objectCount} {object : GitObject}

variable (opts) in
/-- An entry that is about to be published has its base: a resolved entry of
the pack, or an external object. -/
def HasBase (state : ResolveState Oid objectCount)
    (index : Fin objectCount) : Prop :=
  (∃ base, state.baseIndex index = some base ∧ state.Resolved base) ∨
    state.baseIndex index = none ∧ opts.ExternalRoot index

variable (opts) in
/-- The chain of bases of an entry meets no entry that still waits for the id
of its object. -/
def Clear (state : ResolveState Oid objectCount)
    (index : Fin objectCount) : Prop :=
  ∀ object, opts.Denotes index object →
    ∀ waiter ∈ state.waiting (opts.computeOidBytes object),
      state.baseIndex waiter = none →
        ¬ ReflTransGen (PointerChain.Follows state.baseIndex) index waiter

variable (opts) in
/-- What holds when an entry is about to be published. -/
structure Due (state : ResolveState Oid objectCount)
    (index : Fin objectCount) : Prop where
  sound : opts.Sound state
  grounded : opts.Grounded state
  queue : state.Queue
  based : opts.HasBase state index

/-- From an entry with its base, pointers lead to resolved entries only. -/
theorem reach_resolved (grounded : opts.Grounded state)
    (based : opts.HasBase state index)
    (reach : ReflTransGen (PointerChain.Follows state.baseIndex) index other) :
    other = index ∨ state.Resolved other := by
  induction reach with
  | refl => exact .inl rfl
  | tail _ points ih =>
    right
    rcases ih with rfl | resolved
    · rcases based with ⟨base, same, resolved⟩ | ⟨none_, _⟩
      · cases same.symm.trans points
        exact resolved
      · cases none_.symm.trans points
    · exact grounded.based _ _ resolved points

/-- A pack that does not hold an external base again on top of itself has no
entry whose chain meets one that waits for its id. -/
theorem Due.clear (due : opts.Due state index)
    (acyclic : ∀ entry, ¬ opts.ReencodesOwnBase entry) :
    opts.Clear state index := by
  intro object denotes waiter member unbased reach
  rcases due.sound.waits _ waiter member with ⟨kind, noWhole⟩
  have external : opts.ExternalRoot waiter := by
    rcases reach_resolved due.grounded due.based reach with rfl | ready
    · rcases due.based with ⟨base, points, _⟩ | ⟨_, external⟩
      · cases unbased.symm.trans points
      · exact external
    · rcases due.grounded.external waiter ready unbased with
        whole | external
      · rcases Option.isSome_iff_exists.mp whole with ⟨whole, full⟩
        cases (fullObject_kind full).symm.trans kind
      · exact external
  have closing : opts.PossibleBase waiter index :=
    .inr ⟨_, kind, ⟨object, denotes, rfl⟩, .inr noWhole⟩
  have path : ReflTransGen opts.PossibleBase index waiter :=
    ReflTransGen.mono due.sound.linked _ _ reach
  exact acyclic waiter ⟨external, TransGen.head' closing path⟩

/-- Chains stay finite when the entries that get a new base are not on the
chain of the published entry. -/
theorem Grounded.published (grounded : opts.Grounded state)
    (based : opts.HasBase state index) {redirected : Fin objectCount → Prop}
    (avoids : ∀ other, redirected other →
      ¬ ReflTransGen (PointerChain.Follows state.baseIndex) index other)
    (moved : ∀ other, redirected other → after.baseIndex other = some index)
    (same : ∀ other, ¬ redirected other →
      after.baseIndex other = state.baseIndex other)
    (resolved : ∀ other, after.Resolved other ↔
      other = index ∨ state.Resolved other) : opts.Grounded after := by
  have indexEnds : PointerChain.Ends state.baseIndex index := by
    rcases based with ⟨base, points, ready⟩ | ⟨none_, _⟩
    · exact PointerChain.ends_of_some points (grounded.ends base ready)
    · exact PointerChain.ends_of_none none_
  have targetEnds :=
    PointerChain.ends_target_of_redirect indexEnds same avoids
  refine
    { based := ?_
      external := ?_
      ends := ?_ }
  · intro other base ready points
    by_cases isMoved : redirected other
    · rw [moved other isMoved] at points
      cases points
      exact (resolved index).mpr (.inl rfl)
    · rw [same other isMoved] at points
      apply (resolved base).mpr
      right
      rcases (resolved other).mp ready with rfl | before
      · rcases based with ⟨target, held, settled⟩ | ⟨none_, _⟩
        · cases held.symm.trans points
          exact settled
        · cases none_.symm.trans points
      · exact grounded.based other base before points
  · intro other ready points
    by_cases isMoved : redirected other
    · rw [moved other isMoved] at points
      cases points
    · rw [same other isMoved] at points
      rcases (resolved other).mp ready with rfl | before
      · rcases based with ⟨target, held, _⟩ | ⟨_, external⟩
        · cases points.symm.trans held
        · exact .inr external
      · exact grounded.external other before points
  · intro other ready
    rcases (resolved other).mp ready with rfl | before
    · exact targetEnds
    · exact PointerChain.ends_of_redirect indexEnds same moved avoids
        (grounded.ends other before)

/-- Publishing leaves every unresolved entry where it will be woken. -/
theorem Wakes.published {scheduled : Fin objectCount → Prop} {oid : Oid}
    (wakes : opts.Wakes scheduled state)
    (published : Published state after index oid) :
    opts.Wakes scheduled after := by
  have unresolved : ∀ other, ¬ after.Resolved other →
      other ≠ index ∧ ¬ state.Resolved other := by
    intro other open_
    constructor
    · intro same
      exact open_ (published.resolved.mpr (.inl same))
    · intro resolved
      exact open_ (published.resolved.mpr (.inr resolved))
  refine
    { ready := ?_
      onBase := ?_
      onOid := ?_
      ofsLinked := ?_
      refReady := ?_ }
  · intro other base open_ points settled
    rcases unresolved other open_ with ⟨_, before⟩
    rw [published.based] at points
    split at points
    · next waits =>
      exact .inl (published.wokenByOid other waits.2 waits.1 open_)
    · by_cases ready : state.Resolved base
      · rcases wakes.ready other base before points ready with
          queued | later
        · exact .inl (published.kept other queued)
        · exact .inr later
      · rcases published.resolved.mp settled with rfl | ready'
        · exact .inl
            (published.wokenByBase other
              (wakes.onBase other base before points ready) points open_)
        · exact absurd ready' ready
  · intro other base open_ points waiting
    rcases unresolved other open_ with ⟨_, before⟩
    rcases unresolved base waiting with ⟨different, baseOpen⟩
    rw [published.based] at points
    split at points
    · cases points
      exact absurd rfl different
    · rw [published.onBase base different]
      exact wakes.onBase other base before points baseOpen
  · intro other open_ unbased
    rcases unresolved other open_ with ⟨_, before⟩
    rw [published.based] at unbased
    split at unbased
    · cases unbased
    · next notWaiting =>
      rcases wakes.onOid other before unbased with
        ⟨waited, kind, member, nobody⟩
      have different : waited ≠ oid := by
        rintro rfl
        exact notWaiting ⟨unbased, member⟩
      refine ⟨waited, kind, ?_, ?_⟩
      · rw [published.onOid waited different]
        exact member
      · intro holder
        rw [published.oids]
        by_cases same : holder = index
        · subst same
          rw [Function.update_self]
          intro equal
          exact different (Option.some.inj equal).symm
        · rw [Function.update_of_ne same]
          exact nobody holder
  · intro other base open_ kind
    rcases unresolved other open_ with ⟨_, before⟩
    have points := wakes.ofsLinked other base before kind
    rw [published.based, if_neg]
    · exact points
    · rintro ⟨unbased, _⟩
      cases unbased.symm.trans points
  · intro other waited base kind points
    rw [published.based] at points
    apply published.resolved.mpr
    split at points
    · cases points
      exact .inl rfl
    · exact .inr (wakes.refReady other waited base kind points)

theorem card_resolved (oids : ∀ other, after.Resolved other ↔
      other = index ∨ state.Resolved other)
    (unresolved : ¬ state.Resolved index) :
    (Finset.univ.filter fun other => after.Resolved other).card =
      (Finset.univ.filter fun other => state.Resolved other).card + 1 := by
  have grown :
      (Finset.univ.filter fun other => after.Resolved other) =
        insert index
          (Finset.univ.filter fun other => state.Resolved other) := by
    ext other
    rw [Finset.mem_filter, Finset.mem_insert, Finset.mem_filter, oids]
    simp
  rw [grown, Finset.card_insert_of_notMem]
  rw [Finset.mem_filter]
  exact fun member => unresolved member.2

end Keep

end ResolveOptions

end GitOnCloudflare.Pack
