import GitOnCloudflare.Foundations.PointerChain
import GitOnCloudflare.Pack.ResolutionSound

/-!
# Wake-ups of delta resolution

An entry that is not resolved is in exactly the structure that will wake it:
in the queue when its base is resolved, in the list of its base when that is
not, and in the list of its base id when no entry has the id yet.  Publishing
a result keeps this, and no chain of bases becomes a cycle unless the pack
holds an external base again in an entry built on it.
-/

namespace GitOnCloudflare.Pack

open Foundations
open Relation

variable {state : ResolveState Oid objectCount} {index : Fin objectCount}

namespace ResolveState

variable {Oid : Type} {objectCount : Nat}

def Resolved (state : ResolveState Oid objectCount)
    (index : Fin objectCount) : Prop :=
  (state.oids index).isSome = true

instance (state : ResolveState Oid objectCount) (index : Fin objectCount) :
    Decidable (state.Resolved index) :=
  inferInstanceAs (Decidable ((state.oids index).isSome = true))

theorem not_resolved_iff :
    ¬ state.Resolved index ↔ state.oids index = none := by
  unfold Resolved
  cases state.oids index <;> simp

theorem baseReady_iff :
    state.baseReady index = true ↔
      ∃ base, state.baseIndex index = some base ∧ state.Resolved base := by
  unfold baseReady Resolved
  cases state.baseIndex index <;> simp

end ResolveState

namespace ResolveOptions

variable {Oid : Type} {objectCount : Nat}
  {opts : ResolveOptions Oid objectCount}

variable (opts) in
/-- The chain of every resolved entry runs through resolved entries and ends
in a whole entry or at an external base. -/
structure Grounded (state : ResolveState Oid objectCount) : Prop where
  based : ∀ index base, state.Resolved index →
    state.baseIndex index = some base → state.Resolved base
  external : ∀ index, state.Resolved index →
    state.baseIndex index = none →
      (opts.fullObject index).isSome ∨ opts.ExternalRoot index
  ends : ∀ index, state.Resolved index →
    PointerChain.Ends state.baseIndex index

variable (opts) in
/-- Every entry has a finite chain. -/
def AllDenote : Prop := ∀ index, ∃ object, opts.Denotes index object

/-! ## Materialization succeeds -/

section Materialize

variable {state : ResolveState Oid objectCount}

theorem replayPending_total (addressed : opts.ContentAddressed)
    (linked : ∀ entry base, state.baseIndex entry = some base →
      opts.PossibleBase entry base)
    {index : Fin objectCount} {pending : List (Fin objectCount)}
    {base : GitObject} (lru : PayloadLRU objectCount)
    (denoted : ∀ entry ∈ pending, ∃ object, opts.Denotes entry object)
    (replays : opts.Replays state index base pending) :
    ∃ read, opts.replayPending state pending base lru = .ok read := by
  induction pending generalizing base lru with
  | nil => exact ⟨_, rfl⟩
  | cons last rest ih =>
    rcases replays with ⟨held, results, leads⟩
    rcases denoted last List.mem_cons_self with ⟨result, denotes⟩
    have applies := denotes.applies_of_base addressed held
    have next := replays_of_denotes addressed linked leads denotes
    rcases ih (lru.set state.deadlines last result)
        (fun entry member => denoted entry (List.mem_cons_of_mem _ member))
        next with ⟨read, replayed⟩
    refine ⟨read, ?_⟩
    unfold replayPending
    exact CheckedFold.bind_eq_ok.mpr
      ⟨result, applyEntryDelta_eq_ok.mpr applies, replayed⟩

/-- From a resolved entry the walk finds a base, past resolved entries. -/
theorem walkToBase_total (grounded : opts.Grounded state)
    {index current : Fin objectCount} {fuel : Nat}
    {pending : List (Fin objectCount)} (lru : PayloadLRU objectCount)
    (resolved : state.Resolved current) (distinct : pending.Nodup)
    (reach : ∀ node ∈ pending,
      TransGen (PointerChain.Follows state.baseIndex) node current)
    (behind : ∀ node ∈ pending, state.Resolved node)
    (enough : objectCount ≤ fuel + pending.length) :
    ∃ base passed touched,
      opts.walkToBase state index fuel lru current pending =
          .ok (base, passed, touched) ∧
        ∀ node ∈ passed, state.Resolved node := by
  have passed :=
    (grounded.ends current resolved).walk_nodup distinct reach
  have onPath : ∀ node ∈ current :: pending, state.Resolved node := by
    intro node member
    rcases List.mem_cons.mp member with rfl | earlier
    · exact resolved
    · exact behind node earlier
  induction fuel generalizing lru current pending with
  | zero =>
    have short := PointerChain.length_lt_card passed
    rw [Fintype.card_fin] at short
    omega
  | succ fuel ih =>
    unfold walkToBase
    cases lru.get current with
    | some cached => exact ⟨_, _, _, rfl, behind⟩
    | none =>
      cases full : opts.fullObject current with
      | some whole => exact ⟨_, _, _, rfl, behind⟩
      | none =>
        cases points : state.baseIndex current with
        | some target =>
          have next := grounded.based current target resolved points
          have onward : ∀ node ∈ current :: pending,
              TransGen (PointerChain.Follows state.baseIndex) node
                target := by
            intro node member
            rcases List.mem_cons.mp member with rfl | earlier
            · exact TransGen.single points
            · exact (reach node earlier).tail points
          apply ih lru next passed onward onPath
          · rw [List.length_cons]
            omega
          · exact (grounded.ends target next).walk_nodup passed onward
          · intro node member
            rcases List.mem_cons.mp member with rfl | earlier
            · exact next
            · exact onPath node earlier
        | none =>
          rcases grounded.external current resolved points with
            whole | ⟨oid, kind, found, _⟩
          · rw [full] at whole
            cases whole
          · rcases Option.isSome_iff_exists.mp found with ⟨base, read⟩
            simp only [refBaseOid_eq_some.mpr kind, read]
            exact ⟨_, _, _, rfl, onPath⟩

theorem Sound.denoted (sound : opts.Sound state) {index : Fin objectCount}
    (resolved : state.Resolved index) :
    ∃ object, opts.Denotes index object := by
  rcases Option.isSome_iff_exists.mp resolved with ⟨oid, stored⟩
  rcases sound.stored index oid stored with ⟨object, denotes, _⟩
  exact ⟨object, denotes⟩

/-- A resolved entry can be computed again from its bases. -/
theorem materializeEntry_total (addressed : opts.ContentAddressed)
    (sound : opts.Sound state) (grounded : opts.Grounded state)
    {index : Fin objectCount} (resolved : state.Resolved index) :
    ∃ object touched,
      opts.materializeEntry state index = .ok (object, touched) ∧
        opts.Denotes index object ∧ opts.Caches touched := by
  unfold materializeEntry
  rcases walkToBase_total grounded state.lru resolved List.nodup_nil
      (fun _ member => by cases member) (fun _ member => by cases member)
      (Nat.le_add_right objectCount 0) with
    ⟨base, passed, touched, walked, behind⟩
  have start : LeadsTo state index index [] := rfl
  rcases walkToBase_sound addressed sound.linked sound.cached start
    walked with ⟨replays, caches⟩
  rcases replayPending_total addressed sound.linked touched
      (fun entry member => sound.denoted (behind entry member)) replays with
    ⟨⟨object, kept⟩, replayed⟩
  refine ⟨object, kept,
    CheckedFold.bind_eq_ok.mpr ⟨_, walked, replayed⟩, ?_⟩
  exact replayPending_sound addressed sound.linked caches replays replayed

theorem getBasePayload_total (addressed : opts.ContentAddressed)
    (sound : opts.Sound state) (grounded : opts.Grounded state)
    {index : Fin objectCount} (resolved : state.Resolved index) :
    ∃ object touched, opts.getBasePayload state index = .ok (object, touched)
      ∧ opts.Denotes index object ∧ opts.Caches touched := by
  unfold getBasePayload
  split
  · next cached read =>
    exact ⟨cached.1, cached.2, rfl, sound.cached.get read⟩
  · exact materializeEntry_total addressed sound grounded resolved

/-- With its base resolved an entry is resolved to the object it denotes. -/
theorem resolveDeltaEntry_total [DecidableEq Oid]
    (addressed : opts.ContentAddressed) {index base : Fin objectCount}
    (denoted : ∃ object, opts.Denotes index object) (sound : opts.Sound state)
    (grounded : opts.Grounded state) (mixed : Bool)
    (points : state.baseIndex index = some base)
    (resolved : state.Resolved base) :
    ∃ lru result, opts.Caches lru ∧ opts.Denotes index result ∧
      opts.resolveDeltaEntry mixed state index =
        .ok (opts.publishResult mixed { state with lru := lru } index
          result) := by
  rcases getBasePayload_total addressed sound grounded resolved with
    ⟨object, lru, read, held, caches⟩
  rcases denoted with ⟨result, denotes⟩
  have applies :=
    denotes.applies_of_base addressed
      ((sound.linked index base points).baseObject addressed held)
  have ready : (state.oids base).isNone = false := by
    rw [← Option.not_isSome, resolved]
    rfl
  refine ⟨lru, result, caches, denotes, ?_⟩
  unfold resolveDeltaEntry
  simp only [points, ready, Bool.false_eq_true, if_false]
  apply CheckedFold.bind_eq_ok.mpr
  refine ⟨(object, lru), read, ?_⟩
  apply CheckedFold.bind_eq_ok.mpr
  exact ⟨result, applyEntryDelta_eq_ok.mpr applies, rfl⟩

end Materialize

end ResolveOptions

/-! ## The queue -/

namespace ResolveState

variable {Oid : Type} {objectCount : Nat}

/-- The queue holds each entry once, and only entries whose base is
resolved. -/
structure Queue (state : ResolveState Oid objectCount) : Prop where
  queued : ∀ index, state.deferredQueued index = true ↔
    index ∈ state.readyDeferred
  distinct : state.readyDeferred.Nodup
  ready : ∀ index ∈ state.readyDeferred, state.baseReady index = true

/-- Neither resolved nor queued. -/
def idle (state : ResolveState Oid objectCount)
    (index : Fin objectCount) : Bool :=
  (state.oids index).isNone && !state.deferredQueued index

/-- The rounds the queue can still cause. -/
def backlog (state : ResolveState Oid objectCount) : Nat :=
  state.readyDeferred.length +
    (Finset.univ.filter fun index => state.idle index = true).card

/-- Bases are added and entries are queued, and nothing else happens that the
queue depends on. -/
structure Enqueues (state after : ResolveState Oid objectCount) : Prop where
  oids : after.oids = state.oids
  counted : after.resolved = state.resolved
  deferred : after.deferred = state.deferred
  based : ∀ index base, state.baseIndex index = some base →
    after.baseIndex index = some base
  kept : ∀ index ∈ state.readyDeferred, index ∈ after.readyDeferred
  queue : state.Queue → after.Queue
  backlog : after.backlog ≤ state.backlog

theorem Enqueues.refl (state : ResolveState Oid objectCount) :
    Enqueues state state where
  oids := rfl
  counted := rfl
  deferred := rfl
  based := fun _ _ points => points
  kept := fun _ member => member
  queue := id
  backlog := le_rfl

theorem Enqueues.trans {first second third : ResolveState Oid objectCount}
    (left : Enqueues first second) (right : Enqueues second third) :
    Enqueues first third where
  oids := right.oids.trans left.oids
  counted := right.counted.trans left.counted
  deferred := right.deferred.trans left.deferred
  based := fun index base points =>
    right.based index base (left.based index base points)
  kept := fun index member => right.kept index (left.kept index member)
  queue := fun queue => right.queue (left.queue queue)
  backlog := right.backlog.trans left.backlog

theorem Enqueues.resolved {state after : ResolveState Oid objectCount}
    (enqueues : Enqueues state after) {index : Fin objectCount} :
    after.Resolved index ↔ state.Resolved index := by
  unfold Resolved
  rw [enqueues.oids]

theorem Enqueues.baseReady {state after : ResolveState Oid objectCount}
    (enqueues : Enqueues state after) {index : Fin objectCount}
    (ready : state.baseReady index = true) : after.baseReady index = true := by
  rcases baseReady_iff.mp ready with ⟨base, points, resolved⟩
  exact baseReady_iff.mpr
    ⟨base, enqueues.based index base points,
      enqueues.resolved.mpr resolved⟩

/-- A change that the queue does not depend on. -/
theorem enqueues_of_frame {state after : ResolveState Oid objectCount}
    (oids : after.oids = state.oids) (counted : after.resolved = state.resolved)
    (deferred : after.deferred = state.deferred)
    (based : ∀ index base, state.baseIndex index = some base →
      after.baseIndex index = some base)
    (ready : after.readyDeferred = state.readyDeferred)
    (queued : after.deferredQueued = state.deferredQueued) :
    Enqueues state after where
  oids := oids
  counted := counted
  deferred := deferred
  based := based
  kept := by
    rw [ready]
    exact fun _ member => member
  queue := by
    intro queue
    refine ⟨?_, ?_, ?_⟩
    · rw [ready, queued]
      exact queue.queued
    · rw [ready]
      exact queue.distinct
    · rw [ready]
      intro index member
      rcases baseReady_iff.mp (queue.ready index member) with
        ⟨base, points, resolved⟩
      refine baseReady_iff.mpr ⟨base, based index base points, ?_⟩
      unfold Resolved
      rw [oids]
      exact resolved
  backlog := by
    unfold ResolveState.backlog idle
    rw [oids, ready, queued]

theorem enqueueReadyDeferred_enqueues
    (state : ResolveState Oid objectCount) (index : Fin objectCount) :
    Enqueues state (state.enqueueReadyDeferred index) := by
  unfold enqueueReadyDeferred
  split
  · exact Enqueues.refl state
  · next open_ =>
    simp only [Bool.or_eq_true, Bool.not_eq_true', not_or,
      Bool.not_eq_false] at open_
    rcases open_ with ⟨⟨unqueued, unresolved⟩, ready⟩
    have idle : state.idle index = true := by
      unfold ResolveState.idle
      simp [not_resolved_iff.mp unresolved, unqueued]
    refine
      { oids := rfl
        counted := rfl
        deferred := rfl
        based := fun _ _ points => points
        kept := fun _ member => List.mem_append_left _ member
        queue := ?_
        backlog := ?_ }
    · intro queue
      have absent : index ∉ state.readyDeferred := by
        intro member
        exact unqueued ((queue.queued index).mpr member)
      refine ⟨?_, ?_, ?_⟩
      · intro other
        by_cases same : other = index
        · subst same
          simp
        · simp only [Function.update_of_ne same, List.mem_append,
            List.mem_singleton, same, or_false]
          exact queue.queued other
      · rw [List.nodup_append]
        refine ⟨queue.distinct, List.nodup_singleton index, ?_⟩
        intro other member last isLast
        rw [List.mem_singleton.mp isLast]
        rintro rfl
        exact absent member
      · intro other member
        rcases List.mem_append.mp member with old | new
        · exact queue.ready other old
        · rw [List.mem_singleton.mp new]
          exact ready
    · unfold ResolveState.backlog
      have erased :
          (Finset.univ.filter fun other =>
            ResolveState.idle
              { state with
                deferredQueued :=
                  Function.update state.deferredQueued index true
                readyDeferred := state.readyDeferred ++ [index] }
              other = true) ⊆
            (Finset.univ.filter fun other =>
              state.idle other = true).erase index := by
        intro other member
        rw [Finset.mem_filter] at member
        rw [Finset.mem_erase, Finset.mem_filter]
        have still := member.2
        unfold ResolveState.idle at still ⊢
        by_cases same : other = index
        · subst same
          simp at still
        · simp only [Function.update_of_ne same] at still
          exact ⟨same, Finset.mem_univ other, still⟩
      have member :
          index ∈ Finset.univ.filter fun other =>
            state.idle other = true := by
        rw [Finset.mem_filter]
        exact ⟨Finset.mem_univ index, idle⟩
      have fewer := Finset.card_le_card erased
      rw [Finset.card_erase_of_mem member] at fewer
      have positive := Finset.card_pos.mpr ⟨index, member⟩
      rw [List.length_append, List.length_singleton]
      omega

/-- An entry whose base is ready is in the queue afterwards. -/
theorem mem_enqueueReadyDeferred (queue : state.Queue)
    (unresolved : ¬ state.Resolved index) (ready : state.baseReady index = true) :
    index ∈ (state.enqueueReadyDeferred index).readyDeferred := by
  unfold enqueueReadyDeferred
  split
  · next closed =>
    simp only [Bool.or_eq_true, Bool.not_eq_true', ready,
      Bool.true_eq_false, or_false] at closed
    rcases closed with queued | resolved
    · exact (queue.queued index).mp queued
    · exact absurd resolved unresolved
  · exact List.mem_append_right _ (List.mem_singleton.mpr rfl)

theorem enqueueReadyDeferred_frame (state : ResolveState Oid objectCount)
    (index : Fin objectCount) :
    (state.enqueueReadyDeferred index).baseIndex = state.baseIndex ∧
      (state.enqueueReadyDeferred index).waiting = state.waiting ∧
      (state.enqueueReadyDeferred index).waitingOnBase =
        state.waitingOnBase := by
  unfold enqueueReadyDeferred
  split
  · exact ⟨rfl, rfl, rfl⟩
  · exact ⟨rfl, rfl, rfl⟩

/-! ## Waking what registered on a base -/

theorem registeredBase_enqueues (state : ResolveState Oid objectCount)
    (registeredBase : Fin objectCount → Option (Fin objectCount)) :
    Enqueues state { state with registeredBase := registeredBase } :=
  enqueues_of_frame rfl rfl rfl (fun _ _ points => points) rfl rfl

theorem wakeDependent_enqueues (state : ResolveState Oid objectCount)
    (index : Fin objectCount) : Enqueues state (state.wakeDependent index) :=
  (registeredBase_enqueues state _).trans
    (enqueueReadyDeferred_enqueues _ index)

theorem wakeDependent_frame (state : ResolveState Oid objectCount)
    (index : Fin objectCount) :
    (state.wakeDependent index).baseIndex = state.baseIndex ∧
      (state.wakeDependent index).waiting = state.waiting ∧
      (state.wakeDependent index).waitingOnBase = state.waitingOnBase :=
  enqueueReadyDeferred_frame _ index

/-- Waking a list of entries queues all of them that are ready. -/
theorem foldl_wakeDependent (items : List (Fin objectCount))
    (state : ResolveState Oid objectCount) :
    Enqueues state (items.foldl wakeDependent state) ∧
      (items.foldl wakeDependent state).baseIndex = state.baseIndex ∧
      (items.foldl wakeDependent state).waiting = state.waiting ∧
      (items.foldl wakeDependent state).waitingOnBase =
        state.waitingOnBase ∧
      (state.Queue → ∀ index ∈ items, ¬ state.Resolved index →
        state.baseReady index = true →
          index ∈ (items.foldl wakeDependent state).readyDeferred) := by
  induction items generalizing state with
  | nil =>
    refine ⟨Enqueues.refl state, rfl, rfl, rfl, ?_⟩
    intro _ index member
    cases member
  | cons item items ih =>
    rw [List.foldl_cons]
    have first := wakeDependent_enqueues state item
    rcases wakeDependent_frame state item with ⟨base, waiting, onBase⟩
    rcases ih (state.wakeDependent item) with
      ⟨rest, bases, waitings, onBases, woken⟩
    refine ⟨first.trans rest, bases.trans base, waitings.trans waiting,
      onBases.trans onBase, ?_⟩
    intro queue index member unresolved ready
    rcases List.mem_cons.mp member with rfl | later
    · apply rest.kept
      have prepared :=
        (registeredBase_enqueues state
          (Function.update state.registeredBase index none)).queue queue
      exact mem_enqueueReadyDeferred prepared unresolved ready
    · apply woken (first.queue queue) index later
      · exact fun resolved => unresolved (first.resolved.mp resolved)
      · exact first.baseReady ready

end ResolveState

/-! ## Waking what waited for an id -/

namespace ResolveOptions

variable {Oid : Type} {objectCount : Nat}
  {opts : ResolveOptions Oid objectCount}

/-- Giving an entry its first base queues nothing by itself. -/
theorem newBase_enqueues {state : ResolveState Oid objectCount}
    {index : Fin objectCount} (unbased : state.baseIndex index = none)
    (base : Fin objectCount) (deadlines : Fin objectCount → Nat) :
    ResolveState.Enqueues state
      { state with
        baseIndex := Function.update state.baseIndex index (some base)
        deadlines := deadlines } := by
  have based : ∀ other target, state.baseIndex other = some target →
      Function.update state.baseIndex index (some base) other =
        some target := by
    intro other target points
    have different : other ≠ index := by
      rintro rfl
      rw [unbased] at points
      cases points
    rw [Function.update_of_ne different]
    exact points
  exact ResolveState.enqueues_of_frame rfl rfl rfl based rfl rfl

theorem promoteWaiter_enqueues (resolvedIndex : Fin objectCount)
    (state : ResolveState Oid objectCount) (waiter : Fin objectCount) :
    ResolveState.Enqueues state
      (opts.promoteWaiter resolvedIndex state waiter) := by
  unfold promoteWaiter
  split
  · exact ResolveState.Enqueues.refl state
  · next unbased =>
    refine ResolveState.Enqueues.trans ?_
      (ResolveState.enqueueReadyDeferred_enqueues _ waiter)
    exact newBase_enqueues unbased resolvedIndex _

theorem promoteWaiter_frame (resolvedIndex : Fin objectCount)
    (state : ResolveState Oid objectCount) (waiter : Fin objectCount) :
    (opts.promoteWaiter resolvedIndex state waiter).waiting = state.waiting ∧
      (opts.promoteWaiter resolvedIndex state waiter).waitingOnBase =
        state.waitingOnBase := by
  unfold promoteWaiter
  split
  · exact ⟨rfl, rfl⟩
  · exact (ResolveState.enqueueReadyDeferred_frame _ waiter).2

theorem promoteWaiter_baseIndex (resolvedIndex : Fin objectCount)
    (state : ResolveState Oid objectCount) (waiter index : Fin objectCount) :
    (opts.promoteWaiter resolvedIndex state waiter).baseIndex index =
      if state.baseIndex index = none ∧ index = waiter then
        some resolvedIndex
      else
        state.baseIndex index := by
  unfold promoteWaiter
  split
  · next base points =>
    split
    · next both =>
      rcases both with ⟨none_, rfl⟩
      rw [points] at none_
      cases none_
    · rfl
  · next unbased =>
    rw [(ResolveState.enqueueReadyDeferred_frame _ waiter).1]
    by_cases same : index = waiter
    · subst same
      simp [unbased]
    · simp [same]

/-- Promoting a list of waiters gives those without a base the resolved entry,
and queues the ones that are not resolved. -/
theorem foldl_promoteWaiter (resolvedIndex : Fin objectCount)
    (waiters : List (Fin objectCount)) (state : ResolveState Oid objectCount) :
    ResolveState.Enqueues state
        (waiters.foldl (opts.promoteWaiter resolvedIndex) state) ∧
      (waiters.foldl (opts.promoteWaiter resolvedIndex) state).waiting =
        state.waiting ∧
      (waiters.foldl (opts.promoteWaiter resolvedIndex)
        state).waitingOnBase = state.waitingOnBase ∧
      (∀ index,
        (waiters.foldl (opts.promoteWaiter resolvedIndex) state).baseIndex
          index =
          if state.baseIndex index = none ∧ index ∈ waiters then
            some resolvedIndex
          else
            state.baseIndex index) ∧
      (state.Queue → state.Resolved resolvedIndex →
        ∀ index ∈ waiters, state.baseIndex index = none →
          ¬ state.Resolved index →
            index ∈ (waiters.foldl (opts.promoteWaiter resolvedIndex)
              state).readyDeferred) := by
  induction waiters generalizing state with
  | nil =>
    refine ⟨ResolveState.Enqueues.refl state, rfl, rfl, ?_, ?_⟩
    · intro index
      simp
    · intro _ _ index member
      cases member
  | cons waiter waiters ih =>
    rw [List.foldl_cons]
    have first := @promoteWaiter_enqueues _ _ opts resolvedIndex state waiter
    have base := @promoteWaiter_baseIndex _ _ opts resolvedIndex state waiter
    rcases @promoteWaiter_frame _ _ opts resolvedIndex state waiter with
      ⟨waiting, onBase⟩
    rcases ih (opts.promoteWaiter resolvedIndex state waiter) with
      ⟨rest, waitings, onBases, bases, woken⟩
    refine ⟨first.trans rest, waitings.trans waiting, onBases.trans onBase,
      ?_, ?_⟩
    · intro index
      rw [bases, base]
      by_cases same : index = waiter
      · subst same
        cases points : state.baseIndex index <;> simp
      · simp [same]
    · intro queue resolved index member unbased unresolved
      by_cases same : index = waiter
      · subst same
        apply rest.kept
        unfold promoteWaiter
        simp only [unbased]
        apply ResolveState.mem_enqueueReadyDeferred
        · exact (newBase_enqueues unbased resolvedIndex _).queue queue
        · exact unresolved
        · apply ResolveState.baseReady_iff.mpr
          refine ⟨resolvedIndex, ?_, resolved⟩
          simp
      · rcases List.mem_cons.mp member with equal | later
        · exact absurd equal same
        · apply woken (first.queue queue) (first.resolved.mpr resolved)
            index later
          · rw [base]
            simp [same, unbased]
          · exact fun other => unresolved (first.resolved.mp other)

end ResolveOptions

end GitOnCloudflare.Pack
