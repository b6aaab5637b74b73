import GitOnCloudflare.Pack.ResolutionLive

/-!
# The passes of delta resolution

When every entry has a finite chain, no pass fails, and each pass keeps the
invariant.
-/

namespace GitOnCloudflare.Pack

open Foundations
open Relation

namespace ResolveOptions

variable {Oid : Type} {objectCount : Nat}
  {opts : ResolveOptions Oid objectCount}

/-! ## Changes the invariant does not read -/

variable {state : ResolveState Oid objectCount}
  {scheduled : Fin objectCount → Prop}

theorem Live.withLru (live : opts.Live scheduled state)
    {lru : PayloadLRU objectCount} (caches : opts.Caches lru) :
    opts.Live scheduled { state with lru := lru } where
  sound := live.sound.withLru caches
  grounded := ⟨live.grounded.based, live.grounded.external,
    live.grounded.ends⟩
  queue := ⟨live.queue.queued, live.queue.distinct, live.queue.ready⟩
  wakes := ⟨live.wakes.ready, live.wakes.onBase, live.wakes.onOid,
    live.wakes.ofsLinked, live.wakes.refReady⟩
  whole := live.whole
  counted := live.counted

theorem Live.withDeferred (live : opts.Live scheduled state)
    (deferred : List (Fin objectCount)) :
    opts.Live scheduled { state with deferred := deferred } where
  sound := live.sound.congr rfl rfl rfl rfl rfl rfl
  grounded := ⟨live.grounded.based, live.grounded.external,
    live.grounded.ends⟩
  queue := ⟨live.queue.queued, live.queue.distinct, live.queue.ready⟩
  wakes := ⟨live.wakes.ready, live.wakes.onBase, live.wakes.onOid,
    live.wakes.ofsLinked, live.wakes.refReady⟩
  whole := live.whole
  counted := live.counted

theorem Live.atOffsetOf (live : opts.Live scheduled state)
    (index : Fin objectCount) :
    opts.Live scheduled (opts.atOffsetOf state index) :=
  live.withLru live.sound.cached

theorem Live.cacheResolvedBaseIfNeeded (live : opts.Live scheduled state)
    (index : Fin objectCount) :
    opts.Live scheduled (opts.cacheResolvedBaseIfNeeded state index) := by
  unfold ResolveOptions.cacheResolvedBaseIfNeeded
  split
  · next read => exact live.withLru (live.sound.cached.get read).2
  · split
    · split
      · exact live
      · next object full =>
        exact live.withLru (live.sound.cached.set (.full full) _)
    · exact live

theorem cacheResolvedBaseIfNeeded_frame
    (state : ResolveState Oid objectCount) (index : Fin objectCount) :
    (opts.cacheResolvedBaseIfNeeded state index).oids = state.oids ∧
      (opts.cacheResolvedBaseIfNeeded state index).baseIndex =
        state.baseIndex ∧
      (opts.cacheResolvedBaseIfNeeded state index).deferred =
        state.deferred := by
  unfold cacheResolvedBaseIfNeeded
  split
  · exact ⟨rfl, rfl, rfl⟩
  · split
    · split
      · exact ⟨rfl, rfl, rfl⟩
      · exact ⟨rfl, rfl, rfl⟩
    · exact ⟨rfl, rfl, rfl⟩

/-- Only entries that are ready to be resolved need to stay scheduled. -/
theorem Live.reschedule {later : Fin objectCount → Prop}
    (live : opts.Live scheduled state)
    (still : ∀ index, ¬ state.Resolved index →
      state.baseReady index = true → scheduled index → later index) :
    opts.Live later state where
  sound := live.sound
  grounded := live.grounded
  queue := live.queue
  wakes :=
    { ready := by
        intro index base open_ points settled
        rcases live.wakes.ready index base open_ points settled with
          queued | waits
        · exact .inl queued
        · right
          apply still index open_ _ waits
          exact ResolveState.baseReady_iff.mpr ⟨base, points, settled⟩
      onBase := live.wakes.onBase
      onOid := live.wakes.onOid
      ofsLinked := live.wakes.ofsLinked
      refReady := live.wakes.refReady }
  whole := live.whole
  counted := live.counted

theorem Live.enqueueReadyDeferred (live : opts.Live scheduled state)
    (index : Fin objectCount) :
    opts.Live scheduled (state.enqueueReadyDeferred index) := by
  have enqueues := ResolveState.enqueueReadyDeferred_enqueues state index
  rcases ResolveState.enqueueReadyDeferred_frame state index with
    ⟨baseIndex, waiting, onBase⟩
  refine
    { sound := live.sound.enqueueReadyDeferred index
      grounded := ?_
      queue := enqueues.queue live.queue
      wakes := ?_
      whole := ?_
      counted := ?_ }
  · refine ⟨?_, ?_, ?_⟩
    · intro other base
      rw [enqueues.resolved, enqueues.resolved, baseIndex]
      exact live.grounded.based other base
    · intro other
      rw [enqueues.resolved, baseIndex]
      exact live.grounded.external other
    · intro other
      rw [enqueues.resolved, baseIndex]
      exact live.grounded.ends other
  · refine ⟨?_, ?_, ?_, ?_, ?_⟩
    · intro other base
      rw [enqueues.resolved, enqueues.resolved, baseIndex]
      intro open_ points settled
      rcases live.wakes.ready other base open_ points settled with
        queued | waits
      · exact .inl (enqueues.kept other queued)
      · exact .inr waits
    · intro other base
      rw [enqueues.resolved, enqueues.resolved, baseIndex, onBase]
      exact live.wakes.onBase other base
    · intro other
      rw [enqueues.resolved, baseIndex, waiting, enqueues.oids]
      exact live.wakes.onOid other
    · intro other base
      rw [enqueues.resolved, baseIndex]
      exact live.wakes.ofsLinked other base
    · intro other oid base
      rw [enqueues.resolved, baseIndex]
      exact live.wakes.refReady other oid base
  · intro other full
    exact enqueues.resolved.mpr (live.whole other full)
  · rw [enqueues.counted, live.counted]
    congr 1
    ext other
    rw [Finset.mem_filter, Finset.mem_filter, enqueues.resolved]

/-! ## Progress -/

/-- Entries stay resolved and keep having a base. -/
structure Progress (state after : ResolveState Oid objectCount) : Prop where
  resolved : ∀ index, state.Resolved index → after.Resolved index
  based : ∀ index, (state.baseIndex index).isSome →
    (after.baseIndex index).isSome

theorem Progress.refl (state : ResolveState Oid objectCount) :
    Progress state state :=
  ⟨fun _ => id, fun _ => id⟩

theorem Progress.trans {first second third : ResolveState Oid objectCount}
    (left : Progress first second) (right : Progress second third) :
    Progress first third :=
  ⟨fun index => right.resolved index ∘ left.resolved index,
    fun index => right.based index ∘ left.based index⟩

theorem progress_of_enqueue (state : ResolveState Oid objectCount)
    (index : Fin objectCount) :
    Progress state (state.enqueueReadyDeferred index) := by
  have enqueues := ResolveState.enqueueReadyDeferred_enqueues state index
  constructor
  · intro other ready
    exact enqueues.resolved.mpr ready
  · intro other based
    rw [(ResolveState.enqueueReadyDeferred_frame state index).1]
    exact based

/-! ## Publishing as one step -/

section Steps

variable [DecidableEq Oid]

/-- Publish a result and count it. -/
def publishAndCount (opts : ResolveOptions Oid objectCount)
    (state : ResolveState Oid objectCount) (index : Fin objectCount)
    (object : GitObject) : ResolveState Oid objectCount :=
  { opts.publishResult true state index object with
    resolved := (opts.publishResult true state index object).resolved + 1 }

variable {index : Fin objectCount} {next : ResolveState Oid objectCount}
  {rest : List (Fin objectCount)} {rounds : Nat} {base result : GitObject}

theorem Live.publish {object : GitObject} (live : opts.Live scheduled state)
    (clear : opts.Clear state index) (unresolved : ¬ state.Resolved index)
    (based : opts.HasBase state index) (denotes : opts.Denotes index object) :
    opts.Live scheduled (opts.publishAndCount state index object) ∧
      Progress state (opts.publishAndCount state index object) ∧
      (opts.publishAndCount state index object).Resolved index ∧
      (opts.publishAndCount state index object).deferred =
        state.deferred ∧
      (state.idle index = true →
        (opts.publishAndCount state index object).backlog + 1 ≤
          state.backlog) := by
  have published :
      Published state (opts.publishResult true state index object) index
        (opts.computeOidBytes object) :=
    publishResult_published live.queue live.sound
  have wakes := live.wakes.published published
  have grounded :
      opts.Grounded (opts.publishResult true state index object) := by
    let redirected : Fin objectCount → Prop := fun other =>
      state.baseIndex other = none ∧
        other ∈ state.waiting (opts.computeOidBytes object)
    have avoids : ∀ other, redirected other →
        ¬ ReflTransGen (PointerChain.Follows state.baseIndex) index other :=
      fun other waits => clear object denotes other waits.2 waits.1
    have moved : ∀ other, redirected other →
        (opts.publishResult true state index object).baseIndex other =
          some index := by
      intro other waits
      rw [published.based, if_pos waits]
    have same : ∀ other, ¬ redirected other →
        (opts.publishResult true state index object).baseIndex other =
          state.baseIndex other := by
      intro other stays
      rw [published.based, if_neg stays]
    exact live.grounded.published based avoids moved same
      fun _ => published.resolved
  refine ⟨?_, ?_, ?_, published.deferred, ?_⟩
  · refine
      { sound := ?_
        grounded := ⟨grounded.based, grounded.external, grounded.ends⟩
        queue := ⟨published.queue.queued, published.queue.distinct,
          published.queue.ready⟩
        wakes := ⟨wakes.ready, wakes.onBase, wakes.onOid, wakes.ofsLinked,
          wakes.refReady⟩
        whole := ?_
        counted := ?_ }
    · exact (live.sound.publishResult true denotes).congr
        rfl rfl rfl rfl rfl rfl
    · intro other full
      exact published.resolved.mpr (.inr (live.whole other full))
    · have card :=
        card_resolved (fun _ => published.resolved) unresolved
      show (opts.publishResult true state index object).resolved + 1 = _
      rw [published.counted, live.counted]
      exact card.symm
  · constructor
    · intro other ready
      exact published.resolved.mpr (.inr ready)
    · intro other held
      show ((opts.publishResult true state index object).baseIndex
        other).isSome
      rw [published.based]
      split
      · rfl
      · exact held
  · exact published.resolved.mpr (.inl rfl)
  · exact published.backlog

/-- A round that resolved an entry kept the invariant. -/
theorem Live.resolveAndCount_keeps (live : opts.Live scheduled state)
    (addressed : opts.ContentAddressed) (clear : opts.Clear state index)
    (unresolved : ¬ state.Resolved index)
    (stepped : opts.resolveAndCount true state index = .ok next) :
    opts.Live scheduled next ∧ Progress state next ∧
      next.Resolved index ∧ next.deferred = state.deferred ∧
      (state.idle index = true → next.backlog + 1 ≤ state.backlog) := by
  rcases CheckedFold.bind_eq_ok.mp stepped with ⟨resolved, entry, counted⟩
  cases counted
  rcases resolveDeltaEntry_cases addressed live.sound entry with
    ⟨base, lru, result, points, settled, caches, denotes, rfl⟩
  have kept := live.withLru caches
  rcases kept.publish clear unresolved (.inl ⟨base, points, settled⟩)
      denotes with ⟨after, progress, done, deferred, fewer⟩
  exact ⟨after, ⟨progress.resolved, progress.based⟩, done, deferred, fewer⟩

/-- Resolving an entry whose base is ready. -/
theorem Live.resolveAndCount (live : opts.Live scheduled state)
    (addressed : opts.ContentAddressed)
    (denoted : ∃ object, opts.Denotes index object)
    (clear : opts.Clear state index) (unresolved : ¬ state.Resolved index)
    (ready : state.baseReady index = true) :
    ∃ next, opts.resolveAndCount true state index = .ok next ∧
      opts.Live scheduled next ∧ Progress state next ∧
      next.Resolved index ∧ next.deferred = state.deferred ∧
      (state.idle index = true → next.backlog + 1 ≤ state.backlog) := by
  rcases ResolveState.baseReady_iff.mp ready with ⟨base, points, settled⟩
  rcases resolveDeltaEntry_total addressed denoted live.sound live.grounded
      true points settled with ⟨lru, result, _, _, entry⟩
  have stepped : opts.resolveAndCount true state index = .ok _ :=
    CheckedFold.bind_eq_ok.mpr ⟨_, entry, rfl⟩
  exact ⟨_, stepped,
    live.resolveAndCount_keeps addressed clear unresolved stepped⟩

omit [DecidableEq Oid] in
/-- An entry whose base is ready is due. -/
theorem Live.due (live : opts.Live scheduled state)
    (ready : state.baseReady index = true) : opts.Due state index where
  sound := live.sound
  grounded := live.grounded
  queue := live.queue
  based := .inl (ResolveState.baseReady_iff.mp ready)

/-! ## The main pass -/

variable (opts) in
/-- Between two rounds of the main pass: what was visited is resolved or
deferred. -/
structure MainPass (seen : List (Fin objectCount))
    (state : ResolveState Oid objectCount) : Prop where
  live : opts.Live (fun index => index ∉ seen) state
  covered : ∀ index ∈ seen, ¬ state.Resolved index →
    index ∈ state.deferred

theorem mixedMainStep_total (addressed : opts.ContentAddressed)
    {seen : List (Fin objectCount)} (pass : opts.MainPass seen state)
    (clear : ¬ state.Resolved index → state.baseReady index = true →
      opts.Due state index → opts.Clear state index)
    (denoted : ¬ state.Resolved index → state.baseReady index = true →
      ∃ object, opts.Denotes index object) :
    ∃ next, opts.mixedMainStep state index = .ok next ∧
      opts.MainPass (seen ++ [index]) next := by
  have placed := pass.live.atOffsetOf index
  unfold mixedMainStep
  simp only
  by_cases resolved :
      ((opts.atOffsetOf state index).oids index).isSome = true
  · rw [if_pos resolved]
    rcases @cacheResolvedBaseIfNeeded_frame _ _ opts
        (opts.atOffsetOf state index) index with ⟨oids, _, deferred⟩
    have same : ∀ other,
        (opts.cacheResolvedBaseIfNeeded (opts.atOffsetOf state index)
          index).Resolved other ↔ state.Resolved other := by
      intro other
      unfold ResolveState.Resolved
      rw [oids]
      rfl
    refine ⟨_, rfl, ?_, ?_⟩
    · apply (placed.cacheResolvedBaseIfNeeded index).reschedule
      intro other open_ _ unseen member
      rcases List.mem_append.mp member with earlier | last
      · exact unseen earlier
      · rw [List.mem_singleton.mp last] at open_
        exact open_ ((same index).mpr resolved)
    · intro other member open_
      rw [deferred]
      rcases List.mem_append.mp member with earlier | last
      · exact pass.covered other earlier fun ready =>
          open_ ((same other).mpr ready)
      · rw [List.mem_singleton.mp last] at open_
        exact absurd ((same index).mpr resolved) open_
  · rw [if_neg resolved]
    by_cases ready : (opts.atOffsetOf state index).baseReady index = true
    · rw [if_pos ready]
      rcases placed.resolveAndCount addressed (denoted resolved ready)
          (clear resolved ready (pass.live.due ready)) resolved ready with
        ⟨next, stepped, live, progress, settled, deferred, _⟩
      refine ⟨next, stepped, ?_, ?_⟩
      · apply live.reschedule
        intro other open_ _ unseen member
        rcases List.mem_append.mp member with earlier | last
        · exact unseen earlier
        · rw [List.mem_singleton.mp last] at open_
          exact open_ settled
      · intro other member open_
        rw [deferred]
        rcases List.mem_append.mp member with earlier | last
        · exact pass.covered other earlier fun before =>
            open_ (progress.resolved other before)
        · rw [List.mem_singleton.mp last] at open_
          exact absurd settled open_
    · rw [if_neg ready]
      refine ⟨_, rfl, ?_, ?_⟩
      · apply (placed.withDeferred _).reschedule
        intro other _ otherReady unseen member
        rcases List.mem_append.mp member with earlier | last
        · exact unseen earlier
        · rw [List.mem_singleton.mp last] at otherReady
          exact ready otherReady
      · intro other member open_
        rcases List.mem_append.mp member with earlier | last
        · exact List.mem_append_left _ (pass.covered other earlier open_)
        · exact List.mem_append_right _ last

/-! ## The queue -/

/-- The state after the first entry was taken from the queue. -/
def takeFirst (state : ResolveState Oid objectCount) (index : Fin objectCount)
    (rest : List (Fin objectCount)) : ResolveState Oid objectCount :=
  { state with
    readyDeferred := rest
    deferredQueued := Function.update state.deferredQueued index false }

omit [DecidableEq Oid] in
theorem takeFirst_queue (queue : state.Queue)
    (first : state.readyDeferred = index :: rest) :
    (takeFirst state index rest).Queue := by
  have distinct := queue.distinct
  rw [first, List.nodup_cons] at distinct
  refine ⟨?_, distinct.2, ?_⟩
  · intro other
    by_cases same : other = index
    · subst same
      simp [takeFirst, distinct.1]
    · simp only [takeFirst, Function.update_of_ne same]
      rw [queue.queued, first, List.mem_cons]
      simp [same]
  · intro other later
    apply queue.ready other
    rw [first]
    exact List.mem_cons_of_mem _ later

omit [DecidableEq Oid] in
theorem Live.takeFirst (live : opts.Live (fun _ => False) state)
    (first : state.readyDeferred = index :: rest) :
    opts.Live (fun other => other = index)
      (ResolveOptions.takeFirst state index rest) := by
  refine
    { sound := live.sound.congr rfl rfl rfl rfl rfl rfl
      grounded := ⟨live.grounded.based, live.grounded.external,
        live.grounded.ends⟩
      queue := takeFirst_queue live.queue first
      wakes := ?_
      whole := live.whole
      counted := live.counted }
  refine ⟨?_, live.wakes.onBase, live.wakes.onOid, live.wakes.ofsLinked,
    live.wakes.refReady⟩
  intro other base open_ points settled
  rcases live.wakes.ready other base open_ points settled with
    queued | impossible
  · rw [first, List.mem_cons] at queued
    exact queued.symm
  · exact impossible.elim

omit [DecidableEq Oid] in
theorem takeFirst_backlog (first : state.readyDeferred = index :: rest) :
    (takeFirst state index rest).backlog ≤ state.backlog ∧
      (state.Resolved index →
        (takeFirst state index rest).backlog + 1 ≤ state.backlog) := by
  have length : state.readyDeferred.length = rest.length + 1 := by
    rw [first, List.length_cons]
  have idle : ∀ other, other ≠ index →
      (takeFirst state index rest).idle other = state.idle other := by
    intro other different
    simp [ResolveState.idle, takeFirst, different]
  unfold ResolveState.backlog
  rw [length]
  constructor
  · have grown :
        (Finset.univ.filter fun other =>
          (takeFirst state index rest).idle other = true) ⊆
          insert index
            (Finset.univ.filter fun other => state.idle other = true) := by
      intro other member
      rw [Finset.mem_filter] at member
      rw [Finset.mem_insert, Finset.mem_filter]
      by_cases same : other = index
      · exact .inl same
      · rw [idle other same] at member
        exact .inr member
    have more := (Finset.card_le_card grown).trans (Finset.card_insert_le _ _)
    have shorter :
        (takeFirst state index rest).readyDeferred = rest := rfl
    rw [shorter]
    omega
  · intro resolved
    have kept :
        (Finset.univ.filter fun other =>
          (takeFirst state index rest).idle other = true) ⊆
          Finset.univ.filter fun other => state.idle other = true := by
      intro other member
      rw [Finset.mem_filter] at member ⊢
      by_cases same : other = index
      · subst same
        have still := member.2
        unfold ResolveState.idle at still
        rw [Bool.and_eq_true, Option.isNone_iff_eq_none] at still
        exact absurd resolved (ResolveState.not_resolved_iff.mpr still.1)
      · rw [idle other same] at member
        exact member
    have fewer := Finset.card_le_card kept
    have shorter :
        (takeFirst state index rest).readyDeferred = rest := rfl
    rw [shorter]
    omega

omit [DecidableEq Oid] in
/-- An entry that was resolved when its turn came. -/
theorem Live.skip (live : opts.Live (fun _ => False) state)
    (first : state.readyDeferred = index :: rest)
    (resolved : state.Resolved index) :
    opts.Live (fun _ => False) (ResolveOptions.takeFirst state index rest) := by
  apply (live.takeFirst first).reschedule
  intro other open_ _ same
  rw [same] at open_
  exact open_ resolved

/-- The entry that a drain resolves next. -/
def AtFront (state : ResolveState Oid objectCount)
    (index : Fin objectCount) : Prop :=
  (∃ rest, state.readyDeferred = index :: rest) ∧
    ¬ state.Resolved index ∧ state.baseReady index = true

variable (opts) in
/-- Every entry that a drain from here turns to is clear once it is due. -/
def DrainsClear (state : ResolveState Oid objectCount) : Prop :=
  ∀ rounds next index, opts.drainQueue rounds state = .ok next →
    AtFront next index → opts.Due next index → opts.Clear next index

theorem drainQueue_skip (first : state.readyDeferred = index :: rest)
    (resolved : state.Resolved index) :
    opts.drainQueue (rounds + 1) state =
      opts.drainQueue rounds (takeFirst state index rest) := by
  have done :
      (((takeFirst state index rest).oids index).isSome ||
        !(takeFirst state index rest).baseReady index) = true := by
    rw [Bool.or_eq_true]
    exact .inl resolved
  rw [drainQueue, first]
  simp only [takeFirst] at done ⊢
  rw [if_pos done]

theorem drainQueue_resolve (first : state.readyDeferred = index :: rest)
    (unresolved : ¬ state.Resolved index) (ready : state.baseReady index = true) :
    opts.drainQueue (rounds + 1) state =
      (opts.resolveAndCount true
        (opts.atOffsetOf (takeFirst state index rest) index) index >>=
          opts.drainQueue rounds) := by
  have still : (takeFirst state index rest).baseReady index = true := ready
  have open_ :
      ¬ (((takeFirst state index rest).oids index).isSome ||
        !(takeFirst state index rest).baseReady index) = true := by
    rw [Bool.or_eq_true, still]
    simp only [Bool.not_true, Bool.false_eq_true, or_false]
    exact unresolved
  rw [drainQueue, first]
  simp only [takeFirst] at open_ ⊢
  rw [if_neg open_]

omit [DecidableEq Oid] in
theorem Live.front (live : opts.Live (fun _ => False) state)
    (first : state.readyDeferred = index :: rest) :
    state.baseReady index = true := by
  apply live.queue.ready index
  rw [first]
  exact List.mem_cons_self

/-- The entry at the front of the queue is resolved. -/
theorem Live.resolveFirst_keeps {stepped : ResolveState Oid objectCount}
    (live : opts.Live (fun _ => False) state)
    (addressed : opts.ContentAddressed) (clear : opts.DrainsClear state)
    (first : state.readyDeferred = index :: rest)
    (unresolved : ¬ state.Resolved index)
    (step : opts.resolveAndCount true
      (opts.atOffsetOf (ResolveOptions.takeFirst state index rest) index) index =
        .ok stepped) :
    opts.Live (fun _ => False) stepped ∧ Progress state stepped ∧
      stepped.backlog + 1 ≤ state.backlog := by
  have ready := live.front first
  have front : AtFront state index := ⟨⟨rest, first⟩, unresolved, ready⟩
  have clearHere : opts.Clear state index :=
    clear 0 state index rfl front (live.due ready)
  have placed := (live.takeFirst first).atOffsetOf index
  rcases placed.resolveAndCount_keeps addressed clearHere unresolved step with
    ⟨after, progress, settled, _, fewer⟩
  refine ⟨?_, ⟨progress.resolved, progress.based⟩, ?_⟩
  · apply after.reschedule
    intro other open_ _ same
    rw [same] at open_
    exact open_ settled
  · have idle :
        (opts.atOffsetOf (ResolveOptions.takeFirst state index rest) index).idle index =
          true := by
      have none_ := ResolveState.not_resolved_iff.mp unresolved
      simp [ResolveState.idle, ResolveOptions.atOffsetOf,
        ResolveOptions.takeFirst, none_]
    exact (fewer idle).trans (takeFirst_backlog first).1

theorem Live.resolveFirst (live : opts.Live (fun _ => False) state)
    (addressed : opts.ContentAddressed)
    (denoted : ∃ object, opts.Denotes index object)
    (clear : opts.DrainsClear state)
    (first : state.readyDeferred = index :: rest)
    (unresolved : ¬ state.Resolved index) :
    ∃ stepped, opts.resolveAndCount true
        (opts.atOffsetOf (ResolveOptions.takeFirst state index rest) index) index =
          .ok stepped ∧
      opts.Live (fun _ => False) stepped ∧ Progress state stepped := by
  have ready := live.front first
  have front : AtFront state index := ⟨⟨rest, first⟩, unresolved, ready⟩
  have clearHere : opts.Clear state index :=
    clear 0 state index rfl front (live.due ready)
  have placed := (live.takeFirst first).atOffsetOf index
  rcases placed.resolveAndCount addressed denoted clearHere unresolved ready
    with ⟨stepped, step, _⟩
  have kept := live.resolveFirst_keeps addressed clear first unresolved step
  exact ⟨stepped, step, kept.1, kept.2.1⟩

/-- A drain keeps the invariant, and with enough rounds it empties the
queue. -/
theorem drainQueue_keeps (addressed : opts.ContentAddressed)
    (live : opts.Live (fun _ => False) state) (clear : opts.DrainsClear state)
    (drained : opts.drainQueue rounds state = .ok next) :
    opts.Live (fun _ => False) next ∧ Progress state next ∧
      (state.backlog ≤ rounds → next.readyDeferred = []) := by
  induction rounds generalizing state with
  | zero =>
    cases drained
    refine ⟨live, Progress.refl _, ?_⟩
    intro enough
    rw [← List.length_eq_zero_iff]
    unfold ResolveState.backlog at enough
    omega
  | succ rounds ih =>
    cases first : state.readyDeferred with
    | nil =>
      rw [drainQueue, first] at drained
      cases drained
      exact ⟨live, Progress.refl _, fun _ => first⟩
    | cons index rest =>
      rcases takeFirst_backlog first with ⟨bounded, shrinks⟩
      by_cases resolved : state.Resolved index
      · rw [drainQueue_skip first resolved] at drained
        have later : opts.DrainsClear (takeFirst state index rest) := by
          intro more after front reached
          exact clear (more + 1) after front
            ((drainQueue_skip first resolved).trans reached)
        rcases ih (live.skip first resolved) later drained with
          ⟨after, progress, empty⟩
        refine ⟨after, ⟨progress.resolved, progress.based⟩, ?_⟩
        intro enough
        have smaller := shrinks resolved
        exact empty (by omega)
      · rw [drainQueue_resolve first resolved (live.front first)] at drained
        rcases CheckedFold.bind_eq_ok.mp drained with
          ⟨stepped, step, further⟩
        have later : opts.DrainsClear stepped := by
          intro more after front reached
          apply clear (more + 1) after front
          rw [drainQueue_resolve first resolved (live.front first)]
          exact CheckedFold.bind_eq_ok.mpr ⟨stepped, step, reached⟩
        rcases live.resolveFirst_keeps addressed clear first resolved step with
          ⟨unscheduled, progress, fewer⟩
        rcases ih unscheduled later further with ⟨final, onward, empty⟩
        have whole := Progress.trans progress onward
        refine ⟨final, ⟨whole.resolved, whole.based⟩, ?_⟩
        intro enough
        exact empty (by omega)

/-- The queue is emptied, and every entry in it is resolved. -/
theorem drainQueue_total (addressed : opts.ContentAddressed)
    (all : opts.AllDenote) (rounds : Nat)
    (live : opts.Live (fun _ => False) state) (clear : opts.DrainsClear state) :
    ∃ next, opts.drainQueue rounds state = .ok next := by
  induction rounds generalizing state with
  | zero => exact ⟨state, rfl⟩
  | succ rounds ih =>
    cases first : state.readyDeferred with
    | nil => exact ⟨state, by rw [drainQueue, first]⟩
    | cons index rest =>
      by_cases resolved : state.Resolved index
      · rw [drainQueue_skip first resolved]
        apply ih (live.skip first resolved)
        intro more after front reached
        exact clear (more + 1) after front
          ((drainQueue_skip first resolved).trans reached)
      · rcases live.resolveFirst addressed (all index) clear first
          resolved with ⟨stepped, step, unscheduled, _⟩
        rw [drainQueue_resolve first resolved (live.front first), step]
        apply ih unscheduled
        intro more after front reached
        apply clear (more + 1) after front
        rw [drainQueue_resolve first resolved (live.front first)]
        exact CheckedFold.bind_eq_ok.mpr ⟨stepped, step, reached⟩

omit [DecidableEq Oid] in
theorem backlog_le (state : ResolveState Oid objectCount) :
    state.backlog ≤ state.readyDeferred.length + objectCount := by
  unfold ResolveState.backlog
  have bound := Finset.card_le_univ
    (Finset.univ.filter fun index => state.idle index = true)
  rw [Fintype.card_fin] at bound
  omega

theorem drainReadyDeferredQueue_total (addressed : opts.ContentAddressed)
    (all : opts.AllDenote) (live : opts.Live (fun _ => False) state)
    (clear : opts.DrainsClear state) :
    ∃ next, opts.drainReadyDeferredQueue state = .ok next ∧
      opts.Live (fun _ => False) next ∧ next.readyDeferred = [] ∧
      Progress state next := by
  rcases drainQueue_total addressed all
      (state.readyDeferred.length + objectCount) live clear with
    ⟨next, drained⟩
  rcases drainQueue_keeps addressed live clear drained with
    ⟨after, progress, empty⟩
  exact ⟨next, drained, after, empty (backlog_le state), progress⟩

/-! ## The external fallback -/

variable (opts) in
/-- A deferred entry that the fallback has looked at. -/
def Tried (state : ResolveState Oid objectCount)
    (index : Fin objectCount) : Prop :=
  state.Resolved index ∨ (state.baseIndex index).isSome ∨
    (opts.refBaseOid index).bind opts.readExternalBaseObject = none

omit [DecidableEq Oid] in
theorem Tried.progress {after : ResolveState Oid objectCount}
    (tried : opts.Tried state index) (progress : Progress state after) :
    opts.Tried after index := by
  rcases tried with resolved | based | missing
  · exact .inl (progress.resolved index resolved)
  · exact .inr (.inl (progress.based index based))
  · exact .inr (.inr missing)

omit [DecidableEq Oid] in
/-- Once every chain inside the pack is resolved, an entry that still waits
for an id has its base outside. -/
theorem Live.no_insideHolder (live : opts.Live scheduled state)
    (addressed : opts.ContentAddressed) {oid : Oid}
    (unresolved : ¬ state.Resolved index)
    (unbased : state.baseIndex index = none)
    (kind : opts.kind index = .refDelta oid)
    (settledInside : ∀ entry object, opts.DenotesInside entry object →
      state.Resolved entry) : ¬ opts.InsideHolder oid := by
  rintro ⟨holder, object, inside, same⟩
  rcases live.wakes.onOid index unresolved unbased with
    ⟨waited, other, _, nobody⟩
  cases kind.symm.trans other
  rcases Option.isSome_iff_exists.mp (settledInside holder object inside) with
    ⟨stored, isStored⟩
  rcases live.sound.stored holder stored isStored with
    ⟨held, denotes, computed, _⟩
  cases denotes.unique addressed inside.denotes
  apply nobody holder
  rw [isStored, computed, same]

variable (opts) in
/-- The fallback comes to an entry whose base the lookup has. -/
structure FallsBack (state : ResolveState Oid objectCount)
    (index : Fin objectCount) (base : GitObject) : Prop where
  unresolved : ¬ state.Resolved index
  unbased : state.baseIndex index = none
  external :
    (opts.refBaseOid index).bind opts.readExternalBaseObject = some base

variable (opts) in
/-- Where the fallback resolves an entry, the entry and those that the drain
after it turns to are clear once they are due. -/
structure FallsClear (state : ResolveState Oid objectCount)
    (index : Fin objectCount) : Prop where
  here : ∀ base, opts.FallsBack state index base → opts.Due state index →
    opts.Clear state index
  later : ∀ base result, opts.FallsBack state index base →
    opts.applyEntryDelta "resolve: deferred delta" index base = .ok result →
      opts.DrainsClear
        (opts.publishAndCount (opts.atOffsetOf state index) index result)

omit [DecidableEq Oid] in
/-- Where the fallback resolves an entry, the entry is due. -/
theorem FallsBack.due (falls : opts.FallsBack state index base)
    (live : opts.Live (fun _ => False) state)
    (addressed : opts.ContentAddressed)
    (settledInside : ∀ entry object, opts.DenotesInside entry object →
      state.Resolved entry) : opts.Due state index := by
  rcases Option.bind_eq_some_iff.mp falls.external with
    ⟨oid, refBase, found⟩
  have kind := refBaseOid_eq_some.mp refBase
  refine ⟨live.sound, live.grounded, live.queue,
    .inr ⟨falls.unbased, oid, kind, Option.isSome_of_eq_some found, ?_⟩⟩
  exact live.no_insideHolder addressed falls.unresolved falls.unbased kind
    settledInside

omit [DecidableEq Oid] in
theorem FallsBack.denotes (falls : opts.FallsBack state index base)
    (applied : opts.applyEntryDelta "resolve: deferred delta" index base =
      .ok result) : opts.Denotes index result := by
  rcases Option.bind_eq_some_iff.mp falls.external with
    ⟨oid, refBase, found⟩
  exact .external (refBaseOid_eq_some.mp refBase) found
    (applyEntryDelta_eq_ok.mp applied)

omit [DecidableEq Oid] in
theorem FallsBack.applied (falls : opts.FallsBack state index base)
    (addressed : opts.ContentAddressed) (denotes : opts.Denotes index result) :
    opts.applyEntryDelta "resolve: deferred delta" index base =
      .ok result := by
  rcases Option.bind_eq_some_iff.mp falls.external with
    ⟨oid, refBase, found⟩
  have kind := refBaseOid_eq_some.mp refBase
  have same := addressed.external oid base found
  exact applyEntryDelta_eq_ok.mpr
    (denotes.applies_of_base addressed (.refDelta (same.symm ▸ kind)))

/-- An entry that the fallback resolves is published with its base outside
the pack. -/
theorem FallsBack.publish (falls : opts.FallsBack state index base)
    (live : opts.Live (fun _ => False) state) (due : opts.Due state index)
    (clear : opts.FallsClear state index)
    (applied : opts.applyEntryDelta "resolve: deferred delta" index base =
      .ok result) :
    opts.Live (fun _ => False)
        (opts.publishAndCount (opts.atOffsetOf state index) index result) ∧
      Progress state
        (opts.publishAndCount (opts.atOffsetOf state index) index result) ∧
      (opts.publishAndCount (opts.atOffsetOf state index) index
        result).Resolved index := by
  have placed := live.atOffsetOf index
  rcases placed.publish (clear.here base falls due) falls.unresolved due.based
      (falls.denotes applied) with ⟨after, progress, settled, _⟩
  exact ⟨after, ⟨progress.resolved, progress.based⟩, settled⟩

theorem fallbackStep_keeps (addressed : opts.ContentAddressed)
    (live : opts.Live (fun _ => False) state)
    (settledInside : ∀ entry object, opts.DenotesInside entry object →
      state.Resolved entry) (clear : opts.FallsClear state index)
    (stepped : opts.fallbackStep state index = .ok next) :
    opts.Live (fun _ => False) next ∧ Progress state next ∧
      opts.Tried next index := by
  unfold fallbackStep at stepped
  split at stepped
  · next resolved =>
    cases stepped
    exact ⟨live, Progress.refl state, .inl resolved⟩
  · next unresolved =>
    split at stepped
    · next based =>
      cases stepped
      have progress := progress_of_enqueue state index
      exact ⟨live.enqueueReadyDeferred index, progress,
        .inr (.inl (progress.based index based))⟩
    · next based =>
      split at stepped
      · next missing =>
        cases stepped
        exact ⟨live, Progress.refl state, .inr (.inr missing)⟩
      · next base external =>
        rcases CheckedFold.bind_eq_ok.mp stepped with
          ⟨result, applied, drained⟩
        have falls : opts.FallsBack state index base :=
          ⟨unresolved, Option.not_isSome_iff_eq_none.mp based, external⟩
        rcases falls.publish live
            (falls.due live addressed settledInside) clear applied with
          ⟨after, progress, settled⟩
        rcases drainQueue_keeps addressed after
            (clear.later base result falls applied) drained with
          ⟨final, further, _⟩
        exact ⟨final, progress.trans further,
          .inl (further.resolved index settled)⟩

theorem fallbackStep_total (addressed : opts.ContentAddressed)
    (all : opts.AllDenote) (live : opts.Live (fun _ => False) state)
    (settledInside : ∀ entry object, opts.DenotesInside entry object →
      state.Resolved entry) (index : Fin objectCount)
    (clear : opts.FallsClear state index) :
    ∃ next, opts.fallbackStep state index = .ok next := by
  unfold fallbackStep
  by_cases resolved : (state.oids index).isSome = true
  · exact ⟨state, if_pos resolved⟩
  · rw [if_neg resolved]
    by_cases based : (state.baseIndex index).isSome = true
    · exact ⟨_, if_pos based⟩
    · rw [if_neg based]
      cases external :
          (opts.refBaseOid index).bind opts.readExternalBaseObject with
      | none => exact ⟨state, rfl⟩
      | some base =>
        rcases all index with ⟨result, denotes⟩
        have falls : opts.FallsBack state index base :=
          ⟨resolved, Option.not_isSome_iff_eq_none.mp based, external⟩
        have applied := falls.applied addressed denotes
        rcases falls.publish live
            (falls.due live addressed settledInside) clear
            applied with ⟨after, _⟩
        rcases drainReadyDeferredQueue_total addressed all after
            (clear.later base result falls applied) with ⟨next, drained, _⟩
        exact ⟨next, CheckedFold.bind_eq_ok.mpr ⟨result, applied, drained⟩⟩

end Steps

end ResolveOptions

end GitOnCloudflare.Pack
