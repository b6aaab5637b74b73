import GitOnCloudflare.Pack.DeltaChain

/-!
# Soundness of delta resolution

Whatever the wake-ups do, the arrays only ever hold objects that the chains of
their entries denote, and bases that the entries may take.
-/

namespace GitOnCloudflare.Pack

open Foundations

/-! ## The cache returns what was put in -/

variable {object : GitObject}
  {object : GitObject}

namespace PayloadLRU

variable {objectCount : Nat} {lru : PayloadLRU objectCount}
  {index : Fin objectCount}

theorem mem_of_get {touched : PayloadLRU objectCount}
    (read : lru.get index = some (object, touched)) :
    (index, object) ∈ lru.items ∧
      ∀ item ∈ touched.items, item ∈ lru.items := by
  unfold get at read
  split at read
  · cases read
  · next item found =>
    cases read
    have member := List.mem_of_find?_eq_some found
    have same : item.1 = index := by simpa using List.find?_some found
    constructor
    · rw [← same]
      exact member
    · intro other present
      rcases List.mem_append.mp present with kept | moved
      · exact List.mem_of_mem_filter kept
      · rw [List.mem_singleton.mp moved]
        exact member

variable {item : Fin objectCount × GitObject}

theorem mem_of_evict (deadlines : Fin objectCount → Nat)
    (budget currentOffset fuel : Nat)
    (items : List (Fin objectCount × GitObject))
    (kept : item ∈ evict deadlines budget currentOffset fuel items) :
    item ∈ items := by
  induction fuel generalizing items with
  | zero => exact kept
  | succ fuel ih =>
    unfold evict at kept
    split at kept
    · split at kept
      · exact kept
      · exact List.mem_of_mem_filter (ih _ kept)
    · exact kept

theorem mem_of_set {deadlines : Fin objectCount → Nat}
    (kept : item ∈ (lru.set deadlines index object).items) :
    item ∈ lru.items ∨ item = (index, object) := by
  unfold set at kept
  split at kept
  · exact .inl (List.mem_of_mem_filter kept)
  · rcases List.mem_append.mp (mem_of_evict _ _ _ _ _ kept) with old | new
    · exact .inl (List.mem_of_mem_filter old)
    · exact .inr (List.mem_singleton.mp new)

end PayloadLRU

namespace ResolveOptions

variable {Oid : Type} {objectCount : Nat}
  {opts : ResolveOptions Oid objectCount}

variable (opts) in
/-- Every cached object is the one its entry denotes. -/
def Caches (lru : PayloadLRU objectCount) : Prop :=
  ∀ item ∈ lru.items, opts.Denotes item.1 item.2

variable {lru touched : PayloadLRU objectCount} {index : Fin objectCount}
  {fuel : Nat}

theorem Caches.get (caches : opts.Caches lru)
    (read : lru.get index = some (object, touched)) :
    opts.Denotes index object ∧ opts.Caches touched := by
  rcases PayloadLRU.mem_of_get read with ⟨member, kept⟩
  constructor
  · exact caches _ member
  · intro item present
    exact caches item (kept item present)

variable {index : Fin objectCount} {state : ResolveState Oid objectCount}

theorem Caches.set (caches : opts.Caches lru)
    (denotes : opts.Denotes index object) (deadlines : Fin objectCount → Nat) :
    opts.Caches (lru.set deadlines index object) := by
  intro item present
  rcases PayloadLRU.mem_of_set present with old | rfl
  · exact caches item old
  · exact denotes

/-! ## Materialization -/

section Materialize

variable {state : ResolveState Oid objectCount}

/-- The pending entries lead from `index` down to `current`. -/
def LeadsTo (state : ResolveState Oid objectCount)
    (index : Fin objectCount) : Fin objectCount → List (Fin objectCount) →
      Prop
  | current, [] => current = index
  | current, passed :: rest =>
    state.baseIndex passed = some current ∧ LeadsTo state index passed rest

variable (opts) in
/-- The programs of the pending entries may be applied to this object. -/
def Replays (state : ResolveState Oid objectCount)
    (index : Fin objectCount) (object : GitObject) :
    List (Fin objectCount) → Prop
  | [] => opts.Denotes index object
  | last :: rest =>
    opts.BaseObject last object ∧
      (∀ result, opts.Applies last object result →
        opts.Denotes last result) ∧
      LeadsTo state index last rest

variable {pending : List (Fin objectCount)}
  {current : Fin objectCount} {base : GitObject}

theorem replays_of_denotes (addressed : opts.ContentAddressed)
    (linked : ∀ entry base, state.baseIndex entry = some base →
      opts.PossibleBase entry base)
    (leads : LeadsTo state index current pending)
    (denotes : opts.Denotes current object) :
    opts.Replays state index object pending := by
  cases pending with
  | nil =>
    cases leads
    exact denotes
  | cons passed rest =>
    rcases leads with ⟨points, further⟩
    have base :=
      (linked passed current points).baseObject addressed denotes
    refine ⟨base, ?_, further⟩
    intro result applies
    exact base.denotes (.inl ⟨current, denotes⟩) applies

theorem replayPending_sound (addressed : opts.ContentAddressed)
    (linked : ∀ entry base, state.baseIndex entry = some base →
      opts.PossibleBase entry base) (caches : opts.Caches lru)
    (replays : opts.Replays state index base pending)
    (replayed :
      opts.replayPending state pending base lru = .ok (object, touched)) :
    opts.Denotes index object ∧ opts.Caches touched := by
  induction pending generalizing base lru with
  | nil =>
    cases replayed
    exact ⟨replays, caches⟩
  | cons last rest ih =>
    rcases replays with ⟨_, results, leads⟩
    unfold replayPending at replayed
    rcases CheckedFold.bind_eq_ok.mp replayed with ⟨result, applied, next⟩
    have denotes := results result (applyEntryDelta_eq_ok.mp applied)
    apply ih (caches.set denotes _) _ next
    exact replays_of_denotes addressed linked leads denotes

theorem walkToBase_sound (addressed : opts.ContentAddressed)
    (linked : ∀ entry base, state.baseIndex entry = some base →
      opts.PossibleBase entry base) {passed : List (Fin objectCount)}
    (caches : opts.Caches lru) (leads : LeadsTo state index current pending)
    (walked :
      opts.walkToBase state index fuel lru current pending =
        .ok (base, passed, touched)) :
    opts.Replays state index base passed ∧ opts.Caches touched := by
  induction fuel generalizing lru current pending with
  | zero => cases walked
  | succ fuel ih =>
    unfold walkToBase at walked
    split at walked
    · next cached kept read =>
      cases walked
      rcases caches.get read with ⟨denotes, caches⟩
      exact ⟨replays_of_denotes addressed linked leads denotes, caches⟩
    · split at walked
      · next whole full =>
        cases walked
        have denotes := Denotes.full full
        exact ⟨replays_of_denotes addressed linked leads denotes,
          caches.set denotes _⟩
      · split at walked
        · next target points =>
          have further : LeadsTo state index target (current :: pending) :=
            ⟨points, leads⟩
          exact ih caches further walked
        · split at walked
          · cases walked
          · next baseOid refBase =>
            split at walked
            · cases walked
            · next external found =>
              cases walked
              have kind := refBaseOid_eq_some.mp refBase
              have same := addressed.external _ _ found
              refine ⟨⟨?_, ?_, leads⟩, caches⟩
              · exact .refDelta (same.symm ▸ kind)
              · intro result applies
                exact .external kind found applies

theorem getBasePayload_sound (addressed : opts.ContentAddressed)
    (linked : ∀ entry base, state.baseIndex entry = some base →
      opts.PossibleBase entry base) (caches : opts.Caches state.lru)
    (read : opts.getBasePayload state index = .ok (object, touched)) :
    opts.Denotes index object ∧ opts.Caches touched := by
  unfold getBasePayload at read
  split at read
  · next cached found =>
    cases read
    exact caches.get found
  · unfold materializeEntry at read
    rcases CheckedFold.bind_eq_ok.mp read with
      ⟨⟨base, passed, kept⟩, walked, replayed⟩
    have start : LeadsTo state index index [] := rfl
    rcases walkToBase_sound addressed linked caches start walked with
      ⟨replays, caches⟩
    exact replayPending_sound addressed linked caches replays replayed

end Materialize

/-! ## The invariant -/

variable (opts) in
/-- What the arrays say is what the chains denote. -/
structure Sound (state : ResolveState Oid objectCount) : Prop where
  stored : ∀ index oid, state.oids index = some oid →
    ∃ object, opts.Denotes index object ∧
      oid = opts.computeOidBytes object ∧
      state.objectTypes index = some object.type ∧
      state.rawRefs index = some (objectRefBytes object)
  typed : ∀ index type, state.objectTypes index = some type →
    (state.oids index).isSome
  cached : opts.Caches state.lru
  linked : ∀ index base, state.baseIndex index = some base →
    opts.PossibleBase index base
  waits : ∀ oid, ∀ index ∈ state.waiting oid,
    opts.kind index = .refDelta oid ∧ ¬ opts.WholeHolder oid

/-- The invariant reads only six of the arrays. -/
theorem Sound.congr {other : ResolveState Oid objectCount}
    (sound : opts.Sound state) (oids : other.oids = state.oids)
    (objectTypes : other.objectTypes = state.objectTypes)
    (rawRefs : other.rawRefs = state.rawRefs)
    (items : other.lru.items = state.lru.items)
    (baseIndex : other.baseIndex = state.baseIndex)
    (waiting : other.waiting = state.waiting) : opts.Sound other where
  stored := by
    rw [oids, objectTypes, rawRefs]
    exact sound.stored
  typed := by
    rw [oids, objectTypes]
    exact sound.typed
  cached := by
    unfold Caches
    rw [items]
    exact sound.cached
  linked := by
    rw [baseIndex]
    exact sound.linked
  waits := by
    rw [waiting]
    exact sound.waits

theorem Sound.enqueueReadyDeferred (sound : opts.Sound state)
    (index : Fin objectCount) :
    opts.Sound (state.enqueueReadyDeferred index) := by
  unfold ResolveState.enqueueReadyDeferred
  split
  · exact sound
  · exact sound.congr rfl rfl rfl rfl rfl rfl

theorem Sound.promoteReadyInPackDependents (sound : opts.Sound state)
    (index : Fin objectCount) :
    opts.Sound (state.promoteReadyInPackDependents index) := by
  unfold ResolveState.promoteReadyInPackDependents
  apply CheckedFold.foldl_preserves
  · exact sound.congr rfl rfl rfl rfl rfl rfl
  · intro state item _ sound
    apply Sound.enqueueReadyDeferred
    exact sound.congr rfl rfl rfl rfl rfl rfl

theorem Sound.withLru (sound : opts.Sound state) (caches : opts.Caches lru) :
    opts.Sound { state with lru := lru } where
  stored := sound.stored
  typed := sound.typed
  cached := caches
  linked := sound.linked
  waits := sound.waits

theorem Sound.cacheIfBase (sound : opts.Sound state)
    (denotes : opts.Denotes index object) :
    opts.Sound (cacheIfBase state index object) := by
  unfold ResolveOptions.cacheIfBase
  split
  · exact sound.withLru (sound.cached.set denotes _)
  · exact sound

section Steps

variable [DecidableEq Oid]

omit [DecidableEq Oid] in
theorem Sound.promoteWaiter (sound : opts.Sound state)
    {waiter resolvedIndex : Fin objectCount}
    (possible : opts.PossibleBase waiter resolvedIndex) :
    opts.Sound (opts.promoteWaiter resolvedIndex state waiter) := by
  unfold ResolveOptions.promoteWaiter
  split
  · exact sound
  · apply Sound.enqueueReadyDeferred
    refine
      { stored := sound.stored
        typed := sound.typed
        cached := sound.cached
        linked := ?_
        waits := sound.waits }
    intro index base points
    by_cases same : index = waiter
    · subst same
      simp only [Function.update_self] at points
      cases points
      exact possible
    · simp only [Function.update_of_ne same] at points
      exact sound.linked index base points

theorem Sound.noteResolvedEntry (sound : opts.Sound state)
    (index : Fin objectCount) :
    opts.Sound (opts.noteResolvedEntry state index) := by
  unfold ResolveOptions.noteResolvedEntry
  split
  · exact sound
  · split
    · exact sound.congr rfl rfl rfl rfl rfl rfl
    · exact sound

theorem Sound.promoteWaitingRefDeltas (sound : opts.Sound state)
    (index : Fin objectCount) :
    opts.Sound (opts.promoteWaitingRefDeltas state index) := by
  unfold ResolveOptions.promoteWaitingRefDeltas
  split
  · exact sound
  · next oid stored =>
    split
    · split
      · exact sound.noteResolvedEntry index
      · next waiters waiting _ =>
        have noted := sound.noteResolvedEntry index
        apply CheckedFold.foldl_preserves
        · refine
            { stored := noted.stored
              typed := noted.typed
              cached := noted.cached
              linked := noted.linked
              waits := ?_ }
          intro other waiter member
          by_cases same : other = oid
          · subst same
            simp at member
          · simp only [Function.update_of_ne same] at member
            exact sound.waits other waiter member
        · intro other waiter member sound'
          apply sound'.promoteWaiter
          rcases sound.waits oid waiter member with ⟨kind, noWhole⟩
          rcases sound.stored index oid stored with
            ⟨object, denotes, same, _, _⟩
          exact .inr
            ⟨oid, kind, ⟨object, denotes, same.symm⟩, .inr noWhole⟩
    · exact sound

omit [DecidableEq Oid] in
theorem Sound.recordResult (sound : opts.Sound state)
    (denotes : opts.Denotes index object) :
    opts.Sound (opts.recordResult state index object) where
  stored := by
    intro other oid stored
    by_cases same : other = index
    · subst same
      simp only [ResolveOptions.recordResult, Function.update_self] at stored ⊢
      cases stored
      exact ⟨object, denotes, rfl, rfl, rfl⟩
    · simp only [ResolveOptions.recordResult,
        Function.update_of_ne same] at stored ⊢
      exact sound.stored other oid stored
  typed := by
    intro other type typed
    by_cases same : other = index
    · subst same
      simp [ResolveOptions.recordResult]
    · simp only [ResolveOptions.recordResult,
        Function.update_of_ne same] at typed ⊢
      exact sound.typed other type typed
  cached := sound.cached
  linked := sound.linked
  waits := sound.waits

theorem Sound.publishResult (sound : opts.Sound state) (mixed : Bool)
    (denotes : opts.Denotes index object) :
    opts.Sound (opts.publishResult mixed state index object) := by
  have recorded := sound.recordResult denotes
  have woken :
      opts.Sound
        (if mixed then
          (opts.promoteWaitingRefDeltas
            (opts.recordResult state index object)
            index).promoteReadyInPackDependents index
        else
          opts.recordResult state index object) := by
    split
    · exact
        (recorded.promoteWaitingRefDeltas index).promoteReadyInPackDependents
          index
    · exact recorded
  exact woken.cacheIfBase denotes

variable {next : ResolveState Oid objectCount} {mixed : Bool} {oid : Oid}
  {table : ResolvedTable Oid objectCount}

/-- A delta entry that was resolved had its base, and its program applied. -/
theorem resolveDeltaEntry_cases (addressed : opts.ContentAddressed)
    (sound : opts.Sound state)
    (resolved : opts.resolveDeltaEntry mixed state index = .ok next) :
    ∃ base lru result, state.baseIndex index = some base ∧
      (state.oids base).isSome ∧ opts.Caches lru ∧
      opts.Denotes index result ∧
      next =
        opts.publishResult mixed { state with lru := lru } index result := by
  unfold resolveDeltaEntry at resolved
  split at resolved
  · cases resolved
  · next base points =>
    split at resolved
    · cases resolved
    · next ready =>
      rcases CheckedFold.bind_eq_ok.mp resolved with
        ⟨⟨object, lru⟩, read, applying⟩
      rcases CheckedFold.bind_eq_ok.mp applying with
        ⟨result, applied, published⟩
      cases published
      rcases getBasePayload_sound addressed sound.linked sound.cached
        read with ⟨held, caches⟩
      have from_base :=
        (sound.linked index base points).baseObject addressed held
      have denotes : opts.Denotes index result :=
        from_base.denotes (.inl ⟨base, held⟩)
          (applyEntryDelta_eq_ok.mp applied)
      refine ⟨base, lru, result, points, ?_, caches, denotes, rfl⟩
      rw [Option.isSome_iff_ne_none]
      exact fun missing => ready (Option.isNone_iff_eq_none.mpr missing)

theorem resolveDeltaEntry_sound (addressed : opts.ContentAddressed)
    (sound : opts.Sound state)
    (resolved : opts.resolveDeltaEntry mixed state index = .ok next) :
    opts.Sound next := by
  rcases resolveDeltaEntry_cases addressed sound resolved with
    ⟨_, _, _, _, _, caches, denotes, rfl⟩
  exact (sound.withLru caches).publishResult mixed denotes

theorem resolveAndCount_sound (addressed : opts.ContentAddressed)
    (sound : opts.Sound state)
    (resolved : opts.resolveAndCount mixed state index = .ok next) :
    opts.Sound next := by
  rcases CheckedFold.bind_eq_ok.mp resolved with ⟨stepped, entry, counted⟩
  cases counted
  exact (resolveDeltaEntry_sound addressed sound entry).congr
    rfl rfl rfl rfl rfl rfl

/-! ## Offsets and ids known before the pass -/

omit [DecidableEq Oid] in
theorem searchOffsetIndex_sound {target lo hi : Nat}
    (found : opts.searchOffsetIndex target fuel lo hi = some index) :
    opts.offset index = target := by
  induction fuel generalizing lo hi with
  | zero => cases found
  | succ fuel ih =>
    unfold searchOffsetIndex at found
    split at found
    · simp only at found
      split at found
      · split at found
        · next same =>
          cases found
          exact same
        · split at found
          · exact ih found
          · exact ih found
      · cases found
    · cases found

variable (opts) in
/-- The ids noted before the pass: each belongs to a whole entry, and no
waited-for id of a whole entry is missing. -/
structure Noted (state : ResolveState Oid objectCount) : Prop where
  whole : ∀ oid index, state.resolvedEntries oid = some index →
    ∃ object, opts.fullObject index = some object ∧
      opts.computeOidBytes object = oid
  complete : ∀ index oid, opts.kind index = .refDelta oid →
    state.resolvedEntries oid = none → ¬ opts.WholeHolder oid

omit [DecidableEq Oid] in
theorem Sound.linkBase (sound : opts.Sound state) {base : Fin objectCount}
    (possible : opts.PossibleBase index base) :
    opts.Sound (opts.linkBase state index base) where
  stored := sound.stored
  typed := sound.typed
  cached := sound.cached
  linked := by
    intro other target points
    by_cases same : other = index
    · subst same
      simp only [ResolveOptions.linkBase, Function.update_self] at points
      cases points
      exact possible
    · simp only [ResolveOptions.linkBase,
        Function.update_of_ne same] at points
      exact sound.linked other target points
  waits := sound.waits

omit [DecidableEq Oid] in
theorem Sound.registerInPackDependency (sound : opts.Sound state)
    (index : Fin objectCount) :
    opts.Sound (state.registerInPackDependency index) := by
  unfold ResolveState.registerInPackDependency
  split
  · exact sound
  · split
    · exact sound
    · exact sound.congr rfl rfl rfl rfl rfl rfl

theorem buildDependency_sound (sound : opts.Sound state)
    (noted : opts.Noted state)
    (built : opts.buildDependency mixed state index = .ok next) :
    opts.Sound next := by
  unfold buildDependency at built
  split at built
  · cases built
    exact sound
  · split at built
    · cases built
      exact sound
    · next baseOffset kind =>
      split at built
      · cases built
      · next base found =>
        cases built
        have at_offset : opts.offset base = baseOffset :=
          searchOffsetIndex_sound found
        have linked := sound.linkBase (.inl (at_offset ▸ kind))
        split
        · exact linked.registerInPackDependency index
        · exact linked
    · next baseOid kind =>
      split at built
      · next base known =>
        cases built
        rcases noted.whole baseOid base known with ⟨object, full, same⟩
        apply sound.linkBase
        refine .inr ⟨baseOid, kind, ⟨object, .full full, same⟩, .inl ?_⟩
        rw [full]
        rfl
      · next unknown =>
        cases built
        refine
          { stored := sound.stored
            typed := sound.typed
            cached := sound.cached
            linked := sound.linked
            waits := ?_ }
        intro oid waiter member
        by_cases same : oid = baseOid
        · subst same
          simp only [Function.update_self] at member
          rcases List.mem_cons.mp member with rfl | old
          · exact ⟨kind, noted.complete waiter oid kind unknown⟩
          · exact sound.waits oid waiter old
        · simp only [Function.update_of_ne same] at member
          exact sound.waits oid waiter member

theorem buildDependency_resolvedEntries
    (built : opts.buildDependency mixed state index = .ok next) :
    next.resolvedEntries = state.resolvedEntries := by
  unfold buildDependency at built
  split at built
  · cases built
    rfl
  · split at built
    · cases built
      rfl
    · split at built
      · cases built
      · cases built
        split
        · unfold ResolveState.registerInPackDependency
          split
          · rfl
          · split <;> rfl
        · rfl
    · split at built
      · cases built
        rfl
      · cases built
        rfl

/-- Both builds keep the invariant. -/
theorem buildDependencies_sound {built : ResolveState Oid objectCount}
    (sound : opts.Sound state) (noted : opts.Noted state)
    (folded :
      (List.finRange objectCount).foldlM (opts.buildDependency mixed) state =
        .ok built) : opts.Sound built := by
  have both :=
    CheckedFold.foldlM_preserves folded
      (fun other => opts.Sound other ∧ opts.Noted other) ⟨sound, noted⟩
      (by
        rintro other index next _ ⟨sound, noted⟩ stepped
        have same := buildDependency_resolvedEntries stepped
        refine ⟨buildDependency_sound sound noted stepped, ?_⟩
        exact
          { whole := by
              rw [same]
              exact noted.whole
            complete := by
              rw [same]
              exact noted.complete })
  exact both.1

omit [DecidableEq Oid] in
theorem Sound.propagateDeadlines (sound : opts.Sound state) :
    opts.Sound (opts.propagateDeadlines state) := by
  unfold ResolveOptions.propagateDeadlines
  apply CheckedFold.foldl_preserves _ _ _ _ sound
  intro other index _ sound
  unfold propagateDeadline
  split
  · exact sound
  · split
    · exact sound
    · simp only
      split
      · exact sound.congr rfl rfl rfl rfl rfl rfl
      · exact sound

/-! ## The passes -/

omit [DecidableEq Oid] in
theorem Sound.atOffsetOf (sound : opts.Sound state) (index : Fin objectCount) :
    opts.Sound (opts.atOffsetOf state index) :=
  sound.congr rfl rfl rfl rfl rfl rfl

omit [DecidableEq Oid] in
theorem Sound.cacheResolvedBaseIfNeeded (sound : opts.Sound state)
    (index : Fin objectCount) :
    opts.Sound (opts.cacheResolvedBaseIfNeeded state index) := by
  unfold ResolveOptions.cacheResolvedBaseIfNeeded
  split
  · next read => exact sound.withLru (sound.cached.get read).2
  · split
    · split
      · exact sound
      · next object full =>
        exact sound.withLru (sound.cached.set (.full full) _)
    · exact sound

theorem ofsMainStep_sound (addressed : opts.ContentAddressed)
    (sound : opts.Sound state)
    (stepped : opts.ofsMainStep state index = .ok next) : opts.Sound next := by
  unfold ofsMainStep at stepped
  have placed := sound.atOffsetOf index
  simp only at stepped
  split at stepped
  · cases stepped
    exact placed.cacheResolvedBaseIfNeeded index
  · split at stepped
    · exact resolveAndCount_sound addressed placed stepped
    · cases stepped

theorem mixedMainStep_sound (addressed : opts.ContentAddressed)
    (sound : opts.Sound state)
    (stepped : opts.mixedMainStep state index = .ok next) :
    opts.Sound next := by
  unfold mixedMainStep at stepped
  have placed := sound.atOffsetOf index
  simp only at stepped
  split at stepped
  · cases stepped
    exact placed.cacheResolvedBaseIfNeeded index
  · split at stepped
    · exact resolveAndCount_sound addressed placed stepped
    · cases stepped
      exact placed.congr rfl rfl rfl rfl rfl rfl

theorem drainQueue_sound (addressed : opts.ContentAddressed)
    (sound : opts.Sound state) (drained : opts.drainQueue fuel state = .ok next) :
    opts.Sound next := by
  induction fuel generalizing state with
  | zero =>
    cases drained
    exact sound
  | succ fuel ih =>
    unfold drainQueue at drained
    split at drained
    · cases drained
      exact sound
    · next index rest _ =>
      have taken :
          opts.Sound
            { state with
              readyDeferred := rest
              deferredQueued :=
                Function.update state.deferredQueued index false } :=
        sound.congr rfl rfl rfl rfl rfl rfl
      simp only at drained
      split at drained
      · exact ih taken drained
      · rcases CheckedFold.bind_eq_ok.mp drained with
          ⟨stepped, resolved, further⟩
        exact ih
          (resolveAndCount_sound addressed (taken.atOffsetOf index) resolved)
          further

theorem fallbackStep_sound (addressed : opts.ContentAddressed)
    (sound : opts.Sound state)
    (stepped : opts.fallbackStep state index = .ok next) : opts.Sound next := by
  unfold fallbackStep at stepped
  split at stepped
  · cases stepped
    exact sound
  · split at stepped
    · cases stepped
      exact sound.enqueueReadyDeferred index
    · split at stepped
      · cases stepped
        exact sound
      · next base external =>
        rcases CheckedFold.bind_eq_ok.mp stepped with
          ⟨result, applied, drained⟩
        rcases Option.bind_eq_some_iff.mp external with
          ⟨oid, refBase, found⟩
        have denotes : opts.Denotes index result :=
          .external (refBaseOid_eq_some.mp refBase) found
            (applyEntryDelta_eq_ok.mp applied)
        apply drainQueue_sound addressed _ drained
        exact
          ((sound.atOffsetOf index).publishResult true denotes).congr
            rfl rfl rfl rfl rfl rfl

/-! ## The scan -/

omit [DecidableEq Oid] in
variable (opts) in
theorem scanned_sound : opts.Sound opts.scanned where
  stored := by
    intro index oid stored
    rcases Option.map_eq_some_iff.mp stored with ⟨object, full, same⟩
    refine ⟨object, .full full, same.symm, ?_, ?_⟩
    · simp [scanned, full]
    · simp [scanned, full]
  typed := by
    intro index type typed
    rcases Option.map_eq_some_iff.mp typed with ⟨object, full, _⟩
    simp [scanned, full]
  cached := by
    intro item present
    cases present
  linked := by
    intro index base points
    cases points
  waits := by
    intro oid index member
    cases member

theorem noteResolvedEntry_oids (state : ResolveState Oid objectCount)
    (index : Fin objectCount) :
    (opts.noteResolvedEntry state index).oids = state.oids := by
  unfold noteResolvedEntry
  split
  · rfl
  · split <;> rfl

theorem foldl_noteResolvedEntry_oids (items : List (Fin objectCount))
    (state : ResolveState Oid objectCount) :
    (items.foldl opts.noteResolvedEntry state).oids = state.oids := by
  apply CheckedFold.foldl_preserves opts.noteResolvedEntry items state
    (fun other => other.oids = state.oids) rfl
  intro other index _ same
  rw [noteResolvedEntry_oids, same]

omit [DecidableEq Oid] in
theorem scanned_holder :
    opts.scanned.oids index = some oid ↔
      ∃ object, opts.fullObject index = some object ∧
        opts.computeOidBytes object = oid :=
  Option.map_eq_some_iff

theorem noteResolvedEntry_keeps (known : (state.resolvedEntries oid).isSome)
    (index : Fin objectCount) :
    ((opts.noteResolvedEntry state index).resolvedEntries oid).isSome := by
  unfold noteResolvedEntry
  split
  · exact known
  · next other _ =>
    split
    · by_cases same : oid = other
      · subst same
        simp
      · simp only [Function.update_of_ne same]
        exact known
    · exact known

theorem noteResolvedEntry_notes (stored : state.oids index = some oid)
    (slot : opts.hasSlot oid = true) :
    ((opts.noteResolvedEntry state index).resolvedEntries oid).isSome := by
  unfold noteResolvedEntry
  rw [stored]
  simp only [slot, if_true, Function.update_self]
  rfl

theorem foldl_noteResolvedEntry_notes {items : List (Fin objectCount)}
    (member : index ∈ items) (stored : state.oids index = some oid)
    (slot : opts.hasSlot oid = true) :
    ((items.foldl opts.noteResolvedEntry state).resolvedEntries
      oid).isSome := by
  induction items generalizing state with
  | nil => cases member
  | cons item items ih =>
    rw [List.foldl_cons]
    rcases List.mem_cons.mp member with rfl | later
    · apply CheckedFold.foldl_preserves opts.noteResolvedEntry items _
        (fun other => (other.resolvedEntries oid).isSome = true)
        (noteResolvedEntry_notes stored slot)
      intro other item _ known
      exact noteResolvedEntry_keeps known item
    · apply ih later
      rw [noteResolvedEntry_oids]
      exact stored

theorem hasSlot_of_kind (kind : opts.kind index = .refDelta oid) :
    opts.hasSlot oid = true := by
  unfold hasSlot
  rw [List.any_eq_true]
  refine ⟨index, List.mem_finRange index, ?_⟩
  exact decide_eq_true (refBaseOid_eq_some.mpr kind)

variable (opts) in
theorem noteScannedEntries_sound : opts.Sound opts.noteScannedEntries := by
  unfold noteScannedEntries
  apply CheckedFold.foldl_preserves _ _ _ _ opts.scanned_sound
  intro state index _ sound
  exact sound.noteResolvedEntry index

variable (opts) in
theorem noteScannedEntries_noted : opts.Noted opts.noteScannedEntries where
  whole := by
    have known :
        ∀ oid index, opts.noteScannedEntries.resolvedEntries oid =
          some index → opts.scanned.oids index = some oid := by
      unfold noteScannedEntries
      have both :=
        CheckedFold.foldl_preserves opts.noteResolvedEntry
          (List.finRange objectCount) opts.scanned
          (fun state => state.oids = opts.scanned.oids ∧
            ∀ oid index, state.resolvedEntries oid = some index →
              opts.scanned.oids index = some oid)
          ⟨rfl, by
            intro oid index impossible
            cases impossible⟩
          (by
            rintro state item _ ⟨same, known⟩
            refine ⟨by rw [noteResolvedEntry_oids, same], ?_⟩
            intro oid index noted
            unfold noteResolvedEntry at noted
            split at noted
            · exact known oid index noted
            · next stored found =>
              split at noted
              · by_cases equal : oid = stored
                · subst equal
                  simp only [Function.update_self] at noted
                  cases noted
                  rw [← same]
                  exact found
                · simp only [Function.update_of_ne equal] at noted
                  exact known oid index noted
              · exact known oid index noted)
      exact both.2
    intro oid index noted
    exact scanned_holder.mp (known oid index noted)
  complete := by
    rintro index oid kind unknown ⟨holder, object, full, same⟩
    have noted :
        (opts.noteScannedEntries.resolvedEntries oid).isSome := by
      apply foldl_noteResolvedEntry_notes (List.mem_finRange holder)
      · exact scanned_holder.mpr ⟨object, full, same⟩
      · exact hasSlot_of_kind kind
    rw [unknown] at noted
    cases noted

omit [DecidableEq Oid] in
/-- Without REF_DELTA entries nothing is looked up. -/
theorem scanned_noted (pure : opts.refDeltaCount = 0) :
    opts.Noted opts.scanned where
  whole := by
    intro oid index impossible
    cases impossible
  complete := by
    intro index oid kind
    unfold refDeltaCount at pure
    rw [List.countP_eq_zero] at pure
    have absent := pure index (List.mem_finRange index)
    rw [refBaseOid_eq_some.mpr kind] at absent
    exact absurd rfl absent

/-! ## The whole resolution -/

omit [DecidableEq Oid] in
theorem writeAndParseIdx_eq_ok (written : writeAndParseIdx state = .ok table) :
    table = ⟨state.oids, state.objectTypes, state.rawRefs⟩ ∧
      ∀ index, (state.objectTypes index).isSome := by
  rcases CheckedFold.bind_eq_ok.mp written with ⟨_, checked, finished⟩
  cases finished
  refine ⟨rfl, ?_⟩
  intro index
  have all : ∀ items : List (Fin objectCount),
      items.forM (buildRefsEntry state) = .ok () →
        ∀ item ∈ items, (state.objectTypes item).isSome := by
    intro items
    induction items with
    | nil =>
      intro _ item member
      cases member
    | cons head rest ih =>
      intro accepted item member
      have steps :
          (buildRefsEntry state head >>= fun _ =>
            rest.forM (buildRefsEntry state)) = .ok () := accepted
      rcases CheckedFold.bind_eq_ok.mp steps with ⟨_, first, later⟩
      rcases List.mem_cons.mp member with rfl | inside
      · unfold buildRefsEntry at first
        split at first
        · cases first
        · cases first
        · next present _ =>
          rw [present]
          rfl
      · exact ih later item inside
  exact all _ checked index (List.mem_finRange index)

variable (opts) in
/-- A table whose every row is the object that the entry denotes. -/
def Faithful (table : ResolvedTable Oid objectCount) : Prop :=
  ∀ index, ∃ object, opts.Denotes index object ∧
    table.oids index = some (opts.computeOidBytes object) ∧
    table.objectTypes index = some object.type ∧
    table.rawRefs index = some (objectRefBytes object)

omit [DecidableEq Oid] in
theorem Sound.faithful (sound : opts.Sound state)
    (written : writeAndParseIdx state = .ok table) : opts.Faithful table := by
  rcases writeAndParseIdx_eq_ok written with ⟨rfl, typed⟩
  intro index
  rcases Option.isSome_iff_exists.mp (typed index) with ⟨type, present⟩
  rcases Option.isSome_iff_exists.mp (sound.typed index type present) with
    ⟨oid, stored⟩
  rcases sound.stored index oid stored with ⟨object, denotes, same, row⟩
  exact ⟨object, denotes, same ▸ stored, row⟩

omit [DecidableEq Oid] in
theorem Sound.finish (sound : opts.Sound state)
    (finished : finishResolve state = .ok table) : opts.Faithful table := by
  unfold finishResolve at finished
  split at finished
  · cases finished
  · exact sound.faithful finished

omit [DecidableEq Oid] in
theorem foldl_enqueue_sound (sound : opts.Sound state)
    (items : List (Fin objectCount)) :
    opts.Sound (items.foldl ResolveState.enqueueReadyDeferred state) := by
  apply CheckedFold.foldl_preserves _ _ _ _ sound
  intro other index _ sound
  exact sound.enqueueReadyDeferred index

/-- What a successful resolution returns is faithful. -/
theorem resolve_faithful (addressed : opts.ContentAddressed)
    (resolved : opts.resolveDeltasAndWriteIdx = .ok table) :
    opts.Faithful table := by
  unfold resolveDeltasAndWriteIdx at resolved
  split at resolved
  · exact opts.scanned_sound.faithful resolved
  · split at resolved
    · next pure =>
      rcases CheckedFold.bind_eq_ok.mp resolved with ⟨built, links, pass⟩
      rcases CheckedFold.bind_eq_ok.mp pass with ⟨final, steps, finished⟩
      have start :=
        buildDependencies_sound opts.scanned_sound (scanned_noted pure) links
      have sound :=
        CheckedFold.foldlM_preserves steps opts.Sound
          start.propagateDeadlines fun _ _ _ _ sound stepped =>
            ofsMainStep_sound addressed sound stepped
      exact sound.finish finished
    · rcases CheckedFold.bind_eq_ok.mp resolved with ⟨built, links, pass⟩
      rcases CheckedFold.bind_eq_ok.mp pass with ⟨passed, steps, after⟩
      rcases CheckedFold.bind_eq_ok.mp after with ⟨drained, first, rest⟩
      rcases CheckedFold.bind_eq_ok.mp rest with ⟨fallen, falls, last⟩
      rcases CheckedFold.bind_eq_ok.mp last with ⟨final, second, finished⟩
      have start :=
        buildDependencies_sound opts.noteScannedEntries_sound
          opts.noteScannedEntries_noted links
      have main :=
        CheckedFold.foldlM_preserves steps opts.Sound
          start.propagateDeadlines fun _ _ _ _ sound stepped =>
            mixedMainStep_sound addressed sound stepped
      have queue :=
        drainQueue_sound addressed
          (foldl_enqueue_sound main passed.deferred) first
      have fallback :=
        CheckedFold.foldlM_preserves falls opts.Sound queue
          fun _ _ _ _ sound stepped =>
            fallbackStep_sound addressed sound stepped
      exact (drainQueue_sound addressed fallback second).finish finished

end Steps

end ResolveOptions

end GitOnCloudflare.Pack
