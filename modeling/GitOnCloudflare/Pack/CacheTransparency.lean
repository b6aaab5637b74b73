import GitOnCloudflare.Pack.ResolutionExact

/-!
# Cache transparency

The payload cache only saves work: with any budget a resolution ends the same
way, and an object that fell out of the cache can be computed again from its
bases.  Both hold exactly for packs of which no entry is published while an
entry on its own chain of bases still waits for its id.
-/

namespace GitOnCloudflare.Pack

open Foundations
open Foundations.CheckedFold
open Relation

namespace ResolveOptions

variable {Oid : Type} {objectCount : Nat}

/-! ## The states of a resolution -/

section States

variable [DecidableEq Oid] (opts : ResolveOptions Oid objectCount)

/-- The states between two rounds over a pack without REF_DELTA entries. -/
inductive ReachesOfs : ResolveState Oid objectCount → Prop where
  | building {state : ResolveState Oid objectCount} :
      Visits (opts.buildDependency false) (List.finRange objectCount)
        opts.scanned state → ReachesOfs state
  | passing {built state : ResolveState Oid objectCount} :
      opts.buildOfsDependencies opts.scanned = .ok built →
        Visits opts.ofsMainStep (List.finRange objectCount)
          (opts.propagateDeadlines built) state → ReachesOfs state

/-- The states between two rounds over a mixed pack.  The external fallback
has a drain of its own after every entry that it resolves. -/
inductive ReachesMixed : ResolveState Oid objectCount → Prop where
  | building {state : ResolveState Oid objectCount} :
      Visits (opts.buildDependency true) (List.finRange objectCount)
        opts.noteScannedEntries state → ReachesMixed state
  | passing {built state : ResolveState Oid objectCount} :
      opts.buildMixedDependencies opts.noteScannedEntries = .ok built →
        Visits opts.mixedMainStep (List.finRange objectCount)
          (opts.propagateDeadlines built) state → ReachesMixed state
  | draining {start state : ResolveState Oid objectCount} (rounds : Nat) :
      opts.DrainsFrom start → opts.drainQueue rounds start = .ok state →
        ReachesMixed state
  | falling {passed drained state : ResolveState Oid objectCount} :
      opts.MixedDrained passed drained →
        Visits opts.fallbackStep passed.deferred drained state →
          ReachesMixed state

/-- The states of the resolver while a pack is resolved. -/
inductive Reaches : ResolveState Oid objectCount → Prop where
  | scanned : Reaches opts.scanned
  | ofs {state : ResolveState Oid objectCount} :
      opts.HasDeltas → opts.refDeltaCount = 0 → opts.ReachesOfs state →
        Reaches state
  | mixed {state : ResolveState Oid objectCount} :
      opts.HasDeltas → opts.refDeltaCount ≠ 0 → opts.ReachesMixed state →
        Reaches state

/-- The same resolution with another cache budget. -/
def withBudget (budget : Nat) : ResolveOptions Oid objectCount :=
  { opts with lruBudget := budget }

/-- The object an entry was resolved to can be computed again, whatever part
of the cache was evicted. -/
def Rematerializes (state : ResolveState Oid objectCount) : Prop :=
  ∀ index oid, state.oids index = some oid →
    ∀ lru : PayloadLRU objectCount, lru.items ⊆ state.lru.items →
      ∃ object touched,
        opts.materializeEntry { state with lru := lru } index =
            .ok (object, touched) ∧
          opts.computeOidBytes object = oid ∧
          state.objectTypes index = some object.type ∧
          state.rawRefs index = some (objectRefBytes object)

/-- A resolution ends the same way with every budget, and in every state of
it resolved entries can be computed again. -/
structure CacheTransparent : Prop where
  outcome : ∀ first second,
    (opts.withBudget first).resolveDeltasAndWriteIdx.toOption =
      (opts.withBudget second).resolveDeltasAndWriteIdx.toOption
  rematerializes : ∀ budget state,
    (opts.withBudget budget).Reaches state →
      (opts.withBudget budget).Rematerializes state

end States

/-! ## Budgets -/

variable {index : Fin objectCount} {object : GitObject}

section Budgets

variable {opts : ResolveOptions Oid objectCount}

theorem ContentAddressed.withBudget (addressed : opts.ContentAddressed)
    (budget : Nat) : (opts.withBudget budget).ContentAddressed :=
  ⟨addressed.injective, addressed.external⟩

theorem Applies.withBudget {base result : GitObject}
    (applies : opts.Applies index base result) (budget : Nat) :
    (opts.withBudget budget).Applies index base result :=
  ⟨applies.applied, applies.sized, applies.typed⟩

theorem Denotes.withBudget (denotes : opts.Denotes index object) (budget : Nat) :
    (opts.withBudget budget).Denotes index object := by
  induction denotes with
  | full whole => exact .full whole
  | ofsDelta kind _ applies ih =>
    exact .ofsDelta kind ih (applies.withBudget budget)
  | refDelta kind _ applies ih =>
    exact .refDelta kind ih (applies.withBudget budget)
  | external kind found applies =>
    exact .external kind found (applies.withBudget budget)

variable {budget : Nat}

theorem denotes_withBudget :
    (opts.withBudget budget).Denotes index object ↔
      opts.Denotes index object := by
  constructor
  · intro denotes
    exact denotes.withBudget opts.lruBudget
  · intro denotes
    exact denotes.withBudget budget

theorem Faithful.withBudget {table : ResolvedTable Oid objectCount}
    (faithful : (opts.withBudget budget).Faithful table) :
    opts.Faithful table := by
  intro index
  rcases faithful index with ⟨object, denotes, columns⟩
  exact ⟨object, denotes_withBudget.mp denotes, columns⟩

/-- A pack has at most one faithful table. -/
theorem Faithful.unique (addressed : opts.ContentAddressed)
    {first second : ResolvedTable Oid objectCount} (left : opts.Faithful first)
    (right : opts.Faithful second) : first = second := by
  have columns : ∀ index, first.oids index = second.oids index ∧
      first.objectTypes index = second.objectTypes index ∧
      first.rawRefs index = second.rawRefs index := by
    intro index
    rcases left index with ⟨object, denotes, oid, type, refs⟩
    rcases right index with ⟨other, denoted, oid', type', refs'⟩
    cases denotes.unique addressed denoted
    exact ⟨oid.trans oid'.symm, type.trans type'.symm,
      refs.trans refs'.symm⟩
  cases first
  cases second
  congr 1
  · funext index
    exact (columns index).1
  · funext index
    exact (columns index).2.1
  · funext index
    exact (columns index).2.2

end Budgets

/-! ## What a successful round keeps -/

section Keeps

variable [DecidableEq Oid] {opts : ResolveOptions Oid objectCount}
  {state start : ResolveState Oid objectCount}
  {mixed : Bool} {lru : PayloadLRU objectCount}

theorem buildDependencies_keeps (starts : Starts opts start)
    (initially : opts.Built mixed start [] start)
    (visits : Visits (opts.buildDependency mixed)
      (List.finRange objectCount) start state) :
    ∃ seen, opts.Built mixed start seen state := by
  rcases visits.keeps (opts.Built mixed start) initially
      (fun seen index rest before next split built stepped =>
        buildDependency_keeps starts built (not_mem_seen split) stepped) with
    ⟨seen, _, _, built⟩
  exact ⟨seen, built⟩

theorem ofsMainStep_keeps (addressed : opts.ContentAddressed)
    {seen : List (Fin objectCount)} {next : ResolveState Oid objectCount}
    (pass : opts.OfsPass seen state)
    (stepped : opts.ofsMainStep state index = .ok next) :
    opts.OfsPass (seen ++ [index]) next := by
  have placed : opts.OfsPass seen (opts.atOffsetOf state index) :=
    pass.withLru pass.sound.cached
  unfold ofsMainStep at stepped
  simp only at stepped
  split at stepped
  · next resolved =>
    cases stepped
    exact (placed.visited resolved).cacheResolvedBaseIfNeeded index
  · next unresolved =>
    split at stepped
    · rcases bind_eq_ok.mp stepped with ⟨resolved, entry, counted⟩
      cases counted
      rcases resolveDeltaEntry_cases addressed placed.sound entry with
        ⟨base, lru, result, points, settled, caches, denotes, rfl⟩
      exact (placed.withLru caches).publish unresolved points settled
        denotes
    · cases stepped

/-! ## Every state of a resolution -/

theorem buildDependencies_visits_sound (sound : opts.Sound start)
    (noted : opts.Noted start)
    (visits : Visits (opts.buildDependency mixed)
      (List.finRange objectCount) start state) : opts.Sound state := by
  rcases visits.keeps
      (fun _ state => opts.Sound state ∧ opts.Noted state)
      ⟨sound, noted⟩
      (by
        rintro seen index rest before next _ ⟨sound, noted⟩ stepped
        have entries := buildDependency_resolvedEntries stepped
        refine ⟨buildDependency_sound sound noted stepped, ?_, ?_⟩
        · intro oid holder known
          exact noted.whole oid holder (entries ▸ known)
        · intro other oid kind unknown
          exact noted.complete other oid kind (entries ▸ unknown)) with
    ⟨_, _, _, kept, _⟩
  exact kept

/-- What every state of a resolution satisfies. -/
abbrev Recoverable (opts : ResolveOptions Oid objectCount)
    (state : ResolveState Oid objectCount) : Prop :=
  opts.Sound state ∧ opts.Grounded state

theorem ReachesOfs.recoverable (addressed : opts.ContentAddressed)
    (pure : opts.refDeltaCount = 0) (reaches : opts.ReachesOfs state) :
    opts.Recoverable state := by
  have starts : Starts opts opts.scanned := ⟨rfl, scanned_noted pure⟩
  have initially := @scanned_built _ _ opts false fun _ => none
  cases reaches with
  | building visits =>
    rcases buildDependencies_keeps starts initially visits with
      ⟨seen, built⟩
    exact ⟨buildDependencies_visits_sound opts.scanned_sound
      (scanned_noted pure) visits, built.grounded starts⟩
  | passing links visits =>
    have linked :=
      foldlM_keeps links (opts.Built false opts.scanned) initially
        fun seen index rest before next split built stepped =>
          buildDependency_keeps starts built (not_mem_seen split) stepped
    have sound :=
      buildDependencies_sound opts.scanned_sound (scanned_noted pure) links
    rcases visits.keeps opts.OfsPass (linked.ofsPass starts sound rfl)
        (fun _ _ _ _ _ _ pass stepped =>
          ofsMainStep_keeps addressed pass stepped) with
      ⟨_, _, _, pass⟩
    exact ⟨pass.sound, pass.grounded⟩

omit [DecidableEq Oid] in
theorem Live.recoverable {scheduled : Fin objectCount → Prop}
    (live : opts.Live scheduled state) : opts.Recoverable state :=
  ⟨live.sound, live.grounded⟩

theorem ReachesMixed.recoverable (addressed : opts.ContentAddressed)
    (clear : opts.ClearWhenDue) (reaches : opts.ReachesMixed state) :
    opts.Recoverable state := by
  cases reaches with
  | building visits =>
    rcases @noteScannedEntries_starts _ _ opts _ with ⟨starts, initially, _⟩
    rcases buildDependencies_keeps starts initially visits with
      ⟨seen, built⟩
    exact ⟨buildDependencies_visits_sound opts.noteScannedEntries_sound
      opts.noteScannedEntries_noted visits, built.grounded starts⟩
  | passing links visits =>
    rcases visits with ⟨seen, rest, split, folded⟩
    exact (mainPass_reached addressed clear links split
      folded).live.recoverable
  | draining rounds starts drained =>
    exact (drainQueue_keeps addressed (starts.live addressed clear)
      (drainsClear_of_from clear starts) drained).1.recoverable
  | falling settled visits =>
    rcases visits with ⟨seen, rest, split, folded⟩
    exact (fallback_reached addressed clear settled split
      folded).1.1.recoverable

omit [DecidableEq Oid] in
theorem scanned_grounded : opts.Grounded opts.scanned where
  based := by
    intro index base _ points
    cases points
  external := by
    intro index resolved _
    left
    unfold ResolveState.Resolved at resolved
    simpa [scanned] using resolved
  ends := by
    intro index _
    exact PointerChain.ends_of_none rfl

theorem Reaches.recoverable (addressed : opts.ContentAddressed)
    (clear : opts.HasDeltas → opts.refDeltaCount ≠ 0 → opts.ClearWhenDue)
    (reaches : opts.Reaches state) : opts.Recoverable state := by
  cases reaches with
  | scanned => exact ⟨opts.scanned_sound, scanned_grounded⟩
  | ofs _ pure reached => exact reached.recoverable addressed pure
  | mixed deltas some_ reached =>
    exact reached.recoverable addressed (clear deltas some_)

omit [DecidableEq Oid] in
/-- A recoverable state does not depend on its cache. -/
theorem Recoverable.rematerializes (addressed : opts.ContentAddressed)
    (recoverable : opts.Recoverable state) : opts.Rematerializes state := by
  rcases recoverable with ⟨sound, grounded⟩
  intro index oid stored lru kept
  have caches : opts.Caches lru := fun item member =>
    sound.cached item (kept member)
  have same : opts.Grounded { state with lru := lru } :=
    ⟨grounded.based, grounded.external, grounded.ends⟩
  rcases sound.stored index oid stored with ⟨held, denotes, columns⟩
  rcases materializeEntry_total addressed (sound.withLru caches) same
      (Option.isSome_of_eq_some stored) with
    ⟨object, touched, materialized, denoted, _⟩
  cases denotes.unique addressed denoted
  rcases columns with ⟨computed, typed, recorded⟩
  exact ⟨held, touched, materialized, computed.symm, typed, recorded⟩

/-! ## A chain that comes back -/

omit [DecidableEq Oid] in
/-- Without a cache a walk finds a base only where the chain ends. -/
theorem ends_of_walkToBase (sound : opts.Sound state)
    {current : Fin objectCount} {fuel : Nat} (empty : lru.items = [])
    {pending : List (Fin objectCount)}
    {found : GitObject × List (Fin objectCount) × PayloadLRU objectCount}
    (walked : opts.walkToBase state index fuel lru current pending = .ok found) :
    PointerChain.Ends state.baseIndex current := by
  induction fuel generalizing current pending with
  | zero => cases walked
  | succ fuel ih =>
    have missing : lru.get current = none := by
      simp [PayloadLRU.get, empty]
    unfold walkToBase at walked
    rw [missing] at walked
    cases points : state.baseIndex current with
    | none => exact PointerChain.ends_of_none points
    | some base =>
      have delta : opts.fullObject current = none := by
        rcases sound.linked current base points with kind | ⟨_, kind, _⟩
        · simp [fullObject, kind]
        · simp [fullObject, kind]
      simp only [delta, points] at walked
      exact PointerChain.ends_of_some points (ih walked)

/-- Publishing an entry whose chain meets an entry that waits for its id
leaves an entry that cannot be computed again. -/
theorem Due.not_rematerializes {waiter : Fin objectCount}
    (due : opts.Due state index) (denotes : opts.Denotes index object)
    (waits : waiter ∈ state.waiting (opts.computeOidBytes object))
    (unbased : state.baseIndex waiter = none)
    (path : ReflTransGen (PointerChain.Follows state.baseIndex) index waiter) :
    ¬ opts.Rematerializes (opts.publishAndCount state index object) := by
  intro rematerializes
  have published :
      Published state (opts.publishResult true state index object) index
        (opts.computeOidBytes object) :=
    publishResult_published due.queue due.sound
  have sound : opts.Sound (opts.publishAndCount state index object) :=
    (due.sound.publishResult true denotes).congr rfl rfl rfl rfl rfl rfl
  have back :
      (opts.publishAndCount state index object).baseIndex waiter =
        some index := by
    show (opts.publishResult true state index object).baseIndex waiter = _
    rw [published.based, if_pos ⟨unbased, waits⟩]
  -- Only entries without a base get a new one, so the chain is still there.
  have still : ReflTransGen
      (PointerChain.Follows
        (opts.publishAndCount state index object).baseIndex) index
      waiter := by
    refine ReflTransGen.mono ?_ _ _ path
    intro source target points
    show (opts.publishResult true state index object).baseIndex source = _
    rw [published.based, if_neg]
    · exact points
    · rintro ⟨none_, _⟩
      cases none_.symm.trans points
  have resolved : (opts.publishAndCount state index object).Resolved waiter :=
    published.resolved.mpr (reach_resolved due.grounded due.based path)
  rcases Option.isSome_iff_exists.mp resolved with ⟨oid, stored⟩
  rcases rematerializes waiter oid stored ⟨0, [], 0⟩
      (List.nil_subset _) with ⟨_, _, materialized, _⟩
  unfold materializeEntry at materialized
  rcases bind_eq_ok.mp materialized with ⟨found, walked, _⟩
  have ends := ends_of_walkToBase (sound.withLru (fun _ member => by
    cases member)) rfl walked
  exact ends.not_cyclic (TransGen.head' back still)

/-- An entry that is due is resolved to the object it denotes. -/
theorem Due.resolves (due : opts.Due state index)
    (addressed : opts.ContentAddressed) (denotes : opts.Denotes index object)
    (ready : state.baseReady index = true) :
    ∃ lru, opts.Caches lru ∧
      opts.resolveAndCount true state index =
        .ok (opts.publishAndCount { state with lru := lru } index
          object) := by
  rcases ResolveState.baseReady_iff.mp ready with ⟨base, points, settled⟩
  rcases resolveDeltaEntry_total addressed ⟨object, denotes⟩ due.sound
      due.grounded true points settled with
    ⟨lru, result, caches, denoted, entry⟩
  cases denoted.unique addressed denotes
  exact ⟨lru, caches, bind_eq_ok.mpr ⟨_, entry, rfl⟩⟩

omit [DecidableEq Oid] in
theorem Due.withLru (due : opts.Due state index) (caches : opts.Caches lru) :
    opts.Due { state with lru := lru } index where
  sound := due.sound.withLru caches
  grounded := ⟨due.grounded.based, due.grounded.external, due.grounded.ends⟩
  queue := ⟨due.queue.queued, due.queue.distinct, due.queue.ready⟩
  based := due.based

/-- The rounds of a drain add up. -/
theorem drainQueue_further {rounds : Nat}
    (drained : opts.drainQueue rounds start = .ok state) (more : Nat) :
    opts.drainQueue (rounds + more) start = opts.drainQueue more state := by
  induction rounds generalizing start with
  | zero =>
    cases drained
    rw [Nat.zero_add]
  | succ rounds ih =>
    rw [Nat.succ_add]
    cases first : start.readyDeferred with
    | nil =>
      have stays : ∀ count, opts.drainQueue count start = .ok start := by
        intro count
        cases count with
        | zero => rfl
        | succ count => rw [drainQueue, first]
      rw [stays] at drained
      cases drained
      rw [stays, stays]
    | cons index rest =>
      rw [drainQueue, first] at drained ⊢
      simp only at drained ⊢
      split at drained
      · next done =>
        rw [if_pos done]
        exact ih drained
      · next open_ =>
        rw [if_neg open_]
        rcases bind_eq_ok.mp drained with ⟨next, step, further⟩
        rw [step]
        exact ih further

/-- Where every state can be computed again, entries are clear when they are
due. -/
theorem clearWhenDue_of_rematerializes (addressed : opts.ContentAddressed)
    (rematerializes : ∀ state, opts.ReachesMixed state →
      opts.Rematerializes state) : opts.ClearWhenDue := by
  intro state index publishes due object denotes waiter waits unbased path
  cases publishes with
  | @passing built _ seen rest _ links split folded unresolved ready =>
    have placed : opts.Due (opts.atOffsetOf state index) index :=
      due.withLru due.sound.cached
    rcases placed.resolves addressed denotes ready with ⟨lru, caches, step⟩
    have stepped : opts.mixedMainStep state index =
        .ok (opts.publishAndCount { state with lru := lru } index object) := by
      unfold mixedMainStep
      simp only
      rw [if_neg (by exact unresolved), if_pos (by exact ready)]
      exact step
    have whole : List.finRange objectCount = (seen ++ [index]) ++ rest := by
      rw [split, List.append_assoc, List.singleton_append]
    exact (due.withLru caches).not_rematerializes denotes waits unbased path
      (rematerializes _ (.passing links
        ⟨seen ++ [index], rest, whole, foldlM_concat folded stepped⟩))
  | draining rounds starts drained front =>
    rcases front with ⟨⟨rest, first⟩, unresolved, ready⟩
    have taken : opts.Due (takeFirst state index rest) index :=
      { sound := due.sound.congr rfl rfl rfl rfl rfl rfl
        grounded := ⟨due.grounded.based, due.grounded.external,
          due.grounded.ends⟩
        queue := takeFirst_queue due.queue first
        based := due.based }
    have placed :
        opts.Due (opts.atOffsetOf (takeFirst state index rest) index) index :=
      taken.withLru taken.sound.cached
    rcases placed.resolves addressed denotes ready with ⟨lru, caches, step⟩
    have further := drainQueue_further drained 1
    rw [drainQueue_resolve first unresolved ready, step] at further
    exact (taken.withLru caches).not_rematerializes denotes waits unbased
      path (rematerializes _ (.draining (rounds + 1) starts further))
  | falling reached falls =>
    have applied := falls.applied addressed denotes
    have placed : opts.Due (opts.atOffsetOf state index) index :=
      due.withLru due.sound.cached
    exact placed.not_rematerializes denotes waits unbased path
      (rematerializes _ (.draining 0 (.fallback reached falls applied) rfl))

/-! ## Transparency -/

/-- Two runs that succeed for the same packs with faithful tables end the
same way. -/
theorem ResolvesExactly.outcome (addressed : opts.ContentAddressed)
    {first second : Nat} (left : (opts.withBudget first).ResolvesExactly)
    (right : (opts.withBudget second).ResolvesExactly) :
    (opts.withBudget first).resolveDeltasAndWriteIdx.toOption =
      (opts.withBudget second).resolveDeltasAndWriteIdx.toOption := by
  have both : (opts.withBudget first).AllDenote ↔
      (opts.withBudget second).AllDenote := by
    constructor
    · intro all index
      rcases all index with ⟨object, denotes⟩
      exact ⟨object, (denotes_withBudget.mp denotes).withBudget second⟩
    · intro all index
      rcases all index with ⟨object, denotes⟩
      exact ⟨object, (denotes_withBudget.mp denotes).withBudget first⟩
  cases ended : (opts.withBudget first).resolveDeltasAndWriteIdx with
  | ok table =>
    have all := both.mp (left.succeeds.mp ⟨table, ended⟩)
    rcases right.succeeds.mpr all with ⟨other, returned⟩
    rw [returned]
    have same : table = other :=
      Faithful.unique addressed (left.faithful table ended).withBudget
        (right.faithful other returned).withBudget
    rw [same]
  | error failure =>
    cases returned : (opts.withBudget second).resolveDeltasAndWriteIdx with
    | ok other =>
      have all := both.mpr (right.succeeds.mp ⟨other, returned⟩)
      rcases left.succeeds.mpr all with ⟨table, impossible⟩
      cases ended.symm.trans impossible
    | error _ => rfl

/-- The cache is transparent exactly when, with no budget, an entry is
published while an entry on its own chain of bases still waits for its
id. -/
theorem cacheTransparent_iff_untangled (opts : ResolveOptions Oid objectCount)
    (addressed : opts.ContentAddressed) :
    opts.CacheTransparent ↔
      ∀ budget, (opts.withBudget budget).Untangled := by
  constructor
  · intro transparent budget
    apply untangled_of_clearWhenDue (addressed.withBudget budget)
    intro deltas mixed
    apply clearWhenDue_of_rematerializes (addressed.withBudget budget)
    intro state reaches
    exact transparent.rematerializes budget state (.mixed deltas mixed reaches)
  · intro untangled
    have clear : ∀ budget, (opts.withBudget budget).HasDeltas →
        (opts.withBudget budget).refDeltaCount ≠ 0 →
          (opts.withBudget budget).ClearWhenDue :=
      fun budget deltas mixed state index publishes _ =>
        untangled budget deltas mixed state index publishes
    have exact_ : ∀ budget, (opts.withBudget budget).ResolvesExactly :=
      fun budget =>
        resolvesExactly_of_succeeds (addressed.withBudget budget) fun all =>
          resolveDeltasAndWriteIdx_total (addressed.withBudget budget) all
            (clear budget)
    constructor
    · intro first second
      exact (exact_ first).outcome addressed (exact_ second)
    · intro budget state reaches
      have addressed' := addressed.withBudget budget
      exact (reaches.recoverable addressed'
        (clear budget)).rematerializes addressed'

end Keeps

theorem cacheTransparent_iff_untangled_lateBase :
    (lateBase 0).CacheTransparent :=
  (cacheTransparent_iff_untangled (lateBase 0) (lateBase_addressed 0)).mpr
    fun budget => untangled_of_acyclic (lateBase_addressed budget)
      (lateBase_acyclic budget)

/-- With room for one byte the base is still cached when it is needed; with
no room the second entry cannot be resolved. -/
theorem reencoded_not_cacheTransparent :
    reencoded.ContentAddressed ∧ ¬ reencoded.CacheTransparent := by
  refine ⟨reencoded_addressed, ?_⟩
  intro transparent
  have same := transparent.outcome 0 1
  have failed :
      (reencoded.withBudget 0).resolveDeltasAndWriteIdx.toOption.isSome =
        false := by
    decide +kernel
  have resolved :
      (reencoded.withBudget 1).resolveDeltasAndWriteIdx.toOption.isSome =
        true := by
    decide +kernel
  rw [same, resolved] at failed
  cases failed

end ResolveOptions

end GitOnCloudflare.Pack
