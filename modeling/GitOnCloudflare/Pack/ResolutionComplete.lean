import GitOnCloudflare.Pack.ResolutionBuild

/-!
# Completeness of delta resolution

A resolution succeeds exactly when every entry has a finite chain, unless an
entry is published whose chain of bases meets an entry that still waits for
its id.
-/

namespace GitOnCloudflare.Pack

open Foundations
open Foundations.CheckedFold
open Relation

namespace ResolveOptions

variable {Oid : Type} {objectCount : Nat}
  {opts : ResolveOptions Oid objectCount}

section Complete

variable [DecidableEq Oid]

/-! ## The turns of a mixed pack -/

section Turns

variable (opts)

/-- The state after the main pass over a mixed pack. -/
def MixedPassed (passed : ResolveState Oid objectCount) : Prop :=
  ∃ built, opts.buildMixedDependencies opts.noteScannedEntries = .ok built ∧
    (List.finRange objectCount).foldlM opts.mixedMainStep
      (opts.propagateDeadlines built) = .ok passed

/-- The state after the drain that follows the main pass. -/
def MixedDrained (passed drained : ResolveState Oid objectCount) : Prop :=
  opts.MixedPassed passed ∧
    opts.drainReadyDeferredQueue
      (passed.deferred.foldl ResolveState.enqueueReadyDeferred passed) =
        .ok drained

/-- The external fallback comes to a deferred entry in this state. -/
def FallbackAt (state : ResolveState Oid objectCount)
    (index : Fin objectCount) : Prop :=
  ∃ passed drained seen rest, opts.MixedDrained passed drained ∧
    passed.deferred = seen ++ index :: rest ∧
    seen.foldlM opts.fallbackStep drained = .ok state

/-- The states that a drain starts from. -/
inductive DrainsFrom : ResolveState Oid objectCount → Prop where
  | passed {passed : ResolveState Oid objectCount} :
      opts.MixedPassed passed →
        DrainsFrom
          (passed.deferred.foldl ResolveState.enqueueReadyDeferred passed)
  | fallback {state : ResolveState Oid objectCount}
      {index : Fin objectCount} {base result : GitObject} :
      opts.FallbackAt state index → opts.FallsBack state index base →
        opts.applyEntryDelta "resolve: deferred delta" index base =
            .ok result →
          DrainsFrom
            (opts.publishAndCount (opts.atOffsetOf state index) index result)
  | fallen {passed drained fallen : ResolveState Oid objectCount} :
      opts.MixedDrained passed drained →
        passed.deferred.foldlM opts.fallbackStep drained = .ok fallen →
          DrainsFrom fallen

/-- The resolver comes to publish this entry of a mixed pack in this
state. -/
inductive Publishes : ResolveState Oid objectCount → Fin objectCount → Prop
    where
  | passing {built state : ResolveState Oid objectCount}
      {seen rest : List (Fin objectCount)} {index : Fin objectCount} :
      opts.buildMixedDependencies opts.noteScannedEntries = .ok built →
        List.finRange objectCount = seen ++ index :: rest →
          seen.foldlM opts.mixedMainStep (opts.propagateDeadlines built) =
              .ok state →
            ¬ state.Resolved index → state.baseReady index = true →
              Publishes state index
  | draining {start state : ResolveState Oid objectCount}
      {index : Fin objectCount} (rounds : Nat) :
      opts.DrainsFrom start → opts.drainQueue rounds start = .ok state →
        AtFront state index → Publishes state index
  | falling {state : ResolveState Oid objectCount}
      {index : Fin objectCount} {base : GitObject} :
      opts.FallbackAt state index → opts.FallsBack state index base →
        Publishes state index

/-- Some entry is a delta. -/
def HasDeltas : Prop :=
  ¬ (objectCount = 0 ∨ opts.scanned.resolved = objectCount)

/-- Whenever an entry is published, no entry that still waits for its id is
on its chain of bases. -/
def Untangled : Prop :=
  opts.HasDeltas → opts.refDeltaCount ≠ 0 →
    ∀ state index, opts.Publishes state index → opts.Clear state index

/-- The same for the entries that are due. -/
def ClearWhenDue : Prop :=
  ∀ state index, opts.Publishes state index → opts.Due state index →
    opts.Clear state index

end Turns

variable {start state built passed : ResolveState Oid objectCount}
  {index : Fin objectCount} {seen rest : List (Fin objectCount)}
  {object : GitObject}

theorem drainsClear_of_from (clear : opts.ClearWhenDue)
    (starts : opts.DrainsFrom start) : opts.DrainsClear start :=
  fun rounds next index drained front =>
    clear next index (.draining rounds starts drained front)

theorem FallbackAt.clear (clear : opts.ClearWhenDue)
    (reached : opts.FallbackAt state index) :
    opts.FallsClear state index where
  here := fun _ falls => clear state index (.falling reached falls)
  later := fun _ _ falls applied =>
    drainsClear_of_from clear (.fallback reached falls applied)

/-- The main pass over a mixed pack starts with its invariant. -/
theorem buildMixedDependencies_mainPass
    (links : opts.buildMixedDependencies opts.noteScannedEntries = .ok built) :
    opts.MainPass [] (opts.propagateDeadlines built) := by
  rcases @noteScannedEntries_starts _ _ opts _ with
    ⟨starts, initially, counted⟩
  have linked :=
    foldlM_keeps links (opts.Built true opts.noteScannedEntries) initially
      fun seen index rest before next split built stepped =>
        buildDependency_keeps starts built (not_mem_seen split) stepped
  have sound :=
    buildDependencies_sound opts.noteScannedEntries_sound
      opts.noteScannedEntries_noted links
  exact linked.mainPass starts sound counted

/-- A round of the main pass that succeeded kept its invariant. -/
theorem mixedMainStep_keeps (addressed : opts.ContentAddressed)
    {next : ResolveState Oid objectCount} (pass : opts.MainPass seen state)
    (clear : ¬ state.Resolved index → state.baseReady index = true →
      opts.Due state index → opts.Clear state index)
    (stepped : opts.mixedMainStep state index = .ok next) :
    opts.MainPass (seen ++ [index]) next := by
  have denoted : ¬ state.Resolved index → state.baseReady index = true →
      ∃ object, opts.Denotes index object := by
    intro unresolved ready
    have placed := pass.live.atOffsetOf index
    have pending :
        ¬ ((opts.atOffsetOf state index).oids index).isSome = true :=
      unresolved
    have waits : (opts.atOffsetOf state index).baseReady index = true :=
      ready
    unfold mixedMainStep at stepped
    simp only at stepped
    rw [if_neg pending, if_pos waits] at stepped
    have settled :=
      placed.resolveAndCount_keeps addressed
        (clear unresolved ready (pass.live.due ready)) unresolved stepped
    exact settled.1.sound.denoted settled.2.2.1
  rcases mixedMainStep_total addressed pass clear denoted with
    ⟨other, same, after⟩
  cases same.symm.trans stepped
  exact after

/-- The main pass up to some entry. -/
theorem mainPass_reached (addressed : opts.ContentAddressed)
    (clear : opts.ClearWhenDue)
    (links : opts.buildMixedDependencies opts.noteScannedEntries = .ok built)
    (split : List.finRange objectCount = seen ++ rest)
    (folded : seen.foldlM opts.mixedMainStep (opts.propagateDeadlines built) =
      .ok state) : opts.MainPass seen state := by
  have both :=
    foldlM_keeps folded
      (fun seen state => opts.MainPass seen state ∧
        seen.foldlM opts.mixedMainStep (opts.propagateDeadlines built) =
          .ok state)
      ⟨buildMixedDependencies_mainPass links, rfl⟩
      (by
        rintro earlier index later before next middle ⟨pass, reached⟩ stepped
        have whole : List.finRange objectCount =
            earlier ++ index :: (later ++ rest) := by
          rw [split, middle]
          simp
        exact ⟨mixedMainStep_keeps addressed pass
          (fun unresolved ready =>
            clear before index (.passing links whole reached unresolved ready))
          stepped, foldlM_concat reached stepped⟩)
  exact both.1

omit [DecidableEq Oid] in
/-- After the main pass nothing is scheduled, and the deferred entries may
enter the queue. -/
theorem MainPass.enqueued
    (pass : opts.MainPass (List.finRange objectCount) passed) :
    opts.Live (fun _ => False)
        (passed.deferred.foldl ResolveState.enqueueReadyDeferred passed) ∧
      Progress passed
        (passed.deferred.foldl ResolveState.enqueueReadyDeferred
          passed) := by
  have live : opts.Live (fun _ => False) passed := by
    apply pass.live.reschedule
    intro index _ _ unseen
    exact unseen (List.mem_finRange index)
  apply foldl_preserves ResolveState.enqueueReadyDeferred
    passed.deferred passed
    (fun state => opts.Live (fun _ => False) state ∧
      Progress passed state) ⟨live, Progress.refl passed⟩
  rintro state index _ ⟨kept, progress⟩
  exact ⟨kept.enqueueReadyDeferred index,
    progress.trans (progress_of_enqueue state index)⟩

/-- What the external fallback relies on. -/
abbrev InsideSettled (opts : ResolveOptions Oid objectCount)
    (state : ResolveState Oid objectCount) : Prop :=
  opts.Live (fun _ => False) state ∧
    ∀ entry object, opts.DenotesInside entry object → state.Resolved entry

theorem MixedPassed.pass (addressed : opts.ContentAddressed)
    (clear : opts.ClearWhenDue) (reached : opts.MixedPassed passed) :
    opts.MainPass (List.finRange objectCount) passed := by
  rcases reached with ⟨built, links, steps⟩
  exact mainPass_reached addressed clear links
    (List.append_nil _).symm steps

theorem MixedDrained.settled (addressed : opts.ContentAddressed)
    (clear : opts.ClearWhenDue) {passed drained : ResolveState Oid objectCount}
    (reached : opts.MixedDrained passed drained) :
    opts.InsideSettled drained := by
  rcases reached with ⟨pass, drain⟩
  rcases drainQueue_keeps addressed (pass.pass addressed clear).enqueued.1
      (drainsClear_of_from clear (.passed pass)) drain with
    ⟨live, _, empty⟩
  refine ⟨live, ?_⟩
  intro entry object inside
  exact resolved_of_inside addressed live (empty (backlog_le _)) inside

/-- The fallback up to some entry. -/
theorem fallback_reached (addressed : opts.ContentAddressed)
    (clear : opts.ClearWhenDue) {drained : ResolveState Oid objectCount}
    (reached : opts.MixedDrained passed drained)
    (split : passed.deferred = seen ++ rest)
    (folded : seen.foldlM opts.fallbackStep drained = .ok state) :
    opts.InsideSettled state ∧ Progress drained state ∧
      ∀ index ∈ seen, opts.Tried state index := by
  have both :=
    foldlM_keeps folded
      (fun seen state => (opts.InsideSettled state ∧
          Progress drained state ∧ ∀ index ∈ seen, opts.Tried state index) ∧
        seen.foldlM opts.fallbackStep drained = .ok state)
      ⟨⟨reached.settled addressed clear, Progress.refl drained, by
        intro index member
        cases member⟩, rfl⟩
      (by
        rintro earlier index later before next middle
          ⟨⟨⟨live, inside⟩, progress, tried⟩, falls⟩ stepped
        have whole : passed.deferred =
            earlier ++ index :: (later ++ rest) := by
          rw [split, middle]
          simp
        have here : opts.FallbackAt before index :=
          ⟨passed, drained, earlier, _, reached, whole, falls⟩
        rcases fallbackStep_keeps addressed live inside (here.clear clear)
            stepped with ⟨after, further, done⟩
        refine ⟨⟨⟨after, fun entry object denoted =>
            further.resolved entry (inside entry object denoted)⟩,
          progress.trans further, ?_⟩, foldlM_concat falls stepped⟩
        intro other member
        rcases List.mem_append.mp member with earlier | last
        · exact (tried other earlier).progress further
        · rw [List.mem_singleton.mp last]
          exact done)
  exact both.1

theorem FallbackAt.settled (addressed : opts.ContentAddressed)
    (clear : opts.ClearWhenDue) {state : ResolveState Oid objectCount}
    {index : Fin objectCount} (reached : opts.FallbackAt state index) :
    opts.InsideSettled state := by
  rcases reached with ⟨passed, drained, seen, rest, settled, split, falls⟩
  exact (fallback_reached addressed clear settled split falls).1

theorem DrainsFrom.live (addressed : opts.ContentAddressed)
    (clear : opts.ClearWhenDue) (starts : opts.DrainsFrom start) :
    opts.Live (fun _ => False) start := by
  cases starts with
  | passed pass => exact (pass.pass addressed clear).enqueued.1
  | fallback reached falls applied =>
    rcases reached.settled addressed clear with ⟨live, inside⟩
    exact (falls.publish live (falls.due live addressed inside)
      (reached.clear clear) applied).1
  | fallen settled falls =>
    exact (fallback_reached addressed clear settled
      (List.append_nil _).symm falls).1.1

/-- An entry is due when the resolver comes to publish it. -/
theorem Publishes.due (addressed : opts.ContentAddressed)
    (clear : opts.ClearWhenDue) (publishes : opts.Publishes state index) :
    opts.Due state index := by
  cases publishes with
  | passing links split folded _ ready =>
    exact (mainPass_reached addressed clear links split folded).live.due ready
  | draining rounds starts drained front =>
    exact (drainQueue_keeps addressed (starts.live addressed clear)
      (drainsClear_of_from clear starts) drained).1.due front.2.2
  | falling reached falls =>
    rcases reached.settled addressed clear with ⟨live, inside⟩
    exact falls.due live addressed inside

theorem untangled_of_clearWhenDue (addressed : opts.ContentAddressed)
    (clear : opts.HasDeltas → opts.refDeltaCount ≠ 0 → opts.ClearWhenDue) :
    opts.Untangled :=
  fun deltas mixed state index publishes =>
    clear deltas mixed state index publishes
      (publishes.due addressed (clear deltas mixed))

/-- A pack that does not hold the external base of an entry again on top of
that entry is untangled. -/
theorem untangled_of_acyclic (addressed : opts.ContentAddressed)
    (acyclic : ∀ entry, ¬ opts.ReencodesOwnBase entry) : opts.Untangled :=
  untangled_of_clearWhenDue addressed fun _ _ _ _ _ due => due.clear acyclic

/-! ## Both passes -/

/-- A mixed pack resolves when every entry has a chain. -/
theorem resolveMixedPack_total (addressed : opts.ContentAddressed)
    (all : opts.AllDenote) (clear : opts.ClearWhenDue) :
    ∃ table, opts.resolveMixedPack = .ok table := by
  rcases @noteScannedEntries_starts _ _ opts _ with ⟨starts, initially, _⟩
  rcases buildDependencies_total all true starts initially with
    ⟨built, links, _⟩
  have main : ∃ passed,
      (List.finRange objectCount).foldlM opts.mixedMainStep
        (opts.propagateDeadlines built) = .ok passed := by
    rcases foldlM_total (List.finRange objectCount)
        (fun seen state =>
          seen.foldlM opts.mixedMainStep (opts.propagateDeadlines built) =
            .ok state)
        (opts.propagateDeadlines built) rfl
        (by
          intro seen index rest state split reached
          have pass := mainPass_reached addressed clear links split reached
          rcases mixedMainStep_total addressed pass
              (fun unresolved ready =>
                clear state index
                  (.passing links split reached unresolved ready))
              (fun _ _ => all index) with ⟨next, stepped, _⟩
          exact ⟨next, stepped, foldlM_concat reached stepped⟩) with
      ⟨passed, steps, _⟩
    exact ⟨passed, steps⟩
  rcases main with ⟨passed, steps⟩
  have reached : opts.MixedPassed passed := ⟨built, links, steps⟩
  have pass := reached.pass addressed clear
  rcases drainReadyDeferredQueue_total addressed all pass.enqueued.1
      (drainsClear_of_from clear (.passed reached)) with
    ⟨drained, first, _, _, drainedProgress⟩
  have settled : opts.MixedDrained passed drained := ⟨reached, first⟩
  have fallback : ∃ fallen,
      passed.deferred.foldlM opts.fallbackStep drained = .ok fallen := by
    rcases foldlM_total passed.deferred
        (fun seen state =>
          seen.foldlM opts.fallbackStep drained = .ok state)
        drained rfl
        (by
          intro seen index rest state split falls
          rcases fallback_reached addressed clear settled split falls with
            ⟨⟨live, inside⟩, _⟩
          have here : opts.FallbackAt state index :=
            ⟨passed, drained, seen, rest, settled, split, falls⟩
          rcases fallbackStep_total addressed all live inside index
              (here.clear clear) with ⟨next, stepped⟩
          exact ⟨next, stepped, foldlM_concat falls stepped⟩) with
      ⟨fallen, falls, _⟩
    exact ⟨fallen, falls⟩
  rcases fallback with ⟨fallen, falls⟩
  rcases fallback_reached addressed clear settled
      (List.append_nil _).symm falls with
    ⟨⟨fallenLive, _⟩, fallenProgress, tried⟩
  rcases drainReadyDeferredQueue_total addressed all fallenLive
      (drainsClear_of_from clear (.fallen settled falls)) with
    ⟨final, second, finalLive, empty, finalProgress⟩
  have toFallen : Progress passed fallen :=
    (pass.enqueued.2.trans drainedProgress).trans fallenProgress
  have everyTried : ∀ index, opts.Tried final index := by
    intro index
    by_cases resolved : passed.Resolved index
    · exact .inl
        ((toFallen.trans finalProgress).resolved index resolved)
    · have deferred :=
        pass.covered index (List.mem_finRange index) resolved
      exact (tried index deferred).progress finalProgress
  have done : ∀ index, final.Resolved index := by
    intro index
    rcases all index with ⟨object, denotes⟩
    exact resolved_of_denotes addressed finalLive empty everyTried denotes
  rcases finishResolve_total finalLive.sound finalLive.counted done with
    ⟨table, finished⟩
  refine ⟨table, ?_⟩
  exact bind_eq_ok.mpr ⟨built, links,
    bind_eq_ok.mpr ⟨passed, steps,
      bind_eq_ok.mpr ⟨drained, first,
        bind_eq_ok.mpr ⟨fallen, falls,
          bind_eq_ok.mpr ⟨final, second, finished⟩⟩⟩⟩⟩

/-! ## Packs without REF_DELTA entries -/

omit [DecidableEq Oid] in
/-- An entry that denotes an object is not its own base. -/
theorem Denotes.not_own_base (denotes : opts.Denotes index object) :
    opts.kind index ≠ .ofsDelta (opts.offset index) := by
  induction denotes with
  | full whole =>
    intro kind
    cases (fullObject_kind whole).symm.trans kind
  | ofsDelta other _ _ ih =>
    intro kind
    have offsets := EntryKind.ofsDelta.inj (other.symm.trans kind)
    cases offset_injective offsets
    exact ih kind
  | refDelta other =>
    intro kind
    cases other.symm.trans kind
  | external other =>
    intro kind
    cases other.symm.trans kind

variable {base : Fin objectCount}

omit [DecidableEq Oid] in
/-- The base of an OFS_DELTA entry precedes it. -/
theorem Denotes.base_lt (denotes : opts.Denotes index object)
    (kind : opts.kind index = .ofsDelta (opts.offset base)) : base < index := by
  have behind : opts.offset base ≤ opts.offset index :=
    opts.scanResult.backward index _ kind
  have different : base ≠ index := by
    rintro rfl
    exact denotes.not_own_base kind
  have order : base ≤ index :=
    opts.scanResult.ascending.le_iff_le.mp behind
  exact lt_of_le_of_ne order different

/-- Every index before one of a list in order has been seen. -/
theorem mem_of_lt {earlier : Fin objectCount}
    (split : List.finRange objectCount = seen ++ index :: rest)
    (before : earlier < index) : earlier ∈ seen := by
  have ordered := List.pairwise_lt_finRange objectCount
  have member := List.mem_finRange earlier
  rw [split] at ordered member
  rcases List.mem_append.mp member with found | later
  · exact found
  · rcases List.mem_cons.mp later with rfl | after
    · exact absurd before (lt_irrefl _)
    · have tail := (List.pairwise_append.mp ordered).2.1
      have above := List.rel_of_pairwise_cons tail after
      exact absurd before (lt_asymm above)

variable (opts) in
/-- Between two rounds of the pass over a pack without REF_DELTA entries. -/
structure OfsPass (seen : List (Fin objectCount))
    (state : ResolveState Oid objectCount) : Prop where
  sound : opts.Sound state
  grounded : opts.Grounded state
  done : ∀ index ∈ seen, state.Resolved index
  ofsLinked : ∀ index base, ¬ state.Resolved index →
    opts.kind index = .ofsDelta (opts.offset base) →
      state.baseIndex index = some base
  whole : ∀ index, (opts.fullObject index).isSome → state.Resolved index
  counted : state.resolved =
    (Finset.univ.filter fun index => state.Resolved index).card

omit [DecidableEq Oid] in
theorem OfsPass.withLru (pass : opts.OfsPass seen state)
    {lru : PayloadLRU objectCount} (caches : opts.Caches lru) :
    opts.OfsPass seen { state with lru := lru } where
  sound := pass.sound.withLru caches
  grounded := ⟨pass.grounded.based, pass.grounded.external,
    pass.grounded.ends⟩
  done := pass.done
  ofsLinked := pass.ofsLinked
  whole := pass.whole
  counted := pass.counted

omit [DecidableEq Oid] in
theorem OfsPass.visited (pass : opts.OfsPass seen state)
    (resolved : state.Resolved index) :
    opts.OfsPass (seen ++ [index]) state where
  sound := pass.sound
  grounded := pass.grounded
  done := by
    intro other member
    rcases List.mem_append.mp member with earlier | last
    · exact pass.done other earlier
    · rw [List.mem_singleton.mp last]
      exact resolved
  ofsLinked := pass.ofsLinked
  whole := pass.whole
  counted := pass.counted

omit [DecidableEq Oid] in
theorem OfsPass.cacheResolvedBaseIfNeeded (pass : opts.OfsPass seen state)
    (index : Fin objectCount) :
    opts.OfsPass seen (opts.cacheResolvedBaseIfNeeded state index) := by
  unfold ResolveOptions.cacheResolvedBaseIfNeeded
  split
  · next read => exact pass.withLru (pass.sound.cached.get read).2
  · split
    · split
      · exact pass
      · next object full =>
        exact pass.withLru (pass.sound.cached.set (.full full) _)
    · exact pass

/-- Without wake-ups a result changes only its own row and the cache. -/
theorem OfsPass.publish (pass : opts.OfsPass seen state)
    (unresolved : ¬ state.Resolved index)
    (points : state.baseIndex index = some base) (settled : state.Resolved base)
    (denotes : opts.Denotes index object) :
    opts.OfsPass (seen ++ [index])
      { opts.publishResult false state index object with
        resolved :=
          (opts.publishResult false state index object).resolved + 1 } := by
  have published :
      (opts.publishResult false state index object).oids =
          (opts.recordResult state index object).oids ∧
        (opts.publishResult false state index object).baseIndex =
          state.baseIndex ∧
        (opts.publishResult false state index object).resolved =
          state.resolved := by
    show (cacheIfBase (opts.recordResult state index object) index
        object).oids = _ ∧ _
    unfold publishResult cacheIfBase
    simp only [Bool.false_eq_true, if_false]
    split
    · exact ⟨rfl, rfl, rfl⟩
    · exact ⟨rfl, rfl, rfl⟩
  rcases published with ⟨oids, baseIndex, counted⟩
  have resolved : ∀ other,
      (opts.publishResult false state index object).Resolved other ↔
        other = index ∨ state.Resolved other := by
    intro other
    unfold ResolveState.Resolved
    rw [oids]
    exact recordResult_resolved
  have nobody : ∀ other, False →
      ¬ ReflTransGen (PointerChain.Follows state.baseIndex) index other :=
    fun _ impossible => impossible.elim
  have grounded :
      opts.Grounded (opts.publishResult false state index object) :=
    pass.grounded.published (.inl ⟨base, points, settled⟩) nobody
      (fun _ impossible => impossible.elim)
      (fun other _ => congrFun baseIndex other) resolved
  refine
    { sound := (pass.sound.publishResult false denotes).congr
        rfl rfl rfl rfl rfl rfl
      grounded := ⟨grounded.based, grounded.external, grounded.ends⟩
      done := ?_
      ofsLinked := ?_
      whole := ?_
      counted := ?_ }
  · intro other member
    apply (resolved other).mpr
    rcases List.mem_append.mp member with earlier | last
    · exact .inr (pass.done other earlier)
    · exact .inl (List.mem_singleton.mp last)
  · intro other target open_ kind
    show (opts.publishResult false state index object).baseIndex other = _
    rw [baseIndex]
    apply pass.ofsLinked other target _ kind
    exact fun before => open_ ((resolved other).mpr (.inr before))
  · intro other full
    exact (resolved other).mpr (.inr (pass.whole other full))
  · show (opts.publishResult false state index object).resolved + 1 = _
    rw [counted, pass.counted]
    exact (card_resolved resolved unresolved).symm

theorem ofsMainStep_total (addressed : opts.ContentAddressed)
    (all : opts.AllDenote) (pure : opts.refDeltaCount = 0)
    (split : List.finRange objectCount = seen ++ index :: rest)
    (pass : opts.OfsPass seen state) :
    ∃ next, opts.ofsMainStep state index = .ok next ∧
      opts.OfsPass (seen ++ [index]) next := by
  have placed : opts.OfsPass seen (opts.atOffsetOf state index) :=
    pass.withLru pass.sound.cached
  unfold ofsMainStep
  simp only
  by_cases resolved :
      ((opts.atOffsetOf state index).oids index).isSome = true
  · rw [if_pos resolved]
    exact ⟨_, rfl,
      (placed.visited resolved).cacheResolvedBaseIfNeeded index⟩
  · rw [if_neg resolved]
    have base : ∃ base, opts.kind index = .ofsDelta (opts.offset base) := by
      rcases all index with ⟨object, denotes⟩
      have noRef : ∀ oid, opts.kind index ≠ .refDelta oid := by
        intro oid kind
        unfold refDeltaCount at pure
        rw [List.countP_eq_zero] at pure
        have absent := pure index (List.mem_finRange index)
        rw [refBaseOid_eq_some.mpr kind] at absent
        exact absent rfl
      cases denotes with
      | full whole =>
        exfalso
        apply resolved
        apply pass.whole
        rw [whole]
        rfl
      | ofsDelta kind => exact ⟨_, kind⟩
      | refDelta kind => exact absurd kind (noRef _)
      | external kind => exact absurd kind (noRef _)
    rcases base with ⟨base, kind⟩
    rcases all index with ⟨_, denoted⟩
    have points := placed.ofsLinked index base resolved kind
    have settled :=
      placed.done base (mem_of_lt split (denoted.base_lt kind))
    have ready : (opts.atOffsetOf state index).baseReady index = true :=
      ResolveState.baseReady_iff.mpr ⟨base, points, settled⟩
    rw [if_pos ready]
    rcases resolveDeltaEntry_total addressed (all index) placed.sound
        placed.grounded false points settled with
      ⟨lru, result, caches, denotes, stepped⟩
    have after :=
      (placed.withLru caches).publish resolved points settled denotes
    exact ⟨_, bind_eq_ok.mpr ⟨_, stepped, rfl⟩, after⟩

omit [DecidableEq Oid] in
/-- The pass over a pack without REF_DELTA entries starts with its
invariant. -/
theorem Built.ofsPass {mixed : Bool} (starts : Starts opts start)
    (sound : opts.Sound built)
    (linked : opts.Built mixed start (List.finRange objectCount) built)
    (counted : start.resolved = opts.scanned.resolved) :
    opts.OfsPass [] (opts.propagateDeadlines built) := by
  have placed := sound.propagateDeadlines
  have grounded := linked.grounded starts
  rcases @propagateDeadlines_eq _ _ opts built with ⟨deadlines, same⟩
  rw [same] at placed ⊢
  refine
    { sound := placed
      grounded := ⟨grounded.based, grounded.external, grounded.ends⟩
      done := ?_
      ofsLinked := ?_
      whole := ?_
      counted := ?_ }
  · intro index member
    cases member
  · intro index base
    exact linked.ofsLinked index (List.mem_finRange index) base
  · intro index full
    exact (linked.resolved starts).mpr full
  · show built.resolved = _
    rw [linked.counted, counted, scanned_counted]
    congr 1
    ext index
    have initial : opts.scanned.Resolved index ↔
        (opts.fullObject index).isSome := by
      unfold ResolveState.Resolved
      simp [scanned]
    rw [Finset.mem_filter, Finset.mem_filter, initial,
      ← linked.resolved starts]
    rfl

/-- A pack without REF_DELTA entries resolves when every entry has a
chain. -/
theorem resolveOfsPack_total (addressed : opts.ContentAddressed)
    (all : opts.AllDenote) (pure : opts.refDeltaCount = 0) :
    ∃ table, opts.resolveOfsPack = .ok table := by
  have starts : Starts opts opts.scanned := ⟨rfl, scanned_noted pure⟩
  rcases buildDependencies_total all false starts
      (scanned_built false fun _ => none) with ⟨built, links, linked⟩
  have sound :=
    buildDependencies_sound opts.scanned_sound (scanned_noted pure) links
  have start := linked.ofsPass starts sound rfl
  rcases foldlM_total (List.finRange objectCount) opts.OfsPass
      (opts.propagateDeadlines built) start
      (fun _ _ _ _ split pass =>
        ofsMainStep_total addressed all pure split pass) with
    ⟨final, steps, pass⟩
  have done : ∀ index, final.Resolved index := fun index =>
    pass.done index (List.mem_finRange index)
  rcases finishResolve_total pass.sound pass.counted done with
    ⟨table, finished⟩
  exact ⟨table, bind_eq_ok.mpr ⟨built, links,
    bind_eq_ok.mpr ⟨final, steps, finished⟩⟩⟩

theorem resolveDeltasAndWriteIdx_total (addressed : opts.ContentAddressed)
    (all : opts.AllDenote)
    (clear : opts.HasDeltas → opts.refDeltaCount ≠ 0 → opts.ClearWhenDue) :
    ∃ table, opts.resolveDeltasAndWriteIdx = .ok table := by
  unfold resolveDeltasAndWriteIdx
  split
  · next settled =>
    apply writeAndParseIdx_total opts.scanned_sound
    intro index
    rcases settled with empty | complete
    · exact absurd index.isLt (by omega)
    · apply resolved_of_card
      rw [← scanned_counted]
      exact complete
  · next deltas =>
    split
    · next pure => exact resolveOfsPack_total addressed all pure
    · next mixed =>
      exact resolveMixedPack_total addressed all (clear deltas mixed)

end Complete

end ResolveOptions

end GitOnCloudflare.Pack
