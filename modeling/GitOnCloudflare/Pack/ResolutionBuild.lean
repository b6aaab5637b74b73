import GitOnCloudflare.Pack.ResolutionPasses
import Mathlib.Data.List.FinRange
import Mathlib.Data.List.OfFn

/-!
# Before the first pass of delta resolution

What building the dependencies leaves: every delta entry is linked to its
base or waits for an id, and both passes start with their invariants.
-/

namespace GitOnCloudflare.Pack

open Foundations
open Foundations.CheckedFold
open Relation

namespace ResolveOptions

variable {Oid : Type} {objectCount : Nat}
  {opts : ResolveOptions Oid objectCount}

/-! ## Base offsets -/

variable {base index : Fin objectCount}
  {start state : ResolveState Oid objectCount} {seen : List (Fin objectCount)}
  {object : GitObject} {mixed : Bool}

theorem searchOffsetIndex_complete {fuel lo hi : Nat} (low : lo ≤ base.val)
    (high : base.val < hi) (inside : hi ≤ objectCount) (enough : hi - lo < fuel) :
    opts.searchOffsetIndex (opts.offset base) fuel lo hi = some base := by
  induction fuel generalizing lo hi with
  | zero => omega
  | succ fuel ih =>
    unfold searchOffsetIndex
    have nonempty : lo < hi := by omega
    have middle : (lo + hi - 1) / 2 < objectCount := by omega
    rw [if_pos nonempty]
    simp only [middle, dif_pos]
    by_cases same :
        opts.offset ⟨(lo + hi - 1) / 2, middle⟩ = opts.offset base
    · rw [if_pos same, offset_injective same]
    · rw [if_neg same]
      by_cases before :
          opts.offset ⟨(lo + hi - 1) / 2, middle⟩ < opts.offset base
      · rw [if_pos before]
        have order := opts.scanResult.ascending.lt_iff_lt.mp before
        rw [Fin.lt_def] at order
        simp only at order
        apply ih <;> omega
      · rw [if_neg before]
        have after :
            opts.offset base < opts.offset ⟨(lo + hi - 1) / 2, middle⟩ := by
          omega
        have order := opts.scanResult.ascending.lt_iff_lt.mp after
        rw [Fin.lt_def] at order
        simp only at order
        apply ih <;> omega

theorem entryAtOffset_complete (base : Fin objectCount) :
    opts.entryAtOffset (opts.offset base) = some base :=
  searchOffsetIndex_complete (Nat.zero_le _) base.isLt le_rfl (by omega)

/-! ## Dependencies -/

section Build

variable [DecidableEq Oid]

variable (opts) in
/-- Between two rounds of a build: the entries seen are linked to their base
or wait for it. -/
structure Built (mixed : Bool) (start : ResolveState Oid objectCount)
    (seen : List (Fin objectCount)) (state : ResolveState Oid objectCount) :
    Prop where
  oids : state.oids = start.oids
  counted : state.resolved = start.resolved
  ready : state.readyDeferred = []
  queued : ∀ index, state.deferredQueued index = false
  noted : state.resolvedEntries = start.resolvedEntries
  deferred : state.deferred = []
  untouched : ∀ index, index ∉ seen →
    state.baseIndex index = none ∧ state.registeredBase index = none
  settled : ∀ index, state.Resolved index → state.baseIndex index = none
  ofsLinked : ∀ index ∈ seen, ∀ base, ¬ state.Resolved index →
    opts.kind index = .ofsDelta (opts.offset base) →
      state.baseIndex index = some base
  onBase : mixed = true → ∀ index ∈ seen, ∀ base, ¬ state.Resolved index →
    state.baseIndex index = some base → ¬ state.Resolved base →
      index ∈ state.waitingOnBase base
  onOid : ∀ index ∈ seen, ¬ state.Resolved index →
    state.baseIndex index = none →
      ∃ oid, opts.kind index = .refDelta oid ∧
        index ∈ state.waiting oid ∧
        ∀ holder, state.oids holder ≠ some oid
  refReady : ∀ index oid base, opts.kind index = .refDelta oid →
    state.baseIndex index = some base → state.Resolved base

/-- The ids known at the start are those of the whole entries. -/
structure Starts (opts : ResolveOptions Oid objectCount)
    (start : ResolveState Oid objectCount) : Prop where
  oids : start.oids = opts.scanned.oids
  noted : opts.Noted start

omit [DecidableEq Oid] in
theorem Starts.resolved (starts : Starts opts start) :
    start.Resolved index ↔ (opts.fullObject index).isSome := by
  unfold ResolveState.Resolved
  rw [starts.oids]
  simp [scanned]

omit [DecidableEq Oid] in
/-- The base of an OFS_DELTA entry with a chain is an entry. -/
theorem Denotes.ofsDelta_base {baseOffset : Nat}
    (denotes : opts.Denotes index object)
    (kind : opts.kind index = .ofsDelta baseOffset) :
    ∃ base, opts.offset base = baseOffset := by
  cases denotes with
  | full whole => cases (fullObject_kind whole).symm.trans kind
  | ofsDelta other =>
    exact ⟨_, EntryKind.ofsDelta.inj (other.symm.trans kind)⟩
  | refDelta other => cases other.symm.trans kind
  | external other => cases other.symm.trans kind

/-- An entry whose base offset is that of an entry can be linked. -/
theorem buildDependency_total (starts : Starts opts start)
    (built : opts.Built mixed start seen state) (fresh : index ∉ seen)
    (linkable : ∀ baseOffset, opts.kind index = .ofsDelta baseOffset →
      ∃ base, opts.offset base = baseOffset) :
    ∃ next, opts.buildDependency mixed state index = .ok next ∧
      opts.Built mixed start (seen ++ [index]) next := by
  rcases built.untouched index fresh with ⟨unbased, unregistered⟩
  have isResolved : ∀ other, state.Resolved other ↔
      (opts.fullObject other).isSome := by
    intro other
    rw [← starts.resolved]
    unfold ResolveState.Resolved
    rw [built.oids]
  have split : ∀ other, other ∈ seen ++ [index] ↔
      other ∈ seen ∨ other = index := by
    intro other
    rw [List.mem_append, List.mem_singleton]
  unfold buildDependency
  by_cases resolved : (state.oids index).isSome = true
  · rw [if_pos resolved]
    refine ⟨state, rfl,
      { built with
        untouched := ?_
        ofsLinked := ?_
        onBase := ?_
        onOid := ?_ }⟩
    · intro other unseen
      apply built.untouched other
      exact fun member => unseen ((split other).mpr (.inl member))
    · intro other member base open_ kind
      rcases (split other).mp member with earlier | rfl
      · exact built.ofsLinked other earlier base open_ kind
      · exact absurd resolved open_
    · intro isMixed other member base open_ points
      rcases (split other).mp member with earlier | rfl
      · exact built.onBase isMixed other earlier base open_ points
      · exact absurd resolved open_
    · intro other member open_ unbased'
      rcases (split other).mp member with earlier | rfl
      · exact built.onOid other earlier open_ unbased'
      · exact absurd resolved open_
  · rw [if_neg resolved]
    -- what a link to a base keeps, whichever list the entry then enters
    have link : ∀ (base : Fin objectCount)
        (waitingOnBase : Fin objectCount → List (Fin objectCount))
        (registeredBase : Fin objectCount → Option (Fin objectCount)),
        (∀ offset, opts.kind index = .ofsDelta offset →
          offset = opts.offset base) →
        (∀ oid, opts.kind index = .refDelta oid → state.Resolved base) →
        (∀ other, other ≠ index →
          registeredBase other = state.registeredBase other) →
        (∀ target other, other ∈ state.waitingOnBase target →
          other ∈ waitingOnBase target) →
        (mixed = true → ¬ state.Resolved base →
          index ∈ waitingOnBase base) →
        opts.Built mixed start (seen ++ [index])
          { opts.linkBase state index base with
            waitingOnBase := waitingOnBase
            registeredBase := registeredBase } := by
      intro base waitingOnBase registeredBase byOffset byOid others grows
        enters
      have other_ : ∀ other, other ≠ index →
          (opts.linkBase state index base).baseIndex other =
            state.baseIndex other := by
        intro other different
        exact Function.update_of_ne different _ _
      have self_ : (opts.linkBase state index base).baseIndex index =
          some base :=
        Function.update_self _ _ _
      refine
        { oids := built.oids
          counted := built.counted
          ready := built.ready
          queued := built.queued
          noted := built.noted
          deferred := built.deferred
          untouched := ?_
          settled := ?_
          ofsLinked := ?_
          onBase := ?_
          onOid := ?_
          refReady := ?_ }
      · intro other unseen
        have different : other ≠ index :=
          fun same => unseen ((split other).mpr (.inr same))
        rcases built.untouched other
            (fun member => unseen ((split other).mpr (.inl member))) with
          ⟨noBase, noRegistered⟩
        exact ⟨(other_ other different).trans noBase,
          (others other different).trans noRegistered⟩
      · intro other ready
        have different : other ≠ index := by
          rintro rfl
          exact resolved ready
        exact (other_ other different).trans (built.settled other ready)
      · intro other member target open_ kind
        by_cases same : other = index
        · subst same
          have offsets := byOffset _ kind
          rw [offset_injective offsets]
          exact self_
        · rcases (split other).mp member with earlier | equal
          · exact (other_ other same).trans
              (built.ofsLinked other earlier target open_ kind)
          · exact absurd equal same
      · intro isMixed other member target open_ points waits
        by_cases same : other = index
        · subst same
          cases self_.symm.trans points
          exact enters isMixed waits
        · rcases (split other).mp member with earlier | equal
          · apply grows
            exact built.onBase isMixed other earlier target open_
              ((other_ other same).symm.trans points) waits
          · exact absurd equal same
      · intro other member open_ noBase
        by_cases same : other = index
        · subst same
          cases self_.symm.trans noBase
        · rcases (split other).mp member with earlier | equal
          · exact built.onOid other earlier open_
              ((other_ other same).symm.trans noBase)
          · exact absurd equal same
      · intro other oid target kind points
        by_cases same : other = index
        · subst same
          cases self_.symm.trans points
          exact byOid oid kind
        · exact built.refReady other oid target kind
            ((other_ other same).symm.trans points)
    cases kind : opts.kind index with
    | full type =>
      exfalso
      apply resolved
      have full : (opts.fullObject index).isSome := by
        unfold fullObject
        rw [kind]
        rfl
      exact (isResolved index).mpr full
    | ofsDelta baseOffset =>
      rcases linkable baseOffset kind with ⟨base, rfl⟩
      simp only [entryAtOffset_complete]
      refine ⟨_, rfl, ?_⟩
      have byOffset : ∀ offset, opts.kind index = .ofsDelta offset →
          offset = opts.offset base := by
        intro offset other
        exact EntryKind.ofsDelta.inj (other.symm.trans kind)
      have byOid : ∀ oid, opts.kind index = .refDelta oid →
          state.Resolved base := by
        intro oid other
        cases other.symm.trans kind
      by_cases enters : (mixed && (state.oids base).isNone) = true
      · rw [if_pos enters]
        have self_ : (opts.linkBase state index base).baseIndex index =
            some base :=
          Function.update_self _ _ _
        have absent :
            ¬ (opts.linkBase state index base).registeredBase index =
              some base := by
          show ¬ state.registeredBase index = some base
          rw [unregistered]
          exact nofun
        unfold ResolveState.registerInPackDependency
        simp only [self_, if_neg absent]
        apply link base _ _ byOffset byOid
        · intro other different
          exact Function.update_of_ne different _ _
        · intro target other member
          by_cases same : target = base
          · subst same
            rw [Function.update_self]
            exact List.mem_cons_of_mem _ member
          · rw [Function.update_of_ne same]
            exact member
        · intro _ _
          rw [Function.update_self]
          exact List.mem_cons_self
      · rw [if_neg enters]
        apply link base state.waitingOnBase state.registeredBase byOffset
          byOid
        · intro other _
          rfl
        · intro target other member
          exact member
        · intro isMixed waits
          exfalso
          apply enters
          rw [isMixed, Bool.true_and, Option.isNone_iff_eq_none]
          exact ResolveState.not_resolved_iff.mp waits
    | refDelta baseOid =>
      cases known : state.resolvedEntries baseOid with
      | some base =>
        simp only [known]
        refine ⟨_, rfl, ?_⟩
        have ready : state.Resolved base := by
          rw [built.noted] at known
          rcases starts.noted.whole baseOid base known with
            ⟨whole, full, _⟩
          apply (isResolved base).mpr
          rw [full]
          rfl
        apply link base state.waitingOnBase state.registeredBase
        · intro offset other
          cases other.symm.trans kind
        · intro _ _
          exact ready
        · intro other _
          rfl
        · intro target other member
          exact member
        · intro _ waits
          exact absurd ready waits
      | none =>
        simp only [known]
        refine ⟨_, rfl,
          { oids := built.oids
            counted := built.counted
            ready := built.ready
            queued := built.queued
            noted := built.noted
            deferred := built.deferred
            untouched := ?_
            settled := built.settled
            ofsLinked := ?_
            onBase := ?_
            onOid := ?_
            refReady := built.refReady }⟩
        · intro other unseen
          apply built.untouched other
          exact fun member => unseen ((split other).mpr (.inl member))
        · intro other member target open_ otherKind
          rcases (split other).mp member with earlier | rfl
          · exact built.ofsLinked other earlier target open_ otherKind
          · cases otherKind.symm.trans kind
        · intro isMixed other member target open_ points waits
          rcases (split other).mp member with earlier | rfl
          · exact built.onBase isMixed other earlier target open_ points
              waits
          · cases unbased.symm.trans points
        · intro other member open_ noBase
          rcases (split other).mp member with earlier | rfl
          · rcases built.onOid other earlier open_ noBase with
              ⟨oid, otherKind, waits, nobody⟩
            refine ⟨oid, otherKind, ?_, nobody⟩
            by_cases same : oid = baseOid
            · subst same
              simp only [Function.update_self]
              exact List.mem_cons_of_mem _ waits
            · simp only [Function.update_of_ne same]
              exact waits
          · refine ⟨baseOid, kind, ?_, ?_⟩
            · simp only [Function.update_self]
              exact List.mem_cons_self
            · intro holder stored
              have unknown : start.resolvedEntries baseOid = none := by
                rw [← built.noted]
                exact known
              apply starts.noted.complete other baseOid kind unknown
              have held : state.oids holder = some baseOid := stored
              rw [built.oids, starts.oids] at held
              rcases scanned_holder.mp held with ⟨whole, full, same⟩
              exact ⟨holder, whole, full, same⟩

/-- A build succeeds when every entry has a chain. -/
theorem buildDependencies_total (all : opts.AllDenote) (mixed : Bool)
    (starts : Starts opts start) (initially : opts.Built mixed start [] start) :
    ∃ built,
      (List.finRange objectCount).foldlM (opts.buildDependency mixed)
          start = .ok built ∧
        opts.Built mixed start (List.finRange objectCount) built := by
  apply foldlM_total (List.finRange objectCount)
    (opts.Built mixed start) start initially
  intro seen index rest state split built
  have linkable : ∀ baseOffset, opts.kind index = .ofsDelta baseOffset →
      ∃ base, opts.offset base = baseOffset := by
    intro baseOffset kind
    rcases all index with ⟨object, denotes⟩
    exact denotes.ofsDelta_base kind
  apply fun fresh => buildDependency_total starts built fresh linkable
  have distinct := List.nodup_finRange objectCount
  rw [split, List.nodup_append] at distinct
  intro member
  exact distinct.2.2 index member index List.mem_cons_self rfl

end Build

/-! ## The end of a pass -/

/-- Writing succeeds on a state whose every entry is resolved. -/
theorem writeAndParseIdx_total (sound : opts.Sound state)
    (done : ∀ index, state.Resolved index) :
    ∃ table, writeAndParseIdx state = .ok table := by
  have each : ∀ index, buildRefsEntry state index = .ok () := by
    intro index
    rcases Option.isSome_iff_exists.mp (done index) with ⟨oid, stored⟩
    rcases sound.stored index oid stored with
      ⟨object, _, _, typed, recorded⟩
    unfold buildRefsEntry
    rw [typed, recorded]
    have whole := Nat.mod_eq_zero_of_dvd (objectRefBytes_length object)
    simp [whole]
  have every : ∀ items : List (Fin objectCount),
      items.forM (buildRefsEntry state) = .ok () := by
    intro items
    induction items with
    | nil => rfl
    | cons item items ih =>
      show (buildRefsEntry state item >>= fun _ =>
        items.forM (buildRefsEntry state)) = .ok ()
      exact bind_eq_ok.mpr ⟨(), each item, ih⟩
  exact ⟨_, bind_eq_ok.mpr ⟨(), every _, rfl⟩⟩

theorem card_eq_of_resolved (done : ∀ index, state.Resolved index) :
    (Finset.univ.filter fun index => state.Resolved index).card =
      objectCount := by
  rw [Finset.filter_true_of_mem fun index _ => done index]
  exact Finset.card_fin objectCount

theorem resolved_of_card
    (full : (Finset.univ.filter fun index => state.Resolved index).card =
      objectCount) (index : Fin objectCount) : state.Resolved index := by
  have same :
      (Finset.univ.filter fun index => state.Resolved index) =
        Finset.univ := by
    apply Finset.eq_univ_of_card
    rw [full, Fintype.card_fin]
  have member := Finset.mem_univ index
  rw [← same, Finset.mem_filter] at member
  exact member.2

theorem finishResolve_total (sound : opts.Sound state)
    (counted : state.resolved =
      (Finset.univ.filter fun index => state.Resolved index).card)
    (done : ∀ index, state.Resolved index) :
    ∃ table, finishResolve state = .ok table := by
  unfold finishResolve
  rw [counted, card_eq_of_resolved done, if_neg (not_not.mpr rfl)]
  exact writeAndParseIdx_total sound done

section Settled

variable {state : ResolveState Oid objectCount}

/-- With an empty queue no unresolved entry has a resolved base. -/
theorem Live.base_unresolved (live : opts.Live (fun _ => False) state)
    (empty : state.readyDeferred = []) (unresolved : ¬ state.Resolved index)
    (points : state.baseIndex index = some base) : ¬ state.Resolved base := by
  intro settled
  rcases live.wakes.ready index base unresolved points settled with
    queued | impossible
  · rw [empty] at queued
    cases queued
  · exact impossible

theorem Live.ofsDelta_resolved (live : opts.Live (fun _ => False) state)
    (empty : state.readyDeferred = [])
    (kind : opts.kind index = .ofsDelta (opts.offset base))
    (settled : state.Resolved base) : state.Resolved index := by
  by_contra open_
  have points := live.wakes.ofsLinked index base open_ kind
  exact live.base_unresolved empty open_ points settled

theorem Live.refDelta_resolved (live : opts.Live (fun _ => False) state)
    (addressed : opts.ContentAddressed) (empty : state.readyDeferred = [])
    (kind : opts.kind index = .refDelta (opts.computeOidBytes object))
    (denotes : opts.Denotes base object) (settled : state.Resolved base) :
    state.Resolved index := by
  by_contra open_
  cases points : state.baseIndex index with
  | some target =>
    apply live.base_unresolved empty open_ points
    exact live.wakes.refReady index _ target kind points
  | none =>
    rcases live.wakes.onOid index open_ points with
      ⟨oid, other, _, nobody⟩
    rcases Option.isSome_iff_exists.mp settled with ⟨stored, isStored⟩
    rcases live.sound.stored base stored isStored with
      ⟨held, holds, same, _⟩
    cases holds.unique addressed denotes
    have oids := EntryKind.refDelta.inj (kind.symm.trans other)
    apply nobody base
    rw [isStored, same, oids]

/-- When the queue is empty, every chain inside the pack is resolved. -/
theorem resolved_of_inside (addressed : opts.ContentAddressed)
    (live : opts.Live (fun _ => False) state) (empty : state.readyDeferred = [])
    (inside : opts.DenotesInside index object) : state.Resolved index := by
  induction inside with
  | full whole => exact live.whole _ (Option.isSome_of_eq_some whole)
  | ofsDelta kind _ _ ih => exact live.ofsDelta_resolved empty kind ih
  | refDelta kind held _ ih =>
    exact live.refDelta_resolved addressed empty kind held.denotes ih

/-- Nothing waits forever: when the queue is empty and the fallback has looked
at every deferred entry, every entry with a chain is resolved. -/
theorem resolved_of_denotes (addressed : opts.ContentAddressed)
    (live : opts.Live (fun _ => False) state) (empty : state.readyDeferred = [])
    (tried : ∀ index, opts.Tried state index)
    (denotes : opts.Denotes index object) : state.Resolved index := by
  induction denotes with
  | full whole => exact live.whole _ (Option.isSome_of_eq_some whole)
  | ofsDelta kind _ _ ih => exact live.ofsDelta_resolved empty kind ih
  | refDelta kind held _ ih =>
    exact live.refDelta_resolved addressed empty kind held ih
  | @external entry oid held _ kind found _ =>
    by_contra open_
    rcases tried entry with resolved | based | missing
    · exact open_ resolved
    · rcases Option.isSome_iff_exists.mp based with ⟨target, points⟩
      apply live.base_unresolved empty open_ points
      exact live.wakes.refReady entry _ target kind points
    · rw [refBaseOid_eq_some.mpr kind, Option.bind_some, found] at missing
      cases missing

end Settled

/-! ## The start of a pass -/

section Start

variable [DecidableEq Oid]

omit [DecidableEq Oid] in
theorem scanned_counted :
    opts.scanned.resolved =
      (Finset.univ.filter fun index => opts.scanned.Resolved index).card := by
  have same : ∀ index, opts.scanned.Resolved index ↔
      (opts.fullObject index).isSome = true := by
    intro index
    unfold ResolveState.Resolved
    simp [scanned]
  simp only [same]
  show (List.finRange objectCount).countP _ = _
  have listed :
      (Finset.univ.filter fun index =>
        (opts.fullObject index).isSome = true) =
        ((List.finRange objectCount).filter fun index =>
          (opts.fullObject index).isSome).toFinset := by
    ext index
    simp
  rw [List.countP_eq_length_filter, listed, List.toFinset_card_of_nodup]
  exact (List.nodup_finRange objectCount).filter _

theorem noteScannedEntries_eq :
    ∃ resolvedEntries, opts.noteScannedEntries =
      { opts.scanned with resolvedEntries := resolvedEntries } := by
  unfold noteScannedEntries
  apply foldl_preserves opts.noteResolvedEntry
    (List.finRange objectCount) opts.scanned
    (fun state => ∃ resolvedEntries, state =
      { opts.scanned with resolvedEntries := resolvedEntries })
  · exact ⟨_, rfl⟩
  · rintro state index _ ⟨resolvedEntries, rfl⟩
    unfold noteResolvedEntry
    split
    · exact ⟨_, rfl⟩
    · split
      · exact ⟨_, rfl⟩
      · exact ⟨_, rfl⟩

omit [DecidableEq Oid] in
theorem propagateDeadlines_eq (state : ResolveState Oid objectCount) :
    ∃ deadlines, opts.propagateDeadlines state =
      { state with deadlines := deadlines } := by
  unfold propagateDeadlines
  apply foldl_preserves opts.propagateDeadline _ state
    (fun other => ∃ deadlines, other = { state with deadlines := deadlines })
  · exact ⟨_, rfl⟩
  · rintro other index _ ⟨deadlines, rfl⟩
    unfold propagateDeadline
    split
    · exact ⟨_, rfl⟩
    · split
      · exact ⟨_, rfl⟩
      · simp only
        split
        · exact ⟨_, rfl⟩
        · exact ⟨_, rfl⟩

omit [DecidableEq Oid] in
theorem scanned_built (mixed : Bool)
    (resolvedEntries : Oid → Option (Fin objectCount)) :
    opts.Built mixed
      { opts.scanned with resolvedEntries := resolvedEntries } []
      { opts.scanned with resolvedEntries := resolvedEntries } where
  oids := rfl
  counted := rfl
  ready := rfl
  queued := fun _ => rfl
  noted := rfl
  deferred := rfl
  untouched := fun _ _ => ⟨rfl, rfl⟩
  settled := fun _ _ => rfl
  ofsLinked := by
    intro index member
    cases member
  onBase := by
    intro _ index member
    cases member
  onOid := by
    intro index member
    cases member
  refReady := by
    intro index oid base _ points
    cases points

variable {built : ResolveState Oid objectCount}

omit [DecidableEq Oid] in
theorem Built.resolved (starts : Starts opts start)
    (linked : opts.Built mixed start seen built) :
    built.Resolved index ↔ (opts.fullObject index).isSome := by
  rw [← starts.resolved]
  unfold ResolveState.Resolved
  rw [linked.oids]

omit [DecidableEq Oid] in
/-- Before the first delta is resolved no resolved entry has a base. -/
theorem Built.grounded (starts : Starts opts start)
    (linked : opts.Built mixed start seen built) :
    opts.Grounded built where
  based := by
    intro index base ready points
    cases (linked.settled index ready).symm.trans points
  external := by
    intro index ready _
    exact .inl ((linked.resolved starts).mp ready)
  ends := by
    intro index ready
    exact PointerChain.ends_of_none (linked.settled index ready)

omit [DecidableEq Oid] in
/-- The main pass starts with the invariant. -/
theorem Built.mainPass (starts : Starts opts start) (sound : opts.Sound built)
    (linked : opts.Built true start (List.finRange objectCount) built)
    (counted : start.resolved = opts.scanned.resolved) :
    opts.MainPass [] (opts.propagateDeadlines built) := by
  have placed := sound.propagateDeadlines
  have grounded := linked.grounded starts
  rcases @propagateDeadlines_eq _ _ opts built with ⟨deadlines, same⟩
  rw [same] at placed ⊢
  have isResolved : ∀ index, built.Resolved index ↔
      (opts.fullObject index).isSome := fun _ => linked.resolved starts
  refine ⟨?_, ?_⟩
  · refine
      { sound := placed
        grounded := ⟨grounded.based, grounded.external, grounded.ends⟩
        queue := ⟨?_, ?_, ?_⟩
        wakes := ⟨?_, ?_, ?_, ?_, linked.refReady⟩
        whole := ?_
        counted := ?_ }
    · intro index
      show built.deferredQueued index = true ↔ index ∈ built.readyDeferred
      rw [linked.queued, linked.ready]
      simp
    · show built.readyDeferred.Nodup
      rw [linked.ready]
      exact List.nodup_nil
    · intro index member
      have queued : index ∈ built.readyDeferred := member
      rw [linked.ready] at queued
      cases queued
    · intro index base _ _ _
      exact .inr List.not_mem_nil
    · intro index base
      exact linked.onBase rfl index (List.mem_finRange index) base
    · intro index
      exact linked.onOid index (List.mem_finRange index)
    · intro index base
      exact linked.ofsLinked index (List.mem_finRange index) base
    · intro index full
      exact (isResolved index).mpr full
    · show built.resolved = _
      rw [linked.counted, counted, scanned_counted]
      congr 1
      ext index
      rw [Finset.mem_filter, Finset.mem_filter]
      have left : opts.scanned.Resolved index ↔
          (opts.fullObject index).isSome := by
        unfold ResolveState.Resolved
        simp [scanned]
      rw [left, ← isResolved index]
      rfl
  · intro index member
    cases member

/-! ## What a successful round keeps -/

theorem buildDependency_keeps {next : ResolveState Oid objectCount}
    (starts : Starts opts start) (built : opts.Built mixed start seen state)
    (fresh : index ∉ seen)
    (stepped : opts.buildDependency mixed state index = .ok next) :
    opts.Built mixed start (seen ++ [index]) next := by
  have linkable : ∀ baseOffset, opts.kind index = .ofsDelta baseOffset →
      ∃ base, opts.offset base = baseOffset := by
    intro baseOffset kind
    unfold buildDependency at stepped
    split at stepped
    · next resolved =>
      have whole := (built.resolved starts).mp resolved
      rcases Option.isSome_iff_exists.mp whole with ⟨object, full⟩
      cases (fullObject_kind full).symm.trans kind
    · rw [kind] at stepped
      simp only at stepped
      split at stepped
      · cases stepped
      · next base found =>
        exact ⟨base, searchOffsetIndex_sound found⟩
  rcases buildDependency_total starts built fresh linkable with
    ⟨other, same, after⟩
  cases same.symm.trans stepped
  exact after

/-- The entries are linked once each, in the order of the pack. -/
theorem not_mem_seen {rest : List (Fin objectCount)}
    (split : List.finRange objectCount = seen ++ index :: rest) :
    index ∉ seen := by
  have distinct := List.nodup_finRange objectCount
  rw [split, List.nodup_append] at distinct
  intro member
  exact distinct.2.2 index member index List.mem_cons_self rfl

/-- The ids that the lookup of a mixed pack starts with. -/
theorem noteScannedEntries_starts :
    Starts opts opts.noteScannedEntries ∧
      opts.Built true opts.noteScannedEntries [] opts.noteScannedEntries ∧
      opts.noteScannedEntries.resolved = opts.scanned.resolved := by
  rcases @noteScannedEntries_eq _ _ opts _ with ⟨resolvedEntries, noted⟩
  refine ⟨⟨foldl_noteResolvedEntry_oids _ _,
    opts.noteScannedEntries_noted⟩, ?_, ?_⟩
  · rw [noted]
    exact scanned_built true resolvedEntries
  · rw [noted]

end Start

end ResolveOptions

end GitOnCloudflare.Pack
