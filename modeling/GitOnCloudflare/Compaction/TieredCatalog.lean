import Mathlib.Data.Set.Finite.Basic
import GitOnCloudflare.Compaction.Lease
import GitOnCloudflare.Foundations.TieredIntervals

/-!
# The tiers of the active catalog

The plan takes the first four rows of one tier, and the row of the commit
spans them in the next tier: the catalog goes from a tiered set of intervals
to a merge of it.
-/

namespace GitOnCloudflare.Compaction

open Foundations
open Repo

/-! ## The selection -/

/-- How many of the rows are in the tier. -/
def tierCount (rows : List PackCatalogRow) (tier : Nat) : Nat :=
  (rows.filter fun row => row.tier = tier).length

theorem count_tier (rows : List PackCatalogRow) (tier : Nat) :
    (rows.map PackCatalogRow.tier).count tier = tierCount rows tier := by
  rw [List.count, List.countP_map, List.countP_eq_length_filter, tierCount]
  rfl

variable {rows : List PackCatalogRow} {row : PackCatalogRow}

theorem mem_summarizeTierCounts {state : CompactionTierState} :
    state ∈ summarizeTierCounts rows ↔
      (∃ row ∈ rows, row.tier = state.tier) ∧
        state.activePackCount = tierCount rows state.tier := by
  unfold summarizeTierCounts
  constructor
  · intro member
    rcases List.mem_map.mp member with ⟨tier, listed, rfl⟩
    have some_ := List.mem_dedup.mp ((List.mem_insertionSort _).mp listed)
    exact ⟨List.mem_map.mp some_, count_tier rows tier⟩
  · rintro ⟨some_, count⟩
    apply List.mem_map.mpr
    refine ⟨state.tier, ?_, ?_⟩
    · exact (List.mem_insertionSort _).mpr
        (List.mem_dedup.mpr (List.mem_map.mpr some_))
    · rw [count_tier, ← count]

/-- The first rows of a tier by sequence number. -/
def firstOfTier (rows : List PackCatalogRow) (tier : Nat) :
    List PackCatalogRow :=
  ((rows.filter fun pack => pack.tier = tier).insertionSort
    fun left right => left.seqLo ≤ right.seqLo).take compactionFanIn

/-- What a plan is made of. -/
structure Planned (rows : List PackCatalogRow) (plan : CompactionPlan) : Prop where
  overflows : compactionFanIn < tierCount rows plan.sourceTier
  targetTier : plan.targetTier = plan.sourceTier + 1
  sourcePacks : plan.sourcePacks = firstOfTier rows plan.sourceTier

theorem length_firstOfTier {tier : Nat}
    (overflows : compactionFanIn < tierCount rows tier) :
    (firstOfTier rows tier).length = compactionFanIn := by
  rw [firstOfTier, List.length_take, List.length_insertionSort]
  exact Nat.min_eq_left overflows.le

theorem planned_of_select {plan : CompactionPlan}
    (selected : selectCompactionPlan rows = some plan) : Planned rows plan := by
  unfold selectCompactionPlan at selected
  dsimp only at selected
  split at selected
  · cases selected
  · next overflowing found =>
      split at selected
      · cases selected
      · cases selected
        refine ⟨?_, rfl, rfl⟩
        have above : compactionFanIn < overflowing.activePackCount := by
          simpa using List.find?_some found
        rw [(mem_summarizeTierCounts.mp (List.mem_of_find?_eq_some found)).2]
          at above
        exact above

/-- There is no plan exactly when no tier overflows. -/
theorem selectCompactionPlan_eq_none_iff :
    selectCompactionPlan rows = none ↔
      ∀ tier, tierCount rows tier ≤ compactionFanIn := by
  constructor
  · intro none_ tier
    by_contra overflows
    rw [Nat.not_le] at overflows
    have listed : ⟨tier, tierCount rows tier⟩ ∈ summarizeTierCounts rows := by
      apply mem_summarizeTierCounts.mpr
      refine ⟨?_, rfl⟩
      rcases List.exists_mem_of_length_pos (Nat.zero_lt_of_lt overflows) with
        ⟨row, member⟩
      rw [List.mem_filter, decide_eq_true_iff] at member
      exact ⟨row, member⟩
    unfold selectCompactionPlan at none_
    dsimp only at none_
    split at none_
    · next missed =>
        have below := List.find?_eq_none.mp missed _ listed
        exact below (decide_eq_true overflows)
    · next overflowing found =>
        split at none_
        · next short =>
            have above : compactionFanIn < overflowing.activePackCount := by
              simpa using List.find?_some found
            rw [(mem_summarizeTierCounts.mp (List.mem_of_find?_eq_some found)).2]
              at above
            exact absurd (length_firstOfTier above) short.ne
        · cases none_
  · intro within
    cases selected : selectCompactionPlan rows with
    | none => rfl
    | some plan =>
      exact absurd (planned_of_select selected).overflows
        (within plan.sourceTier).not_gt

theorem catalogNeedsCompaction_eq_false_iff :
    catalogNeedsCompaction rows = false ↔
      ∀ tier, tierCount rows tier ≤ compactionFanIn := by
  rw [← selectCompactionPlan_eq_none_iff, catalogNeedsCompaction,
    Option.isSome_eq_false_iff, Option.isNone_iff_eq_none]

section Plan

variable {rows : List PackCatalogRow} {plan : CompactionPlan}

theorem Planned.length (planned : Planned rows plan) :
    plan.sourcePacks.length = compactionFanIn := by
  rw [planned.sourcePacks]
  exact length_firstOfTier planned.overflows

theorem Planned.mem_source (planned : Planned rows plan)
    (source : row ∈ plan.sourcePacks) :
    row ∈ rows ∧ row.tier = plan.sourceTier := by
  rw [planned.sourcePacks] at source
  have listed := (List.mem_insertionSort _).mp (List.mem_of_mem_take source)
  rw [List.mem_filter, decide_eq_true_iff] at listed
  exact listed

theorem Planned.nodup (planned : Planned rows plan) (nodup : rows.Nodup) :
    plan.sourcePacks.Nodup := by
  rw [planned.sourcePacks]
  apply List.Nodup.sublist (List.take_sublist _ _)
  exact (List.perm_insertionSort _ _).nodup_iff.mpr (nodup.filter _)

/-- A row of the tier before a source is a source. -/
theorem Planned.first (planned : Planned rows plan) {source : PackCatalogRow}
    (member : source ∈ plan.sourcePacks) (listed : row ∈ rows)
    (tier : row.tier = plan.sourceTier) (before : row.seqLo < source.seqLo) :
    row ∈ plan.sourcePacks := by
  rw [planned.sourcePacks, firstOfTier] at member ⊢
  generalize whole : (rows.filter fun pack => pack.tier = plan.sourceTier).insertionSort
    (fun left right => left.seqLo ≤ right.seqLo) = sorted at member ⊢
  have ordered : sorted.Pairwise fun left right => left.seqLo ≤ right.seqLo := by
    rw [← whole]
    exact List.pairwise_insertionSort _ _
  have inSorted : row ∈ sorted := by
    rw [← whole, List.mem_insertionSort, List.mem_filter]
    exact ⟨listed, decide_eq_true tier⟩
  rw [← List.take_append_drop compactionFanIn sorted] at ordered inSorted
  rcases List.mem_append.mp inSorted with taken | dropped
  · exact taken
  · have after := (List.pairwise_append.mp ordered).2.2 source member row dropped
    exact absurd before after.not_gt

end Plan

/-! ## Active rows as tiered intervals -/

def rowStanding : Standing PackCatalogRow Nat Nat where
  lo := PackCatalogRow.seqLo
  hi := PackCatalogRow.seqHi
  tier := PackCatalogRow.tier

def activeRows (catalog : PackCatalog) : Set PackCatalogRow :=
  { row | IsActive catalog row }

/-- The sequence numbers of the active rows. -/
def sequenceNumbers (catalog : PackCatalog) : Set Nat :=
  rowStanding.covered (activeRows catalog)

abbrev TieredCatalog (catalog : PackCatalog) : Prop :=
  rowStanding.Tiered (activeRows catalog)

/-- The objects in the packs of the active rows. -/
def activeObjects {Oid : Type} (objects : String → Set Oid)
    (catalog : PackCatalog) : Set Oid :=
  { oid | ∃ row, IsActive catalog row ∧ oid ∈ objects row.packKey }

theorem nodup_listActive (catalog : PackCatalog) :
    (listActivePackCatalog catalog).Nodup := by
  apply (List.perm_insertionSort _ _).nodup_iff.mpr
  exact (catalog.distinct.of_map _).filter _

variable {catalog : PackCatalog}

theorem eq_of_packKey {other : PackCatalogRow} (active : IsActive catalog row)
    (active' : IsActive catalog other) (same : row.packKey = other.packKey) :
    row = other :=
  List.inj_on_of_nodup_map catalog.distinct active.1 active'.1 same

/-- No row has the key of the pack. -/
def FreshKey (catalog : PackCatalog) (packKey : String) : Prop :=
  getPackCatalogRow catalog packKey = none

instance (catalog : PackCatalog) (packKey : String) :
    Decidable (FreshKey catalog packKey) :=
  inferInstanceAs (Decidable (_ = none))

theorem FreshKey.ne {packKey : String} (fresh : FreshKey catalog packKey)
    (active : IsActive catalog row) :
    row.packKey ≠ packKey := by
  rintro rfl
  exact KeyedList.find?_eq_none_iff.mp fresh (List.mem_map_of_mem active.1)

/-- The catalog behind the commit of a pass. -/
def commitCatalog (args : CommitCompactionArgs) (now : Nat)
    (catalog : PackCatalog) : PackCatalog :=
  supersedePackCatalogRows (upsertPackCatalogRow catalog (args.targetRow now))
    (args.sourcePacks.map PackCatalogRow.packKey) (some args.stagedPack.packKey)

section Commit

variable {catalog : PackCatalog} {plan : CompactionPlan}
variable {args : CommitCompactionArgs} {now : Nat}

/-- The pass was planned with the catalog, and its pack is new. -/
structure Ready (catalog : PackCatalog) (plan : CompactionPlan)
    (args : CommitCompactionArgs) : Prop where
  planned : Planned (listActivePackCatalog catalog) plan
  sourcePacks : args.sourcePacks = plan.sourcePacks
  targetTier : args.targetTier = plan.targetTier
  fresh : FreshKey catalog args.stagedPack.packKey

theorem Ready.active (ready : Ready catalog plan args)
    (source : row ∈ args.sourcePacks) : IsActive catalog row := by
  rw [ready.sourcePacks] at source
  exact mem_listActivePackCatalog.mp (ready.planned.mem_source source).1

theorem Ready.mem_keys_iff (ready : Ready catalog plan args)
    (active : IsActive catalog row) :
    row.packKey ∈ args.sourcePacks.map PackCatalogRow.packKey ↔
      row ∈ args.sourcePacks := by
  constructor
  · intro listed
    rcases List.mem_map.mp listed with ⟨source, member, same⟩
    cases eq_of_packKey (ready.active member) active same
    exact member
  · exact List.mem_map_of_mem

theorem Ready.isActive_commit (ready : Ready catalog plan args) :
    IsActive (commitCatalog args now catalog) row ↔
      row = args.targetRow now ∨
        (IsActive catalog row ∧ row ∉ args.sourcePacks) := by
  rw [commitCatalog, isActive_supersede, isActive_upsert]
  constructor
  · rintro ⟨⟨rfl, _⟩ | ⟨active, _⟩, kept⟩
    · exact .inl rfl
    · exact .inr ⟨active, fun source => kept (List.mem_map_of_mem source)⟩
  · rintro (rfl | ⟨active, kept⟩)
    · refine ⟨.inl ⟨rfl, rfl⟩, fun listed => ?_⟩
      rcases List.mem_map.mp listed with ⟨source, member, same⟩
      exact ready.fresh.ne (ready.active member) same
    · refine ⟨.inr ⟨active, ready.fresh.ne active⟩, fun listed => ?_⟩
      exact kept ((ready.mem_keys_iff active).mp listed)

theorem Ready.activeRows_commit (ready : Ready catalog plan args) :
    activeRows (commitCatalog args now catalog) =
      insert (args.targetRow now)
        (activeRows catalog \ { row | row ∈ args.sourcePacks }) :=
  Set.ext fun _ => ready.isActive_commit

end Commit

theorem foldl_min_spec {values : List Nat} (some_ : values ≠ []) :
    values.foldl min (values.head?.getD 0) ∈ values ∧
      ∀ value ∈ values, values.foldl min (values.head?.getD 0) ≤ value := by
  cases values with
  | nil => exact absurd rfl some_
  | cons first values =>
    have least : (first :: first :: values).min? =
        some ((first :: values).foldl min first) := List.min?_cons'
    rcases List.min?_eq_some_iff.mp least with ⟨reached, below⟩
    refine ⟨?_, fun value listed => below value (List.mem_cons_of_mem _ listed)⟩
    rcases List.mem_cons.mp reached with same | listed
    · exact List.mem_cons.mpr (.inl same)
    · exact listed

theorem foldl_max_spec {values : List Nat} (some_ : values ≠ []) :
    values.foldl max (values.head?.getD 0) ∈ values ∧
      ∀ value ∈ values, value ≤ values.foldl max (values.head?.getD 0) := by
  cases values with
  | nil => exact absurd rfl some_
  | cons first values =>
    have greatest : (first :: first :: values).max? =
        some ((first :: values).foldl max first) := List.max?_cons'
    rcases List.max?_eq_some_iff.mp greatest with ⟨reached, above⟩
    refine ⟨?_, fun value listed => above value (List.mem_cons_of_mem _ listed)⟩
    rcases List.mem_cons.mp reached with same | listed
    · exact List.mem_cons.mpr (.inl same)
    · exact listed

section Commit

variable {catalog : PackCatalog} {plan : CompactionPlan}
variable {args : CommitCompactionArgs} {now : Nat}

/-- The target starts with the first of the sources. -/
theorem targetRow_seqLo (some_ : args.sourcePacks ≠ []) (now : Nat) :
    (∃ source ∈ args.sourcePacks, (args.targetRow now).seqLo = source.seqLo) ∧
      ∀ source ∈ args.sourcePacks, (args.targetRow now).seqLo ≤ source.seqLo := by
  have spec := @foldl_min_spec (args.sourcePacks.map PackCatalogRow.seqLo)
    (fun none => some_ (List.map_eq_nil_iff.mp none))
  rw [List.head?_map] at spec
  rcases List.mem_map.mp spec.1 with ⟨source, member, same⟩
  exact ⟨⟨source, member, same.symm⟩,
    fun source member => spec.2 _ (List.mem_map_of_mem member)⟩

/-- The target ends with the last of the sources. -/
theorem targetRow_seqHi (some_ : args.sourcePacks ≠ []) (now : Nat) :
    (∃ source ∈ args.sourcePacks, (args.targetRow now).seqHi = source.seqHi) ∧
      ∀ source ∈ args.sourcePacks, source.seqHi ≤ (args.targetRow now).seqHi := by
  have spec := @foldl_max_spec (args.sourcePacks.map PackCatalogRow.seqHi)
    (fun none => some_ (List.map_eq_nil_iff.mp none))
  rw [List.head?_map] at spec
  rcases List.mem_map.mp spec.1 with ⟨source, member, same⟩
  exact ⟨⟨source, member, same.symm⟩,
    fun source member => spec.2 _ (List.mem_map_of_mem member)⟩

theorem Ready.some (ready : Ready catalog plan args) : args.sourcePacks ≠ [] := by
  intro none
  have length := ready.planned.length
  rw [← ready.sourcePacks, none] at length
  cases length

theorem Ready.tier_source (ready : Ready catalog plan args)
    (source : row ∈ args.sourcePacks) : row.tier = plan.sourceTier := by
  rw [ready.sourcePacks] at source
  exact (ready.planned.mem_source source).2

theorem Ready.tier_target (ready : Ready catalog plan args) (now : Nat) :
    (args.targetRow now).tier = plan.sourceTier + 1 := by
  rw [CommitCompactionArgs.targetRow, ready.targetTier, ready.planned.targetTier]

/-- The commit of a plan is a merge of the first rows of a tier. -/
theorem Ready.merges (ready : Ready catalog plan args) :
    rowStanding.Merges (activeRows catalog) { row | row ∈ args.sourcePacks }
      (args.targetRow now) where
  within _ source := ready.active source
  first source member row active tier before := by
    have listed := mem_listActivePackCatalog.mpr active
    have sameTier := ready.tier_source member
    change row ∈ args.sourcePacks
    change source ∈ args.sourcePacks at member
    rw [ready.sourcePacks] at member ⊢
    exact ready.planned.first member listed (Eq.trans tier sameTier) before
  oneTier source member other member' :=
    (ready.tier_source member).trans (ready.tier_source member').symm
  next source member := by
    have tier : rowStanding.tier source = plan.sourceTier :=
      ready.tier_source member
    have target : rowStanding.tier (args.targetRow now) = plan.sourceTier + 1 :=
      ready.tier_target now
    rw [tier, target]
    exact ⟨Nat.lt_succ_self _, fun _ _ above => above⟩
  lo := (targetRow_seqLo ready.some now).1
  lo_le := (targetRow_seqLo ready.some now).2
  hi := (targetRow_seqHi ready.some now).1
  le_hi := (targetRow_seqHi ready.some now).2

theorem Ready.tiered (ready : Ready catalog plan args)
    (tiered : TieredCatalog catalog) :
    TieredCatalog (commitCatalog args now catalog) := by
  rw [TieredCatalog, ready.activeRows_commit]
  exact tiered.merge ready.merges

theorem Ready.activeObjects_commit {Oid : Type} (ready : Ready catalog plan args)
    {objects : String → Set Oid}
    (rewrites : objects args.stagedPack.packKey =
      { oid | ∃ row ∈ args.sourcePacks, oid ∈ objects row.packKey }) :
    activeObjects objects (commitCatalog args now catalog) =
      activeObjects objects catalog := by
  ext oid
  constructor
  · rintro ⟨row, active, member⟩
    rcases ready.isActive_commit.mp active with rfl | ⟨active, _⟩
    · rw [CommitCompactionArgs.targetRow, rewrites] at member
      rcases member with ⟨source, listed, member⟩
      exact ⟨source, ready.active listed, member⟩
    · exact ⟨row, active, member⟩
  · rintro ⟨row, active, member⟩
    by_cases source : row ∈ args.sourcePacks
    · refine ⟨args.targetRow now, ready.isActive_commit.mpr (.inl rfl), ?_⟩
      rw [CommitCompactionArgs.targetRow, rewrites]
      exact ⟨row, source, member⟩
    · exact ⟨row, ready.isActive_commit.mpr (.inr ⟨active, source⟩), member⟩

/-- Four rows leave and one comes in. -/
theorem Ready.length_commit (ready : Ready catalog plan args) :
    (listActivePackCatalog (commitCatalog args now catalog)).length + 3 =
      (listActivePackCatalog catalog).length := by
  have nodup := nodup_listActive catalog
  have sources : args.sourcePacks.Nodup := by
    rw [ready.sourcePacks]
    exact ready.planned.nodup nodup
  have before : (listActivePackCatalog catalog).Perm
      (args.sourcePacks ++
        (listActivePackCatalog catalog).filter fun row => row ∉ args.sourcePacks) := by
    apply (List.perm_ext_iff_of_nodup nodup _).mpr
    · intro row
      rw [List.mem_append, List.mem_filter, decide_eq_true_iff]
      constructor
      · intro listed
        by_cases source : row ∈ args.sourcePacks
        · exact .inl source
        · exact .inr ⟨listed, source⟩
      · rintro (source | ⟨listed, _⟩)
        · exact mem_listActivePackCatalog.mpr (ready.active source)
        · exact listed
    · apply List.Nodup.append sources (nodup.filter _)
      intro row source listed
      exact of_decide_eq_true (List.mem_filter.mp listed).2 source
  have after : (listActivePackCatalog (commitCatalog args now catalog)).Perm
      (args.targetRow now ::
        (listActivePackCatalog catalog).filter fun row => row ∉ args.sourcePacks) := by
    apply (List.perm_ext_iff_of_nodup (nodup_listActive _) _).mpr
    · intro row
      rw [mem_listActivePackCatalog, ready.isActive_commit, List.mem_cons,
        List.mem_filter, mem_listActivePackCatalog, decide_eq_true_iff]
    · apply List.nodup_cons.mpr
      refine ⟨fun listed => ?_, nodup.filter _⟩
      have active := mem_listActivePackCatalog.mp (List.mem_of_mem_filter listed)
      exact ready.fresh.ne active rfl
  have length := ready.planned.length
  rw [← ready.sourcePacks, compactionFanIn] at length
  rw [after.length_eq, before.length_eq, List.length_cons, List.length_append,
    length]
  omega

end Commit

end GitOnCloudflare.Compaction
