import Mathlib.Algebra.GroupWithZero.Nat
import Mathlib.Data.List.Sort
import GitOnCloudflare.Repo.State

/-!
# The pack catalog table and the compaction policy

The table operations of the catalog, in the order its queries return rows,
and the policy that selects which rows one compaction pass rewrites.
-/

namespace GitOnCloudflare.Repo

open Foundations

/-! ## Table operations -/

/-- `ORDER BY seq_hi DESC, tier DESC`. -/
def rowPrecedes (left right : PackCatalogRow) : Prop :=
  right.seqHi < left.seqHi ∨
    (left.seqHi = right.seqHi ∧ right.tier ≤ left.tier)

instance : DecidableRel rowPrecedes := fun left right =>
  inferInstanceAs
    (Decidable
      (right.seqHi < left.seqHi ∨
        (left.seqHi = right.seqHi ∧ right.tier ≤ left.tier)))

def listActivePackCatalog (catalog : PackCatalog) : List PackCatalogRow :=
  (catalog.items.filter fun row => row.state = .active).insertionSort
    rowPrecedes

def getPackCatalogRow (catalog : PackCatalog) (packKey : String) :
    Option PackCatalogRow :=
  catalog.find? packKey

def upsertPackCatalogRow (catalog : PackCatalog) (row : PackCatalogRow) :
    PackCatalog :=
  catalog.upsert row

/-- The update a row receives when its pack is superseded. -/
def supersedeRow (packKeys : List String) (supersededBy : Option String)
    (row : PackCatalogRow) : PackCatalogRow :=
  if row.packKey ∈ packKeys then
    { row with state := .superseded, supersededBy := supersededBy }
  else
    row

theorem supersedeRow_packKey (packKeys : List String)
    (supersededBy : Option String) (row : PackCatalogRow) :
    (supersedeRow packKeys supersededBy row).packKey = row.packKey := by
  unfold supersedeRow
  split <;> rfl

def supersedePackCatalogRows (catalog : PackCatalog) (packKeys : List String)
    (supersededBy : Option String) : PackCatalog :=
  catalog.mapItems (supersedeRow packKeys supersededBy)
    (supersedeRow_packKey packKeys supersededBy)

def deletePackCatalogRows (catalog : PackCatalog) (packKeys : List String) :
    PackCatalog :=
  packKeys.foldl KeyedList.erase catalog

/-- Activate the target and supersede the sources in one transaction. -/
def replaceActivePackCatalog (catalog : PackCatalog)
    (sourcePackKeys : List String) (targetPack : Option PackCatalogRow) :
    PackCatalog :=
  let activated :=
    match targetPack with
    | some row => catalog.upsert row
    | none => catalog
  supersedePackCatalogRows activated sourcePackKeys
    (targetPack.map PackCatalogRow.packKey)

/-- The rows of the catalog that are active. -/
def IsActive (catalog : PackCatalog) (row : PackCatalogRow) : Prop :=
  row ∈ catalog.items ∧ row.state = .active

variable {catalog : PackCatalog} {row : PackCatalogRow}

theorem mem_listActivePackCatalog :
    row ∈ listActivePackCatalog catalog ↔ IsActive catalog row := by
  simp [listActivePackCatalog, IsActive]

theorem isActive_upsert {written : PackCatalogRow} :
    IsActive (upsertPackCatalogRow catalog written) row ↔
      (row = written ∧ written.state = .active) ∨
        (IsActive catalog row ∧ row.packKey ≠ written.packKey) := by
  unfold IsActive upsertPackCatalogRow
  rw [KeyedList.mem_upsert]
  constructor
  · rintro ⟨rfl | ⟨member, different⟩, active⟩
    · exact Or.inl ⟨rfl, active⟩
    · exact Or.inr ⟨⟨member, active⟩, different⟩
  · rintro (⟨rfl, active⟩ | ⟨⟨member, active⟩, different⟩)
    · exact ⟨Or.inl rfl, active⟩
    · exact ⟨Or.inr ⟨member, different⟩, active⟩

theorem isActive_supersede {packKeys : List String}
    {supersededBy : Option String} :
    IsActive (supersedePackCatalogRows catalog packKeys supersededBy) row ↔
      IsActive catalog row ∧ row.packKey ∉ packKeys := by
  unfold IsActive supersedePackCatalogRows
  rw [KeyedList.mem_mapItems]
  constructor
  · rintro ⟨⟨old, member, rfl⟩, active⟩
    unfold supersedeRow at active ⊢
    split at active
    · cases active
    · next kept =>
        rw [if_neg kept]
        exact ⟨⟨member, active⟩, kept⟩
  · rintro ⟨⟨member, active⟩, kept⟩
    exact ⟨⟨row, member, by simp [supersedeRow, kept]⟩, active⟩

/-! ## Compaction policy -/

def compactionFanIn : Nat := 4

structure CompactionTierState where
  tier : Nat
  activePackCount : Nat

structure CompactionPlan where
  sourceTier : Nat
  targetTier : Nat
  sourcePacks : List PackCatalogRow
  sourceBytes : Nat
  sourceObjects : Nat
  tiers : List CompactionTierState

/-- The tiers that hold active packs, in ascending order, with their sizes. -/
def summarizeTierCounts (activeCatalog : List PackCatalogRow) :
    List CompactionTierState :=
  let tiers := activeCatalog.map PackCatalogRow.tier
  (tiers.dedup.insertionSort (· ≤ ·)).map fun tier =>
    ⟨tier, tiers.count tier⟩

def selectCompactionPlan (activeCatalog : List PackCatalogRow) :
    Option CompactionPlan :=
  let tiers := summarizeTierCounts activeCatalog
  match tiers.find? fun tier => compactionFanIn < tier.activePackCount with
  | none => none
  | some overflowing =>
    let sourcePacks :=
      ((activeCatalog.filter fun pack =>
          pack.tier = overflowing.tier).insertionSort
        fun left right => left.seqLo ≤ right.seqLo).take compactionFanIn
    if sourcePacks.length < compactionFanIn then
      none
    else
      some
        { sourceTier := overflowing.tier
          targetTier := overflowing.tier + 1
          sourcePacks := sourcePacks
          sourceBytes := (sourcePacks.map PackCatalogRow.packBytes).sum
          sourceObjects := (sourcePacks.map PackCatalogRow.objectCount).sum
          tiers := tiers }

def catalogNeedsCompaction (activeCatalog : List PackCatalogRow) : Bool :=
  (selectCompactionPlan activeCatalog).isSome

/-- Whether a source row is still the row the pass was planned with. -/
def rowMatchesForCommit (expected current : PackCatalogRow) : Bool :=
  current.packKey = expected.packKey && current.state = .active &&
    current.kind = expected.kind && current.tier = expected.tier &&
    current.seqLo = expected.seqLo && current.seqHi = expected.seqHi &&
    current.objectCount = expected.objectCount &&
    current.packBytes = expected.packBytes &&
    current.idxBytes = expected.idxBytes

def rowsMatchForCommit (sourcePacks currentRows : List PackCatalogRow) : Bool :=
  sourcePacks.length = currentRows.length &&
    (sourcePacks.zip currentRows).all fun pair =>
      rowMatchesForCommit pair.1 pair.2

/-- The rows a commit finds under the keys of its sources. -/
def currentSourceRows (catalog : PackCatalog)
    (sourcePacks : List PackCatalogRow) : List PackCatalogRow :=
  sourcePacks.filterMap fun row => getPackCatalogRow catalog row.packKey

end GitOnCloudflare.Repo
