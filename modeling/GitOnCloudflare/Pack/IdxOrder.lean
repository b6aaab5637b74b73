import GitOnCloudflare.Pack.IdxFile
import Mathlib.Data.List.FinRange
import Mathlib.Data.List.Nodup

/-!
# The order of index rows

Ids are compared byte by byte, and ties are broken by the place in the pack,
so that the sorted rows are a permutation of the entries in which equal ids
and equal first bytes stand together.
-/

namespace GitOnCloudflare.Pack

/-! ## Comparing ids -/

@[simp]
theorem compareBytes_self (bytes : Bytes) : compareBytes bytes bytes = 0 := by
  induction bytes with
  | nil => rfl
  | cons byte rest ih =>
    rw [compareBytes, if_pos rfl]
    exact ih

variable {left right : Bytes}

theorem compareBytes_eq_zero (same : left.length = right.length) :
    compareBytes left right = 0 ↔ left = right := by
  constructor
  · intro equal
    induction left generalizing right with
    | nil => exact (List.length_eq_zero_iff.mp same.symm).symm
    | cons byte lefts ih =>
      cases right with
      | nil => cases same
      | cons other rights =>
        rw [compareBytes] at equal
        split at equal
        · next bytes =>
          rw [bytes, ih (Nat.succ.inj same) equal]
        · next different =>
          exact absurd (UInt8.toNat_inj.mp (by omega)) different
  · rintro rfl
    exact compareBytes_self left

theorem compareBytes_swap (left right : Bytes) :
    compareBytes right left = -compareBytes left right := by
  induction left generalizing right with
  | nil => cases right <;> rfl
  | cons byte lefts ih =>
    cases right with
    | nil => rfl
    | cons other rights =>
      rw [compareBytes, compareBytes]
      by_cases same : byte = other
      · rw [if_pos same, if_pos same.symm]
        exact ih rights
      · rw [if_neg same, if_neg (Ne.symm same)]
        ring

theorem compareBytes_trans {first second third : Bytes}
    (left : first.length = second.length) (right : second.length = third.length)
    (before : compareBytes first second ≤ 0)
    (after : compareBytes second third ≤ 0) : compareBytes first third ≤ 0 := by
  induction first generalizing second third with
  | nil => exact le_rfl
  | cons byte firsts ih =>
    cases second with
    | nil => cases left
    | cons middle seconds =>
      cases third with
      | nil => cases right
      | cons other thirds =>
        rw [compareBytes] at before after ⊢
        by_cases low : byte = middle
        · by_cases high : middle = other
          · rw [if_pos low] at before
            rw [if_pos high] at after
            rw [if_pos (low.trans high)]
            exact ih (Nat.succ.inj left) (Nat.succ.inj right) before after
          · rw [if_neg high] at after
            rw [if_neg (low ▸ high), low]
            exact after
        · rw [if_neg low] at before
          have strict : byte.toNat ≠ middle.toNat := fun equal =>
            low (UInt8.toNat_inj.mp equal)
          by_cases high : middle = other
          · rw [if_neg (high ▸ low), ← high]
            exact before
          · rw [if_neg high] at after
            have distinct : byte ≠ other := by
              rintro rfl
              omega
            rw [if_neg distinct]
            omega

/-- Smaller ids do not start with larger bytes. -/
theorem headD_le_of_compareBytes (same : left.length = right.length)
    (before : compareBytes left right ≤ 0) :
    (left.headD 0).toNat ≤ (right.headD 0).toNat := by
  cases left with
  | nil =>
    rw [List.length_eq_zero_iff.mp same.symm]
  | cons byte lefts =>
    cases right with
    | nil => cases same
    | cons other rights =>
      rw [compareBytes] at before
      split at before
      · next equal => exact (congrArg UInt8.toNat equal).le
      · show byte.toNat ≤ other.toNat
        omega

theorem RawOid.length_eq_length (left right : RawOid) :
    left.bytes.length = right.bytes.length :=
  left.length_eq.trans right.length_eq.symm

theorem RawOid.bytes_inj {left right : RawOid} :
    left.bytes = right.bytes ↔ left = right := by
  constructor
  · intro same
    cases left
    cases right
    cases same
    rfl
  · exact congrArg RawOid.bytes

theorem compareOids_eq_zero {left right : RawOid} :
    compareOids left right = 0 ↔ left = right :=
  (compareBytes_eq_zero (left.length_eq_length right)).trans
    RawOid.bytes_inj

/-! ## Sorted rows -/

namespace PackEntryTable

variable {objectCount : Nat} (table : PackEntryTable objectCount)

theorem compareOids_le_of_rowBefore {left right : Fin objectCount}
    (before : table.rowBefore left right = true) :
    compareOids (table.oids left) (table.oids right) ≤ 0 := by
  unfold rowBefore at before
  simp only at before
  split at before
  · next equal => exact equal.le
  · exact (of_decide_eq_true before).le

theorem rowBefore_trans (first second third : Fin objectCount)
    (left : table.rowBefore first second = true)
    (right : table.rowBefore second third = true) :
    table.rowBefore first third = true := by
  have low := table.compareOids_le_of_rowBefore left
  have high := table.compareOids_le_of_rowBefore right
  have ordered : compareOids (table.oids first) (table.oids third) ≤ 0 :=
    compareBytes_trans (RawOid.length_eq_length _ _)
      (RawOid.length_eq_length _ _) low high
  unfold rowBefore at left right ⊢
  simp only at left right ⊢
  by_cases equal : compareOids (table.oids first) (table.oids third) = 0
  · rw [if_pos equal]
    -- equal ends leave no room for a different id between them
    have ends := compareOids_eq_zero.mp equal
    have back := compareBytes_swap (table.oids second).bytes
      (table.oids third).bytes
    rw [ends] at left low
    have tight : compareOids (table.oids third) (table.oids second) = 0 := by
      unfold compareOids at low high ⊢
      omega
    have tight' : compareOids (table.oids second) (table.oids third) = 0 := by
      unfold compareOids at tight ⊢
      omega
    rw [if_pos tight] at left
    rw [if_pos tight'] at right
    exact decide_eq_true
      ((of_decide_eq_true left).trans (of_decide_eq_true right))
  · rw [if_neg equal]
    exact decide_eq_true (lt_of_le_of_ne ordered equal)

theorem rowBefore_total (left right : Fin objectCount) :
    (table.rowBefore left right || table.rowBefore right left) = true := by
  have back := compareBytes_swap (table.oids left).bytes
    (table.oids right).bytes
  unfold rowBefore compareOids
  simp only
  rw [Bool.or_eq_true]
  by_cases equal :
      compareBytes (table.oids left).bytes (table.oids right).bytes = 0
  · have equal' :
        compareBytes (table.oids right).bytes (table.oids left).bytes = 0 := by
      omega
    rw [if_pos equal, if_pos equal']
    rcases le_total left right with before | after
    · exact .inl (decide_eq_true before)
    · exact .inr (decide_eq_true after)
  · have equal' :
        ¬ compareBytes (table.oids right).bytes (table.oids left).bytes =
          0 := by
      omega
    rw [if_neg equal, if_neg equal']
    rcases lt_or_gt_of_ne equal with less | greater
    · exact .inl (decide_eq_true less)
    · exact .inr (decide_eq_true (by omega))

theorem buildOidSortedEntryIndices_perm :
    table.buildOidSortedEntryIndices.Perm (List.finRange objectCount) :=
  List.mergeSort_perm _ _

@[simp]
theorem length_buildOidSortedEntryIndices :
    table.buildOidSortedEntryIndices.length = objectCount := by
  rw [table.buildOidSortedEntryIndices_perm.length_eq, List.length_finRange]

theorem nodup_buildOidSortedEntryIndices :
    table.buildOidSortedEntryIndices.Nodup :=
  table.buildOidSortedEntryIndices_perm.nodup_iff.mpr
    (List.nodup_finRange objectCount)

theorem buildOidSortedEntryIndices_pairwise :
    table.buildOidSortedEntryIndices.Pairwise fun left right =>
      table.rowBefore left right = true :=
  List.pairwise_mergeSort table.rowBefore_trans table.rowBefore_total _

/-- The entry in a row. -/
def rowEntry (row : Fin objectCount) : Fin objectCount :=
  table.buildOidSortedEntryIndices.get
    ⟨row, by rw [table.length_buildOidSortedEntryIndices]; exact row.isLt⟩

def rowOid (row : Fin objectCount) : RawOid := table.oids (table.rowEntry row)

/-- Every entry stands in a row. -/
theorem exists_rowEntry (entry : Fin objectCount) :
    ∃ row, table.rowEntry row = entry := by
  have member : entry ∈ table.buildOidSortedEntryIndices :=
    table.buildOidSortedEntryIndices_perm.mem_iff.mpr (List.mem_finRange _)
  rcases List.getElem_of_mem member with ⟨index, inside, same⟩
  rw [table.length_buildOidSortedEntryIndices] at inside
  exact ⟨⟨index, inside⟩, same⟩

theorem rowOid_ordered {first second : Fin objectCount}
    (ordered : first ≤ second) :
    compareOids (table.rowOid first) (table.rowOid second) ≤ 0 := by
  rcases eq_or_lt_of_le ordered with rfl | before
  · exact (compareOids_eq_zero.mpr rfl).le
  · apply table.compareOids_le_of_rowBefore
    exact List.pairwise_iff_getElem.mp
      table.buildOidSortedEntryIndices_pairwise _ _ _ _ before

/-! ## The fanout table -/

/-- How many entries have an id that starts with one of the first bytes. -/
def startingBelow (bound : Nat) : Nat :=
  table.buildOidSortedEntryIndices.countP fun entry =>
    decide (firstByte (table.oids entry) < bound)

theorem startingBelow_zero : table.startingBelow 0 = 0 := by
  unfold startingBelow
  rw [List.countP_eq_zero]
  intro entry _
  simp

theorem startingBelow_le (bound : Nat) :
    table.startingBelow bound ≤ objectCount := by
  unfold startingBelow
  apply List.countP_le_length.trans
  rw [table.length_buildOidSortedEntryIndices]

theorem firstByte_lt (oid : RawOid) : firstByte oid < 256 :=
  UInt8.toNat_lt _

theorem startingBelow_all : table.startingBelow 256 = objectCount := by
  unfold startingBelow
  have all : ∀ entry ∈ table.buildOidSortedEntryIndices,
      decide (firstByte (table.oids entry) < 256) = true :=
    fun entry _ => decide_eq_true (firstByte_lt (table.oids entry))
  rw [List.countP_eq_length.mpr all, table.length_buildOidSortedEntryIndices]

theorem startingBelow_succ (bound : Nat) :
    table.startingBelow (bound + 1) =
      table.startingBelow bound +
        table.buildOidSortedEntryIndices.countP fun entry =>
          decide (firstByte (table.oids entry) = bound) := by
  unfold startingBelow
  induction table.buildOidSortedEntryIndices with
  | nil => rfl
  | cons entry entries ih =>
    rw [List.countP_cons, List.countP_cons, List.countP_cons, ih]
    rcases Nat.lt_trichotomy (firstByte (table.oids entry)) bound with
      below | equal | above
    · simp [below, below.ne, Nat.lt_succ_of_lt below]
      omega
    · simp [equal]
      omega
    · have later : ¬ firstByte (table.oids entry) < bound + 1 := by omega
      simp [later, above.ne', Nat.not_lt_of_gt above]

theorem cumulate_range (counts : Nat → Nat) (start length : Nat)
    (total : Nat → Nat)
    (step : ∀ bound, total (bound + 1) = total bound + counts bound) :
    cumulate (total start) ((List.range' start length).map counts) =
      (List.range' start length).map fun bound => total (bound + 1) := by
  induction length generalizing start with
  | zero => rfl
  | succ length ih =>
    rw [List.range'_succ, List.map_cons, List.map_cons, cumulate, ← step, ih]

/-- The fanout table holds the number of ids up to each first byte. -/
theorem fanout_eq :
    cumulate 0 table.buckets =
      (List.range 256).map fun first => table.startingBelow (first + 1) := by
  unfold buckets
  rw [← table.startingBelow_zero, List.range_eq_range']
  exact cumulate_range _ 0 256 table.startingBelow table.startingBelow_succ

/-- The rows with a small first byte are the rows in front. -/
theorem firstByte_rowOid_lt (row : Fin objectCount) (bound : Nat) :
    firstByte (table.rowOid row) < bound ↔
      row.val < table.startingBelow bound := by
  have front : ∀ (entries : List (Fin objectCount)) (index : Nat)
      (inside : index < entries.length),
      entries.Pairwise (fun left right =>
        firstByte (table.oids left) ≤ firstByte (table.oids right)) →
      (firstByte (table.oids entries[index]) < bound ↔
        index < entries.countP fun entry =>
          decide (firstByte (table.oids entry) < bound)) := by
    intro entries
    induction entries with
    | nil =>
      intro index inside
      cases inside
    | cons entry entries ih =>
      intro index inside ordered
      rw [List.pairwise_cons] at ordered
      by_cases small : firstByte (table.oids entry) < bound
      · rw [List.countP_cons_of_pos (by simpa using small)]
        cases index with
        | zero => simp [small]
        | succ index =>
          have rest : index < entries.length := Nat.lt_of_succ_lt_succ inside
          rw [List.getElem_cons_succ, ih index rest ordered.2]
          omega
      · have none_ : (entries.countP fun entry =>
            decide (firstByte (table.oids entry) < bound)) = 0 := by
          rw [List.countP_eq_zero]
          intro other member
          have above := ordered.1 other member
          simp only [decide_eq_true_eq]
          omega
        rw [List.countP_cons_of_neg (by simpa using small), none_]
        have above : ¬ firstByte (table.oids (entry :: entries)[index]) <
            bound := by
          cases index with
          | zero => exact small
          | succ index =>
            have rest : index < entries.length :=
              Nat.lt_of_succ_lt_succ inside
            have member := ordered.1 entries[index] (List.getElem_mem rest)
            rw [List.getElem_cons_succ]
            omega
        exact iff_of_false above (Nat.not_lt_zero _)
  apply front
  apply table.buildOidSortedEntryIndices_pairwise.imp
  intro left right before
  exact headD_le_of_compareBytes (RawOid.length_eq_length _ _)
    (table.compareOids_le_of_rowBefore before)

end PackEntryTable

end GitOnCloudflare.Pack
