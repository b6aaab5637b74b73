import GitOnCloudflare.Pack.IdxRoundTrip

/-!
# Lookups in an index view

What the two searches and the run of an id find in a view whose names are
sorted and whose fanout table counts them, and what the columns derived from
distinct offsets hold.
-/

namespace GitOnCloudflare.Pack

open Foundations.Bisection
open Foundations.ByteTable

/-! ## Machine middles -/

variable {low high difference : Int} {row : Nat}

theorem signedHalf_between (proper : low ≤ high) (positive : 0 ≤ low)
    (small : high < 2 ^ 30) :
    low ≤ signedHalf low high ∧ signedHalf low high ≤ high := by
  unfold signedHalf
  simp only
  rw [Int.emod_eq_of_lt (by omega) (by omega), if_neg (by omega)]
  omega

theorem unsignedHalf_between (proper : low ≤ high) (positive : 0 ≤ low)
    (small : high < 2 ^ 31) :
    low ≤ unsignedHalf low high ∧ unsignedHalf low high ≤ high := by
  unfold unsignedHalf
  rw [Int.emod_eq_of_lt (by omega) (by omega)]
  omega

/-! ## Branches -/

theorem branch_eq_eq :
    branch (some difference) = .eq ↔ difference = 0 := by
  unfold branch
  simp only
  split
  · next zero => simp [zero]
  · next nonzero =>
    split
    · simp [nonzero]
    · simp [nonzero]

theorem branch_eq_lt :
    branch (some difference) = .lt ↔ difference < 0 := by
  unfold branch
  simp only
  split
  · next zero => simp [zero]
  · split
    · next negative => simp [negative]
    · next positive => simp [positive]

theorem branch_eq_gt :
    branch (some difference) = .gt ↔ 0 < difference := by
  unfold branch
  simp only
  split
  · next zero => simp [zero]
  · next nonzero =>
    split
    · next negative =>
      constructor
      · intro impossible
        cases impossible
      · intro positive
        omega
    · next positive =>
      exact iff_of_true rfl (by omega)

/-! ## Searching an id -/

namespace IdxView

/-- The names of the rows are sorted, and the fanout table counts them. -/
structure Names (view : IdxView) {objectCount : Nat}
    (names : Fin objectCount → RawOid) : Prop where
  count : view.count = objectCount
  named : ∀ row : Fin objectCount, view.nameAt row = (names row).bytes
  ordered : ∀ first second : Fin objectCount, first ≤ second →
    compareOids (names first) (names second) ≤ 0
  fanout : ∀ first, first < 256 → ∀ row : Fin objectCount,
    firstByte (names row) ≤ first ↔ row.val < view.fanout.getD first 0
  bounded : ∀ first, view.fanout.getD first 0 ≤ objectCount

section Names

variable {view : IdxView} {objectCount : Nat}
  {names : Fin objectCount → RawOid}

/-- Between two rows with an id every row has it. -/
theorem Names.between (sorted : view.Names names)
    {first middle last : Fin objectCount} (low : first ≤ middle)
    (high : middle ≤ last) (same : names first = names last) :
    names middle = names last := by
  have before := sorted.ordered first middle low
  have after := sorted.ordered middle last high
  rw [same] at before
  have back := compareBytes_swap (names middle).bytes (names last).bytes
  apply compareOids_eq_zero.mp
  unfold compareOids at before after ⊢
  omega

theorem Names.compareOidAt (sorted : view.Names names) (oid : RawOid)
    (row : Fin objectCount) :
    view.compareOidAt row oid.bytes 0 = some (compareOids (names row) oid) := by
  unfold IdxView.compareOidAt
  have inside : (0 : Int) ≤ row ∧ (row : Int) < view.count := by
    rw [sorted.count]
    omega
  have whole : slice oid.bytes 0 20 = oid.bytes := by
    unfold slice
    rw [List.drop_zero, List.take_of_length_le oid.length_eq.le]
  rw [if_pos inside, Int.toNat_natCast, sorted.named, whole]
  rfl

/-- The rows stand in order around an id. -/
theorem Names.probes (sorted : view.Names names) (oid : RawOid)
    (positive : 0 ≤ low) (inside : high < objectCount) :
    Ordered (fun mid => branch (view.compareOidAt mid oid.bytes 0)) low
      high := by
  have row : ∀ mid : Int, low ≤ mid → mid ≤ high →
      ∃ row : Fin objectCount, (row : Int) = mid := by
    intro mid above within
    exact ⟨⟨mid.toNat, by omega⟩, by simp only; omega⟩
  constructor
  · intro first second above before within less
    rcases row first above (by omega) with ⟨left, rfl⟩
    rcases row second (by omega) within with ⟨right, rfl⟩
    simp only [sorted.compareOidAt] at less ⊢
    rw [branch_eq_lt] at less ⊢
    have ordered := sorted.ordered left right (by omega)
    have bound : compareOids (names left) oid ≤ 0 :=
      compareBytes_trans (RawOid.length_eq_length _ _)
        (RawOid.length_eq_length _ _) ordered less.le
    rcases bound.lt_or_eq with strict | equal
    · exact strict
    · have back := compareBytes_swap (names right).bytes oid.bytes
      rw [compareOids_eq_zero.mp equal] at ordered
      unfold compareOids at ordered less
      omega
  · intro first second above before within greater
    rcases row first above (by omega) with ⟨left, rfl⟩
    rcases row second (by omega) within with ⟨right, rfl⟩
    simp only [sorted.compareOidAt] at greater ⊢
    rw [branch_eq_gt] at greater ⊢
    have ordered := sorted.ordered left right (by omega)
    by_contra notAbove
    have bound : compareOids (names left) oid ≤ 0 :=
      compareBytes_trans (RawOid.length_eq_length _ _)
        (RawOid.length_eq_length _ _) ordered (not_lt.mp notAbove)
    omega

/-- The search stays in the rows with the first byte of the id, and finds a
row of the id if there is one. -/
theorem Names.findOidIndexFromBytes (sorted : view.Names names)
    (few : objectCount ≤ 2 ^ 30) (oid : RawOid) :
    (∃ row : Fin objectCount, names row = oid ∧
        view.findOidIndexFromBytes oid.bytes 0 = some (row : Int)) ∨
      (∀ row, names row ≠ oid) ∧
        view.findOidIndexFromBytes oid.bytes 0 = some (-1) := by
  have first : firstByte oid < 256 := PackEntryTable.firstByte_lt oid
  have head : (oid.bytes.getD 0 0).toNat = firstByte oid := by
    unfold firstByte
    cases oid.bytes <;> rfl
  have inBucket : ∀ row, names row = oid →
      (if firstByte oid = 0 then 0
        else view.fanout.getD (firstByte oid - 1) 0) ≤ row.val ∧
        row.val < view.fanout.getD (firstByte oid) 0 := by
    intro row same
    constructor
    · split
      · exact Nat.zero_le _
      · next positive =>
        by_contra below
        have small := (sorted.fanout (firstByte oid - 1) (by omega) row).mpr
          (by omega)
        rw [same] at small
        omega
    · apply (sorted.fanout _ first row).mp
      rw [same]
  have bound := sorted.bounded (firstByte oid)
  unfold IdxView.findOidIndexFromBytes
  rw [if_neg (by rw [oid.length_eq]; omega)]
  simp only [Int.toNat_zero, head]
  generalize (if firstByte oid = 0 then 0
    else view.fanout.getD (firstByte oid - 1) 0) = start at inBucket ⊢
  by_cases empty :
      (view.fanout.getD (firstByte oid) 0 : Int) - 1 < (start : Int)
  · rw [if_pos empty]
    right
    refine ⟨?_, rfl⟩
    intro row same
    rcases inBucket row same with ⟨low, high⟩
    omega
  · rw [if_neg empty]
    rcases @bisect_finds
        (fun mid => branch (view.compareOidAt mid oid.bytes 0)) signedHalf
        view.rounds start ((view.fanout.getD (firstByte oid) 0 : Int) - 1)
        (by
          intro low high above proper within
          exact signedHalf_between proper (by omega) (by omega))
        (sorted.probes oid (Int.natCast_nonneg _) (by omega))
        (by
          unfold rounds
          rw [sorted.count]
          omega)
        (by unfold rounds; omega) with ⟨found, ended, finds⟩
    rw [ended]
    cases found with
    | some mid =>
      left
      rcases finds with ⟨above, within, equal⟩
      have inRow : ∃ row : Fin objectCount, (row : Int) = mid :=
        ⟨⟨mid.toNat, by omega⟩, by simp only; omega⟩
      rcases inRow with ⟨row, rfl⟩
      simp only [sorted.compareOidAt] at equal
      exact ⟨row, compareOids_eq_zero.mp (branch_eq_eq.mp equal), rfl⟩
    | none =>
      right
      refine ⟨?_, rfl⟩
      intro row same
      rcases inBucket row same with ⟨low, high⟩
      apply finds row (by omega) (by omega)
      simp only [sorted.compareOidAt]
      exact branch_eq_eq.mpr (compareOids_eq_zero.mpr same)

/-! ## The run of an id -/

theorem oidAtIndexMatches_iff {index : Nat} {oid : Bytes} :
    view.oidAtIndexMatches index oid = true ↔ view.nameAt index = oid :=
  decide_eq_true_iff

theorem firstOfRun_spec (oid : Bytes) (hit : Nat) :
    view.firstOfRun oid hit ≤ hit ∧
      (∀ row, view.firstOfRun oid hit ≤ row → row < hit →
        view.nameAt row = oid) ∧
      (view.firstOfRun oid hit ≠ 0 →
        view.nameAt (view.firstOfRun oid hit - 1) ≠ oid) := by
  induction hit with
  | zero =>
    refine ⟨le_rfl, ?_, fun positive => absurd rfl positive⟩
    intro row _ below
    omega
  | succ hit ih =>
    rw [firstOfRun]
    by_cases same : view.nameAt hit = oid
    · rw [if_pos (oidAtIndexMatches_iff.mpr same)]
      rcases ih with ⟨bound, inside, before⟩
      refine ⟨by omega, ?_, before⟩
      intro row above below
      rcases Nat.lt_succ_iff_lt_or_eq.mp below with earlier | rfl
      · exact inside row above earlier
      · exact same
    · rw [if_neg (mt oidAtIndexMatches_iff.mp same)]
      refine ⟨le_rfl, ?_, ?_⟩
      · intro row above below
        omega
      · intro _
        exact same

theorem lastOfRun_spec (oid : Bytes) (rows hit : Nat) :
    hit ≤ view.lastOfRun oid rows hit ∧
      view.lastOfRun oid rows hit ≤ hit + rows ∧
      (∀ row, hit < row → row ≤ view.lastOfRun oid rows hit →
        view.nameAt row = oid) ∧
      (view.lastOfRun oid rows hit < hit + rows →
        view.nameAt (view.lastOfRun oid rows hit + 1) ≠ oid) := by
  induction rows generalizing hit with
  | zero =>
    refine ⟨le_rfl, le_rfl, ?_, ?_⟩
    · intro row above below
      rw [lastOfRun] at below
      omega
    · intro impossible
      rw [lastOfRun] at impossible
      omega
  | succ rows ih =>
    rw [lastOfRun]
    by_cases same : view.nameAt (hit + 1) = oid
    · rw [if_pos (oidAtIndexMatches_iff.mpr same)]
      rcases ih (hit + 1) with ⟨low, high, inside, after⟩
      refine ⟨by omega, by omega, ?_, ?_⟩
      · intro row above below
        rcases eq_or_lt_of_le (Nat.succ_le_of_lt above) with rfl | later
        · exact same
        · exact inside row later below
      · intro short
        exact after (by omega)
    · rw [if_neg (mt oidAtIndexMatches_iff.mp same)]
      refine ⟨le_rfl, by omega, ?_, ?_⟩
      · intro row above below
        omega
      · intro _
        exact same

/-- The run is exactly the rows with the id. -/
theorem Names.findOidRunInIdx (sorted : view.Names names)
    (few : objectCount ≤ 2 ^ 30) (oid : RawOid) :
    (∃ run : OidRun, view.findOidRunInIdx oid.bytes = some (some run) ∧
        run.startIndex ≤ run.endIndex ∧ run.endIndex < objectCount ∧
        ∀ row : Fin objectCount, names row = oid ↔
          run.startIndex ≤ row ∧ row ≤ run.endIndex) ∨
      (∀ row, names row ≠ oid) ∧
        view.findOidRunInIdx oid.bytes = some none := by
  unfold IdxView.findOidRunInIdx
  rw [if_neg (not_not.mpr oid.length_eq)]
  rcases sorted.findOidIndexFromBytes few oid with
    ⟨hit, same, found⟩ | ⟨absent, found⟩
  · left
    rw [found]
    have positive : ¬ ((hit : Nat) : Int) < 0 := by omega
    rcases @firstOfRun_spec view oid.bytes hit with ⟨low, inside, before⟩
    rcases @lastOfRun_spec view oid.bytes (view.count - 1 - hit) hit with
      ⟨high, short, inside', after⟩
    rw [sorted.count] at high short inside' after
    refine ⟨⟨view.firstOfRun oid.bytes hit,
      view.lastOfRun oid.bytes (objectCount - 1 - hit) hit⟩, ?_, ?_⟩
    · simp only [Option.map_some, if_neg positive, Int.toNat_natCast,
        sorted.count]
    have named : ∀ row : Fin objectCount,
        view.nameAt row = oid.bytes ↔ names row = oid := by
      intro row
      rw [sorted.named]
      exact RawOid.bytes_inj
    refine ⟨low.trans high, by simp only; omega, ?_⟩
    intro row
    constructor
    · intro equal
      constructor
      · -- an earlier row of the id would put the row before the run in it
        by_contra outside
        have previous := before (by simp only at outside; omega)
        let edge : Fin objectCount :=
          ⟨view.firstOfRun oid.bytes hit - 1, by omega⟩
        apply previous
        have between := sorted.between
          (show row ≤ edge by simp only at outside; exact Fin.mk_le_mk.mpr (by omega))
          (show edge ≤ hit from Fin.mk_le_mk.mpr (by omega))
          (equal.trans same.symm)
        exact (named edge).mpr (between.trans same)
      · by_contra outside
        simp only at outside
        have following := after (by omega)
        let edge : Fin objectCount :=
          ⟨view.lastOfRun oid.bytes (objectCount - 1 - hit) hit + 1, by omega⟩
        apply following
        have between := sorted.between
          (show hit ≤ edge from Fin.mk_le_mk.mpr (by omega))
          (show edge ≤ row from Fin.mk_le_mk.mpr (by omega))
          (same.trans equal.symm)
        exact (named edge).mpr (between.trans equal)
    · rintro ⟨above, below⟩
      apply (named row).mp
      rcases Nat.lt_trichotomy row hit with earlier | equal | later
      · exact inside row above earlier
      · rw [equal]
        exact (named hit).mpr same
      · exact inside' row later below
  · right
    refine ⟨absent, ?_⟩
    rw [found]
    rfl

end Names

end IdxView

/-! ## Columns derived from the offsets -/

variable {column : List Nat} {rows : List (Nat × Nat)}

theorem getElem?_fillRows_of_not_mem (absent : row ∉ rows.map Prod.fst) :
    (fillRows column rows)[row]? = column[row]? := by
  induction rows generalizing column with
  | nil => rfl
  | cons first rows ih =>
    rw [List.map_cons, List.mem_cons, not_or] at absent
    rw [fillRows, ih absent.2, List.getElem?_set_ne (Ne.symm absent.1)]

/-- Each of the distinct rows holds its value. -/
theorem getElem?_fillRows (distinct : (rows.map Prod.fst).Nodup) {value : Nat}
    (member : (row, value) ∈ rows) (inside : row < column.length) :
    (fillRows column rows)[row]? = some value := by
  induction rows generalizing column with
  | nil => cases member
  | cons first rows ih =>
    rw [List.map_cons, List.nodup_cons] at distinct
    rw [fillRows]
    rcases List.mem_cons.mp member with rfl | later
    · rw [getElem?_fillRows_of_not_mem distinct.1,
        List.getElem?_set_self inside]
    · apply ih distinct.2 later
      rw [List.length_set]
      exact inside

section Offsets

variable {offsets : List Nat}

/-- The rows in the order of their offsets. -/
def offsetOrder (offsets : List Nat) : List Nat :=
  (List.range offsets.length).mergeSort fun left right =>
    decide (offsets.getD left 0 ≤ offsets.getD right 0)

theorem offsetOrder_perm :
    (offsetOrder offsets).Perm (List.range offsets.length) :=
  List.mergeSort_perm _ _

@[simp]
theorem length_offsetOrder :
    (offsetOrder offsets).length = offsets.length := by
  rw [offsetOrder_perm.length_eq, List.length_range]

theorem nodup_offsetOrder : (offsetOrder offsets).Nodup :=
  offsetOrder_perm.nodup_iff.mpr List.nodup_range

theorem mem_offsetOrder :
    row ∈ offsetOrder offsets ↔ row < offsets.length :=
  offsetOrder_perm.mem_iff.trans List.mem_range

/-- Distinct offsets ascend strictly in this order. -/
theorem offsetOrder_strict (distinct : offsets.Nodup) {first second : Nat}
    (inside : second < (offsetOrder offsets).length) (before : first < second) :
    offsets.getD ((offsetOrder offsets)[first]) 0 <
      offsets.getD ((offsetOrder offsets)[second]) 0 := by
  have sorted : (offsetOrder offsets).Pairwise fun left right =>
      decide (offsets.getD left 0 ≤ offsets.getD right 0) = true := by
    apply List.pairwise_mergeSort
    · intro left middle right low high
      exact decide_eq_true
        ((of_decide_eq_true low).trans (of_decide_eq_true high))
    · intro left right
      rw [Bool.or_eq_true]
      rcases le_total (offsets.getD left 0) (offsets.getD right 0) with
        low | high
      · exact .inl (decide_eq_true low)
      · exact .inr (decide_eq_true high)
  have ordered := of_decide_eq_true
    (List.pairwise_iff_getElem.mp sorted first second
      (before.trans inside) inside before)
  apply lt_of_le_of_ne ordered
  intro same
  have left := mem_offsetOrder.mp
    (List.getElem_mem (before.trans inside))
  have right := mem_offsetOrder.mp (List.getElem_mem inside)
  rw [List.getD_eq_getElem _ _ left, List.getD_eq_getElem _ _ right] at same
  have rows := distinct.getElem_inj_iff.mp same
  exact before.ne (nodup_offsetOrder.getElem_inj_iff.mp rows)

theorem exists_offsetOrder (inside : row < offsets.length) :
    ∃ (place : Nat) (within : place < (offsetOrder offsets).length),
      (offsetOrder offsets)[place] = row :=
  List.getElem_of_mem (mem_offsetOrder.mpr inside)

variable (packKey : String) (fanout : List Nat) (rawNames : Bytes)
  (packSize : Nat) (packChecksum idxChecksum : Bytes)

/-- The offset search finds the row of an offset and nothing else. -/
theorem findOffsetIndex_idxViewOf (distinct : offsets.Nodup)
    (few : offsets.length ≤ 2 ^ 31) (offset : Nat) :
    (∃ (row : Nat) (inside : row < offsets.length),
        offsets[row] = offset ∧
          (idxViewOf packKey fanout rawNames offsets packSize packChecksum
            idxChecksum).findOffsetIndex offset = some (some row)) ∨
      offset ∉ offsets ∧
        (idxViewOf packKey fanout rawNames offsets packSize packChecksum
          idxChecksum).findOffsetIndex offset = some none := by
  have length : (offsetOrder offsets).length = offsets.length :=
    length_offsetOrder
  let sortedOffsets := (offsetOrder offsets).map fun row => offsets.getD row 0
  have columns : sortedOffsets.length = offsets.length := by
    rw [List.length_map, length]
  let probe := fun mid : Int =>
    if 0 ≤ mid then
      branch
        ((sortedOffsets[mid.toNat]?).map fun value : Nat =>
          (value : Int) - offset)
    else
      branch none
  have probed : ∀ (place : Nat) (inside : place < (offsetOrder offsets).length),
      probe (place : Int) =
        branch (some ((offsets.getD (offsetOrder offsets)[place] 0 : Int) - offset)) := by
    intro place inside
    have within : place < sortedOffsets.length := by
      rw [columns, ← length]
      exact inside
    simp only [probe]
    rw [if_pos (Int.natCast_nonneg place), Int.toNat_natCast,
      List.getElem?_eq_getElem within]
    simp only [sortedOffsets, List.getElem_map, Option.map_some]
  have place : ∀ mid : Int, 0 ≤ mid → mid ≤ offsets.length - 1 →
      ∃ place : Nat, (place : Int) = mid ∧ place < (offsetOrder offsets).length := by
    intro mid positive within
    exact ⟨mid.toNat, by omega, by omega⟩
  have ordered : Ordered probe 0 (sortedOffsets.length - 1) := by
    rw [columns]
    constructor
    · intro first second above before within less
      rcases place first above (by omega) with ⟨left, rfl, leftInside⟩
      rcases place second (by omega) within with ⟨right, rfl, rightInside⟩
      rw [probed _ leftInside, branch_eq_lt]
      rw [probed _ rightInside, branch_eq_lt] at less
      rcases eq_or_lt_of_le before with same | strict
      · cases Int.ofNat.inj same
        exact less
      · have smaller := offsetOrder_strict distinct rightInside
          (by omega : left < right)
        omega
    · intro first second above before within greater
      rcases place first above (by omega) with ⟨left, rfl, leftInside⟩
      rcases place second (by omega) within with ⟨right, rfl, rightInside⟩
      rw [probed _ rightInside, branch_eq_gt]
      rw [probed _ leftInside, branch_eq_gt] at greater
      rcases eq_or_lt_of_le before with same | strict
      · cases Int.ofNat.inj same
        exact greater
      · have smaller := offsetOrder_strict distinct rightInside
          (by omega : left < right)
        omega
  rcases @bisect_finds probe unsignedHalf (offsets.length + 2) 0
      (sortedOffsets.length - 1)
      (by
        intro low high above proper within
        exact unsignedHalf_between proper above (by omega))
      ordered (by omega) (by omega) with ⟨found, ended, finds⟩
  have searched :
      (idxViewOf packKey fanout rawNames offsets packSize packChecksum
        idxChecksum).findOffsetIndex offset =
        some (found.bind fun mid => (offsetOrder offsets)[mid.toNat]?) := by
    unfold IdxView.findOffsetIndex
    show (bisect probe unsignedHalf (offsets.length + 2) 0
      (sortedOffsets.length - 1)).map _ = _
    rw [ended]
    rfl
  rw [searched]
  cases found with
  | some mid =>
    left
    rcases finds with ⟨above, within, equal⟩
    rcases place mid above (by omega) with ⟨place, rfl, inside⟩
    have row : (offsetOrder offsets)[place] < offsets.length :=
      mem_offsetOrder.mp (List.getElem_mem inside)
    rw [probed _ inside, branch_eq_eq,
      List.getD_eq_getElem _ _ row] at equal
    refine ⟨(offsetOrder offsets)[place], row, by omega, ?_⟩
    simp only [Option.bind_some, Int.toNat_natCast]
    rw [List.getElem?_eq_getElem inside]
  | none =>
    right
    refine ⟨?_, rfl⟩
    intro member
    rcases List.getElem_of_mem member with ⟨row, inside, same⟩
    rcases exists_offsetOrder inside with ⟨place, within, placed⟩
    apply finds place (Int.natCast_nonneg _) (by omega)
    rw [probed place within, branch_eq_eq]
    simp only [placed]
    rw [List.getD_eq_getElem _ _ inside, same]
    omega

/-- The offset that follows in the pack, or the end of the last entry. -/
def NextOffset (offsets : List Nat) (packSize offset next : Nat) : Prop :=
  (next ∈ offsets ∧ offset < next ∧
      ∀ other ∈ offsets, offset < other → next ≤ other) ∨
    (∀ other ∈ offsets, other ≤ offset) ∧ next = packSize - 20

/-- Every row holds the offset that follows its own. -/
theorem nextOffsetByIndex_idxViewOf (distinct : offsets.Nodup)
    (inside : row < offsets.length) :
    ∃ next,
      (idxViewOf packKey fanout rawNames offsets packSize packChecksum
        idxChecksum).nextOffsetByIndex[row]? = some next ∧
        NextOffset offsets packSize offsets[row] next := by
  have length : (offsetOrder offsets).length = offsets.length :=
    length_offsetOrder
  let sortedOffsets := (offsetOrder offsets).map fun row => offsets.getD row 0
  let nextOffsets := sortedOffsets.drop 1 ++ [packSize - 20]
  have columns : sortedOffsets.length = offsets.length := by
    rw [List.length_map, length]
  have rows : nextOffsets.length = (offsetOrder offsets).length := by
    simp only [nextOffsets, List.length_append, List.length_drop, columns,
      List.length_singleton]
    omega
  rcases exists_offsetOrder inside with ⟨place, within, placed⟩
  have offsetAt : ∀ (other : Nat)
      (bound : other < (offsetOrder offsets).length)
      (listed : other < sortedOffsets.length),
      sortedOffsets[other] =
        offsets.getD (offsetOrder offsets)[other] 0 := by
    intro other bound listed
    simp only [sortedOffsets, List.getElem_map]
  have followed : place < nextOffsets.length := by
    rw [rows]
    exact within
  have here : offsets.getD (offsetOrder offsets)[place] 0 =
      offsets[row] := by
    rw [placed, List.getD_eq_getElem _ _ inside]
  have keys : ((offsetOrder offsets).zip nextOffsets).map Prod.fst =
      offsetOrder offsets :=
    List.map_fst_zip (by omega)
  have stored :
      (fillRows (List.replicate offsets.length 0)
        ((offsetOrder offsets).zip nextOffsets))[row]? =
        some nextOffsets[place] := by
    apply getElem?_fillRows
    · rw [keys]
      exact nodup_offsetOrder
    · rw [List.mem_iff_getElem]
      refine ⟨place, by rw [List.length_zip]; omega, ?_⟩
      rw [List.getElem_zip]
      exact congrArg (·, _) placed
    · rw [List.length_replicate]
      exact inside
  -- whoever has a larger offset stands later in the order
  have later : ∀ other ∈ offsets, offsets[row] < other →
      ∃ (position : Nat) (bound : position < (offsetOrder offsets).length),
        place < position ∧
          offsets.getD (offsetOrder offsets)[position] 0 = other := by
    intro other member above
    rcases List.getElem_of_mem member with ⟨index, bounded, rfl⟩
    rcases exists_offsetOrder bounded with ⟨position, bound, same⟩
    have value : offsets.getD ((offsetOrder offsets)[position]) 0 =
        offsets[index] := by
      rw [same, List.getD_eq_getElem _ _ bounded]
    refine ⟨position, bound, ?_, value⟩
    by_contra earlier
    rcases Nat.lt_or_eq_of_le (not_lt.mp earlier) with before | equal
    · have smaller := offsetOrder_strict distinct within before
      omega
    · subst equal
      omega
  refine ⟨_, stored, ?_⟩
  by_cases last : place + 1 < (offsetOrder offsets).length
  · left
    have next : nextOffsets[place] =
        offsets.getD (offsetOrder offsets)[place + 1] 0 := by
      have short : place < (sortedOffsets.drop 1).length := by
        rw [List.length_drop]
        omega
      simp only [nextOffsets]
      rw [List.getElem_append_left short, List.getElem_drop]
      simp only [Nat.add_comm 1 place]
      exact offsetAt _ last (by rw [columns, ← length]; exact last)
    have row' : (offsetOrder offsets)[place + 1] < offsets.length :=
      mem_offsetOrder.mp (List.getElem_mem last)
    refine ⟨?_, ?_, ?_⟩
    · rw [next, List.getD_eq_getElem _ _ row']
      exact List.getElem_mem row'
    · rw [next, ← here]
      exact offsetOrder_strict distinct last (Nat.lt_succ_self place)
    · intro other member above
      rcases later other member above with ⟨position, bound, after, value⟩
      rw [next, ← value]
      rcases Nat.lt_or_eq_of_le (Nat.succ_le_of_lt after) with
        further | same
      · exact (offsetOrder_strict distinct bound further).le
      · subst same
        exact le_rfl
  · right
    constructor
    · intro other member
      by_contra above
      rcases later other member (not_le.mp above) with
        ⟨position, bound, after, _⟩
      omega
    · have long : (sortedOffsets.drop 1).length ≤ place := by
        rw [List.length_drop]
        omega
      simp only [nextOffsets]
      rw [List.getElem_append_right long]
      simp

end Offsets

end GitOnCloudflare.Pack
