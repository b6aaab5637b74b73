import GitOnCloudflare.Pack.IdxLookup

/-!
# An index view reflects its table

The lookups of a view that was read from a written index, in terms of the
entry table.  The midpoint of the id search is a signed 32-bit shift, which
bounds the number of rows it can address.
-/

namespace GitOnCloudflare.Pack

open Foundations.Bisection
open Foundations.ByteTable

namespace PackEntryTable

variable {objectCount : Nat}

/-- The offset after that of an entry, or the end of the last entry. -/
def NextAfter (table : PackEntryTable objectCount) (packSize : Nat)
    (entry : Fin objectCount) (next : Nat) : Prop :=
  (∃ other, next = (table.offsets other).toNat ∧
      table.offsets entry < table.offsets other ∧
      ∀ third, table.offsets entry < table.offsets third →
        table.offsets other ≤ table.offsets third) ∨
    (∀ other, table.offsets other ≤ table.offsets entry) ∧
      next = packSize - 20

/-- The lookups of a view answer from the table, whose entries stand in the
rows of the sorted order. -/
structure Reflects (table : PackEntryTable objectCount) (packSize : Nat)
    (view : IdxView) : Prop where
  count : view.count = objectCount
  named : ∀ row : Fin objectCount,
    view.nameAt row = (table.rowOid row).bytes
  placed : ∀ row : Fin objectCount,
    view.offsets[row.val]? =
      some (table.offsets (table.rowEntry row)).toNat
  foundOid : ∀ oid, (∃ entry, table.oids entry = oid) →
    ∃ row : Fin objectCount,
      view.findOidIndexFromBytes oid.bytes 0 = some (row : Int) ∧
        view.nameAt row = oid.bytes
  otherOid : ∀ oid, (∀ entry, table.oids entry ≠ oid) →
    view.findOidIndexFromBytes oid.bytes 0 = some (-1)
  run : ∀ oid, (∃ entry, table.oids entry = oid) →
    ∃ run : OidRun, view.findOidRunInIdx oid.bytes = some (some run) ∧
      run.startIndex ≤ run.endIndex ∧ run.endIndex < objectCount ∧
      ∀ row : Fin objectCount, view.nameAt row = oid.bytes ↔
        run.startIndex ≤ row ∧ row ≤ run.endIndex
  noRun : ∀ oid, (∀ entry, table.oids entry ≠ oid) →
    view.findOidRunInIdx oid.bytes = some none
  offsetIndex : ∀ row : Fin objectCount,
    view.findOffsetIndex (table.offsets (table.rowEntry row)).toNat =
      some (some row.val)
  otherOffset : ∀ offset, (∀ entry, (table.offsets entry).toNat ≠ offset) →
    view.findOffsetIndex offset = some none
  nextOffset : ∀ entry, ∃ next,
    view.getNextOffset (table.offsets entry).toNat = some (some next) ∧
      table.NextAfter packSize entry next
  noNextOffset : ∀ offset,
    (∀ entry, (table.offsets entry).toNat ≠ offset) →
      view.getNextOffset offset = some none

variable (table : PackEntryTable objectCount)

/-! ## The offset column -/

theorem getElem_sortedOffsetColumn (row : Fin objectCount)
    (inside : row.val < table.sortedOffsetColumn.length) :
    table.sortedOffsetColumn[row.val] =
      (table.offsets (table.rowEntry row)).toNat :=
  List.getElem_map fun entry => (table.offsets entry).toNat

variable {offset : Nat}

theorem mem_sortedOffsetColumn :
    offset ∈ table.sortedOffsetColumn ↔
      ∃ entry, (table.offsets entry).toNat = offset := by
  unfold sortedOffsetColumn
  rw [List.mem_map]
  constructor
  · rintro ⟨entry, _, same⟩
    exact ⟨entry, same⟩
  · rintro ⟨entry, same⟩
    refine ⟨entry, ?_, same⟩
    exact table.buildOidSortedEntryIndices_perm.mem_iff.mpr
      (List.mem_finRange entry)

theorem nodup_sortedOffsetColumn (distinct : Function.Injective table.offsets) :
    table.sortedOffsetColumn.Nodup := by
  apply table.nodup_buildOidSortedEntryIndices.map
  intro first second same
  exact distinct (UInt32.toNat_inj.mp same)

/-! ## The written view -/

section View

variable (sha1 : Bytes → RawOid) (packChecksum : RawOid)
  (packKey : String) (packSize : Nat)

theorem writtenView_names :
    (table.writtenView sha1 packChecksum packKey packSize).Names
      table.rowOid where
  count := table.length_sortedOffsetColumn
  named := by
    intro row
    have inside : row.val < table.buildOidSortedEntryIndices.length := by
      rw [table.length_buildOidSortedEntryIndices]
      exact row.isLt
    exact slice_rows (fun entry _ => (table.oids entry).length_eq) inside
  ordered := fun _ _ before => table.rowOid_ordered before
  fanout := by
    intro first small row
    have total :
        ((List.range 256).map fun first =>
          table.startingBelow (first + 1)).getD first 0 =
            table.startingBelow (first + 1) := by
      rw [List.getD_eq_getElem _ _ (by simpa using small),
        List.getElem_map, List.getElem_range]
    show firstByte (table.rowOid row) ≤ first ↔
      row.val < ((List.range 256).map fun first =>
        table.startingBelow (first + 1)).getD first 0
    rw [total, ← table.firstByte_rowOid_lt, Nat.lt_succ_iff]
  bounded := by
    intro first
    show ((List.range 256).map fun first =>
      table.startingBelow (first + 1)).getD first 0 ≤ objectCount
    by_cases small : first < 256
    · rw [List.getD_eq_getElem _ _ (by simpa using small),
        List.getElem_map, List.getElem_range]
      exact table.startingBelow_le _
    · rw [List.getD_eq_default _ _ (by simpa using small)]
      exact Nat.zero_le _

variable {entry : Fin objectCount}

theorem rowOid_of_entry {oid : RawOid} (same : table.oids entry = oid) :
    ∃ row, table.rowOid row = oid := by
  rcases table.exists_rowEntry entry with ⟨row, rfl⟩
  exact ⟨row, same⟩

theorem writtenView_findOffsetIndex
    (distinct : Function.Injective table.offsets)
    (few : objectCount ≤ 2 ^ 30) (row : Fin objectCount) :
    (table.writtenView sha1 packChecksum packKey packSize).findOffsetIndex
      (table.offsets (table.rowEntry row)).toNat = some (some row.val) := by
  have nodup := table.nodup_sortedOffsetColumn distinct
  have short : table.sortedOffsetColumn.length ≤ 2 ^ 31 := by
    rw [table.length_sortedOffsetColumn]
    omega
  have inside : row.val < table.sortedOffsetColumn.length := by
    rw [table.length_sortedOffsetColumn]
    exact row.isLt
  have here := table.getElem_sortedOffsetColumn row inside
  unfold writtenView
  rcases findOffsetIndex_idxViewOf packKey
      ((List.range 256).map fun first => table.startingBelow (first + 1))
      table.nameSection packSize packChecksum.bytes
      (sha1 (table.idxBody packChecksum)).bytes nodup short
      (table.offsets (table.rowEntry row)).toNat with
    ⟨found, inside, same, searched⟩ | ⟨absent, _⟩
  · rw [searched]
    rw [← here] at same
    rw [nodup.getElem_inj_iff.mp same]
  · exact absurd (table.mem_sortedOffsetColumn.mpr ⟨_, rfl⟩) absent

theorem writtenView_findOffsetIndex_other
    (distinct : Function.Injective table.offsets) (few : objectCount ≤ 2 ^ 30)
    (other : ∀ entry, (table.offsets entry).toNat ≠ offset) :
    (table.writtenView sha1 packChecksum packKey packSize).findOffsetIndex
      offset = some none := by
  have nodup := table.nodup_sortedOffsetColumn distinct
  have short : table.sortedOffsetColumn.length ≤ 2 ^ 31 := by
    rw [table.length_sortedOffsetColumn]
    omega
  rcases findOffsetIndex_idxViewOf packKey
      ((List.range 256).map fun first => table.startingBelow (first + 1))
      table.nameSection packSize packChecksum.bytes
      (sha1 (table.idxBody packChecksum)).bytes nodup short offset with
    ⟨row, inside, same, _⟩ | ⟨_, searched⟩
  · rcases table.mem_sortedOffsetColumn.mp (List.getElem_mem inside) with
      ⟨entry, held⟩
    exact absurd (held.trans same) (other entry)
  · exact searched

/-- The following offset in terms of the column is that of the table. -/
theorem nextAfter_of_nextOffset {next : Nat}
    (follows : NextOffset table.sortedOffsetColumn packSize
      (table.offsets entry).toNat next) :
    table.NextAfter packSize entry next := by
  rcases follows with ⟨member, above, least⟩ | ⟨last, ends⟩
  · rcases table.mem_sortedOffsetColumn.mp member with ⟨other, rfl⟩
    refine .inl ⟨other, rfl, UInt32.lt_iff_toNat_lt.mpr above, ?_⟩
    intro third later
    apply UInt32.le_iff_toNat_le.mpr
    apply least _ (table.mem_sortedOffsetColumn.mpr ⟨third, rfl⟩)
    exact UInt32.lt_iff_toNat_lt.mp later
  · refine .inr ⟨?_, ends⟩
    intro other
    apply UInt32.le_iff_toNat_le.mpr
    exact last _ (table.mem_sortedOffsetColumn.mpr ⟨other, rfl⟩)

theorem writtenView_getNextOffset (distinct : Function.Injective table.offsets)
    (few : objectCount ≤ 2 ^ 30) (entry : Fin objectCount) :
    ∃ next,
      (table.writtenView sha1 packChecksum packKey packSize).getNextOffset
          (table.offsets entry).toNat = some (some next) ∧
        table.NextAfter packSize entry next := by
  rcases table.exists_rowEntry entry with ⟨row, rfl⟩
  have nodup := table.nodup_sortedOffsetColumn distinct
  have inside : row.val < table.sortedOffsetColumn.length := by
    rw [table.length_sortedOffsetColumn]
    exact row.isLt
  rcases nextOffsetByIndex_idxViewOf packKey
      ((List.range 256).map fun first => table.startingBelow (first + 1))
      table.nameSection packSize packChecksum.bytes
      (sha1 (table.idxBody packChecksum)).bytes nodup inside with
    ⟨next, stored, follows⟩
  rw [table.getElem_sortedOffsetColumn row inside] at follows
  refine ⟨next, ?_, table.nextAfter_of_nextOffset packSize follows⟩
  unfold IdxView.getNextOffset
  rw [table.writtenView_findOffsetIndex sha1 packChecksum packKey packSize
    distinct few row]
  exact congrArg some stored

theorem writtenView_reflects (distinct : Function.Injective table.offsets)
    (few : objectCount ≤ 2 ^ 30) :
    table.Reflects packSize
      (table.writtenView sha1 packChecksum packKey packSize) := by
  have names := table.writtenView_names sha1 packChecksum packKey packSize
  have noRow : ∀ oid, (∀ entry, table.oids entry ≠ oid) →
      ∀ row, table.rowOid row ≠ oid := fun oid absent row =>
    absent (table.rowEntry row)
  refine
    { count := names.count
      named := names.named
      placed := ?_
      foundOid := ?_
      otherOid := ?_
      run := ?_
      noRun := ?_
      offsetIndex :=
        table.writtenView_findOffsetIndex sha1 packChecksum packKey packSize
          distinct few
      otherOffset := fun _ =>
        table.writtenView_findOffsetIndex_other sha1 packChecksum packKey
          packSize distinct few
      nextOffset :=
        table.writtenView_getNextOffset sha1 packChecksum packKey packSize
          distinct few
      noNextOffset := ?_ }
  · intro row
    have inside : row.val < table.sortedOffsetColumn.length := by
      rw [table.length_sortedOffsetColumn]
      exact row.isLt
    show table.sortedOffsetColumn[row.val]? = _
    rw [List.getElem?_eq_getElem inside,
      table.getElem_sortedOffsetColumn row inside]
  · rintro oid ⟨entry, held⟩
    rcases names.findOidIndexFromBytes few oid with
      ⟨row, same, found⟩ | ⟨absent, _⟩
    · refine ⟨row, found, ?_⟩
      rw [names.named, same]
    · rcases table.rowOid_of_entry held with ⟨row, same⟩
      exact absurd same (absent row)
  · intro oid absent
    rcases names.findOidIndexFromBytes few oid with
      ⟨row, same, _⟩ | ⟨_, missed⟩
    · exact absurd same (noRow oid absent row)
    · exact missed
  · rintro oid ⟨entry, held⟩
    rcases names.findOidRunInIdx few oid with
      ⟨run, found, proper, inside, rows⟩ | ⟨absent, _⟩
    · refine ⟨run, found, proper, inside, ?_⟩
      intro row
      rw [names.named, RawOid.bytes_inj]
      exact rows row
    · rcases table.rowOid_of_entry held with ⟨row, same⟩
      exact absurd same (absent row)
  · intro oid absent
    rcases names.findOidRunInIdx few oid with
      ⟨run, _, proper, inside, rows⟩ | ⟨_, missed⟩
    · have first : run.startIndex < objectCount := by omega
      have same := (rows ⟨run.startIndex, first⟩).mpr ⟨le_rfl, proper⟩
      exact absurd same (noRow oid absent _)
    · exact missed
  · intro offset other
    unfold IdxView.getNextOffset
    rw [table.writtenView_findOffsetIndex_other sha1 packChecksum packKey
      packSize distinct few other]
    rfl

end View

/-- A written index is read back to a view that reflects the table, for pack
sizes that the reader supports and as many rows as its id search can
address. -/
theorem parseIdxView_reflects (sha1 : Bytes → RawOid) (packChecksum : RawOid)
    (packKey : String) {packSize : Nat}
    (distinct : Function.Injective table.offsets) (few : objectCount ≤ 2 ^ 30)
    (supported : 20 ≤ packSize) (safe : packSize ≤ maxSafeInteger) :
    ∃ view,
      parseIdxView packKey (table.writeIdxV2 sha1 packChecksum) packSize =
          .ok (some view) ∧
        table.Reflects packSize view :=
  ⟨_,
    table.parseIdxView_writeIdxV2 sha1 packChecksum (by omega) packKey
      supported safe,
    table.writtenView_reflects sha1 packChecksum packKey packSize distinct
      few⟩

end PackEntryTable

/-- An id whose bytes are all zero but the first. -/
def leadingOid (first : UInt8) : RawOid :=
  ⟨first :: List.replicate 19 0, rfl⟩

/-- Two entries with one id, the second one behind the 32-bit offsets. -/
def twinTable : PackEntryTable 2 where
  offsets := fun entry => if entry = 0 then 12 else 0x80000005
  objectTypes := fun _ => 3
  crc32s := fun _ => 0
  oids := fun _ => leadingOid 7

theorem parseIdxView_reflects_twinTable :
    ∃ view,
      parseIdxView "pack" (twinTable.writeIdxV2 (fun _ => leadingOid 0)
          (leadingOid 1)) 0x90000000 = .ok (some view) ∧
        twinTable.Reflects 0x90000000 view := by
  have distinct : ∀ first second : Fin 2,
      twinTable.offsets first = twinTable.offsets second →
        first = second := by
    decide
  exact twinTable.parseIdxView_reflects (fun _ => leadingOid 0)
    (leadingOid 1) "pack" (fun _ _ same => distinct _ _ same) (by decide)
    (by decide) (by decide)

/-! ## Pack sizes and row numbers out of reach -/

/-- One entry at the start of the file. -/
def loneTable : PackEntryTable 1 where
  offsets := fun _ => 0
  objectTypes := fun _ => 3
  crc32s := fun _ => 0
  oids := fun _ => leadingOid 7

/-- Entries one byte apart; from `front` on the ids start with a one. -/
def steppedTable (objectCount front : Nat) : PackEntryTable objectCount where
  offsets := fun entry => UInt32.ofNat entry
  objectTypes := fun _ => 3
  crc32s := fun _ => 0
  oids := fun entry => leadingOid (if entry.val < front then 0 else 1)

section Stepped

variable {objectCount front : Nat}

theorem steppedTable_distinct (few : objectCount ≤ 2 ^ 32) :
    Function.Injective (steppedTable objectCount front).offsets := by
  intro first second same
  have numbers := congrArg UInt32.toNat same
  have fits : ∀ entry : Fin objectCount,
      (UInt32.ofNat entry.val).toNat = entry.val := by
    intro entry
    exact UInt32.toNat_ofNat_of_lt (entry.isLt.trans_le few)
  change (UInt32.ofNat first.val).toNat = (UInt32.ofNat second.val).toNat
    at numbers
  rw [fits, fits] at numbers
  exact Fin.ext numbers

theorem firstByte_steppedTable (entry : Fin objectCount) :
    firstByte ((steppedTable objectCount front).oids entry) =
      if entry.val < front then 0 else 1 := by
  unfold steppedTable firstByte leadingOid
  simp only [List.headD_cons]
  split
  · rfl
  · rfl

theorem countP_range_lt (bound length : Nat) :
    ((List.range length).countP fun index => decide (index < bound)) =
      min length bound := by
  induction length with
  | zero => rw [Nat.zero_min]; rfl
  | succ length ih =>
    rw [List.range_succ, List.countP_append, ih]
    by_cases small : length < bound
    · rw [List.countP_cons_of_pos (by simpa using small), List.countP_nil]
      omega
    · rw [List.countP_cons_of_neg (by simpa using small), List.countP_nil]
      omega

/-- The rows with a first byte below one are those of the entries in
front. -/
theorem steppedTable_startingBelow_one (inside : front ≤ objectCount) :
    (steppedTable objectCount front).startingBelow 1 = front := by
  unfold PackEntryTable.startingBelow
  rw [PackEntryTable.buildOidSortedEntryIndices_perm _ |>.countP_eq]
  have counted := countP_range_lt front objectCount
  rw [← List.map_coe_finRange_eq_range, List.countP_map] at counted
  rw [Nat.min_eq_right inside] at counted
  refine Eq.trans ?_ counted
  apply List.countP_congr
  intro entry _
  rw [firstByte_steppedTable]
  simp only [decide_eq_true_eq, Function.comp_apply]
  split
  · next small => exact iff_of_true Nat.one_pos small
  · next large => exact iff_of_false (Nat.lt_irrefl 1) large

theorem steppedTable_startingBelow_two :
    (steppedTable objectCount front).startingBelow 2 = objectCount := by
  unfold PackEntryTable.startingBelow
  have all : ∀ entry ∈
      (steppedTable objectCount front).buildOidSortedEntryIndices,
      decide (firstByte ((steppedTable objectCount front).oids entry) < 2) =
        true := by
    intro entry _
    rw [firstByte_steppedTable]
    split
    · rfl
    · rfl
  rw [List.countP_eq_length.mpr all,
    PackEntryTable.length_buildOidSortedEntryIndices]

end Stepped

/-- A middle before the range ends the search. -/
theorem bisect_before {probe : Int → Ordering} {middle : Int → Int → Int}
    {low : Int} (rounds : Nat) (above : probe (middle low low) = .gt)
    (outside : middle low low ≤ low) :
    bisect probe middle (rounds + 2) low low = some none := by
  rw [bisect, if_pos (Int.le_refl low)]
  simp only [above]
  rw [bisect, if_neg (by omega)]

/-- The sum of a row number of 2 ^ 30 with itself is negative as a signed
word, so that a row there is not found. -/
theorem findOidIndexFromBytes_signed {view : IdxView}
    (low : view.fanout.getD 0 0 = 2 ^ 30)
    (high : view.fanout.getD 1 0 = 2 ^ 30 + 1) :
    view.findOidIndexFromBytes (leadingOid 1).bytes 0 = some (-1) := by
  have middle : signedHalf (2 ^ 30) (2 ^ 30) = -2 ^ 30 := by
    decide
  have outside :
      view.compareOidAt (-2 ^ 30) (leadingOid 1).bytes 0 = none :=
    if_neg fun inside => absurd inside.1 (by decide)
  have ended := @bisect_before
    (fun mid => branch (view.compareOidAt mid (leadingOid 1).bytes 0))
    signedHalf (2 ^ 30) view.count
    (by
      simp only [middle, outside]
      rfl)
    (by
      rw [middle]
      decide)
  unfold IdxView.findOidIndexFromBytes
  rw [if_neg (by decide)]
  have first : ((leadingOid 1).bytes.getD (0 : Int).toNat 0).toNat = 1 := rfl
  simp only [first, Nat.sub_self, low, high]
  rw [if_neg (by decide), if_neg (by decide)]
  have bounds : ((2 ^ 30 + 1 : Nat) : Int) - 1 = 2 ^ 30 := by decide
  rw [bounds]
  exact congrArg (Option.map fun found => found.getD (-1)) ended

/-- The id search misses the last row of a table with one row more than
2 ^ 30. -/
theorem steppedTable_not_reflects {objectCount front packSize : Nat}
    (long : objectCount = front + 1) (edge : front = 2 ^ 30)
    (sha1 : Bytes → RawOid) (packChecksum : RawOid) (packKey : String)
    (supported : 20 ≤ packSize) (safe : packSize ≤ maxSafeInteger) :
    ¬ ∃ view,
      parseIdxView packKey
          ((steppedTable objectCount front).writeIdxV2 sha1 packChecksum)
          packSize = .ok (some view) ∧
        (steppedTable objectCount front).Reflects packSize view := by
  rintro ⟨view, accepted, reflects⟩
  have read := (steppedTable objectCount front).parseIdxView_writeIdxV2 sha1
    packChecksum (by omega) packKey supported safe
  cases read.symm.trans accepted
  let last : Fin objectCount := ⟨front, by omega⟩
  have held : (steppedTable objectCount front).oids last = leadingOid 1 := by
    show leadingOid (if front < front then 0 else 1) = _
    rw [if_neg (Nat.lt_irrefl front)]
  rcases reflects.foundOid (leadingOid 1) ⟨last, held⟩ with ⟨row, found, _⟩
  have missed := @findOidIndexFromBytes_signed
    ((steppedTable objectCount front).writtenView sha1 packChecksum packKey
      packSize)
    ((steppedTable_startingBelow_one (by omega)).trans edge)
    (steppedTable_startingBelow_two.trans (by rw [long, edge]))
  rw [missed] at found
  have number := Option.some.inj found
  omega

/-- Below twenty bytes the reader refuses the pack size, and with more than
2 ^ 30 rows its id search misses the last one. -/
theorem not_reflects_of_small_pack_or_long_table :
    ((∀ entry, (loneTable.offsets entry).toNat < 10) ∧
        ¬ ∃ view,
          parseIdxView "pack" (loneTable.writeIdxV2 (fun _ => leadingOid 0)
            (leadingOid 1)) 10 = .ok (some view)) ∧
      Function.Injective (steppedTable (2 ^ 30 + 1) (2 ^ 30)).offsets ∧
        (∀ entry, ((steppedTable (2 ^ 30 + 1) (2 ^ 30)).offsets
          entry).toNat < 2 ^ 32) ∧
        ¬ ∃ view,
          parseIdxView "pack"
              ((steppedTable (2 ^ 30 + 1) (2 ^ 30)).writeIdxV2
                (fun _ => leadingOid 0) (leadingOid 1)) (2 ^ 32) =
                .ok (some view) ∧
            (steppedTable (2 ^ 30 + 1) (2 ^ 30)).Reflects (2 ^ 32) view := by
  refine ⟨⟨?_, ?_⟩, steppedTable_distinct (by decide), ?_, ?_⟩
  · decide
  · rintro ⟨view, accepted⟩
    cases accepted
  · intro entry
    exact UInt32.toNat_lt _
  · exact steppedTable_not_reflects rfl rfl _ _ _ (by decide) (by decide)

end GitOnCloudflare.Pack
