import GitOnCloudflare.Pack.IdxOrder
import Mathlib.Data.Nat.Bitwise

/-!
# Index files are read back

The reader accepts what the writer wrote, and its view answers every lookup
from the entry table.
-/

namespace GitOnCloudflare.Pack

open Foundations.Bisection
open Foundations.ByteTable

/-! ## Offsets -/

theorem length_splitOffsets (largeIdx : Nat) (offsets : List Nat) :
    (splitOffsets largeIdx offsets).1.length = offsets.length := by
  induction offsets generalizing largeIdx with
  | nil => rfl
  | cons offset offsets ih =>
    rw [splitOffsets]
    split
    · rw [List.length_cons, List.length_cons, ih]
    · rw [List.length_cons, List.length_cons, ih]

variable {largeIdx start : Nat}

/-- A marked row: the mark and the index do not share bits. -/
theorem marked_eq (small : largeIdx < 2 ^ 31) :
    largeOffsetStart ||| largeIdx = 2 ^ 31 + largeIdx := by
  have merged := Nat.two_pow_add_eq_or_of_lt small 1
  rw [Nat.mul_one] at merged
  exact merged.symm

theorem splitOffsets_lt {offsets : List Nat}
    (bounded : ∀ offset ∈ offsets, offset < 2 ^ 32)
    (small : largeIdx + offsets.length ≤ 2 ^ 31) :
    ∀ row ∈ (splitOffsets largeIdx offsets).1, row < 2 ^ 32 := by
  induction offsets generalizing largeIdx with
  | nil =>
    intro row member
    cases member
  | cons offset offsets ih =>
    rw [List.length_cons] at small
    have later : ∀ other ∈ offsets, other < 2 ^ 32 := fun other member =>
      bounded other (List.mem_cons_of_mem _ member)
    intro row member
    rw [splitOffsets] at member
    split at member
    · rcases List.mem_cons.mp member with rfl | rest
      · rw [marked_eq (by omega)]
        omega
      · exact ih later (by omega) row rest
    · rcases List.mem_cons.mp member with rfl | rest
      · exact bounded row List.mem_cons_self
      · exact ih later (by omega) row rest

variable {file : Bytes} {limit : Nat}

theorem readOffset_small {row : Nat} (small : row < 2 ^ 31) :
    readOffset file start limit row = .ok (some row) := by
  have unmarked : row &&& 0x80000000 = 0 := by
    have masked := Nat.and_two_pow row 31
    rw [Nat.testBit_lt_two_pow small] at masked
    simpa using masked
  unfold readOffset
  rw [unmarked]
  rfl

theorem readOffset_large {offset : Nat} (small : largeIdx < 2 ^ 31)
    (fits : start + largeIdx * 8 + 8 ≤ limit) (bounded : offset < 2 ^ 32)
    (high : numberAt 4 file (start + largeIdx * 8) = 0)
    (low : numberAt 4 file (start + largeIdx * 8 + 4) = offset) :
    readOffset file start limit (largeOffsetStart ||| largeIdx) =
      .ok (some offset) := by
  have marked : (2 ^ 31 + largeIdx) &&& 0x80000000 ≠ 0 := by
    have masked := Nat.and_two_pow (2 ^ 31 + largeIdx) 31
    rw [Nat.testBit_two_pow_add_eq, Nat.testBit_lt_two_pow small] at masked
    show (2 ^ 31 + largeIdx) &&& 2 ^ 31 ≠ 0
    rw [masked]
    decide
  have index : (2 ^ 31 + largeIdx) &&& 0x7fffffff = largeIdx := by
    have masked := Nat.and_two_pow_sub_one_eq_mod (2 ^ 31 + largeIdx) 31
    rw [Nat.add_mod_left, Nat.mod_eq_of_lt small] at masked
    exact masked
  unfold readOffset
  rw [marked_eq small, if_pos marked, index]
  simp only
  rw [if_neg (by omega)]
  unfold readUint64AsNumber
  simp only [high, low, Nat.zero_mul, Nat.zero_add]
  rw [if_neg (by unfold maxSafeInteger; omega)]
  rfl

/-- The rows of the 32-bit table stand for the offsets they were made
from. -/
theorem readOffsets_splitOffsets {file : Bytes} {start limit : Nat}
    {offsets : List Nat} {largeIdx : Nat}
    (bounded : ∀ offset ∈ offsets, offset < 2 ^ 32)
    (small : largeIdx + offsets.length ≤ 2 ^ 31)
    (stored : ∀ (index : Nat)
      (inside : index < (splitOffsets largeIdx offsets).2.length),
      start + (largeIdx + index) * 8 + 8 ≤ limit ∧
        numberAt 4 file (start + (largeIdx + index) * 8) = 0 ∧
        numberAt 4 file (start + (largeIdx + index) * 8 + 4) =
          (splitOffsets largeIdx offsets).2[index]) :
    readOffsets (readOffset file start limit)
      (splitOffsets largeIdx offsets).1 = .ok (some offsets) := by
  induction offsets generalizing largeIdx with
  | nil => rfl
  | cons offset offsets ih =>
    rw [List.length_cons] at small
    have first : offset < 2 ^ 32 := bounded offset List.mem_cons_self
    have later : ∀ other ∈ offsets, other < 2 ^ 32 := fun other member =>
      bounded other (List.mem_cons_of_mem _ member)
    by_cases large : largeOffsetStart ≤ offset
    · have split : splitOffsets largeIdx (offset :: offsets) =
          ((largeOffsetStart ||| largeIdx) ::
              (splitOffsets (largeIdx + 1) offsets).1,
            offset :: (splitOffsets (largeIdx + 1) offsets).2) := by
        rw [splitOffsets, if_pos large]
      rw [split] at stored ⊢
      rcases stored 0 (Nat.zero_lt_succ _) with ⟨fits, high, low⟩
      have row := readOffset_large (by omega) fits first high low
      rw [Nat.add_zero] at row
      have rest := ih later (by omega : largeIdx + 1 + offsets.length ≤ _) (by
        intro index inside
        have shifted := stored (index + 1) (Nat.succ_lt_succ inside)
        rw [show largeIdx + 1 + index = largeIdx + (index + 1) by omega]
        simpa using shifted)
      show readOffsets _ (_ :: _) = _
      rw [readOffsets, row]
      simp only [rest]
      rfl
    · have split : splitOffsets largeIdx (offset :: offsets) =
          (offset :: (splitOffsets largeIdx offsets).1,
            (splitOffsets largeIdx offsets).2) := by
        rw [splitOffsets, if_neg large]
      rw [split] at stored ⊢
      have row : readOffset file start limit offset = .ok (some offset) :=
        readOffset_small (Nat.lt_of_not_le large)
      have rest := ih later (by omega) stored
      show readOffsets _ (_ :: _) = _
      rw [readOffsets, row]
      simp only [rest]
      rfl

/-! ## The sections of a file -/

namespace PackEntryTable

variable {objectCount : Nat} (table : PackEntryTable objectCount)

def headSection : Bytes := idxMagic ++ bigEndian 4 2

def fanoutSection : Bytes :=
  (cumulate 0 table.buckets).flatMap fun total => bigEndian 4 total

def nameSection : Bytes :=
  table.buildOidSortedEntryIndices.flatMap fun entry =>
    (table.oids entry).bytes

def crcSection : Bytes :=
  table.buildOidSortedEntryIndices.flatMap fun entry =>
    bigEndian 4 (table.crc32s entry).toNat

def offsetSection : Bytes :=
  (splitOffsets 0 table.sortedOffsetColumn).1.flatMap fun row =>
    bigEndian 4 row

def largeOffsets : List Nat := (splitOffsets 0 table.sortedOffsetColumn).2

def largeOffsetSection : Bytes :=
  table.largeOffsets.flatMap fun offset =>
    bigEndian 4 0 ++ bigEndian 4 offset

section File

variable (sha1 : Bytes → RawOid) (packChecksum : RawOid)

theorem writeIdxV2_eq :
    table.writeIdxV2 sha1 packChecksum =
      headSection ++ table.fanoutSection ++ table.nameSection ++
        table.crcSection ++ table.offsetSection ++
        table.largeOffsetSection ++ packChecksum.bytes ++
        (sha1 (table.idxBody packChecksum)).bytes :=
  rfl

theorem length_headSection : headSection.length = 8 := rfl

theorem length_fanoutSection : table.fanoutSection.length = 256 * 4 := by
  unfold fanoutSection
  rw [length_flatMap_rows fun total _ => length_bigEndian 4 total,
    table.fanout_eq, List.length_map, List.length_range]

theorem length_nameSection :
    table.nameSection.length = objectCount * 20 := by
  unfold nameSection
  rw [length_flatMap_rows fun entry _ => (table.oids entry).length_eq,
    table.length_buildOidSortedEntryIndices]

theorem length_crcSection : table.crcSection.length = objectCount * 4 := by
  unfold crcSection
  rw [length_flatMap_rows fun entry _ => length_bigEndian 4 _,
    table.length_buildOidSortedEntryIndices]

@[simp]
theorem length_sortedOffsetColumn :
    table.sortedOffsetColumn.length = objectCount := by
  unfold sortedOffsetColumn
  rw [List.length_map, table.length_buildOidSortedEntryIndices]

theorem length_offsetSection :
    table.offsetSection.length = objectCount * 4 := by
  unfold offsetSection
  rw [length_flatMap_rows fun row _ => length_bigEndian 4 row,
    length_splitOffsets, table.length_sortedOffsetColumn]

theorem length_largeOffsetSection :
    table.largeOffsetSection.length = table.largeOffsets.length * 8 := by
  unfold largeOffsetSection
  apply length_flatMap_rows
  intro offset _
  rw [List.length_append, length_bigEndian, length_bigEndian]

theorem length_writeIdxV2 :
    (table.writeIdxV2 sha1 packChecksum).length =
      8 + 256 * 4 + objectCount * 20 + objectCount * 4 + objectCount * 4 +
        table.largeOffsets.length * 8 + 40 := by
  rw [writeIdxV2_eq]
  simp only [List.length_append, length_headSection, length_fanoutSection,
    length_nameSection, length_crcSection, length_offsetSection,
    length_largeOffsetSection, RawOid.length_eq]

/-- Everything behind the fanout table. -/
def restOfFile : Bytes :=
  table.nameSection ++ table.crcSection ++ table.offsetSection ++
    table.largeOffsetSection ++ packChecksum.bytes ++
    (sha1 (table.idxBody packChecksum)).bytes

theorem slice_magic :
    slice (table.writeIdxV2 sha1 packChecksum) 0 4 = idxMagic := by
  have read := @slice_middle [] idxMagic
    (bigEndian 4 2 ++ table.fanoutSection ++
      table.restOfFile sha1 packChecksum) 0 4 rfl rfl
  rw [writeIdxV2_eq]
  simpa only [restOfFile, headSection, List.append_assoc, List.nil_append]
    using read

theorem numberAt_version :
    numberAt 4 (table.writeIdxV2 sha1 packChecksum) 4 = 2 := by
  have read := @numberAt_middle idxMagic 4 2
    (table.fanoutSection ++ table.restOfFile sha1 packChecksum) 4 rfl
    (by decide)
  rw [writeIdxV2_eq]
  simpa only [restOfFile, headSection, List.append_assoc] using read

theorem numberAt_fanout (few : objectCount < 2 ^ 32) {first : Nat}
    (inside : first < 256) :
    numberAt 4 (table.writeIdxV2 sha1 packChecksum) (8 + first * 4) =
      table.startingBelow (first + 1) := by
  have length : first < (cumulate 0 table.buckets).length := by
    rw [table.fanout_eq, List.length_map, List.length_range]
    exact inside
  have total : (cumulate 0 table.buckets)[first] =
      table.startingBelow (first + 1) := by
    simp only [table.fanout_eq, List.getElem_map, List.getElem_range]
  have fits : (cumulate 0 table.buckets)[first] < 256 ^ 4 := by
    rw [total]
    exact (table.startingBelow_le (first + 1)).trans_lt few
  have read := numberAt_table (cumulate 0 table.buckets) headSection
    (table.restOfFile sha1 packChecksum) length_headSection length fits
  rw [total] at read
  rw [writeIdxV2_eq, ← read]
  simp only [restOfFile, fanoutSection, List.append_assoc]

theorem slice_names :
    slice (table.writeIdxV2 sha1 packChecksum) (8 + 256 * 4)
      (objectCount * 20) = table.nameSection := by
  have placed : (headSection ++ table.fanoutSection).length = 8 + 256 * 4 := by
    rw [List.length_append, length_headSection, length_fanoutSection]
  have read := slice_middle (headSection ++ table.fanoutSection)
    table.nameSection
    (table.crcSection ++ table.offsetSection ++ table.largeOffsetSection ++
      packChecksum.bytes ++ (sha1 (table.idxBody packChecksum)).bytes)
    placed table.length_nameSection
  rw [writeIdxV2_eq]
  simpa only [List.append_assoc] using read

theorem sortedOffsetColumn_lt :
    ∀ offset ∈ table.sortedOffsetColumn, offset < 2 ^ 32 := by
  intro offset member
  rcases List.mem_map.mp member with ⟨entry, _, rfl⟩
  exact (table.offsets entry).toNat_lt

variable {index position : Nat}

theorem numberAt_offsetRow (few : objectCount ≤ 2 ^ 31)
    (inside : index < (splitOffsets 0 table.sortedOffsetColumn).1.length) :
    numberAt 4 (table.writeIdxV2 sha1 packChecksum)
        (8 + 256 * 4 + objectCount * 20 + objectCount * 4 + index * 4) =
      (splitOffsets 0 table.sortedOffsetColumn).1[index] := by
  have placed :
      (headSection ++ table.fanoutSection ++ table.nameSection ++
        table.crcSection).length =
          8 + 256 * 4 + objectCount * 20 + objectCount * 4 := by
    simp only [List.length_append, length_headSection,
      length_fanoutSection, length_nameSection, length_crcSection]
  have fits : (splitOffsets 0 table.sortedOffsetColumn).1[index] <
      256 ^ 4 := by
    apply splitOffsets_lt table.sortedOffsetColumn_lt _ _
      (List.getElem_mem inside)
    rw [table.length_sortedOffsetColumn, Nat.zero_add]
    exact few
  have read := numberAt_table _ _
    (table.largeOffsetSection ++ packChecksum.bytes ++
      (sha1 (table.idxBody packChecksum)).bytes) placed inside fits
  rw [writeIdxV2_eq]
  simpa only [offsetSection, List.append_assoc] using read

theorem largeOffsets_lt :
    ∀ offset ∈ table.largeOffsets, offset < 2 ^ 32 := by
  have sub : ∀ (largeIdx : Nat) (offsets : List Nat),
      (splitOffsets largeIdx offsets).2 ⊆ offsets := by
    intro largeIdx offsets
    induction offsets generalizing largeIdx with
    | nil => exact List.Subset.refl _
    | cons offset offsets ih =>
      rw [splitOffsets]
      split
      · exact List.cons_subset_cons _ (ih _)
      · intro other member
        exact List.mem_cons_of_mem _ (ih _ member)
  intro offset member
  exact table.sortedOffsetColumn_lt offset (sub _ _ member)

/-- A row of the 64-bit table. -/
theorem numberAt_largeOffset (inside : index < table.largeOffsets.length)
    (placed : start = 8 + 256 * 4 + objectCount * 20 + objectCount * 4 +
      objectCount * 4) :
    numberAt 4 (table.writeIdxV2 sha1 packChecksum) (start + index * 8) =
        0 ∧
      numberAt 4 (table.writeIdxV2 sha1 packChecksum)
          (start + index * 8 + 4) = table.largeOffsets[index] := by
  have sized : ∀ offset ∈ table.largeOffsets,
      (bigEndian 4 0 ++ bigEndian 4 offset).length = 8 := by
    intro offset _
    rw [List.length_append, length_bigEndian, length_bigEndian]
  have before :
      (headSection ++ table.fanoutSection ++ table.nameSection ++
        table.crcSection ++ table.offsetSection).length = start := by
    simp only [List.length_append, length_headSection,
      length_fanoutSection, length_nameSection, length_crcSection,
      length_offsetSection, placed]
  have read := slice_table sized _
    (packChecksum.bytes ++ (sha1 (table.idxBody packChecksum)).bytes) before
    inside
  have row : slice (table.writeIdxV2 sha1 packChecksum) (start + index * 8)
      8 = bigEndian 4 0 ++ bigEndian 4 table.largeOffsets[index] := by
    rw [writeIdxV2_eq, ← read]
    simp only [largeOffsetSection, List.append_assoc]
  have high := @slice_slice (table.writeIdxV2 sha1 packChecksum)
    (start + index * 8) 8 0 4 (by decide)
  have low := @slice_slice (table.writeIdxV2 sha1 packChecksum)
    (start + index * 8) 8 4 4 (by decide)
  rw [row] at high low
  constructor
  · unfold numberAt
    rw [Nat.add_zero] at high
    rw [← high]
    have zero := @slice_middle [] (bigEndian 4 0)
      (bigEndian 4 table.largeOffsets[index]) 0 4 rfl rfl
    rw [List.nil_append] at zero
    rw [zero, ofBigEndian_bigEndian]
    rfl
  · unfold numberAt
    rw [← low]
    have value := @slice_middle (bigEndian 4 0)
      (bigEndian 4 table.largeOffsets[index]) [] 4 4 rfl rfl
    rw [List.append_nil] at value
    rw [value]
    exact ofBigEndian_of_lt
      (table.largeOffsets_lt _ (List.getElem_mem inside))

theorem slice_packChecksum
    (placed : position = 8 + 256 * 4 + objectCount * 20 + objectCount * 4 +
      objectCount * 4 + table.largeOffsets.length * 8) :
    slice (table.writeIdxV2 sha1 packChecksum) position 20 =
      packChecksum.bytes := by
  have before :
      (headSection ++ table.fanoutSection ++ table.nameSection ++
        table.crcSection ++ table.offsetSection ++
          table.largeOffsetSection).length = position := by
    simp only [List.length_append, length_headSection,
      length_fanoutSection, length_nameSection, length_crcSection,
      length_offsetSection, length_largeOffsetSection, placed]
  rw [writeIdxV2_eq]
  exact slice_middle _ _ _ before packChecksum.length_eq

theorem slice_idxChecksum
    (placed : position = 8 + 256 * 4 + objectCount * 20 + objectCount * 4 +
      objectCount * 4 + table.largeOffsets.length * 8 + 20) :
    slice (table.writeIdxV2 sha1 packChecksum) position 20 =
      (sha1 (table.idxBody packChecksum)).bytes := by
  have before : (table.idxBody packChecksum).length = position := by
    have whole := table.length_writeIdxV2 sha1 packChecksum
    have parts : (table.writeIdxV2 sha1 packChecksum).length =
        (table.idxBody packChecksum).length + 20 := by
      unfold writeIdxV2
      rw [List.length_append, RawOid.length_eq]
    omega
  have read := slice_middle (table.idxBody packChecksum)
    (sha1 (table.idxBody packChecksum)).bytes [] before (RawOid.length_eq _)
  rw [List.append_nil] at read
  exact read

/-- The view of an index that was written from the table. -/
def writtenView (packKey : String) (packSize : Nat) : IdxView :=
  idxViewOf packKey
    ((List.range 256).map fun first => table.startingBelow (first + 1))
    table.nameSection table.sortedOffsetColumn packSize packChecksum.bytes
    (sha1 (table.idxBody packChecksum)).bytes

/-- The reader accepts what the writer wrote. -/
theorem parseIdxView_writeIdxV2 (few : objectCount ≤ 2 ^ 31)
    (packKey : String) {packSize : Nat} (supported : 20 ≤ packSize)
    (safe : packSize ≤ maxSafeInteger) :
    parseIdxView packKey (table.writeIdxV2 sha1 packChecksum) packSize =
      .ok (some (table.writtenView sha1 packChecksum packKey packSize)) := by
  have length := table.length_writeIdxV2 sha1 packChecksum
  have fanout :
      ((List.range 256).map fun index =>
        numberAt 4 (table.writeIdxV2 sha1 packChecksum) (8 + index * 4)) =
        (List.range 256).map fun first =>
          table.startingBelow (first + 1) := by
    apply List.map_congr_left
    intro first member
    exact table.numberAt_fanout sha1 packChecksum (by omega)
      (List.mem_range.mp member)
  have count :
      ((List.range 256).map fun first =>
        table.startingBelow (first + 1)).getD 255 0 = objectCount :=
    table.startingBelow_all
  have rows :
      ((List.range objectCount).map fun index =>
        numberAt 4 (table.writeIdxV2 sha1 packChecksum)
          (8 + 256 * 4 + objectCount * 20 + objectCount * 4 + index * 4)) =
        (splitOffsets 0 table.sortedOffsetColumn).1 := by
    apply List.ext_getElem
    · rw [List.length_map, List.length_range, length_splitOffsets,
        table.length_sortedOffsetColumn]
    · intro index _ inside
      rw [List.getElem_map, List.getElem_range,
        table.numberAt_offsetRow sha1 packChecksum few inside]
  have offsets := @readOffsets_splitOffsets
    (table.writeIdxV2 sha1 packChecksum)
    (8 + 256 * 4 + objectCount * 20 + objectCount * 4 + objectCount * 4)
    ((table.writeIdxV2 sha1 packChecksum).length - idxTrailerBytes)
    table.sortedOffsetColumn 0 table.sortedOffsetColumn_lt
    (by rw [table.length_sortedOffsetColumn, Nat.zero_add]; exact few)
    (by
      intro index inside
      have large : index < table.largeOffsets.length := inside
      rw [Nat.zero_add]
      refine ⟨?_, table.numberAt_largeOffset sha1 packChecksum large rfl⟩
      rw [length]
      unfold idxTrailerBytes
      omega)
  unfold parseIdxView
  rw [if_neg (by omega), if_neg (by rw [length]; unfold idxTrailerBytes; omega),
    slice_magic, if_neg (by simp)]
  simp only [numberAt_version, fanout, count, rows, offsets]
  rw [if_neg (by decide), if_neg (by rw [length]; unfold idxTrailerBytes; omega)]
  rw [slice_names, table.slice_packChecksum sha1 packChecksum
      (by rw [length]; unfold idxTrailerBytes; omega),
    table.slice_idxChecksum sha1 packChecksum (by rw [length]; omega)]
  rfl

end File

end PackEntryTable

end GitOnCloudflare.Pack
