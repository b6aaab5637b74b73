import GitOnCloudflare.Pack.IdxRoundTrip
import GitOnCloudflare.Pack.RefSidecarExact
import Mathlib.Algebra.BigOperators.Group.List.Basic

/-!
# The rows of a sidecar

A sidecar that was built for resolved objects answers, at every row of the
index, with the type and the references of the entry in that row.
-/

namespace GitOnCloudflare.Pack

open Foundations.ByteTable

theorem getElem?_logicalRefs (refs : Bytes) (index : Nat) :
    (logicalRefs refs)[index]? =
      if index < refs.length / oidBytes then
        some (slice refs (index * oidBytes) oidBytes)
      else
        none := by
  unfold logicalRefs
  rw [List.getElem?_map]
  split
  · next inside => rw [List.getElem?_range inside]; rfl
  · next outside =>
    rw [List.getElem?_eq_none (by simpa using outside)]
    rfl

variable {row objectCount : Nat} {view : PackRefView} {packKey : String}
  {bytes : Bytes} {idx : IdxView}

namespace PackEntryTable

variable {objectCount : Nat}

/-- Every row of a view is that of the object whose entry the index has
there. -/
structure SidecarReflects (table : PackEntryTable objectCount)
    (objects : Fin objectCount → GitObject) (view : PackRefView) : Prop where
  count : view.objectCount = objectCount
  typeCode : ∀ row : Fin objectCount,
    view.getPackRefTypeCode row =
      some (objects (table.rowEntry row)).type.typeCode
  objectType : ∀ row : Fin objectCount,
    view.getPackRefObjectType row =
      some (objects (table.rowEntry row)).type
  refs : ∀ row : Fin objectCount,
    view.getPackRefRefsAt row =
      (logicalRefs (objectRefBytes (objects (table.rowEntry row)))).map
        bytesToHex
  rawRef : ∀ (row : Fin objectCount) (offset : Nat),
    view.getPackRefRawRefAt row offset =
      (logicalRefs (objectRefBytes (objects (table.rowEntry row))))[offset]?
  visited : ∀ row : Fin objectCount,
    (view.visitPackRefRawRefsAt row).map
        (fun oidStart => slice view.rawRefs oidStart oidBytes) =
      logicalRefs (objectRefBytes (objects (table.rowEntry row)))

section Rows

variable (table : PackEntryTable objectCount)
  (objects : Fin objectCount → GitObject) (packBytes : Nat)
  (packChecksum idxChecksum : RawOid) (packKey : String)

theorem row_in_view (row : Fin objectCount) :
    ¬ ((row : Int) < 0 ∨ (objectCount : Int) ≤ (row : Nat)) := by
  have inside := row.isLt
  omega

theorem sidecarView_typeCode
    (typed : ∀ entry, table.objectTypes entry = (objects entry).type.typeCode)
    (row : Fin objectCount) :
    (table.sidecarView objects packBytes packChecksum idxChecksum
        packKey).getPackRefTypeCode row =
      some (objects (table.rowEntry row)).type.typeCode := by
  have inside : row.val < table.typeSection.length := by
    rw [table.length_typeSection]
    exact row.isLt
  have read : table.typeSection[row.val]? =
      some (table.objectTypes (table.rowEntry row)) := by
    rw [List.getElem?_eq_getElem inside, table.getElem_typeSection row
      inside]
  rw [typed] at read
  exact (if_neg (row_in_view row)).trans read

theorem sidecarView_start (few : table.totalRefs objects < 2 ^ 32)
    (inside : row ≤ objectCount) :
    (table.sidecarView objects packBytes packChecksum idxChecksum
        packKey).getPackRefStart row =
      startOf (table.refRows objects) row :=
  table.numberAt_startSection objects few inside

/-- A row ends where its references are counted. -/
theorem startOf_next (row : Fin objectCount) :
    startOf (table.refRows objects) (row + 1) =
      startOf (table.refRows objects) row +
        (objectRefBytes (objects (table.rowEntry row))).length /
          oidBytes := by
  have inside : row.val < (table.refRows objects).length := by
    rw [table.length_refRows]
    exact row.isLt
  rw [startOf_succ inside, table.getElem_refRows objects row inside]

/-- The bytes of a reference of a row in the flat section. -/
theorem slice_refs (row : Fin objectCount) {offset : Nat}
    (counted : offset <
      (objectRefBytes (objects (table.rowEntry row))).length / oidBytes) :
    slice (table.refRows objects).flatten
        ((startOf (table.refRows objects) row + offset) * oidBytes)
        oidBytes =
      slice (objectRefBytes (objects (table.rowEntry row)))
        (offset * oidBytes) oidBytes := by
  have inside : row.val < (table.refRows objects).length := by
    rw [table.length_refRows]
    exact row.isLt
  have same := table.getElem_refRows objects row inside
  have read := @slice_flatten _ (table.refRows_whole objects) row.val offset
    inside (by rw [same]; exact counted)
  rw [same] at read
  exact read

theorem sidecarView_rawRef (few : table.totalRefs objects < 2 ^ 32)
    (row : Fin objectCount) (offset : Nat) :
    (table.sidecarView objects packBytes packChecksum idxChecksum
        packKey).getPackRefRawRefAt row offset =
      (logicalRefs
        (objectRefBytes (objects (table.rowEntry row))))[offset]? := by
  have valid :
      ¬ ((row : Int) < 0 ∨ (objectCount : Int) ≤ (row : Nat) ∨
        (offset : Int) < 0) := by
    have inside := row.isLt
    omega
  have start := table.sidecarView_start objects packBytes packChecksum
    idxChecksum packKey few row.isLt.le
  have next := table.sidecarView_start objects packBytes packChecksum
    idxChecksum packKey few (Nat.succ_le_of_lt row.isLt)
  rw [Nat.succ_eq_add_one, startOf_next] at next
  rw [getElem?_logicalRefs]
  refine (if_neg valid).trans ?_
  simp only [Int.toNat_natCast, start, next]
  split
  · next outside => rw [if_neg (by omega)]
  · next counted =>
    have counted : offset <
        (objectRefBytes (objects (table.rowEntry row))).length /
          oidBytes := by
      omega
    rw [if_pos counted]
    exact congrArg some (table.slice_refs objects row counted)

theorem sidecarView_visited (few : table.totalRefs objects < 2 ^ 32)
    (row : Fin objectCount) :
    ((table.sidecarView objects packBytes packChecksum idxChecksum
        packKey).visitPackRefRawRefsAt row).map
        (fun oidStart =>
          slice (table.refRows objects).flatten oidStart oidBytes) =
      logicalRefs (objectRefBytes (objects (table.rowEntry row))) := by
  have start := table.sidecarView_start objects packBytes packChecksum
    idxChecksum packKey few row.isLt.le
  have next := table.sidecarView_start objects packBytes packChecksum
    idxChecksum packKey few (Nat.succ_le_of_lt row.isLt)
  rw [Nat.succ_eq_add_one, startOf_next] at next
  have visits :
      (table.sidecarView objects packBytes packChecksum idxChecksum
          packKey).visitPackRefRawRefsAt row =
        (List.range'
          (startOf (table.refRows objects) row)
          ((objectRefBytes (objects (table.rowEntry row))).length /
            oidBytes)).map (· * oidBytes) := by
    refine (if_neg (row_in_view row)).trans ?_
    simp only [Int.toNat_natCast, start, next, Nat.add_sub_cancel_left]
  rw [visits, List.range'_eq_map_range, List.map_map, List.map_map]
  unfold logicalRefs
  apply List.map_congr_left
  intro offset member
  exact table.slice_refs objects row (List.mem_range.mp member)

theorem sidecarView_reflects (few : table.totalRefs objects < 2 ^ 32)
    (typed : ∀ entry, table.objectTypes entry = (objects entry).type.typeCode) :
    table.SidecarReflects objects
      (table.sidecarView objects packBytes packChecksum idxChecksum
        packKey) where
  count := rfl
  typeCode := table.sidecarView_typeCode objects packBytes packChecksum
    idxChecksum packKey typed
  objectType := by
    intro row
    unfold PackRefView.getPackRefObjectType
    rw [table.sidecarView_typeCode objects packBytes packChecksum
      idxChecksum packKey typed row]
    exact typeCodeToObjectType_typeCode _
  refs := by
    intro row
    have visited := table.sidecarView_visited objects packBytes packChecksum
      idxChecksum packKey few row
    refine (if_neg (row_in_view row)).trans ?_
    rw [← visited, List.map_map]
    rfl
  rawRef := table.sidecarView_rawRef objects packBytes packChecksum
    idxChecksum packKey few
  visited := table.sidecarView_visited objects packBytes packChecksum
    idxChecksum packKey few

end Rows

/-- What the builder writes for resolved objects is accepted beside the index
of the same table, and reads back row by row. -/
theorem parsePackRefView_build_reflects (table : PackEntryTable objectCount)
    {objects : Fin objectCount → GitObject}
    {builder : PackRefsBuilder objectCount} {packBytes : Nat}
    {packChecksum idxChecksum : RawOid} {idx : IdxView} (packKey : String)
    (recorded : builder.Records objects)
    (typed : ∀ entry, table.objectTypes entry = (objects entry).type.typeCode)
    (fewObjects : objectCount < 2 ^ 32) (few : table.totalRefs objects < 2 ^ 32)
    (safe : packBytes ≤ maxSafeInteger) (count : idx.count = objectCount)
    (size : idx.packSize = packBytes)
    (packSum : idx.packChecksum = packChecksum.bytes)
    (idxSum : idx.idxChecksum = idxChecksum.bytes) :
    ∃ result view,
      builder.build table packBytes packChecksum idxChecksum = .ok result ∧
        parsePackRefView packKey result.bytes idx = .ready view ∧
        table.SidecarReflects objects view :=
  ⟨_, _,
    table.build_eq objects packBytes packChecksum idxChecksum recorded typed
      safe,
    table.parsePackRefView_sidecarFile objects packBytes packChecksum
      idxChecksum packKey fewObjects few typed safe count size packSum idxSum,
    table.sidecarView_reflects objects packBytes packChecksum idxChecksum
      packKey few typed⟩

end PackEntryTable

/-! ## What is accepted is well formed -/

/-- The starts of a view do not decrease, and the last one counts all
references. -/
structure PackRefView.WellFormed (view : PackRefView) : Prop where
  monotone : ∀ row, row < view.objectCount →
    view.getPackRefStart row ≤ view.getPackRefStart (row + 1)
  final : view.getPackRefStart view.objectCount * oidBytes =
    view.rawRefs.length

variable {packBytes count : Nat}

theorem wellFormed_of_sections
    (accepted : parsePackRefSections packKey bytes idx objectCount packBytes =
      .ready view) : view.objectCount = objectCount ∧ view.WellFormed := by
  unfold parsePackRefSections at accepted
  dsimp only at accepted
  repeat' split at accepted
  all_goals try cases accepted
  next _ _ _ _ _ ordered final =>
    have start : ∀ row, row ≤ objectCount →
        numberAt 4
            (slice bytes (packRefHeaderBytes + objectCount)
              ((objectCount + 1) * 4)) (row * 4) =
          numberAt 4 bytes (packRefHeaderBytes + objectCount + row * 4) := by
      intro row inside
      unfold numberAt
      rw [slice_slice]
      omega
    refine ⟨rfl, ⟨?_, not_not.mp final⟩⟩
    intro row inside
    show numberAt 4 _ (row * 4) ≤ numberAt 4 _ ((row + 1) * 4)
    rw [start row inside.le, start (row + 1) inside]
    by_contra decreasing
    apply ordered
    rw [List.any_eq_true]
    exact ⟨row, List.mem_range.mpr inside,
      decide_eq_true (not_le.mp decreasing)⟩

/-- The sections are read for the object count in the header. -/
theorem sections_of_ready
    (accepted : parsePackRefView packKey bytes idx = .ready view) :
    numberAt 4 bytes 8 = idx.count ∧ ∃ packBytes,
      parsePackRefSections packKey bytes idx (numberAt 4 bytes 8)
        packBytes = .ready view := by
  unfold parsePackRefView at accepted
  dsimp only at accepted
  repeat' split at accepted
  all_goals try cases accepted
  next counted _ _ _ _ => exact ⟨not_not.mp counted, _, accepted⟩

theorem wellFormed_of_ready
    (accepted : parsePackRefView packKey bytes idx = .ready view) :
    view.objectCount = idx.count ∧ view.WellFormed := by
  rcases sections_of_ready accepted with ⟨counted, size, sections⟩
  rcases wellFormed_of_sections sections with ⟨same, formed⟩
  exact ⟨same.trans counted, formed⟩

theorem PackRefView.WellFormed.start_mono (formed : view.WellFormed)
    (inside : row ≤ view.objectCount) :
    view.getPackRefStart row ≤ view.getPackRefStart view.objectCount := by
  induction inside using Nat.decreasingInduction with
  | self => exact le_rfl
  | of_succ row less ih => exact (formed.monotone row less).trans ih

/-- Every reference of a row lies in the section of references. -/
theorem PackRefView.WellFormed.visited_inside (formed : view.WellFormed)
    {oidStart : Nat} (inside : row < view.objectCount)
    (visited : oidStart ∈ view.visitPackRefRawRefsAt row) :
    oidStart + oidBytes ≤ view.rawRefs.length := by
  unfold visitPackRefRawRefsAt at visited
  rw [if_neg (by omega)] at visited
  rcases List.mem_map.mp visited with ⟨refIndex, member, rfl⟩
  rw [List.mem_range'_1] at member
  have last : view.getPackRefStart (row + 1) ≤
      view.getPackRefStart view.objectCount := formed.start_mono inside
  rw [Int.toNat_natCast] at member
  rw [← formed.final, ← Nat.succ_mul]
  apply Nat.mul_le_mul_right
  omega

/-! ## A tree beside a blob -/

/-- The entry of a tree with a one-byte mode and an empty name. -/
def treeEntry : Bytes := [0x31, 0x20, 0x00] ++ List.replicate oidBytes 0

/-- A tree with one entry before an empty blob. -/
def treeAndBlob (entry : Fin 2) : GitObject :=
  if entry.val = 0 then ⟨.tree, treeEntry⟩ else ⟨.blob, []⟩

/-- Both objects under one id. -/
def treeAndBlobTable : PackEntryTable 2 where
  offsets := fun entry => if entry.val = 0 then 12 else 60
  objectTypes := fun entry => (treeAndBlob entry).type.typeCode
  crc32s := fun _ => 0
  oids := fun _ => ⟨List.replicate oidBytes 7, rfl⟩

def twentyBytes (byte : UInt8) : RawOid :=
  ⟨List.replicate oidBytes byte, rfl⟩

theorem totalRefs_treeAndBlob :
    treeAndBlobTable.totalRefs treeAndBlob < 2 ^ 32 := by
  have short : ∀ entry,
      (objectRefBytes (treeAndBlob entry)).length / oidBytes ≤ 1 := by
    decide
  have first := treeAndBlobTable.startOf_next treeAndBlob 0
  have second := treeAndBlobTable.startOf_next treeAndBlob 1
  have none_before :
      startOf (treeAndBlobTable.refRows treeAndBlob) (0 : Fin 2) = 0 := rfl
  have firstShort := short (treeAndBlobTable.rowEntry 0)
  have secondShort := short (treeAndBlobTable.rowEntry 1)
  show startOf (treeAndBlobTable.refRows treeAndBlob) ((1 : Fin 2) + 1) < _
  rw [second]
  change startOf _ (1 : Fin 2) = _ at first
  omega

theorem parsePackRefView_build_reflects_treeAndBlob :
    ∃ result view,
      ((List.finRange 2).foldl
          (fun builder entry =>
            builder.recordObject entry (treeAndBlob entry))
          PackRefsBuilder.empty).build treeAndBlobTable (200 : Nat)
          (twentyBytes 1) (twentyBytes 2) = .ok result ∧
        parsePackRefView "pack" result.bytes
          (treeAndBlobTable.writtenView (fun _ => twentyBytes 2)
            (twentyBytes 1) "pack" 200) = .ready view ∧
        treeAndBlobTable.SidecarReflects treeAndBlob view :=
  treeAndBlobTable.parsePackRefView_build_reflects "pack"
    (PackRefsBuilder.records_foldl treeAndBlob List.mem_finRange)
    (fun _ => rfl) (by decide) totalRefs_treeAndBlob (by decide)
    treeAndBlobTable.length_sortedOffsetColumn rfl rfl rfl

/-! ## Sizes and counts that the file cannot hold -/

/-- The builder refuses a negative pack size. -/
theorem PackRefsBuilder.size_of_build {builder : PackRefsBuilder objectCount}
    {table : PackEntryTable objectCount} {packBytes : Int}
    {packChecksum idxChecksum : RawOid} {result : PackRefBuildResult}
    (built : builder.build table packBytes packChecksum idxChecksum =
      .ok result) : 0 ≤ packBytes ∧ packBytes ≤ maxSafeInteger := by
  unfold PackRefsBuilder.build at built
  rcases Foundations.CheckedFold.bind_eq_ok.mp built with ⟨_, _, rest⟩
  rcases Foundations.CheckedFold.bind_eq_ok.mp rest with ⟨_, size, _⟩
  unfold writeUint64 at size
  split at size
  · cases size
  · next supported => omega

/-- A file is accepted only when its last start counts all references. -/
theorem finalRefOffset_of_ready
    (accepted : parsePackRefSections packKey bytes idx objectCount packBytes =
      .ready view) :
    numberAt 4
        (slice bytes (packRefHeaderBytes + objectCount)
          ((objectCount + 1) * 4)) (objectCount * 4) * oidBytes =
      (bytes.drop
        (packRefHeaderBytes + objectCount +
          (objectCount + 1) * 4)).length := by
  by_contra mismatch
  unfold parsePackRefSections at accepted
  simp only [ne_eq, mismatch, not_false_eq_true, if_true] at accepted
  repeat' split at accepted
  all_goals cases accepted

/-- A tree with many entries. -/
def wideTree (count : Nat) : Bytes :=
  (List.replicate count treeEntry).flatten

theorem visitTreeClosureRawRefs_wideTree {fuel : Nat} (enough : count ≤ fuel) :
    (visitTreeClosureRawRefs fuel (wideTree count)).length =
      count * oidBytes := by
  induction count generalizing fuel with
  | zero =>
    have empty : visitTreeClosureRawRefs fuel [] = [] := by
      cases fuel <;> rfl
    show (visitTreeClosureRawRefs fuel []).length = _
    rw [empty, Nat.zero_mul]
    rfl
  | succ count ih =>
    cases fuel with
    | zero => exact absurd enough (Nat.not_succ_le_zero count)
    | succ fuel =>
      have split : wideTree (count + 1) =
          [0x31, 0x20, 0x00] ++
            (List.replicate oidBytes 0 ++ wideTree count) := rfl
      have visited :
          visitTreeClosureRawRefs (fuel + 1) (wideTree (count + 1)) =
            List.replicate oidBytes 0 ++
              visitTreeClosureRawRefs fuel (wideTree count) := by
        rw [split]
        rfl
      rw [visited, List.length_append, List.length_replicate,
        ih (Nat.le_of_succ_le_succ enough), Nat.succ_mul, Nat.add_comm]

theorem length_wideTree (count : Nat) : count ≤ (wideTree count).length := by
  unfold wideTree
  rw [List.length_flatten, List.map_replicate, List.sum_replicate]
  show count ≤ count * 23
  omega

/-- One tree with the given number of entries. -/
def wideObjects (count : Nat) (_ : Fin 1) : GitObject :=
  ⟨.tree, wideTree count⟩

def wideTable : PackEntryTable 1 where
  offsets := fun _ => 12
  objectTypes := fun _ => 2
  crc32s := fun _ => 0
  oids := fun _ => twentyBytes 7

theorem totalRefs_wideTable (count : Nat) :
    wideTable.totalRefs (wideObjects count) = count := by
  have next := wideTable.startOf_next (wideObjects count) 0
  have length : (objectRefBytes (wideObjects count
      (wideTable.rowEntry 0))).length = count * oidBytes :=
    visitTreeClosureRawRefs_wideTree (length_wideTree count)
  rw [length, Nat.mul_div_cancel count (by decide)] at next
  exact next.trans (Nat.zero_add count)

/-- A count of references that is no 32-bit number is not accepted. -/
theorem wideTable_not_ready (large : 2 ^ 32 ≤ count) (packKey : String)
    (packBytes : Nat) (packChecksum idxChecksum : RawOid) (idx : IdxView)
    (view : PackRefView) :
    parsePackRefView packKey
      (wideTable.sidecarFile (wideObjects count) packBytes packChecksum
        idxChecksum) idx ≠ .ready view := by
  intro accepted
  have total := totalRefs_wideTable count
  have number :
      numberAt 4
          (wideTable.sidecarFile (wideObjects count) packBytes packChecksum
            idxChecksum) 8 = 1 :=
    wideTable.numberAt_header _ packBytes packChecksum idxChecksum
      (PackEntryTable.header_count packBytes packChecksum idxChecksum) rfl (by decide)
  rcases sections_of_ready accepted with ⟨_, size, sections⟩
  rw [number] at sections
  have final := finalRefOffset_of_ready sections
  rw [wideTable.slice_startSection, wideTable.drop_refSection,
    wideTable.length_flatten_refRows, total] at final
  have stored := numberAt_lt 4
    (wideTable.startSection (wideObjects count)) (1 * 4)
  unfold oidBytes at final
  omega

/-- The builder throws for a negative safe integer as pack size, and what it
writes for 2 ^ 32 references is refused. -/
theorem not_reflects_of_negative_size_or_many_refs :
    ((∀ result,
        ((List.finRange 2).foldl
          (fun builder entry =>
            builder.recordObject entry (treeAndBlob entry))
          PackRefsBuilder.empty).build treeAndBlobTable (-1)
            (twentyBytes 1) (twentyBytes 2) ≠ .ok result) ∧
        -(maxSafeInteger : Int) ≤ -1) ∧
      ∃ (builder : PackRefsBuilder 1) (result : PackRefBuildResult),
        builder.Records (wideObjects (2 ^ 32)) ∧
        builder.build wideTable (200 : Nat) (twentyBytes 1)
          (twentyBytes 2) = .ok result ∧
        ∀ packKey idx view,
          parsePackRefView packKey result.bytes idx ≠ .ready view := by
  refine ⟨⟨?_, by decide⟩, ?_⟩
  · intro result built
    exact absurd (PackRefsBuilder.size_of_build built).1 (by decide)
  · have recorded := PackRefsBuilder.records_foldl (wideObjects (2 ^ 32))
      List.mem_finRange
    refine ⟨_, _, recorded,
      wideTable.build_eq (wideObjects (2 ^ 32)) 200 (twentyBytes 1)
        (twentyBytes 2) recorded (fun _ => rfl) (by decide), ?_⟩
    intro packKey idx view
    exact wideTable_not_ready le_rfl packKey 200 _ _ idx view

end GitOnCloudflare.Pack
