import GitOnCloudflare.Pack.RefSidecarRows

/-!
# Sidecars are canonical

A view is written again from its header fields, its type codes and the
references of its rows.  A file whose first start is zero is the only one that
gives its view; in other files references come before the first row.
-/

namespace GitOnCloudflare.Pack

open Foundations.ByteTable

/-! ## Writing a view again -/

namespace PackRefView

/-- The references of a row, in order. -/
def rowRefs (view : PackRefView) (row : Nat) : List Bytes :=
  (view.visitPackRefRawRefsAt row).map fun oidStart =>
    slice view.rawRefs oidStart oidBytes

def rows (view : PackRefView) : List Bytes :=
  (List.range view.objectCount).map fun row => (view.rowRefs row).flatten

/-- The header fields, the type codes and the references of every row, written
as the builder writes them. -/
def reencode (view : PackRefView) : Bytes :=
  bigEndian 4 packRefMagic ++ bigEndian 4 packRefVersion ++
    bigEndian 4 view.objectCount ++ PackEntryTable.sizeHalves view.packBytes ++
    view.packChecksum ++ view.idxChecksum ++ view.typeCodes ++
    (refStartsFrom 0 view.rows).flatMap (fun start => bigEndian 4 start) ++
    view.rows.flatten

/-- The view holds the sections of the file. -/
structure SectionsOf (view : PackRefView) (bytes : Bytes) : Prop where
  magic : numberAt 4 bytes 0 = packRefMagic
  version : numberAt 4 bytes 4 = packRefVersion
  objectCount : view.objectCount = numberAt 4 bytes 8
  packBytes : view.packBytes =
    numberAt 4 bytes 12 * 0x100000000 + numberAt 4 bytes 16
  packChecksum : view.packChecksum = slice bytes 20 20
  idxChecksum : view.idxChecksum = slice bytes 40 20
  typeCodes : view.typeCodes =
    slice bytes packRefHeaderBytes view.objectCount
  refStarts : view.refStartsBytes =
    slice bytes (packRefHeaderBytes + view.objectCount)
      ((view.objectCount + 1) * 4)
  rawRefs : view.rawRefs =
    bytes.drop (packRefHeaderBytes + view.objectCount +
      (view.objectCount + 1) * 4)
  long : packRefHeaderBytes + view.objectCount + (view.objectCount + 1) * 4 ≤
    bytes.length

theorem sectionsOf_of_ready {packKey : String} {bytes : Bytes} {idx : IdxView}
    {view : PackRefView}
    (accepted : parsePackRefView packKey bytes idx = .ready view) :
    view.SectionsOf bytes := by
  unfold parsePackRefView at accepted
  dsimp only at accepted
  repeat' split at accepted
  all_goals try cases accepted
  next magic version _ _ packBytes size _ =>
    have read : packBytes =
        numberAt 4 bytes 12 * 0x100000000 + numberAt 4 bytes 16 := by
      unfold readUint64 at size
      dsimp only at size
      split at size
      · cases size
      · cases size
        rfl
    unfold parsePackRefSections at accepted
    dsimp only at accepted
    repeat' split at accepted
    all_goals try cases accepted
    next _ _ _ _ long _ _ =>
      refine ⟨not_not.mp magic, not_not.mp version, rfl, read, rfl, rfl, rfl,
        rfl, rfl, ?_⟩
      exact not_lt.mp long

variable {view : PackRefView} {bytes : Bytes}

/-- The header fields are those of the file. -/
theorem SectionsOf.header (sections : view.SectionsOf bytes) :
    bigEndian 4 packRefMagic ++ bigEndian 4 packRefVersion ++
        bigEndian 4 view.objectCount ++
        PackEntryTable.sizeHalves view.packBytes ++
        view.packChecksum ++ view.idxChecksum =
      slice bytes 0 packRefHeaderBytes := by
  have long : packRefHeaderBytes ≤ bytes.length := by
    have whole := sections.long
    omega
  unfold packRefHeaderBytes at long ⊢
  have low := numberAt_lt 4 bytes 16
  have high : view.packBytes / 0x100000000 = numberAt 4 bytes 12 := by
    rw [sections.packBytes]
    omega
  have rest : view.packBytes % 0x100000000 = numberAt 4 bytes 16 := by
    rw [sections.packBytes]
    omega
  unfold PackEntryTable.sizeHalves
  rw [high, rest, sections.objectCount, ← sections.magic,
    ← sections.version, sections.packChecksum, sections.idxChecksum,
    bigEndian_numberAt (by omega), bigEndian_numberAt (by omega),
    bigEndian_numberAt (by omega), bigEndian_numberAt (by omega),
    bigEndian_numberAt (by omega), ← List.append_assoc,
    slice_append_slice bytes 0 4 4, slice_append_slice bytes 0 8 4,
    slice_append_slice bytes 0 12 4, slice_append_slice bytes 0 16 4,
    slice_append_slice bytes 0 20 20, slice_append_slice bytes 0 40 20]

theorem length_rows : view.rows.length = view.objectCount := by
  unfold rows
  rw [List.length_map, List.length_range]

variable {row : Nat}

/-- The references of a row are a slice of all references. -/
theorem rowRefs_flatten (inside : row < view.objectCount) :
    (view.rowRefs row).flatten =
        slice view.rawRefs (view.getPackRefStart row * oidBytes)
          ((view.getPackRefStart (row + 1) - view.getPackRefStart row) *
            oidBytes) := by
  have slices : ∀ start count,
      (((List.range' start count).map (· * oidBytes)).map fun oidStart =>
        slice view.rawRefs oidStart oidBytes).flatten =
          slice view.rawRefs (start * oidBytes) (count * oidBytes) := by
    intro start count
    induction count generalizing start with
    | zero =>
      rw [Nat.zero_mul]
      rfl
    | succ count ih =>
      rw [List.range'_succ, List.map_cons, List.map_cons, List.flatten_cons,
        ih, Nat.succ_mul count, Nat.add_comm (count * oidBytes),
        ← slice_append_slice, Nat.succ_mul]
  unfold rowRefs visitPackRefRawRefsAt
  rw [if_neg (by omega), Int.toNat_natCast]
  exact slices _ _

section Rows

variable (formed : view.WellFormed)

include formed

theorem length_rowRefs_flatten (inside : row < view.objectCount) :
    (view.rowRefs row).flatten.length =
      (view.getPackRefStart (row + 1) - view.getPackRefStart row) *
        oidBytes := by
  rw [rowRefs_flatten inside]
  unfold slice
  rw [List.length_take, List.length_drop, ← formed.final, ← Nat.sub_mul]
  apply Nat.min_eq_left
  apply Nat.mul_le_mul_right
  have last : view.getPackRefStart (row + 1) ≤
      view.getPackRefStart view.objectCount := formed.start_mono inside
  have order := formed.monotone row inside
  omega

/-- The references before a row, counted from the first start. -/
theorem startOf_rows (inside : row ≤ view.objectCount) :
    view.getPackRefStart 0 + startOf view.rows row =
      view.getPackRefStart row := by
  induction row with
  | zero => rfl
  | succ row ih =>
    have placed : row < view.rows.length := by
      rw [length_rows]
      omega
    have here : view.rows[row] = (view.rowRefs row).flatten := by
      simp only [rows, List.getElem_map, List.getElem_range]
    rw [startOf_succ placed, here,
      length_rowRefs_flatten formed (by omega),
      Nat.mul_div_cancel _ (by decide), ← Nat.add_assoc, ih (by omega)]
    have order := formed.monotone row (by omega)
    omega

/-- The rows hold all references from the first start on. -/
theorem rows_flatten :
    view.rows.flatten =
      view.rawRefs.drop (view.getPackRefStart 0 * oidBytes) := by
  have front : ∀ row, row ≤ view.objectCount →
      ((List.range row).map fun row => (view.rowRefs row).flatten).flatten =
        slice view.rawRefs (view.getPackRefStart 0 * oidBytes)
          ((view.getPackRefStart row - view.getPackRefStart 0) *
            oidBytes) := by
    intro row inside
    induction row with
    | zero =>
      rw [Nat.sub_self, Nat.zero_mul]
      rfl
    | succ row ih =>
      have first := startOf_rows formed (show row ≤ view.objectCount by omega)
      have order := formed.monotone row (by omega)
      rw [List.range_succ, List.map_append, List.flatten_append,
        ih (by omega), List.map_singleton, List.flatten_singleton,
        rowRefs_flatten (by omega)]
      have place : view.getPackRefStart row * oidBytes =
          view.getPackRefStart 0 * oidBytes +
            (view.getPackRefStart row - view.getPackRefStart 0) *
              oidBytes := by
        rw [← Nat.add_mul]
        congr 1
        omega
      rw [place, slice_append_slice, ← Nat.add_mul]
      congr 2
      omega
  unfold rows
  rw [front view.objectCount (le_refl _)]
  unfold slice
  apply List.take_of_length_le
  rw [List.length_drop, ← formed.final, ← Nat.sub_mul]

end Rows

/-- The starts of the rows are written again from a first start of zero. -/
theorem SectionsOf.starts (sections : view.SectionsOf bytes)
    (formed : view.WellFormed) (first : view.getPackRefStart 0 = 0) :
    ((refStartsFrom 0 view.rows).flatMap fun start => bigEndian 4 start) =
      view.refStartsBytes := by
  have sized : view.refStartsBytes.length = (view.objectCount + 1) * 4 := by
    have long := sections.long
    rw [sections.refStarts]
    unfold slice
    rw [List.length_take, List.length_drop]
    omega
  have starts : refStartsFrom 0 view.rows =
      (List.range (view.objectCount + 1)).map view.getPackRefStart := by
    rw [refStartsFrom_eq, length_rows]
    apply List.map_congr_left
    intro row member
    have counted := startOf_rows formed (Nat.lt_succ_iff.mp
      (List.mem_range.mp member))
    rw [first] at counted
    exact counted
  rw [starts, List.flatMap_map]
  exact flatMap_numberAt sized

end PackRefView

/-! ## Canonical files -/

/-- A file with a first start of zero is written again from its view, and its
rows own every reference. -/
theorem parsePackRefView_canonical {packKey : String} {bytes : Bytes}
    {idx : IdxView} {view : PackRefView}
    (accepted : parsePackRefView packKey bytes idx = .ready view)
    (first : view.getPackRefStart 0 = 0) :
    view.reencode = bytes ∧ view.rows.length = view.objectCount ∧
      view.rows.flatten = view.rawRefs := by
  have sections := PackRefView.sectionsOf_of_ready accepted
  have formed := (wellFormed_of_ready accepted).2
  have owned : view.rows.flatten = view.rawRefs := by
    rw [PackRefView.rows_flatten formed, first, Nat.zero_mul, List.drop_zero]
  refine ⟨?_, PackRefView.length_rows, owned⟩
  calc view.reencode
      = slice bytes 0 packRefHeaderBytes ++
          slice bytes packRefHeaderBytes view.objectCount ++
          slice bytes (packRefHeaderBytes + view.objectCount)
            ((view.objectCount + 1) * 4) ++
          bytes.drop (packRefHeaderBytes + view.objectCount +
            (view.objectCount + 1) * 4) := by
        unfold PackRefView.reencode
        rw [sections.header, sections.starts formed first, owned,
          sections.typeCodes, sections.refStarts, sections.rawRefs]
    _ = bytes := by
        rw [List.append_assoc, slice_append_drop, List.append_assoc,
          slice_append_drop]
        have whole := slice_append_drop bytes 0 packRefHeaderBytes
        rw [Nat.zero_add] at whole
        rw [whole, List.drop_zero]

/-! ## Two rows and one reference -/

def twoRowIdx : IdxView where
  packKey := "pack"
  count := 2
  fanout := []
  rawNames := []
  offsets := [12, 40]
  nextOffsetByIndex := [40, 80]
  sortedOffsets := [12, 40]
  sortedOffsetIndices := [0, 1]
  packSize := 100
  packChecksum := List.replicate 20 8
  idxChecksum := List.replicate 20 9

/-- A sidecar of a commit and a tag with these first two starts. -/
def twoRowFile (first second : UInt8) : Bytes :=
  bigEndian 4 packRefMagic ++ bigEndian 4 packRefVersion ++
    [0, 0, 0, 2, 0, 0, 0, 0, 0, 0, 0, 100] ++ List.replicate 20 8 ++
    List.replicate 20 9 ++ [1, 4] ++
    [0, 0, 0, first, 0, 0, 0, second, 0, 0, 0, 1] ++ List.replicate 20 7

def twoRowView (first second : UInt8) : PackRefView where
  packKey := "pack"
  objectCount := 2
  packBytes := 100
  packChecksum := List.replicate 20 8
  idxChecksum := List.replicate 20 9
  typeCodes := [1, 4]
  refStartsBytes := [0, 0, 0, first, 0, 0, 0, second, 0, 0, 0, 1]
  rawRefs := List.replicate 20 7

theorem parsePackRefView_canonical_twoRow :
    (twoRowView 0 1).reencode = twoRowFile 0 1 ∧
      (twoRowView 0 1).rows.flatten = (twoRowView 0 1).rawRefs := by
  have accepted : parsePackRefView "pack" (twoRowFile 0 1) twoRowIdx =
      .ready (twoRowView 0 1) := by
    decide +kernel
  rcases parsePackRefView_canonical accepted (by decide) with
    ⟨same, _, owned⟩
  exact ⟨same, owned⟩

/-- A reference in front of the first row is accepted and not written again;
and a file in which one start is changed, so that the reference belongs to
another row, is accepted as well. -/
theorem not_canonical_twoRow :
    (parsePackRefView "pack" (twoRowFile 1 1) twoRowIdx =
        .ready (twoRowView 1 1) ∧
      (twoRowView 1 1).reencode ≠ twoRowFile 1 1 ∧
      (twoRowView 1 1).rows.flatten ≠ (twoRowView 1 1).rawRefs) ∧
    parsePackRefView "pack" (twoRowFile 0 1) twoRowIdx =
      .ready (twoRowView 0 1) ∧
    parsePackRefView "pack" (twoRowFile 0 0) twoRowIdx =
      .ready (twoRowView 0 0) ∧
    (twoRowView 0 1).rowRefs 0 ≠ (twoRowView 0 0).rowRefs 0 := by
  refine ⟨⟨?_, ?_, ?_⟩, ?_, ?_, ?_⟩
  · decide +kernel
  · decide +kernel
  · decide +kernel
  · decide +kernel
  · decide +kernel
  · decide +kernel

end GitOnCloudflare.Pack
