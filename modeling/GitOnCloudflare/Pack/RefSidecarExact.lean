import GitOnCloudflare.Foundations.CheckedFold
import GitOnCloudflare.Pack.IdxOrder
import GitOnCloudflare.Pack.RefSidecar

/-!
# A sidecar is read back row by row

What the builder writes for a table of resolved objects parses to a view in
which every row has the type and the references of the entry in that index
row.
-/

namespace GitOnCloudflare.Pack

open Foundations.ByteTable

/-- A flat list of references, one by one. -/
def logicalRefs (refs : Bytes) : List Bytes :=
  (List.range (refs.length / oidBytes)).map fun index =>
    slice refs (index * oidBytes) oidBytes

theorem logicalRefs_flatten {ids : List Bytes}
    (sized : ∀ id ∈ ids, id.length = oidBytes) :
    logicalRefs ids.flatten = ids := by
  have total : ids.flatten.length = ids.length * oidBytes := by
    induction ids with
    | nil => rfl
    | cons id ids ih =>
      rw [List.flatten_cons, List.length_append, List.length_cons,
        sized id List.mem_cons_self,
        ih fun other member => sized other (List.mem_cons_of_mem _ member)]
      rw [Nat.succ_mul, Nat.add_comm]
  unfold logicalRefs
  rw [total, Nat.mul_div_cancel _ (by decide)]
  apply List.ext_getElem
  · simp
  · intro index inside within
    rw [List.getElem_map, List.getElem_range]
    have row : slice (ids.flatMap fun id => id) (index * oidBytes) oidBytes =
        ids[index] :=
      slice_rows sized within
    rw [List.flatMap_id'] at row
    exact row

/-- Every entry of a builder holds the references of its object. -/
def PackRefsBuilder.Records {objectCount : Nat}
    (builder : PackRefsBuilder objectCount)
    (objects : Fin objectCount → GitObject) : Prop :=
  ∀ entry, builder.rawRefsByEntry entry =
    some (objectRefBytes (objects entry))

/-- Recording every object, in any order, fills the builder. -/
theorem PackRefsBuilder.records_foldl {objectCount : Nat}
    (objects : Fin objectCount → GitObject)
    {order : List (Fin objectCount)} (all : ∀ entry, entry ∈ order) :
    PackRefsBuilder.Records
      (order.foldl
        (fun builder entry => builder.recordObject entry (objects entry))
        PackRefsBuilder.empty) objects := by
  have go : ∀ (order : List (Fin objectCount))
      (builder : PackRefsBuilder objectCount) (entry : Fin objectCount),
      entry ∈ order ∨
        builder.rawRefsByEntry entry =
          some (objectRefBytes (objects entry)) →
      (order.foldl
        (fun builder entry => builder.recordObject entry (objects entry))
        builder).rawRefsByEntry entry =
          some (objectRefBytes (objects entry)) := by
    intro order
    induction order with
    | nil =>
      rintro builder entry (impossible | recorded)
      · cases impossible
      · exact recorded
    | cons first order ih =>
      intro builder entry held
      rw [List.foldl_cons]
      apply ih
      by_cases same : entry = first
      · subst same
        right
        exact Function.update_self _ _ _
      · rcases held with member | recorded
        · exact .inl ((List.mem_cons.mp member).resolve_left same)
        · right
          show Function.update builder.rawRefsByEntry first _ entry = _
          rw [Function.update_of_ne same]
          exact recorded
  intro entry
  exact go order PackRefsBuilder.empty entry (.inl (all entry))

/-! ## Reference starts -/

/-- The references in the first rows. -/
def startOf (rows : List Bytes) (row : Nat) : Nat :=
  ((rows.take row).map fun refs => refs.length / oidBytes).sum

theorem refStartsFrom_eq (refCount : Nat) (rows : List Bytes) :
    refStartsFrom refCount rows =
      (List.range (rows.length + 1)).map fun row =>
        refCount + startOf rows row := by
  induction rows generalizing refCount with
  | nil => rfl
  | cons refs rows ih =>
    rw [refStartsFrom, ih, List.length_cons,
      List.range_succ_eq_map (n := rows.length + 1), List.map_cons,
      List.map_map]
    congr 1
    apply List.map_congr_left
    intro row _
    show _ = refCount + startOf (refs :: rows) (row + 1)
    unfold startOf
    rw [List.take_succ_cons, List.map_cons, List.sum_cons, Nat.add_assoc]

theorem length_refStartsFrom (refCount : Nat) (rows : List Bytes) :
    (refStartsFrom refCount rows).length = rows.length + 1 := by
  rw [refStartsFrom_eq, List.length_map, List.length_range]

variable {row : Nat}
  {rows : List Bytes}

theorem startOf_succ (inside : row < rows.length) :
    startOf rows (row + 1) =
      startOf rows row + rows[row].length / oidBytes := by
  unfold startOf
  rw [List.take_succ_eq_append_getElem inside, List.map_append,
    List.sum_append]
  rfl

theorem startOf_mono (rows : List Bytes) {first second : Nat}
    (before : first ≤ second) : startOf rows first ≤ startOf rows second := by
  induction second, before using Nat.le_induction with
  | base => exact le_rfl
  | succ second _ ih =>
    apply ih.trans
    by_cases inside : second < rows.length
    · rw [startOf_succ inside]
      exact Nat.le_add_right _ _
    · unfold startOf
      rw [List.take_of_length_le (not_lt.mp inside),
        List.take_of_length_le (by omega)]

/-- Rows of whole references take twenty bytes for each. -/
theorem length_flatten_take (whole : ∀ refs ∈ rows, oidBytes ∣ refs.length)
    (row : Nat) :
    (rows.take row).flatten.length = startOf rows row * oidBytes := by
  unfold startOf
  have sub : ∀ refs ∈ rows.take row, oidBytes ∣ refs.length :=
    fun refs member => whole refs (List.mem_of_mem_take member)
  generalize rows.take row = front at sub ⊢
  induction front with
  | nil => rfl
  | cons refs rows ih =>
    rw [List.flatten_cons, List.length_append, List.map_cons, List.sum_cons,
      ih fun other member => sub other (List.mem_cons_of_mem _ member),
      Nat.add_mul, Nat.div_mul_cancel (sub refs List.mem_cons_self)]

/-- A reference is read back at its place in its row. -/
theorem slice_flatten {rows : List Bytes}
    (whole : ∀ refs ∈ rows, oidBytes ∣ refs.length) {row index : Nat}
    (inside : row < rows.length) (counted : index < rows[row].length / oidBytes) :
    slice rows.flatten ((startOf rows row + index) * oidBytes) oidBytes =
      slice rows[row] (index * oidBytes) oidBytes := by
  have split : rows = rows.take row ++ rows[row] :: rows.drop (row + 1) := by
    rw [List.getElem_cons_drop, List.take_append_drop]
  have placed := length_flatten_take whole row
  have room : index * oidBytes + oidBytes ≤ rows[row].length := by
    have exact_ :=
      Nat.div_mul_cancel (whole rows[row] (List.getElem_mem inside))
    have more := Nat.mul_le_mul_right oidBytes (Nat.succ_le_of_lt counted)
    rw [Nat.succ_mul] at more
    omega
  have read := slice_within (rows.take row).flatten rows[row]
    (rows.drop (row + 1)).flatten placed room
  rw [← Nat.add_mul] at read
  rw [← read]
  congr 1
  conv_lhs => rw [split]
  rw [List.flatten_append, List.flatten_cons, List.append_assoc]

/-! ## The written file -/

namespace PackEntryTable

variable {objectCount : Nat} (table : PackEntryTable objectCount)
  (objects : Fin objectCount → GitObject)

/-- The references of the entries in row order. -/
def refRows : List Bytes :=
  table.buildOidSortedEntryIndices.map fun entry =>
    objectRefBytes (objects entry)

@[simp]
theorem length_refRows : (table.refRows objects).length = objectCount := by
  unfold refRows
  rw [List.length_map, table.length_buildOidSortedEntryIndices]

theorem getElem_refRows (row : Fin objectCount)
    (inside : row.val < (table.refRows objects).length) :
    (table.refRows objects)[row.val] =
      objectRefBytes (objects (table.rowEntry row)) :=
  List.getElem_map fun entry => objectRefBytes (objects entry)

theorem refRows_whole :
    ∀ refs ∈ table.refRows objects, oidBytes ∣ refs.length := by
  intro refs member
  rcases List.mem_map.mp member with ⟨entry, _, rfl⟩
  exact objectRefBytes_length (objects entry)

/-- How many references all objects have. -/
def totalRefs : Nat := startOf (table.refRows objects) objectCount

theorem length_flatten_refRows :
    (table.refRows objects).flatten.length =
      table.totalRefs objects * oidBytes := by
  have whole :=
    length_flatten_take (table.refRows_whole objects) objectCount
  rw [List.take_of_length_le (table.length_refRows objects).le] at whole
  exact whole

def sizeHalves (packBytes : Nat) : Bytes :=
  bigEndian 4 (packBytes / 0x100000000) ++
    bigEndian 4 (packBytes % 0x100000000)

def sidecarHeader (count packBytes : Nat)
    (packChecksum idxChecksum : RawOid) : Bytes :=
  bigEndian 4 packRefMagic ++ bigEndian 4 packRefVersion ++
    bigEndian 4 count ++ sizeHalves packBytes ++ packChecksum.bytes ++
    idxChecksum.bytes

theorem length_sidecarHeader (count packBytes : Nat)
    (packChecksum idxChecksum : RawOid) :
    (sidecarHeader count packBytes packChecksum idxChecksum).length =
      packRefHeaderBytes := by
  unfold sidecarHeader sizeHalves
  simp only [List.length_append, length_bigEndian, RawOid.length_eq]
  rfl

def typeSection : Bytes :=
  table.buildOidSortedEntryIndices.map table.objectTypes

@[simp]
theorem length_typeSection : table.typeSection.length = objectCount := by
  unfold typeSection
  rw [List.length_map, table.length_buildOidSortedEntryIndices]

theorem getElem_typeSection (row : Fin objectCount)
    (inside : row.val < table.typeSection.length) :
    table.typeSection[row.val] =
      table.objectTypes (table.rowEntry row) :=
  List.getElem_map table.objectTypes

def startSection : Bytes :=
  (refStartsFrom 0 (table.refRows objects)).flatMap fun start =>
    bigEndian 4 start

theorem length_startSection :
    (table.startSection objects).length = (objectCount + 1) * 4 := by
  unfold startSection
  rw [length_flatMap_rows fun start _ => length_bigEndian 4 start,
    length_refStartsFrom, table.length_refRows]

section File

variable (packBytes : Nat) (packChecksum idxChecksum : RawOid)

def sidecarFile : Bytes :=
  sidecarHeader objectCount packBytes packChecksum idxChecksum ++
    table.typeSection ++ table.startSection objects ++
    (table.refRows objects).flatten

theorem length_sidecarFile :
    (table.sidecarFile objects packBytes packChecksum idxChecksum).length =
      packRefHeaderBytes + objectCount + (objectCount + 1) * 4 +
        table.totalRefs objects * oidBytes := by
  unfold sidecarFile
  simp only [List.length_append, length_sidecarHeader, length_typeSection,
    length_startSection, length_flatten_refRows]

/-- The builder accepts resolved objects and writes this file. -/
theorem build_eq {builder : PackRefsBuilder objectCount}
    (recorded : builder.Records objects)
    (typed : ∀ entry, table.objectTypes entry = (objects entry).type.typeCode)
    (safe : packBytes ≤ maxSafeInteger) :
    builder.build table packBytes packChecksum idxChecksum =
      .ok ⟨table.sidecarFile objects packBytes packChecksum idxChecksum,
        objectCount, table.totalRefs objects,
        (table.sidecarFile objects packBytes packChecksum
          idxChecksum).length⟩ := by
  have rows :
      table.buildOidSortedEntryIndices.mapM (builder.checkedRefs table) =
        .ok (table.refRows objects) := by
    apply Foundations.CheckedFold.mapM_eq_ok
    intro entry _
    have whole := Nat.mod_eq_zero_of_dvd (objectRefBytes_length (objects entry))
    unfold PackRefsBuilder.checkedRefs
    rw [typed entry, typeCodeToObjectType_typeCode, recorded entry]
    simp only
    rw [if_neg (not_not.mpr whole)]
  have size : writeUint64 (packBytes : Int) = .ok (sizeHalves packBytes) := by
    unfold writeUint64
    rw [if_neg (by omega), Int.toNat_natCast]
    rfl
  have total :
      ((table.refRows objects).map fun refs => refs.length / oidBytes).sum =
        table.totalRefs objects := by
    unfold totalRefs startOf
    rw [List.take_of_length_le (table.length_refRows objects).le]
  unfold PackRefsBuilder.build
  apply Foundations.CheckedFold.bind_eq_ok.mpr
  refine ⟨_, rows, ?_⟩
  apply Foundations.CheckedFold.bind_eq_ok.mpr
  refine ⟨_, size, ?_⟩
  rw [total]
  rfl

/-! ### Reading the header -/

variable {position : Nat} {before after : Bytes}

theorem numberAt_header {value : Nat}
    (header :
      sidecarHeader objectCount packBytes packChecksum idxChecksum =
        before ++ bigEndian 4 value ++ after)
    (placed : before.length = position) (fits : value < 2 ^ 32) :
    numberAt 4
        (table.sidecarFile objects packBytes packChecksum idxChecksum)
        position = value := by
  have read := @numberAt_middle before 4 value
    (after ++ table.typeSection ++ table.startSection objects ++
      (table.refRows objects).flatten) position placed fits
  unfold sidecarFile
  rw [header]
  simpa only [List.append_assoc] using read

theorem slice_header {part : Bytes} {length : Nat}
    (header :
      sidecarHeader objectCount packBytes packChecksum idxChecksum =
        before ++ part ++ after) (placed : before.length = position)
    (sized : part.length = length) :
    slice (table.sidecarFile objects packBytes packChecksum idxChecksum)
        position length = part := by
  have read := slice_middle before part
    (after ++ table.typeSection ++ table.startSection objects ++
      (table.refRows objects).flatten) placed sized
  unfold sidecarFile
  rw [header]
  simpa only [List.append_assoc] using read

theorem header_magic :
    sidecarHeader objectCount packBytes packChecksum idxChecksum =
      [] ++ bigEndian 4 packRefMagic ++
        (bigEndian 4 packRefVersion ++ bigEndian 4 objectCount ++
          sizeHalves packBytes ++ packChecksum.bytes ++
          idxChecksum.bytes) := by
  simp only [sidecarHeader, List.append_assoc, List.nil_append]

theorem header_version :
    sidecarHeader objectCount packBytes packChecksum idxChecksum =
      bigEndian 4 packRefMagic ++ bigEndian 4 packRefVersion ++
        (bigEndian 4 objectCount ++ sizeHalves packBytes ++
          packChecksum.bytes ++ idxChecksum.bytes) := by
  simp only [sidecarHeader, List.append_assoc]

theorem header_count :
    sidecarHeader objectCount packBytes packChecksum idxChecksum =
      (bigEndian 4 packRefMagic ++ bigEndian 4 packRefVersion) ++
        bigEndian 4 objectCount ++
        (sizeHalves packBytes ++ packChecksum.bytes ++
          idxChecksum.bytes) := by
  simp only [sidecarHeader, List.append_assoc]

theorem header_high :
    sidecarHeader objectCount packBytes packChecksum idxChecksum =
      (bigEndian 4 packRefMagic ++ bigEndian 4 packRefVersion ++
        bigEndian 4 objectCount) ++
        bigEndian 4 (packBytes / 0x100000000) ++
        (bigEndian 4 (packBytes % 0x100000000) ++ packChecksum.bytes ++
          idxChecksum.bytes) := by
  simp only [sidecarHeader, sizeHalves, List.append_assoc]

theorem header_low :
    sidecarHeader objectCount packBytes packChecksum idxChecksum =
      (bigEndian 4 packRefMagic ++ bigEndian 4 packRefVersion ++
        bigEndian 4 objectCount ++
        bigEndian 4 (packBytes / 0x100000000)) ++
        bigEndian 4 (packBytes % 0x100000000) ++
        (packChecksum.bytes ++ idxChecksum.bytes) := by
  simp only [sidecarHeader, sizeHalves, List.append_assoc]

theorem header_packChecksum :
    sidecarHeader objectCount packBytes packChecksum idxChecksum =
      (bigEndian 4 packRefMagic ++ bigEndian 4 packRefVersion ++
        bigEndian 4 objectCount ++ sizeHalves packBytes) ++
        packChecksum.bytes ++ idxChecksum.bytes := by
  simp only [sidecarHeader, List.append_assoc]

theorem header_idxChecksum :
    sidecarHeader objectCount packBytes packChecksum idxChecksum =
      (bigEndian 4 packRefMagic ++ bigEndian 4 packRefVersion ++
        bigEndian 4 objectCount ++ sizeHalves packBytes ++
        packChecksum.bytes) ++ idxChecksum.bytes ++ [] := by
  simp only [sidecarHeader, List.append_assoc, List.append_nil]

theorem readUint64_sidecarFile (safe : packBytes ≤ maxSafeInteger) :
    readUint64
        (table.sidecarFile objects packBytes packChecksum idxChecksum) 12 =
      .ok packBytes := by
  have small : maxSafeInteger < 2 ^ 53 := by decide
  have high :
      numberAt 4
          (table.sidecarFile objects packBytes packChecksum idxChecksum)
          12 = packBytes / 0x100000000 :=
    table.numberAt_header objects packBytes packChecksum idxChecksum
      (header_high packBytes packChecksum idxChecksum) rfl (by omega)
  have low :
      numberAt 4
          (table.sidecarFile objects packBytes packChecksum idxChecksum)
          (12 + 4) = packBytes % 0x100000000 :=
    table.numberAt_header objects packBytes packChecksum idxChecksum
      (header_low packBytes packChecksum idxChecksum) rfl
      (Nat.mod_lt _ (by decide))
  unfold readUint64
  simp only [high, low]
  rw [Nat.mul_comm, Nat.div_add_mod, if_neg (by omega)]

/-! ### Reading the sections -/

theorem slice_typeSection :
    slice (table.sidecarFile objects packBytes packChecksum idxChecksum) packRefHeaderBytes
      objectCount = table.typeSection := by
  have read := slice_middle
    (sidecarHeader objectCount packBytes packChecksum idxChecksum)
    table.typeSection
    (table.startSection objects ++ (table.refRows objects).flatten)
    (length_sidecarHeader _ _ _ _) table.length_typeSection
  unfold sidecarFile
  simpa only [List.append_assoc] using read

theorem slice_startSection :
    slice (table.sidecarFile objects packBytes packChecksum idxChecksum)
      (packRefHeaderBytes + objectCount) ((objectCount + 1) * 4) =
        table.startSection objects := by
  have placed :
      (sidecarHeader objectCount packBytes packChecksum idxChecksum ++
        table.typeSection).length = packRefHeaderBytes + objectCount := by
    rw [List.length_append, length_sidecarHeader, table.length_typeSection]
  exact slice_middle _ _ _ placed (table.length_startSection objects)

theorem drop_refSection :
    (table.sidecarFile objects packBytes packChecksum idxChecksum).drop
      (packRefHeaderBytes + objectCount + (objectCount + 1) * 4) =
        (table.refRows objects).flatten := by
  have placed :
      (sidecarHeader objectCount packBytes packChecksum idxChecksum ++
        table.typeSection ++ table.startSection objects).length =
          packRefHeaderBytes + objectCount + (objectCount + 1) * 4 := by
    rw [List.length_append, List.length_append, length_sidecarHeader,
      table.length_typeSection, length_startSection]
  unfold sidecarFile
  rw [← placed, List.drop_left]

theorem startOf_le_totalRefs (inside : row ≤ objectCount) :
    startOf (table.refRows objects) row ≤ table.totalRefs objects :=
  startOf_mono _ inside

theorem numberAt_startSection (few : table.totalRefs objects < 2 ^ 32)
    (inside : row ≤ objectCount) :
    numberAt 4 (table.startSection objects) (row * 4) =
      startOf (table.refRows objects) row := by
  have bound : row < (refStartsFrom 0 (table.refRows objects)).length := by
    rw [length_refStartsFrom, table.length_refRows]
    omega
  have start : (refStartsFrom 0 (table.refRows objects))[row] =
      startOf (table.refRows objects) row := by
    simp only [refStartsFrom_eq, List.getElem_map, List.getElem_range,
      Nat.zero_add]
  have fits : (refStartsFrom 0 (table.refRows objects))[row] < 256 ^ 4 := by
    rw [start]
    exact (table.startOf_le_totalRefs objects inside).trans_lt few
  have read := @numberAt_table 4 (refStartsFrom 0 (table.refRows objects))
    [] [] 0 row rfl bound fits
  rw [List.nil_append, List.append_nil, Nat.zero_add, start] at read
  exact read

theorem numberAt_start (few : table.totalRefs objects < 2 ^ 32)
    (inside : row ≤ objectCount) :
    numberAt 4
        (table.sidecarFile objects packBytes packChecksum idxChecksum)
        (packRefHeaderBytes + objectCount + row * 4) =
      startOf (table.refRows objects) row := by
  rw [← table.numberAt_startSection objects few inside,
    ← table.slice_startSection objects packBytes packChecksum idxChecksum]
  unfold numberAt
  rw [slice_slice]
  omega

/-! ### The parsed view -/

def sidecarView (packKey : String) : PackRefView where
  packKey := packKey
  objectCount := objectCount
  packBytes := packBytes
  packChecksum := packChecksum.bytes
  idxChecksum := idxChecksum.bytes
  typeCodes := table.typeSection
  refStartsBytes := table.startSection objects
  rawRefs := (table.refRows objects).flatten

/-- The parser accepts what the builder wrote. -/
theorem parsePackRefView_sidecarFile (packKey : String) {idx : IdxView}
    (fewObjects : objectCount < 2 ^ 32) (few : table.totalRefs objects < 2 ^ 32)
    (typed : ∀ entry, table.objectTypes entry = (objects entry).type.typeCode)
    (safe : packBytes ≤ maxSafeInteger) (count : idx.count = objectCount)
    (size : idx.packSize = packBytes)
    (packSum : idx.packChecksum = packChecksum.bytes)
    (idxSum : idx.idxChecksum = idxChecksum.bytes) :
    parsePackRefView packKey
        (table.sidecarFile objects packBytes packChecksum idxChecksum) idx =
      .ready
        (table.sidecarView objects packBytes packChecksum idxChecksum
          packKey) := by
  have length :=
    table.length_sidecarFile objects packBytes packChecksum idxChecksum
  have magic :
      numberAt 4
          (table.sidecarFile objects packBytes packChecksum idxChecksum)
          0 = packRefMagic :=
    table.numberAt_header objects packBytes packChecksum idxChecksum
      (header_magic packBytes packChecksum idxChecksum) rfl (by decide)
  have version :
      numberAt 4
          (table.sidecarFile objects packBytes packChecksum idxChecksum)
          4 = packRefVersion :=
    table.numberAt_header objects packBytes packChecksum idxChecksum
      (header_version packBytes packChecksum idxChecksum) rfl (by decide)
  have number :
      numberAt 4
          (table.sidecarFile objects packBytes packChecksum idxChecksum)
          8 = objectCount :=
    table.numberAt_header objects packBytes packChecksum idxChecksum
      (header_count packBytes packChecksum idxChecksum) rfl fewObjects
  have packSlice :
      slice (table.sidecarFile objects packBytes packChecksum idxChecksum)
        20 20 = packChecksum.bytes :=
    table.slice_header objects packBytes packChecksum idxChecksum
      (header_packChecksum packBytes packChecksum idxChecksum) rfl
      packChecksum.length_eq
  have idxPlaced :
      (bigEndian 4 packRefMagic ++ bigEndian 4 packRefVersion ++
        bigEndian 4 objectCount ++ sizeHalves packBytes ++
        packChecksum.bytes).length = 40 := by
    unfold sizeHalves
    simp only [List.length_append, length_bigEndian, RawOid.length_eq]
  have idxSlice :
      slice (table.sidecarFile objects packBytes packChecksum idxChecksum)
        40 20 = idxChecksum.bytes :=
    table.slice_header objects packBytes packChecksum idxChecksum
      (header_idxChecksum packBytes packChecksum idxChecksum) idxPlaced
      idxChecksum.length_eq
  have codes :
      ¬ (table.typeSection.any fun code =>
        (typeCodeToObjectType code).isNone) = true := by
    rw [List.any_eq_true]
    rintro ⟨code, member, invalid⟩
    rcases List.mem_map.mp member with ⟨entry, _, rfl⟩
    rw [typed entry, typeCodeToObjectType_typeCode] at invalid
    cases invalid
  have monotone :
      ¬ ((List.range objectCount).any fun index =>
        decide
          (numberAt 4
              (table.sidecarFile objects packBytes packChecksum
                idxChecksum) (packRefHeaderBytes + objectCount + (index + 1) * 4) <
            numberAt 4
              (table.sidecarFile objects packBytes packChecksum
                idxChecksum) (packRefHeaderBytes + objectCount + index * 4))) = true := by
    rw [List.any_eq_true]
    rintro ⟨index, member, less⟩
    have inside := List.mem_range.mp member
    have decreasing := of_decide_eq_true less
    rw [table.numberAt_start objects packBytes packChecksum idxChecksum few
        (by omega : index + 1 ≤ objectCount),
      table.numberAt_start objects packBytes packChecksum idxChecksum few
        inside.le] at decreasing
    have ordered :=
      startOf_mono (table.refRows objects) (Nat.le_add_right index 1)
    omega
  have final :
      numberAt 4 (table.startSection objects) (objectCount * 4) =
        table.totalRefs objects :=
    table.numberAt_startSection objects few (le_refl objectCount)
  have refsLength := table.length_flatten_refRows objects
  unfold parsePackRefView
  rw [if_neg (by rw [length]; omega), magic,
    if_neg (not_not.mpr rfl), version, if_neg (not_not.mpr rfl)]
  simp only [number]
  rw [if_neg (not_not.mpr count.symm),
    table.readUint64_sidecarFile objects packBytes packChecksum idxChecksum
      safe]
  simp only
  rw [if_neg (not_not.mpr size.symm)]
  unfold parsePackRefSections
  simp only [packSlice, idxSlice, packSum, idxSum, ne_eq,
    not_true_eq_false, if_false]
  rw [if_neg (by rw [length]; omega), slice_typeSection, if_neg codes,
    if_neg (by rw [length]; omega), if_neg monotone, slice_startSection,
    drop_refSection, final, refsLength]
  rw [if_neg (not_not.mpr rfl)]
  rfl

end File

end PackEntryTable

end GitOnCloudflare.Pack
