import GitOnCloudflare.Container.ReferencesAgree
import GitOnCloudflare.Pack.RefSidecarRows
import GitOnCloudflare.Planner.Boundary

/-!
# The two builders of the reference sidecar

The file that the container writes for an indexed pack is the file that the
worker's builder writes for the same rows, as long as both scanners list the
same references of every object.
-/

namespace GitOnCloudflare.Container

open Foundations
open Foundations.ByteTable
open Pack
open Planner

/-! ## Ids of twenty bytes -/

variable {payload id refs : Bytes}

theorem mem_parseTagReferences (member : id ∈ parseTagReferences payload) :
    id.length = oidBytes := by
  rw [parseTagReferences_eq, Option.mem_toList] at member
  split at member
  · rcases Option.bind_eq_some_iff.mp member with ⟨line, _, read⟩
    exact hexOidAfter_length read
  · cases member

theorem mem_parseCommitReferences (member : id ∈ parseCommitReferences payload) :
    id.length = oidBytes := by
  rcases List.mem_flatMap.mp member with ⟨line, _, found⟩
  rw [prefixedObjectIDs_eq] at found
  rcases List.mem_filterMap.mp found with ⟨linePrefix, _, read⟩
  exact hexOidAfter_length read

theorem logicalReferences_sized {object : GitObject} {typeCode : UInt8}
    {refs : List Bytes}
    (listed : logicalReferences object = .ok (typeCode, refs)) :
    ∀ id ∈ refs, id.length = oidBytes := by
  cases object with
  | mk type payload =>
    cases type with
    | commit =>
      cases listed
      exact fun id member => mem_parseCommitReferences member
    | tree =>
      unfold logicalReferences at listed
      dsimp only at listed
      cases read : parseTreeReferences payload with
      | error failure =>
        rw [read] at listed
        cases listed
      | ok found =>
        rw [read] at listed
        cases listed
        exact (readTreeEntries_eq read).2
    | blob =>
      cases listed
      exact fun id member => absurd member List.not_mem_nil
    | tag =>
      cases listed
      exact fun id member => mem_parseTagReferences member

theorem length_flatten_ids {ids : List Bytes}
    (sized : ∀ id ∈ ids, id.length = oidBytes) :
    ids.flatten.length / oidBytes = ids.length := by
  have total : ids.flatten.length = ids.length * oidBytes := by
    rw [← List.flatMap_id']
    exact length_flatMap_rows sized
  rw [total, Nat.mul_div_cancel _ (by decide)]

theorem exists_ids {count : Nat} (whole : refs.length = count * oidBytes) :
    ∃ ids : List Bytes, (∀ id ∈ ids, id.length = oidBytes) ∧
      ids.flatten = refs := by
  induction count generalizing refs with
  | zero =>
    rw [Nat.zero_mul] at whole
    exact ⟨[], nofun, (List.eq_nil_of_length_eq_zero whole).symm⟩
  | succ count ih =>
    rw [Nat.succ_mul] at whole
    have rest : (refs.drop oidBytes).length = count * oidBytes := by
      rw [List.length_drop, whole, Nat.add_sub_cancel]
    rcases ih rest with ⟨ids, sized, same⟩
    refine ⟨refs.take oidBytes :: ids, ?_, ?_⟩
    · intro id member
      rcases List.mem_cons.mp member with rfl | member
      · rw [List.length_take]
        omega
      · exact sized id member
    · rw [List.flatten_cons, same, List.take_append_drop]

theorem flatten_logicalRefs (whole : oidBytes ∣ refs.length) :
    (logicalRefs refs).flatten = refs := by
  rcases exists_ids (Nat.div_mul_cancel whole).symm with ⟨ids, sized, rfl⟩
  rw [logicalRefs_flatten sized]

/-! ## Rows -/

section Rows

variable {objectCount : Nat} (table : PackEntryTable objectCount)
  (objects : Fin objectCount → GitObject)

/-- What the container lists for an object. -/
def listedReferences (object : GitObject) : List Bytes :=
  match logicalReferences object with
  | .error _ => []
  | .ok (_, refs) => refs

/-- The parts of the file behind its header. -/
structure StreamedRows (entries : List (Fin objectCount)) (refCount : Nat)
    (metadata : ObjectMetadata) : Prop where
  listed : ∀ entry ∈ entries, ∃ typeCode,
    logicalReferences (objects entry) =
      .ok (typeCode, listedReferences (objects entry))
  typeCodes : metadata.typeCodes =
    entries.map fun entry => (objects entry).type.typeCode
  refStarts : metadata.refStarts.flatMap (bigEndian 4) =
    (refStartsFrom refCount (entries.map fun entry =>
      (listedReferences (objects entry)).flatten)).flatMap (bigEndian 4)
  refs : metadata.refs =
    entries.flatMap fun entry => listedReferences (objects entry)

theorem streamObjectMetadata_rows {catFile : Bytes → Option GitObject}
    (stored : ∀ entry, catFile (table.oids entry).bytes = some (objects entry))
    (entries : List (Fin objectCount)) (refCount : Nat)
    {metadata : ObjectMetadata}
    (streamed : streamObjectMetadata catFile (refCount % 2 ^ 32)
      (entries.map fun entry => (table.oids entry).bytes) = .ok metadata) :
    StreamedRows objects entries refCount metadata := by
  have wrapped : ∀ count, bigEndian 4 (count % 2 ^ 32) = bigEndian 4 count :=
    bigEndian_mod 4
  induction entries generalizing refCount metadata with
  | nil =>
    cases streamed
    refine ⟨nofun, rfl, ?_, rfl⟩
    show bigEndian 4 (refCount % 2 ^ 32) ++ [] = bigEndian 4 refCount ++ []
    rw [wrapped]
  | cons entry entries ih =>
    rw [List.map_cons, streamObjectMetadata, stored entry] at streamed
    dsimp only at streamed
    split at streamed
    · cases streamed
    · split at streamed
      · cases streamed
      · next typeCode refs read =>
        have same : listedReferences (objects entry) = refs := by
          unfold listedReferences
          rw [read]
        rw [Nat.mod_add_mod] at streamed
        split at streamed
        · cases streamed
        · next later rest =>
          cases streamed
          rcases ih (refCount + refs.length) rest with
            ⟨listed, typeCodes, refStarts, allRefs⟩
          have counted := length_flatten_ids (logicalReferences_sized read)
          refine ⟨?_, ?_, ?_, ?_⟩
          · intro other member
            rcases List.mem_cons.mp member with rfl | member
            · rw [same]
              exact ⟨typeCode, read⟩
            · exact listed other member
          · rw [List.map_cons, ← typeCodes,
              (logicalReferences_agree read).1]
          · rw [List.map_cons, refStartsFrom, List.flatMap_cons,
              List.flatMap_cons, wrapped, same, counted, ← refStarts]
          · rw [List.flatMap_cons, ← allRefs, same]

end Rows

/-! ## Files -/

section Files

variable {objectCount : Nat} {table : PackEntryTable objectCount}
  {objects : Fin objectCount → GitObject} {sha1 : Bytes → RawOid}
  {catFile : Bytes → Option GitObject} {packSize : Nat}
  {idxBytes : Bytes} {index : ParsedIndex}
  {packChecksum idxChecksum : RawOid}

/-- An index file lists the entries of a table in row order, and git answers
for their ids with the objects that the table was built from. -/
structure SameRows (table : PackEntryTable objectCount)
    (objects : Fin objectCount → GitObject)
    (catFile : Bytes → Option GitObject) (index : ParsedIndex)
    (packChecksum idxChecksum : RawOid) : Prop where
  oids : index.oids = table.buildOidSortedEntryIndices.map
    fun entry => (table.oids entry).bytes
  packChecksum : index.packChecksum = packChecksum.bytes
  idxChecksum : index.idxChecksum = idxChecksum.bytes
  stored : ∀ entry, catFile (table.oids entry).bytes = some (objects entry)
  typed : ∀ entry, table.objectTypes entry = (objects entry).type.typeCode

/-- The copies of an object, as the container and the worker record them. -/
def containerNode (object : GitObject) : PlannerNode :=
  ⟨(listedReferences object).map bytesToHex, object.type⟩

def workerNode (object : GitObject) : PlannerNode :=
  ⟨(logicalRefs (objectRefBytes object)).map bytesToHex, object.type⟩

theorem mismatches_iff (object : GitObject) :
    (workerNode object).mismatches (containerNode object) = false ↔
      listedReferences object = logicalRefs (objectRefBytes object) := by
  unfold PlannerNode.mismatches workerNode containerNode
  rw [Bool.or_eq_false_iff, decide_eq_false_iff_not, decide_eq_false_iff_not,
    not_not, not_not]
  constructor
  · rintro ⟨_, same⟩
    exact (List.map_injective_iff.mpr
      (fun _ _ => Fetch.bytesToHex_inj) same).symm
  · intro same
    exact ⟨rfl, congrArg (List.map bytesToHex) same.symm⟩

theorem writePackRefHeader_eq (rows : SameRows table objects catFile index
    packChecksum idxChecksum) :
    writePackRefHeader index.oids.length packSize index.packChecksum
        index.idxChecksum =
      PackEntryTable.sidecarHeader objectCount packSize packChecksum
        idxChecksum := by
  have count : index.oids.length = objectCount := by
    rw [rows.oids, List.length_map, table.length_buildOidSortedEntryIndices]
  have halves : bigEndian 8 packSize = PackEntryTable.sizeHalves packSize := by
    have low : bigEndian 4 (packSize % 0x100000000) = bigEndian 4 packSize :=
      bigEndian_mod 4 packSize
    unfold PackEntryTable.sizeHalves
    rw [low]
    exact bigEndian_add 4 4 packSize
  unfold writePackRefHeader PackEntryTable.sidecarHeader
  rw [count, rows.packChecksum, rows.idxChecksum, halves]

/-- The container's file and the worker's file, and every pair of copies of an
object, agree exactly when the pack size is a safe integer and both scanners
read every object alike. -/
theorem buildPackReferenceIndex_agrees {builder : PackRefsBuilder objectCount}
    {written : BuiltReferenceIndex}
    (built : buildPackReferenceIndex sha1 catFile packSize idxBytes =
      .ok written) (parsed : parseIndex sha1 idxBytes = .ok index)
    (rows : SameRows table objects catFile index packChecksum idxChecksum)
    (recorded : builder.Records objects) :
    ((∃ result, builder.build table packSize packChecksum idxChecksum =
          .ok result ∧ result.bytes = written.bytes) ∧
        ∀ entry,
          (∃ typeCode, logicalReferences (objects entry) =
              .ok (typeCode, logicalRefs (objectRefBytes (objects entry)))) ∧
            (workerNode (objects entry)).mismatches
              (containerNode (objects entry)) = false) ↔
      packSize ≤ maxSafeInteger ∧ ∀ entry, ReadInOrder (objects entry) := by
  have bytes : ∃ metadata, StreamedRows objects
      table.buildOidSortedEntryIndices 0 metadata ∧
        written.bytes =
          PackEntryTable.sidecarHeader objectCount packSize packChecksum
              idxChecksum ++ metadata.typeCodes ++
            metadata.refStarts.flatMap (bigEndian 4) ++
            metadata.refs.flatten := by
    unfold buildPackReferenceIndex at built
    rw [parsed] at built
    dsimp only at built
    split at built
    · cases built
    · next metadata streamed =>
      split at built
      · cases built
      · cases built
        refine ⟨metadata, ?_, ?_⟩
        · rw [rows.oids] at streamed
          exact streamObjectMetadata_rows table objects rows.stored _ 0
            streamed
        · dsimp only
          rw [writePackRefHeader_eq rows]
  rcases bytes with ⟨metadata, streamed, file⟩
  have entries : ∀ entry, ∃ typeCode, logicalReferences (objects entry) =
      .ok (typeCode, listedReferences (objects entry)) := fun entry =>
    streamed.listed entry (List.mem_mergeSort.mpr (List.mem_finRange entry))
  constructor
  · rintro ⟨⟨result, accepted, _⟩, same⟩
    constructor
    · have size := PackRefsBuilder.size_of_build accepted
      omega
    · intro entry
      rcases same entry with ⟨⟨typeCode, listed⟩, _⟩
      exact (logicalReferences_agree listed).2.mp rfl
  · rintro ⟨safe, alike⟩
    have lists : ∀ entry, listedReferences (objects entry) =
        logicalRefs (objectRefBytes (objects entry)) := by
      intro entry
      rcases entries entry with ⟨typeCode, listed⟩
      exact (logicalReferences_agree listed).2.mpr (alike entry)
    have flat : ∀ entry, (listedReferences (objects entry)).flatten =
        objectRefBytes (objects entry) := by
      intro entry
      rw [lists entry]
      exact flatten_logicalRefs (objectRefBytes_length (objects entry))
    constructor
    · refine ⟨_, table.build_eq objects packSize packChecksum idxChecksum
        recorded rows.typed safe, ?_⟩
      dsimp only
      rw [file, streamed.typeCodes, streamed.refStarts, streamed.refs]
      unfold PackEntryTable.sidecarFile PackEntryTable.typeSection
        PackEntryTable.startSection PackEntryTable.refRows
      have refs : (table.buildOidSortedEntryIndices.flatMap fun entry =>
          listedReferences (objects entry)).flatten =
            (table.buildOidSortedEntryIndices.map fun entry =>
              objectRefBytes (objects entry)).flatten := by
        rw [List.flatMap_def, List.flatten_flatten, List.map_map]
        simp only [Function.comp_def, flat]
      have types : table.buildOidSortedEntryIndices.map table.objectTypes =
          table.buildOidSortedEntryIndices.map fun entry =>
            (objects entry).type.typeCode :=
        List.map_congr_left fun entry _ => rows.typed entry
      rw [refs, types]
      simp only [flat]
    · intro entry
      rcases entries entry with ⟨typeCode, listed⟩
      rw [lists entry] at listed
      exact ⟨⟨typeCode, listed⟩, (mismatches_iff _).mpr (lists entry)⟩

end Files

/-! ## One object -/

section Lone

/-- The table of a pack that holds one object. -/
def loneObjectTable (object : GitObject) : PackEntryTable 1 where
  offsets := fun _ => 12
  objectTypes := fun _ => object.type.typeCode
  crc32s := fun _ => 0
  oids := fun _ => twentyBytes 7

/-- The index that git writes for it. -/
def loneObjectIndex : Bytes :=
  idxMagic ++ bigEndian 4 2 ++
    (List.replicate 7 0 ++ List.replicate 249 1).flatMap (bigEndian 4) ++
    (twentyBytes 7).bytes ++ bigEndian 4 0 ++ bigEndian 4 12 ++
    (twentyBytes 1).bytes ++ (twentyBytes 2).bytes

def loneParsedIndex : ParsedIndex :=
  ⟨[(twentyBytes 7).bytes], (twentyBytes 1).bytes, (twentyBytes 2).bytes⟩

def loneCatFile (object : GitObject) (oid : Bytes) : Option GitObject :=
  if oid = (twentyBytes 7).bytes then some object else none

theorem parseIndex_lone :
    parseIndex (fun _ => twentyBytes 2) loneObjectIndex =
      .ok loneParsedIndex := by
  decide +kernel

theorem lone_rows (object : GitObject) :
    SameRows (loneObjectTable object) (fun _ => object) (loneCatFile object)
      loneParsedIndex (twentyBytes 1) (twentyBytes 2) where
  oids := by
    have order : (loneObjectTable object).buildOidSortedEntryIndices =
        [0] := by
      unfold PackEntryTable.buildOidSortedEntryIndices
      rw [List.finRange_succ, List.finRange_zero, List.map_nil,
        List.mergeSort_singleton]
    rw [order]
    rfl
  packChecksum := rfl
  idxChecksum := rfl
  stored := fun _ => if_pos rfl
  typed := fun _ => rfl

/-- A commit with a tree, a parent and a message. -/
def plainCommit : GitObject where
  type := .commit
  payload :=
    treeLinePrefix ++ List.replicate 40 0x61 ++ [0x0a] ++ parentLinePrefix ++
      List.replicate 40 0x62 ++ [0x0a, 0x0a, 0x6d]

theorem buildPackReferenceIndex_agrees_plainCommit :
    ∃ written builder, buildPackReferenceIndex (fun _ => twentyBytes 2)
        (loneCatFile plainCommit) 100 loneObjectIndex = .ok written ∧
      ∃ result, PackRefsBuilder.build builder (loneObjectTable plainCommit)
          (100 : Nat) (twentyBytes 1) (twentyBytes 2) = .ok result ∧
        result.bytes = written.bytes := by
  have recorded := PackRefsBuilder.records_foldl (fun _ => plainCommit)
    (@List.mem_finRange 1)
  have ordered : CommitInOrder plainCommit.payload :=
    (commitReferences_agree _).mp (by decide +kernel)
  cases built : buildPackReferenceIndex (fun _ => twentyBytes 2)
      (loneCatFile plainCommit) 100 loneObjectIndex with
  | error failure =>
    have accepted : (match buildPackReferenceIndex (fun _ => twentyBytes 2)
        (loneCatFile plainCommit) 100 loneObjectIndex with
      | .ok _ => true
      | .error _ => false) = true := by
      decide +kernel
    rw [built] at accepted
    cases accepted
  | ok written =>
    have agree := (buildPackReferenceIndex_agrees built parseIndex_lone
      (lone_rows plainCommit) recorded).mpr ⟨by decide, fun _ => ordered⟩
    exact ⟨written, _, rfl, agree.1⟩

/-- A tag whose lines end with a carriage return and a line feed. -/
def returnedTag : GitObject where
  type := .tag
  payload :=
    objectLinePrefix ++ List.replicate 40 0x61 ++ [0x0d, 0x0a] ++
      typeLinePrefix ++ [0x63, 0x6f, 0x6d, 0x6d, 0x69, 0x74, 0x0d, 0x0a]

/-- A commit that names two trees. -/
def twoTrees : GitObject where
  type := .commit
  payload :=
    treeLinePrefix ++ List.replicate 40 0x61 ++ [0x0a] ++ treeLinePrefix ++
      List.replicate 40 0x62 ++ [0x0a, 0x0a]

theorem not_agree_returned_or_twice :
    (∃ written builder result,
        PackRefsBuilder.Records builder (fun _ => returnedTag) ∧
        buildPackReferenceIndex (fun _ => twentyBytes 2)
            (loneCatFile returnedTag) 100 loneObjectIndex = .ok written ∧
          PackRefsBuilder.build builder (loneObjectTable returnedTag)
              (100 : Nat) (twentyBytes 1) (twentyBytes 2) = .ok result ∧
          result.bytes ≠ written.bytes) ∧
      logicalReferences returnedTag = .ok (4, []) ∧
      (workerNode returnedTag).mismatches (containerNode returnedTag) =
        true ∧
      (workerNode twoTrees).mismatches (containerNode twoTrees) = true := by
  have tagLists : listedReferences returnedTag = [] := by
    decide +kernel
  have tagRecords : logicalRefs (objectRefBytes returnedTag) =
      [List.replicate 20 0xaa] := by
    decide +kernel
  have treesList : listedReferences twoTrees =
      [List.replicate 20 0xaa, List.replicate 20 0xbb] := by
    decide +kernel
  have treesRecords : logicalRefs (objectRefBytes twoTrees) =
      [List.replicate 20 0xaa] := by
    decide +kernel
  refine ⟨?_, by decide +kernel, ?_, ?_⟩
  · have recorded := PackRefsBuilder.records_foldl (fun _ => returnedTag)
      (@List.mem_finRange 1)
    have accepted := (loneObjectTable returnedTag).build_eq
      (fun _ => returnedTag) 100 (twentyBytes 1) (twentyBytes 2) recorded
      (fun _ => rfl) (by decide)
    have short : (match buildPackReferenceIndex (fun _ => twentyBytes 2)
        (loneCatFile returnedTag) 100 loneObjectIndex with
      | .ok written => written.bytes.length
      | .error _ => 0) = 69 := by
      decide +kernel
    cases built : buildPackReferenceIndex (fun _ => twentyBytes 2)
        (loneCatFile returnedTag) 100 loneObjectIndex with
    | error failure =>
      rw [built] at short
      cases short
    | ok written =>
      rw [built] at short
      refine ⟨written, _, _, recorded, rfl, accepted, ?_⟩
      intro same
      have lengths := congrArg List.length same
      dsimp only at lengths short
      rw [PackEntryTable.length_sidecarFile, short] at lengths
      unfold PackEntryTable.totalRefs PackEntryTable.refRows at lengths
      have order : (loneObjectTable returnedTag).buildOidSortedEntryIndices =
          [0] := by
        unfold PackEntryTable.buildOidSortedEntryIndices
        rw [List.finRange_succ, List.finRange_zero, List.map_nil,
          List.mergeSort_singleton]
      have count : startOf [objectRefBytes returnedTag] 1 = 1 := by
        decide +kernel
      rw [order, List.map_singleton, count] at lengths
      cases lengths
  · rw [← Bool.not_eq_false, mismatches_iff, tagLists, tagRecords]
    decide
  · rw [← Bool.not_eq_false, mismatches_iff, treesList, treesRecords]
    decide

end Lone

end GitOnCloudflare.Container
