import GitOnCloudflare.Pack.IdxRoundTrip
import GitOnCloudflare.Pack.RefSidecarExact
import GitOnCloudflare.Pack.RereadAccepts

/-!
# Artifacts built in memory

The index and the sidecar that are built with a pack are the files that the
indexer writes after scanning the pack.
-/

namespace GitOnCloudflare.Pack

open Foundations.ByteTable

namespace Indexer

/-! ## Accepting the pack -/

section Scanning

variable {inflate : RawInflate} {sha1 : Bytes → RawOid}
  {opts : ScanOptions} {pack : Bytes}

theorem length_packHeader (count : Nat) : (packHeader count).length = 12 :=
  rfl

/-- The reader after the header of the pack. -/
def headerRead (opts : ScanOptions) (pack : Bytes) : BufferedPackReader :=
  let opened :=
    BufferedPackReader.start.ensure pack opts.chunkSize packHeaderBytes
  { opened with pos := opened.pos + packHeaderBytes }

/-- The scanner gets past the header that the builder wrote. -/
theorem scanPack_header {count : Nat} {rest : Bytes}
    (pack_eq : pack = packHeader count ++ rest) (few : count < 2 ^ 32)
    (trailer : packTrailerBytes ≤ rest.length) (below : pack.length < 2 ^ 32) :
    scanPack inflate sha1 opts pack =
        (do
          validatePackObjectCount pack.length count
          let scanned ←
            scanEntries inflate sha1 opts pack count
              ⟨headerRead opts pack, [], packHeader count⟩
          checkTrailer sha1 pack scanned) ∧
      (headerRead opts pack).Reads pack packHeaderBytes := by
  have size : pack.length = 12 + rest.length := by
    rw [pack_eq, List.length_append, length_packHeader]
  have trailer_eq : packTrailerBytes = 20 := rfl
  have header_eq : packHeaderBytes = 12 := rfl
  rcases (BufferedPackReader.Reads.start pack).ensure opts.chunkSize_pos
    packHeaderBytes with ⟨ahead, filled⟩
  have available := filled (by omega)
  have headerBuf := ahead.slice_eq available
  rw [List.drop_zero, pack_eq] at headerBuf
  have read : slice
      (BufferedPackReader.start.ensure pack opts.chunkSize
        packHeaderBytes).buf
      (BufferedPackReader.start.ensure pack opts.chunkSize
        packHeaderBytes).pos packHeaderBytes = packHeader count := by
    rw [pack_eq, headerBuf]
    exact List.take_left' rfl
  have advanced := ahead.advance available
  rw [Nat.zero_add] at advanced
  have version : numberAt 4 (packHeader count) 4 = 2 :=
    numberAt_middle packMagic _ rfl (by decide)
  have counted : numberAt 4 (packHeader count) 8 = count := by
    have word : count < 256 ^ 4 := few
    have last := numberAt_middle (packMagic ++ bigEndian 4 2) [] rfl word
    rw [List.append_nil] at last
    exact last
  refine ⟨?_, advanced⟩
  have offsets : maxPackOffset = 0xffffffff := rfl
  unfold scanPack
  rw [if_neg (by omega), if_neg (by omega)]
  dsimp only
  have magic : (packHeader count).take 4 = packMagic := rfl
  rw [read, magic, if_neg (not_not.mpr rfl), version,
    if_neg (not_not.mpr rfl), counted]
  rfl

end Scanning

section Building

variable {inflate : RawInflate} {sha1 : Bytes → RawOid}
  {deflate : Bytes → Bytes} {opts : ScanOptions} {objs : List GitObject}

/-- The bytes that the checksum of the built pack is over. -/
def builtBody (sha1 : Bytes → RawOid) (deflate : Bytes → Bytes)
    (objs : List GitObject) : Bytes :=
  packHeader objs.length ++
    (buildEntries sha1 deflate packHeaderBytes objs).2

def builtPack (sha1 : Bytes → RawOid) (deflate : Bytes → Bytes)
    (objs : List GitObject) : Bytes :=
  builtBody sha1 deflate objs ++ (sha1 (builtBody sha1 deflate objs)).bytes

theorem length_builtPack :
    (builtPack sha1 deflate objs).length =
      12 + (buildEntries sha1 deflate packHeaderBytes objs).2.length +
        20 := by
  unfold builtPack builtBody
  rw [List.length_append, List.length_append, length_packHeader,
    RawOid.length_eq]

theorem builtPack_eq :
    builtPack sha1 deflate objs =
      packHeader objs.length ++
        ((buildEntries sha1 deflate packHeaderBytes objs).2 ++
          (sha1 (builtBody sha1 deflate objs)).bytes) :=
  List.append_assoc ..

/-- What follows the header of the pack. -/
theorem builtPack_drop :
    (builtPack sha1 deflate objs).drop packHeaderBytes =
      (buildEntries sha1 deflate packHeaderBytes objs).2 ++
        (sha1 (builtBody sha1 deflate objs)).bytes := by
  rw [builtPack_eq]
  exact List.drop_left' rfl

theorem firstOffset_build (some_ : objs ≠ []) :
    firstOffset (buildEntries sha1 deflate packHeaderBytes objs).1 = 12 := by
  cases objs with
  | nil => exact absurd rfl some_
  | cons object objs => rfl

/-- An entry has at least nine bytes. -/
theorem length_parts_ge (offset : Nat)
    (small : ∀ object ∈ objs, object.payload.length < 2 ^ 31)
    (deflates : ∀ object ∈ objs, Nonempty
      (ZlibStream inflate (deflate object.payload) object.payload)) :
    objs.length * 9 ≤
      (buildEntries sha1 deflate offset objs).2.length := by
  rw [buildEntries_parts]
  induction objs with
  | nil => exact Nat.zero_le _
  | cons object objs ih =>
    rcases deflates object (List.mem_cons_self ..) with ⟨zlib⟩
    have lengths := zlib.length_stream
    have two := zlib.twoBytes
    have header := length_encodeObjHeader object.type.typeCode.toNat
      (small object (List.mem_cons_self ..))
    have others := ih
      (fun other member => small other (List.mem_cons_of_mem _ member))
      (fun other member => deflates other (List.mem_cons_of_mem _ member))
    rw [List.flatMap_cons, List.length_append, List.length_append,
      List.length_cons]
    omega

/-- The scanner accepts a built pack and fills the table of the builder. -/
theorem scanPack_builtPack (few : objs.length ≤ maxIndexableObjectCount)
    (small : ∀ object ∈ objs, object.payload.length < 2 ^ 31)
    (allowed : ∀ object ∈ objs, opts.exceeded object.payload.length = false)
    (deflates : ∀ object ∈ objs, Nonempty
      (ZlibStream inflate (deflate object.payload) object.payload))
    (below : (builtPack sha1 deflate objs).length < 2 ^ 32) :
    scanPack inflate sha1 opts (builtPack sha1 deflate objs) =
      .ok ⟨(buildEntries sha1 deflate packHeaderBytes objs).1,
        (sha1 (builtBody sha1 deflate objs)).bytes⟩ := by
  have limit : maxIndexableObjectCount = 250000 := rfl
  have header_eq : packHeaderBytes = 12 := rfl
  have trailer_eq : packTrailerBytes = 20 := rfl
  have size := @length_builtPack sha1 deflate objs
  have filled := @length_parts_ge inflate sha1 deflate objs packHeaderBytes
    small deflates
  have trailerLength := (sha1 (builtBody sha1 deflate objs)).length_eq
  rcases @scanPack_header inflate sha1 opts _ _ _ builtPack_eq (by omega)
    (by rw [List.length_append]; omega) below with ⟨scanned, reads⟩
  have counted : validatePackObjectCount
      (builtPack sha1 deflate objs).length objs.length = .ok () := by
    have nine : minPackedEntryBytes = 9 := rfl
    unfold validatePackObjectCount
    rw [if_neg (by omega), if_neg]
    rw [nine]
    omega
  rcases @scanEntries_build inflate sha1 deflate opts _ _ _ small allowed
    deflates (by omega)
    ⟨headerRead opts (builtPack sha1 deflate objs), [],
      packHeader objs.length⟩
    packHeaderBytes reads builtPack_drop with ⟨reader, ran, readsEnd⟩
  have trailer : (builtPack sha1 deflate objs).drop
      ((builtPack sha1 deflate objs).length - packTrailerBytes) =
        (sha1 (builtBody sha1 deflate objs)).bytes := by
    apply List.drop_left'
    have body : (builtPack sha1 deflate objs).length =
        (builtBody sha1 deflate objs).length + 20 := by
      unfold builtPack
      rw [List.length_append, trailerLength]
    omega
  rw [scanned, counted]
  dsimp only [bind, Except.bind]
  rw [ran]
  dsimp only
  unfold checkTrailer
  dsimp only
  rw [readsEnd.absPos_eq, if_neg (by omega), trailer]
  exact if_neg (not_not.mpr rfl)

end Building

/-! ## Writing the files -/

section Writing

variable {sha1 : Bytes → RawOid}

/-- Rows that record objects have a sidecar. -/
theorem refsBuilderOf_build {rows : List EntryRow}
    (recorded : ∀ row ∈ rows, ∃ object : GitObject,
      row.rawRefs = some (objectRefBytes object) ∧
        row.objectType = object.type.typeCode) {packBytes : Nat}
    (safe : packBytes ≤ maxSafeInteger) (packChecksum idxChecksum : RawOid) :
    ∃ refs, (refsBuilderOf rows).build (tableOf rows) packBytes packChecksum
      idxChecksum = .ok refs := by
  choose objects refs types using fun entry : Fin rows.length =>
    recorded (rows.get entry) (rows.get_mem entry)
  have filled : (refsBuilderOf rows).Records objects := refs
  exact ⟨_, (tableOf rows).build_eq objects packBytes packChecksum
    idxChecksum filled types safe⟩

/-- The files of a scan are written from its rows and its checksum. -/
theorem writeAndParseIdx_eq {rows : List EntryRow} {packChecksum : RawOid}
    {packSize : Nat} (few : rows.length ≤ 2 ^ 31) (supported : 20 ≤ packSize)
    (safe : packSize ≤ maxSafeInteger) (packKey : String)
    (shown : List (Nat × GitObject)) {refs : PackRefBuildResult}
    (built : (refsBuilderOf rows).build (tableOf rows) packSize packChecksum
      (sha1 ((tableOf rows).idxBody packChecksum)) = .ok refs) :
    writeAndParseIdx sha1 packKey packSize ⟨rows, packChecksum.bytes⟩ shown =
      .ok ⟨(tableOf rows).writeIdxV2 sha1 packChecksum, refs.bytes,
        shown⟩ := by
  have parsed := (tableOf rows).parseIdxView_writeIdxV2 sha1 packChecksum
    few packKey supported safe
  have count : ((tableOf rows).writtenView sha1 packChecksum packKey
      packSize).count = rows.length :=
    (tableOf rows).length_sortedOffsetColumn
  have matches_ : ¬ (((tableOf rows).writtenView sha1 packChecksum packKey
        packSize).count ≠ PackScan.objectCount ⟨rows, packChecksum.bytes⟩ ∨
      ((tableOf rows).writtenView sha1 packChecksum packKey
        packSize).packSize ≠ packSize ∨
      ((tableOf rows).writtenView sha1 packChecksum packKey
        packSize).packChecksum ≠ packChecksum.bytes) := by
    rintro (other | other | other)
    · exact other count
    · exact other rfl
    · exact other rfl
  have pack_eq : RawOid.ofBytes ((tableOf rows).writtenView sha1
      packChecksum packKey packSize).packChecksum = packChecksum :=
    packChecksum.ofBytes_bytes
  have idx_eq : RawOid.ofBytes ((tableOf rows).writtenView sha1
      packChecksum packKey packSize).idxChecksum =
        sha1 ((tableOf rows).idxBody packChecksum) :=
    RawOid.ofBytes_bytes _
  unfold writeAndParseIdx
  dsimp only
  rw [packChecksum.ofBytes_bytes, parsed]
  dsimp only [bind, Except.bind]
  rw [if_neg matches_, pack_eq, idx_eq, built]

end Writing

/-! ## Agreement -/

section Agreement

variable {inflate : RawInflate} {sha1 : Bytes → RawOid}
  {deflate : Option Nat → Bytes → Bytes} {compressionLevel : Option Nat}
  {objs : List GitObject}

/-- The scanner accepts the pack, and the indexer then writes the files that
were built with it and shows the objects in pack order. -/
def IndexerAgrees (inflate : RawInflate) (sha1 : Bytes → RawOid)
    (scanOpts : ScanOptions) (readOpts : ReadOptions)
    (resolveDeltas : PackScan → Bool →
      Except String (List EntryRow × List (Nat × GitObject))) (packKey : String)
    (objs : List GitObject) (artifacts : PackV2Artifacts) : Prop :=
  ∃ scan, scanPack inflate sha1 scanOpts artifacts.pack = .ok scan ∧
    ∀ onResolvedObject, ∃ shown,
      resolveDeltasAndWriteIdx inflate sha1 readOpts resolveDeltas packKey
          artifacts.pack scan onResolvedObject =
        .ok ⟨artifacts.idx, artifacts.refs, shown⟩ ∧
      (onResolvedObject = true →
        shown = (List.range objs.length).zip objs)

/-- What the builder returns for a pack it can build. -/
theorem buildPackV2Artifacts_eq {pack : Bytes}
    (built : buildPackV2 sha1 deflate compressionLevel objs = .ok pack)
    (below : pack.length < 2 ^ 32) : let rows :=
      (buildEntries sha1 (deflate compressionLevel) packHeaderBytes objs).1
    let packChecksum :=
      sha1 (builtBody sha1 (deflate compressionLevel) objs)
    pack = builtPack sha1 (deflate compressionLevel) objs ∧
      ∃ refs : PackRefBuildResult,
        (refsBuilderOf rows).build (tableOf rows) pack.length packChecksum
            (sha1 ((tableOf rows).idxBody packChecksum)) = .ok refs ∧
        buildPackV2Artifacts sha1 deflate compressionLevel objs =
          .ok ⟨pack, (tableOf rows).writeIdxV2 sha1 packChecksum,
            refs.bytes⟩ := by
  intro rows packChecksum
  have valid : ¬ (compressionLevel.any fun level => decide (9 < level)) =
      true := by
    intro invalid
    unfold buildPackV2 at built
    rw [if_pos invalid] at built
    cases built
  have pack_eq : pack = builtPack sha1 (deflate compressionLevel) objs := by
    unfold buildPackV2 at built
    rw [if_neg valid] at built
    dsimp only at built
    rw [← buildEntries_parts sha1 (deflate compressionLevel)
      packHeaderBytes objs] at built
    exact (Except.ok.inj built).symm
  have safe : pack.length ≤ maxSafeInteger := by
    have far : 2 ^ 32 ≤ maxSafeInteger := by decide
    omega
  rcases @refsBuilderOf_build rows
    (fun row member => (buildEntries_recorded _ _ member).2) _ safe
    packChecksum (sha1 ((tableOf rows).idxBody packChecksum)) with
    ⟨refs, sidecar⟩
  refine ⟨pack_eq, refs, sidecar, ?_⟩
  have trailer : RawOid.ofBytes
      (((tableOf rows).writeIdxV2 sha1 packChecksum).drop
        (((tableOf rows).writeIdxV2 sha1 packChecksum).length - 20)) =
      sha1 ((tableOf rows).idxBody packChecksum) := by
    have last : ((tableOf rows).writeIdxV2 sha1 packChecksum).drop
        (((tableOf rows).writeIdxV2 sha1 packChecksum).length - 20) =
        (sha1 ((tableOf rows).idxBody packChecksum)).bytes := by
      apply List.drop_left'
      unfold PackEntryTable.writeIdxV2
      rw [List.length_append, RawOid.length_eq]
      omega
    rw [last, RawOid.ofBytes_bytes]
  unfold buildPackV2Artifacts
  rw [if_neg valid]
  dsimp only
  change (do
    let refs ← (refsBuilderOf rows).build (tableOf rows)
      (builtPack sha1 (deflate compressionLevel) objs).length packChecksum
      (.ofBytes (((tableOf rows).writeIdxV2 sha1 packChecksum).drop
        (((tableOf rows).writeIdxV2 sha1 packChecksum).length - 20)))
    Except.ok (⟨builtPack sha1 (deflate compressionLevel) objs,
      (tableOf rows).writeIdxV2 sha1 packChecksum, refs.bytes⟩ :
        PackV2Artifacts)) = _
  rw [trailer, ← pack_eq, sidecar]
  rfl

/-- The artifacts that are built in memory are the ones of the indexer, for
packs of so many objects and payloads of such sizes. -/
theorem buildPackV2Artifacts_indexed {scanOpts : ScanOptions}
    (readOpts : ReadOptions)
    (resolveDeltas : PackScan → Bool →
      Except String (List EntryRow × List (Nat × GitObject))) (packKey : String)
    {pack : Bytes}
    (built : buildPackV2 sha1 deflate compressionLevel objs = .ok pack)
    (below : pack.length < 2 ^ 32) (few : objs.length ≤ maxIndexableObjectCount)
    (small : ∀ object ∈ objs, object.payload.length < 2 ^ 31)
    (allowed : ∀ object ∈ objs, scanOpts.exceeded object.payload.length = false)
    (deflates : ∀ object ∈ objs, Nonempty
      (ZlibStream inflate (deflate compressionLevel object.payload)
        object.payload)) :
    ∃ artifacts,
      buildPackV2Artifacts sha1 deflate compressionLevel objs =
        .ok artifacts ∧
      artifacts.pack = pack ∧
      IndexerAgrees inflate sha1 scanOpts readOpts resolveDeltas packKey objs
        artifacts := by
  rcases buildPackV2Artifacts_eq built below with
    ⟨pack_eq, refs, sidecar, returned⟩
  subst pack_eq
  refine ⟨_, returned, rfl, _,
    scanPack_builtPack few small allowed deflates below, ?_⟩
  intro onResolvedObject
  have limit : maxIndexableObjectCount = 250000 := rfl
  have rowCount := length_buildEntries sha1 (deflate compressionLevel)
    packHeaderBytes objs
  have size := @length_builtPack sha1 (deflate compressionLevel) objs
  have safe : (builtPack sha1 (deflate compressionLevel) objs).length ≤
      maxSafeInteger := by
    have far : 2 ^ 32 ≤ maxSafeInteger := by decide
    omega
  have written := fun shown => writeAndParseIdx_eq (by omega) (by omega) safe
    packKey shown sidecar
  have resolved : PackScan.resolvedCount
      ⟨(buildEntries sha1 (deflate compressionLevel) packHeaderBytes objs).1,
        (sha1 (builtBody sha1 (deflate compressionLevel) objs)).bytes⟩ =
      PackScan.objectCount
        ⟨(buildEntries sha1 (deflate compressionLevel)
          packHeaderBytes objs).1,
          (sha1 (builtBody sha1 (deflate compressionLevel)
            objs)).bytes⟩ :=
    List.countP_eq_length.mpr fun row member =>
      (buildEntries_recorded _ _ member).1
  have counted : PackScan.objectCount
      ⟨(buildEntries sha1 (deflate compressionLevel) packHeaderBytes objs).1,
        (sha1 (builtBody sha1 (deflate compressionLevel) objs)).bytes⟩ =
      objs.length := rowCount
  unfold resolveDeltasAndWriteIdx
  rw [resolved, counted]
  by_cases unshown : objs.length = 0 ∨ onResolvedObject = false
  · refine ⟨[], ?_, ?_⟩
    · rw [if_pos (unshown.imp_right fun silent => ⟨rfl, silent⟩)]
      exact written []
    · intro asked
      have none_ : objs = [] := List.eq_nil_of_length_eq_zero
        (unshown.resolve_right fun silent =>
          Bool.false_ne_true (silent.symm.trans asked))
      subst none_
      rfl
  · have inside : firstOffset
        (buildEntries sha1 (deflate compressionLevel) packHeaderBytes
          objs).1 < (builtPack sha1 (deflate compressionLevel) objs).length
        := by
      rw [firstOffset_build fun none_ =>
        unshown (.inl (by rw [none_]; rfl))]
      exact Nat.lt_of_lt_of_le (by decide : 12 < 32) (by omega)
    rcases @SequentialReader.preload_holds readOpts _
        SequentialReader.empty _ inside with
      ⟨reader, loaded, holds, _⟩
    have shown := @visitResolved_build _ _ _ readOpts _ _ _ small deflates
      (by rw [RawOid.length_eq]; omega) 0 _ holds _ builtPack_drop
    refine ⟨(List.range objs.length).zip objs, ?_, fun _ => rfl⟩
    rw [if_neg fun silent => unshown (silent.imp_right And.right),
      if_pos rfl]
    dsimp only
    rw [loaded]
    dsimp only [bind, Except.bind]
    rw [shown, ← List.range_eq_range']
    exact written _

/-! ## The stream of an empty payload -/

/-- The bytes of an empty payload, compressed. -/
def emptyStream : Bytes := [0x78, 0x9c, 0x03, 0x00, 0x00, 0x00, 0x00, 0x01]

/-- Take what is left of the one stream that the inflater knows. -/
def emptyPush (left data : Bytes) : Except String (InflatePush Bytes) :=
  if left.length ≤ data.length then
    if data.take left.length = left then
      .ok ⟨[], [], left.length, true⟩
    else
      .error "inflate: invalid stored block"
  else if left.take data.length = data then
    .ok ⟨left.drop data.length, [], data.length, false⟩
  else
    .error "inflate: invalid stored block"

theorem emptyPush_ends (left after : Bytes) :
    emptyPush left (left ++ after) =
      .ok ⟨[], [], left.length, true⟩ := by
  unfold emptyPush
  rw [if_pos (by rw [List.length_append]; exact Nat.le_add_right _ _),
    if_pos List.take_left]

theorem emptyPush_goesOn {piece rest : Bytes} (some_ : rest ≠ []) :
    emptyPush (piece ++ rest) piece =
      .ok ⟨rest, [], piece.length, false⟩ := by
  have positive := List.length_pos_of_ne_nil some_
  unfold emptyPush
  rw [if_neg (by rw [List.length_append]; omega), if_pos List.take_left,
    List.drop_left]

/-- A raw inflater of the empty payload; its state is what is left of the
stream. -/
def emptyInflate : RawInflate := ⟨Bytes, [0x03, 0x00], emptyPush⟩

def emptyZlib : ZlibStream emptyInflate emptyStream [] where
  cmf := 0x78
  flg := 0x9c
  raw := [0x03, 0x00]
  left := fun state rest more => state = rest ∧ more = []
  stream_eq := by decide
  valid := by decide
  noDictionary := by decide
  twoBytes := le_refl _
  starts := ⟨rfl, rfl⟩
  ends := by
    rintro state rest more after ⟨rfl, rfl⟩ _
    exact ⟨[], emptyPush_ends state after⟩
  goesOn := by
    rintro state piece rest more ⟨rfl, rfl⟩ _ some_
    exact ⟨rest, [], [], emptyPush_goesOn some_, rfl, rfl, rfl⟩

def emptyBlob : GitObject := ⟨.blob, []⟩

/-- The digests of an empty blob, of the pack with two of them and of the
index of that pack. -/
def twoBlobDigests (data : Bytes) : RawOid :=
  if data.length = 7 then
    .ofBytes
      [230, 157, 226, 155, 178, 209, 214, 67, 75, 139, 41, 174, 119, 90,
        216, 194, 228, 140, 83, 145]
  else if data.length = 30 then
    .ofBytes
      [39, 7, 46, 241, 117, 139, 76, 255, 248, 75, 221, 220, 209, 117, 106,
        23, 163, 68, 50, 90]
  else
    .ofBytes
      [53, 115, 4, 221, 42, 138, 250, 120, 5, 216, 49, 205, 119, 79, 69,
        175, 34, 204, 25, 240]

def bucketScan : ScanOptions := ⟨1048576, by decide, none⟩

def bucketRead : ReadOptions := ⟨1048576, by decide, false⟩

/-- Two copies of one empty blob. -/
theorem buildPackV2Artifacts_indexed_blobs :
    ∃ artifacts,
      buildPackV2Artifacts twoBlobDigests (fun _ _ => emptyStream) (some 6)
        [emptyBlob, emptyBlob] = .ok artifacts ∧
      artifacts.pack =
        [80, 65, 67, 75, 0, 0, 0, 2, 0, 0, 0, 2, 48, 120, 156, 3, 0, 0, 0,
          0, 1, 48, 120, 156, 3, 0, 0, 0, 0, 1, 39, 7, 46, 241, 117, 139,
          76, 255, 248, 75, 221, 220, 209, 117, 106, 23, 163, 68, 50, 90] ∧
      IndexerAgrees emptyInflate twoBlobDigests bucketScan bucketRead
        (fun scan _ => .ok (scan.rows, [])) "objects/pack/pack-two.pack"
        [emptyBlob, emptyBlob] artifacts := by
  have only : ∀ object ∈ [emptyBlob, emptyBlob], object = emptyBlob := by
    decide
  refine buildPackV2Artifacts_indexed bucketRead _ _ rfl (by decide)
    (by decide) ?_ ?_ ?_
  · intro object member
    rw [only object member]
    decide
  · intro object member
    rfl
  · intro object member
    rw [only object member]
    exact ⟨emptyZlib⟩

/-! ## Packs that are built and not scanned -/

/-- The scanner refuses a built pack of more objects than its table has room
for. -/
theorem scanPack_tooMany {deflate : Bytes → Bytes} {opts : ScanOptions}
    (many : maxIndexableObjectCount < objs.length) (word : objs.length < 2 ^ 32)
    (below : (builtPack sha1 deflate objs).length < 2 ^ 32) :
    scanPack inflate sha1 opts (builtPack sha1 deflate objs) =
      .error s!"scan: object count {objs.length} exceeds safe isolate limit {maxIndexableObjectCount}" := by
  have trailer_eq : packTrailerBytes = 20 := rfl
  have trailerLength := (sha1 (builtBody sha1 deflate objs)).length_eq
  rcases @scanPack_header inflate sha1 opts _ _ _ builtPack_eq word
    (by rw [List.length_append]; omega) below with ⟨scanned, _⟩
  rw [scanned]
  unfold validatePackObjectCount
  rw [if_pos many]
  rfl

/-- One object more than the scanner takes. -/
def manyBlobs : List GitObject := List.replicate 250001 emptyBlob

theorem length_manyBlobsPack :
    (builtPack twoBlobDigests (fun _ => emptyStream) manyBlobs).length =
      2250041 := by
  rw [length_builtPack, buildEntries_parts]
  have entry : ∀ object ∈ manyBlobs,
      (encodeObjHeader object.type.typeCode.toNat object.payload.length ++
        emptyStream).length = 9 := by
    intro object member
    rw [List.eq_of_mem_replicate member]
    rfl
  rw [length_flatMap_rows entry]
  unfold manyBlobs
  rw [List.length_replicate]

/-- The builder returns artifacts of a pack that the scanner refuses. -/
theorem not_indexed_manyBlobs :
    ∃ pack artifacts,
      buildPackV2 twoBlobDigests (fun _ _ => emptyStream) none manyBlobs =
        .ok pack ∧
      pack.length < 2 ^ 32 ∧
      (∀ object ∈ manyBlobs,
        Nonempty (ZlibStream emptyInflate emptyStream object.payload)) ∧
      buildPackV2Artifacts twoBlobDigests (fun _ _ => emptyStream) none
        manyBlobs = .ok artifacts ∧
      ¬ IndexerAgrees emptyInflate twoBlobDigests bucketScan bucketRead
        (fun scan _ => .ok (scan.rows, [])) "objects/pack/pack-many.pack"
        manyBlobs artifacts := by
  have count : manyBlobs.length = 250001 := List.length_replicate
  have limit : maxIndexableObjectCount = 250000 := rfl
  have size := length_manyBlobsPack
  have below : (builtPack twoBlobDigests (fun _ => emptyStream)
      manyBlobs).length < 2 ^ 32 := by omega
  have built : buildPackV2 twoBlobDigests (fun _ _ => emptyStream) none
      manyBlobs =
        .ok (builtPack twoBlobDigests (fun _ => emptyStream) manyBlobs) := by
    unfold buildPackV2 builtPack builtBody
    rw [buildEntries_parts]
    rfl
  rcases buildPackV2Artifacts_eq built below with ⟨_, refs, _, returned⟩
  refine ⟨_, _, built, below, ?_, returned, ?_⟩
  · intro object member
    rw [List.eq_of_mem_replicate member]
    exact ⟨emptyZlib⟩
  · rintro ⟨scan, accepted, _⟩
    have refused := @scanPack_tooMany emptyInflate twoBlobDigests manyBlobs
      (fun _ => emptyStream) bucketScan (by omega) (by omega) below
    cases refused.symm.trans accepted

end Agreement

end Indexer

end GitOnCloudflare.Pack
