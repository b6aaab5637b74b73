import GitOnCloudflare.Pack.InflateCursor
import GitOnCloudflare.Pack.RefSidecar

/-!
# The pack scanner

The first pass over a pack: read it in chunks, parse the header of every
entry, inflate its payload to find where it ends, and compute the ids of the
entries that are whole objects.
-/

namespace GitOnCloudflare.Pack

open Foundations.ByteTable

/-! ## The reader -/

/-- The window of the scanner over the pack. -/
structure BufferedPackReader where
  buf : Bytes
  pos : Nat
  bufAbsStart : Nat

namespace BufferedPackReader

def start : BufferedPackReader := ⟨[], 0, 0⟩

def absPos (reader : BufferedPackReader) : Nat :=
  reader.bufAbsStart + reader.pos

def remaining (reader : BufferedPackReader) : Nat :=
  reader.buf.length - reader.pos

/-- Append a chunk to what is left of the window. -/
def refill (reader : BufferedPackReader) (chunk : Bytes) : BufferedPackReader :=
  let leftover := reader.buf.drop reader.pos
  if leftover = [] then
    ⟨chunk, 0, reader.bufAbsStart + reader.buf.length⟩
  else
    ⟨leftover ++ chunk, 0, reader.bufAbsStart + reader.pos⟩

theorem refill_end {reader : BufferedPackReader} {chunk : Bytes}
    (inside : reader.pos ≤ reader.buf.length) :
    (reader.refill chunk).bufAbsStart + (reader.refill chunk).buf.length =
      reader.bufAbsStart + reader.buf.length + chunk.length := by
  unfold refill
  dsimp only
  split
  · rfl
  · dsimp only
    rw [List.length_append, List.length_drop]
    omega

end BufferedPackReader

/-- The options of the scanner; a chunk has at least one byte. -/
structure ScanOptions where
  chunkSize : Nat
  chunkSize_pos : 0 < chunkSize
  maxObjectBytes : Option Nat

/-- The loop of `ensure`; every round reads a chunk. -/
def ensureLoop (pack : Bytes) (chunkSize minBytes : Nat) :
    Nat → BufferedPackReader → BufferedPackReader
  | 0, reader => reader
  | rounds + 1, reader =>
    if minBytes ≤ reader.remaining then
      reader
    else
      let nextAbsOffset := reader.bufAbsStart + reader.buf.length
      if pack.length ≤ nextAbsOffset then
        reader
      else
        ensureLoop pack chunkSize minBytes rounds
          (reader.refill
            (slice pack nextAbsOffset
              (min chunkSize (pack.length - nextAbsOffset))))

/-- Read chunks until enough bytes are buffered. -/
def BufferedPackReader.ensure (reader : BufferedPackReader) (pack : Bytes)
    (chunkSize minBytes : Nat) : BufferedPackReader :=
  ensureLoop pack chunkSize minBytes
    (pack.length - (reader.bufAbsStart + reader.buf.length) + 1) reader

/-! ## Rows -/

/-- The twenty bytes of a field for an id or a checksum. -/
def RawOid.ofBytes (bytes : Bytes) : RawOid where
  bytes := (bytes ++ List.replicate 20 0).take 20
  length_eq := by
    rw [List.length_take, List.length_append, List.length_replicate]
    omega

theorem RawOid.ofBytes_bytes (oid : RawOid) :
    RawOid.ofBytes oid.bytes = oid := by
  have kept : (RawOid.ofBytes oid.bytes).bytes = oid.bytes :=
    List.take_left' oid.length_eq
  cases oid
  exact RawOid.mk.injEq _ _ _ _ |>.mpr kept

/-- A row of the entry table, with what the tables beside it keep for the
entry. -/
structure EntryRow where
  offset : UInt32
  type : UInt8
  objectType : UInt8
  headerLen : UInt16
  spanEnd : UInt32
  crc32 : UInt32
  oid : RawOid
  decompressedSize : UInt32
  ofsBaseOffset : UInt32
  resolved : Bool
  refBaseOid : Bytes
  rawRefs : Option Bytes

/-- The row of an entry before anything is stored in it. -/
def allocatedRow : EntryRow where
  offset := 0
  type := 0
  objectType := 0
  headerLen := 0
  spanEnd := 0
  crc32 := 0
  oid := .ofBytes []
  decompressedSize := 0
  ofsBaseOffset := 0
  resolved := false
  refBaseOid := List.replicate 20 0
  rawRefs := none

def GitObjectType.text : GitObjectType → String
  | .commit => "commit"
  | .tree => "tree"
  | .blob => "blob"
  | .tag => "tag"

/-- The type and length that are hashed with a payload. -/
def encodeGitObjectHeader (type : GitObjectType) (payloadLength : Nat) :
    Bytes :=
  (s!"{type.text} {payloadLength}".toList.map fun letter =>
    UInt8.ofNat letter.toNat) ++ [0]

/-- The id of an object. -/
def computeOidBytes (sha1 : Bytes → RawOid) (object : GitObject) : RawOid :=
  sha1
    (encodeGitObjectHeader object.type object.payload.length ++
      object.payload)

/-- What the table and the reference builder record of a whole object. -/
def EntryRow.record (row : EntryRow) (sha1 : Bytes → RawOid)
    (object : GitObject) : EntryRow :=
  { row with
    oid := computeOidBytes sha1 object
    objectType := object.type.typeCode
    rawRefs := some (objectRefBytes object)
    resolved := true
    decompressedSize := UInt32.ofNat object.payload.length }

/-- The columns that the index and the sidecar are written from. -/
def tableOf (rows : List EntryRow) : PackEntryTable rows.length where
  offsets := fun entry => (rows.get entry).offset
  objectTypes := fun entry => (rows.get entry).objectType
  crc32s := fun entry => (rows.get entry).crc32
  oids := fun entry => (rows.get entry).oid

def refsBuilderOf (rows : List EntryRow) : PackRefsBuilder rows.length :=
  ⟨fun entry => (rows.get entry).rawRefs⟩

/-! ## One entry -/

/-- An operation limit that a size exceeds. -/
def ScanOptions.exceeded (opts : ScanOptions) (size : Nat) : Bool :=
  opts.maxObjectBytes.any fun limit => decide (limit < size)

namespace Indexer

/-- The reader, the checksum of the entry and the bytes for the digest of the
pack. -/
structure InflateRun (inflate : RawInflate) where
  reader : BufferedPackReader
  cursor : InflateCursor inflate
  crc : UInt32
  digested : Bytes
  firstInflatePush : Bool

/-- The loop over the pushes of an entry. -/
def inflateLoop {inflate : RawInflate} (pack : Bytes) (chunkSize : Nat)
    (entryStart : Nat) :
    Nat → InflateRun inflate → Except String (InflateRun inflate)
  | 0, _ => .error "scan: inflate does not end"
  | rounds + 1, run =>
    if run.cursor.entryDone then
      .ok run
    else
      let minBytes := if run.firstInflatePush then 2 else 1
      let reader := run.reader.ensure pack chunkSize minBytes
      if reader.remaining < minBytes then
        .error s!"scan: unexpected EOF while inflating entry at offset {entryStart}"
      else
        match run.cursor.push (reader.buf.drop reader.pos) with
        | .error failure => .error failure
        | .ok (cursor, consumed) =>
          if consumed = 0 ∧ cursor.entryDone = false then
            .error s!"scan: inflate stalled at offset {reader.absPos}"
          else
            let compressed := slice reader.buf reader.pos consumed
            inflateLoop pack chunkSize entryStart rounds
              { reader := { reader with pos := reader.pos + consumed }
                cursor := cursor
                crc := crc32Update run.crc compressed
                digested := run.digested ++ compressed
                firstInflatePush := false }

def deltaHeaderCaptureLimit : Nat := 16

/-- One size of a delta's header. -/
def readDeltaSizeVarint (fieldName : String) :
    Nat → Nat → Bytes → Except String (Nat × Bytes)
  | _, _, [] => .error s!"scan: truncated {fieldName} header"
  | value, factor, byte :: rest =>
    let read := value + lowBits byte * factor
    if maxPackObjectSize < read then
      .error s!"scan: {fieldName} exceeds supported 32-bit size range"
    else if hasMore byte then
      if maxSafe < factor * 128 then
        .error s!"scan: {fieldName} is too large to decode safely"
      else
        readDeltaSizeVarint fieldName read (factor * 128) rest
    else
      .ok (read, rest)

/-- The declared size of the result of a delta. -/
def readDeltaResultSize (data : Bytes) : Except String Nat := do
  let (_, rest) ← readDeltaSizeVarint "delta base-size" 0 1 data
  let (size, _) ← readDeltaSizeVarint "delta result-size" 0 1 rest
  .ok size

/-- The reader, the rows and the bytes digested. -/
structure ScanState where
  reader : BufferedPackReader
  rows : List EntryRow
  digested : Bytes

section Scan

variable (inflate : RawInflate) (sha1 : Bytes → RawOid)
  (opts : ScanOptions) (pack : Bytes)

/-- What is stored about an entry before its payload is read. -/
def headerRow (entryStart : Nat) (header : ScanHeader) : EntryRow :=
  { allocatedRow with
    offset := UInt32.ofNat entryStart
    type := UInt8.ofNat header.type
    headerLen := UInt16.ofNat header.headerLen
    decompressedSize := UInt32.ofNat header.size
    ofsBaseOffset :=
      UInt32.ofNat ((header.baseRel.map (entryStart - ·)).getD 0)
    refBaseOid := header.baseOidBytes.getD (List.replicate 20 0) }

/-- The row of an entry whose payload was inflated. -/
def finishEntry {inflate : RawInflate} (entryStart : Nat) (header : ScanHeader)
    (run : InflateRun inflate) : Except String EntryRow :=
  let row :=
    { headerRow entryStart header with
      spanEnd := UInt32.ofNat run.reader.absPos
      crc32 := crc32Finish run.crc }
  match typeCodeToObjectType (UInt8.ofNat header.type) with
  | some baseType => do
      let inflated ← run.cursor.output
      if inflated.length ≠ header.size then
        .error s!"scan: inflated {baseType.text} size mismatch at offset {entryStart} (expected {header.size}, got {inflated.length})"
      else
        .ok (row.record sha1 ⟨baseType, inflated⟩)
  | none =>
    if run.cursor.totalOutputBytes ≠ header.size then
      .error s!"scan: inflated delta size mismatch at offset {entryStart} (expected {header.size}, got {run.cursor.totalOutputBytes})"
    else do
      let resultSize ← readDeltaResultSize run.cursor.chunks
      if opts.exceeded resultSize then
        .error s!"scan: delta result at offset {entryStart} exceeds operation size limit"
      else
        .ok { row with decompressedSize := UInt32.ofNat resultSize }

/-- The payload behind a header. -/
def scanPayload (entryStart : Nat) (header : ScanHeader)
    (reader : BufferedPackReader) (state : ScanState) :
    Except String ScanState := do
  let headerBytes := slice reader.buf reader.pos header.headerLen
  let captureLimit :=
    if (typeCodeToObjectType (UInt8.ofNat header.type)).isSome then
      header.size
    else
      deltaHeaderCaptureLimit
  let run ←
    inflateLoop pack opts.chunkSize entryStart (pack.length + 1)
      { reader := { reader with pos := reader.pos + header.headerLen }
        cursor := (InflateCursor.reset captureLimit : InflateCursor inflate)
        crc := crc32Update crc32Init headerBytes
        digested := state.digested ++ headerBytes
        firstInflatePush := true }
  let row ← finishEntry sha1 opts entryStart header run
  .ok ⟨run.reader, state.rows ++ [row], run.digested⟩

/-- Read one entry. -/
def scanEntry (state : ScanState) : Except String ScanState :=
  let entryStart := state.reader.absPos
  let reader :=
    state.reader.ensure pack opts.chunkSize
      (min 64 (pack.length - entryStart))
  match parseEntryHeader reader.buf reader.pos with
  | .error failure => .error failure.message
  | .ok none => .error s!"scan: failed to parse header at offset {entryStart}"
  | .ok (some header) =>
    if opts.exceeded header.size then
      .error s!"scan: object at offset {entryStart} exceeds operation size limit"
    else if header.baseRel.any fun baseRel => decide (entryStart < baseRel)
    then
      .error s!"scan: OFS_DELTA at offset {entryStart} points before the start of the pack"
    else
      scanPayload inflate sha1 opts pack entryStart header reader state

def scanEntries : Nat → ScanState → Except String ScanState
  | 0, state => .ok state
  | count + 1, state => do
      let next ← scanEntry inflate sha1 opts pack state
      scanEntries count next

end Scan

/-! ## The whole pack -/

/-- `"PACK"` -/
def packMagic : Bytes := [0x50, 0x41, 0x43, 0x4b]

def packHeaderBytes : Nat := 12

def packTrailerBytes : Nat := 20

def minPackedEntryBytes : Nat := 9

def maxIndexableObjectCount : Nat := 250000

/-- The bounds of the number of entries. -/
def validatePackObjectCount (packSize objectCount : Nat) : Except String Unit :=
  if maxIndexableObjectCount < objectCount then
    .error s!"scan: object count {objectCount} exceeds safe isolate limit {maxIndexableObjectCount}"
  else if (packSize - packHeaderBytes - packTrailerBytes) /
      minPackedEntryBytes < objectCount then
    .error s!"scan: object count {objectCount} cannot fit in {packSize} bytes of pack data"
  else
    .ok ()

/-- An accepted pack. -/
structure PackScan where
  rows : List EntryRow
  packChecksum : Bytes

namespace PackScan

variable (scan : PackScan)

def objectCount : Nat := scan.rows.length

def resolvedCount : Nat := scan.rows.countP EntryRow.resolved

end PackScan

/-- The checks behind the last entry. -/
def checkTrailer (sha1 : Bytes → RawOid) (pack : Bytes)
    (state : ScanState) : Except String PackScan :=
  let trailingOffset := pack.length - packTrailerBytes
  if state.reader.absPos ≠ trailingOffset then
    .error s!"scan: expected indexed entries to end at {trailingOffset}, got {state.reader.absPos}"
  else
    let computedHash := (sha1 state.digested).bytes
    let trailer := pack.drop trailingOffset
    if computedHash ≠ trailer then
      .error s!"scan: pack checksum mismatch (computed {bytesToHex computedHash} != trailing {bytesToHex trailer})"
    else
      .ok ⟨state.rows, trailer⟩

/-- Read all entries of a pack and check its digest. -/
def scanPack (inflate : RawInflate) (sha1 : Bytes → RawOid)
    (opts : ScanOptions) (pack : Bytes) : Except String PackScan :=
  if pack.length < packHeaderBytes + packTrailerBytes then
    .error s!"scan: pack size {pack.length} is smaller than the minimum valid pack size"
  else if maxPackOffset < pack.length - packTrailerBytes then
    .error s!"scan: pack offsets above {maxPackOffset} bytes are not supported by this indexer yet"
  else
    let opened :=
      BufferedPackReader.start.ensure pack opts.chunkSize packHeaderBytes
    let headerBuf := slice opened.buf opened.pos packHeaderBytes
    if headerBuf.take 4 ≠ packMagic then
      .error "scan: invalid pack magic"
    else if numberAt 4 headerBuf 4 ≠ 2 then
      .error s!"scan: unsupported pack version {numberAt 4 headerBuf 4}"
    else do
      let objectCount := numberAt 4 headerBuf 8
      validatePackObjectCount pack.length objectCount
      let scanned ←
        scanEntries inflate sha1 opts pack objectCount
          ⟨{ opened with pos := opened.pos + packHeaderBytes }, [],
            headerBuf⟩
      checkTrailer sha1 pack scanned

end Indexer

end GitOnCloudflare.Pack
