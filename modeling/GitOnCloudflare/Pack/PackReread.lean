import GitOnCloudflare.Pack.ScanAccepts

/-!
# Artifacts of a scanned pack

After the scan the indexer writes the index and the reference sidecar.  A
caller that asks for the objects makes it inflate the entries once more,
through a reader that keeps one chunk of the pack.
-/

namespace GitOnCloudflare.Pack.Indexer

open Foundations.ByteTable

/-! ## The reader -/

/-- The buffered chunk of the pack. -/
structure SequentialReader where
  buf : Bytes
  bufAbsStart : Nat

/-- How the pack is read: from memory or from the bucket, in chunks. -/
structure ReadOptions where
  chunkSize : Nat
  chunkSize_pos : 0 < chunkSize
  inMemory : Bool

/-- A read of an exact length. -/
def load (pack : Bytes) (offset length : Nat) : Option Bytes :=
  let bytes := slice pack offset length
  if bytes.length = length then some bytes else none

namespace SequentialReader

variable (opts : ReadOptions) (pack : Bytes)

def empty : SequentialReader := ⟨[], 0⟩

def bufEnd (reader : SequentialReader) : Nat :=
  reader.bufAbsStart + reader.buf.length

def readFailure : String :=
  if opts.inMemory then
    "resolve: in-memory pack read failure"
  else
    "resolve: R2 read failure"

def preloadFailure : String :=
  if opts.inMemory then
    "resolve: in-memory pack preload failure"
  else
    "resolve: R2 preload failure"

def loadOrFail (offset length : Nat) : Except String Bytes :=
  match load pack offset length with
  | none => .error (readFailure opts)
  | some data => .ok data

def preload (reader : SequentialReader) (offset : Nat) :
    Except String SequentialReader :=
  if pack.length ≤ offset then
    .ok reader
  else
    match load pack offset (min opts.chunkSize (pack.length - offset)) with
    | none => .error (preloadFailure opts)
    | some chunk => .ok ⟨chunk, offset⟩

def readRange (reader : SequentialReader) (offset length : Nat) :
    Except String (Bytes × SequentialReader) :=
  if reader.bufAbsStart ≤ offset ∧ offset + length ≤ reader.bufEnd then
    .ok (slice reader.buf (offset - reader.bufAbsStart) length, reader)
  else if opts.chunkSize < length then do
    let data ← loadOrFail opts pack offset length
    .ok (data, reader)
  else do
    let reader ← reader.preload opts pack offset
    if offset + length ≤ reader.bufEnd then
      .ok (slice reader.buf (offset - reader.bufAbsStart) length, reader)
    else do
      let data ← loadOrFail opts pack offset length
      .ok (data, reader)

/-- The reader with a chunk that has the offset. -/
def buffered (reader : SequentialReader) (offset : Nat) :
    Except String SequentialReader :=
  if reader.bufAbsStart ≤ offset ∧ offset < reader.bufEnd then
    .ok reader
  else
    reader.preload opts pack offset

/-- The buffered bytes from an offset on. -/
def readWindow (reader : SequentialReader) (offset maxLength : Nat) :
    Except String (Bytes × SequentialReader) :=
  if maxLength = 0 ∨ pack.length ≤ offset then
    .ok ([], reader)
  else do
    let reader ← reader.buffered opts pack offset
    if offset < reader.bufAbsStart ∨ reader.bufEnd ≤ offset then do
      let data ← loadOrFail opts pack offset (min maxLength 1)
      .ok (data, reader)
    else
      .ok
        (slice reader.buf (offset - reader.bufAbsStart)
          (min maxLength (reader.bufEnd - offset)), reader)

end SequentialReader

/-! ## Inflating an entry again -/

structure RereadRun (inflate : RawInflate) where
  reader : SequentialReader
  cursor : InflateCursor inflate
  nextOffset : Nat
  firstPush : Bool

section Reread

variable (inflate : RawInflate) (opts : ReadOptions) (pack : Bytes)

/-- The bytes of the next push, at least as many as the cursor needs. -/
def nextWindow (reader : SequentialReader) (nextOffset bytesLeft minBytes : Nat) :
    Except String (Bytes × SequentialReader) := do
  let (window, reader) ← reader.readWindow opts pack nextOffset bytesLeft
  if window.length < minBytes then
    reader.readRange opts pack nextOffset (min bytesLeft minBytes)
  else
    .ok (window, reader)

def rereadLoop {inflate : RawInflate} (row : EntryRow) :
    Nat → RereadRun inflate → Except String (RereadRun inflate)
  | 0, _ => .error "resolve: inflate does not end"
  | rounds + 1, run =>
    if run.cursor.entryDone then
      .ok run
    else if row.spanEnd.toNat ≤ run.nextOffset then
      .error s!"resolve: incomplete inflate for entry at offset {row.offset}"
    else do
      let minBytes := if run.firstPush then 2 else 1
      let (window, reader) ←
        nextWindow opts pack run.reader run.nextOffset
          (row.spanEnd.toNat - run.nextOffset) minBytes
      if window.length < minBytes then
        .error s!"resolve: unexpected EOF while inflating entry at offset {row.offset}"
      else do
        let (cursor, consumed) ← run.cursor.push window
        if consumed = 0 ∧ cursor.entryDone = false then
          .error s!"resolve: inflate stalled at offset {run.nextOffset}"
        else
          rereadLoop row rounds
            { reader := reader
              cursor := cursor
              nextOffset := run.nextOffset + consumed
              firstPush := false }

def inflateFromReader (reader : SequentialReader) (row : EntryRow) :
    Except String (Bytes × SequentialReader) := do
  let run ←
    rereadLoop opts pack row (pack.length + 1)
      { reader := reader
        cursor := (InflateCursor.reset maxSafe : InflateCursor inflate)
        nextOffset := row.offset.toNat + row.headerLen.toNat
        firstPush := true }
  if run.nextOffset ≠ row.spanEnd.toNat then
    .error s!"resolve: inflate span mismatch at offset {row.offset} (expected end {row.spanEnd}, got {run.nextOffset})"
  else do
    let payload ← run.cursor.output
    .ok (payload, run.reader)

/-- The calls of `onResolvedObject` for entries that the scan resolved. -/
def visitResolved :
    Nat → SequentialReader → List EntryRow →
      Except String (List (Nat × GitObject))
  | _, _, [] => .ok []
  | index, reader, row :: rows =>
    match typeCodeToObjectType row.type with
    | none => visitResolved (index + 1) reader rows
    | some type => do
        let (payload, reader) ←
          inflateFromReader inflate opts pack reader row
        let rest ← visitResolved (index + 1) reader rows
        .ok ((index, ⟨type, payload⟩) :: rest)

end Reread

/-! ## Writing the artifacts -/

/-- The files, and the objects that the caller was shown. -/
structure ResolveResult where
  idx : Bytes
  refs : Bytes
  resolvedObjects : List (Nat × GitObject)

def writeAndParseIdx (sha1 : Bytes → RawOid) (packKey : String) (packSize : Nat)
    (scan : PackScan) (resolvedObjects : List (Nat × GitObject)) :
    Except String ResolveResult := do
  let idx :=
    (tableOf scan.rows).writeIdxV2 sha1 (.ofBytes scan.packChecksum)
  match ← parseIdxView packKey idx packSize with
  | none => .error "resolve: failed to parse generated idx"
  | some view =>
    if view.count ≠ scan.objectCount ∨ view.packSize ≠ packSize ∨
        view.packChecksum ≠ scan.packChecksum then
      .error "resolve: existing idx view mismatch with resolved pack"
    else do
      let refs ←
        (refsBuilderOf scan.rows).build (tableOf scan.rows) packSize
          (.ofBytes view.packChecksum) (.ofBytes view.idxChecksum)
      .ok ⟨idx, refs.bytes, resolvedObjects⟩

/-- `table.offsets[0]` -/
def firstOffset : List EntryRow → Nat
  | [] => 0
  | row :: _ => row.offset.toNat

/-- The pass over deltas is a parameter: it fills the rows of the entries that
the scan left open, and shows the objects to the caller. -/
def resolveDeltasAndWriteIdx (inflate : RawInflate) (sha1 : Bytes → RawOid)
    (opts : ReadOptions)
    (resolveDeltas : PackScan → Bool →
      Except String (List EntryRow × List (Nat × GitObject)))
    (packKey : String) (pack : Bytes) (scan : PackScan)
    (onResolvedObject : Bool) : Except String ResolveResult :=
  if scan.objectCount = 0 ∨
      (scan.resolvedCount = scan.objectCount ∧ onResolvedObject = false) then
    writeAndParseIdx sha1 packKey pack.length scan []
  else if scan.resolvedCount = scan.objectCount then do
    let reader ←
      SequentialReader.empty.preload opts pack (firstOffset scan.rows)
    let shown ← visitResolved inflate opts pack 0 reader scan.rows
    writeAndParseIdx sha1 packKey pack.length scan shown
  else do
    let (rows, shown) ← resolveDeltas scan onResolvedObject
    writeAndParseIdx sha1 packKey pack.length ⟨rows, scan.packChecksum⟩ shown

end GitOnCloudflare.Pack.Indexer
