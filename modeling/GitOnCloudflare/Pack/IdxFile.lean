import GitOnCloudflare.Foundations.Bisection
import GitOnCloudflare.Foundations.ByteTable
import GitOnCloudflare.Pack.SelectionTable
import Mathlib.Data.Fin.Basic

/-!
# Pack index files

The writer of version 2 index files, the reader that builds an index view,
and the lookups in a view: by object id, by offset, and the run of rows with
one id.
-/

namespace GitOnCloudflare.Pack

open Foundations.Bisection
open Foundations.ByteTable

/-! ## Tables -/

/-- The columns of the entry table that the index and the reference sidecar
are written from. -/
structure PackEntryTable (objectCount : Nat) where
  offsets : Fin objectCount → UInt32
  objectTypes : Fin objectCount → UInt8
  crc32s : Fin objectCount → UInt32
  oids : Fin objectCount → RawOid

/-- The difference of the first bytes that differ. -/
def compareBytes : Bytes → Bytes → Int
  | left :: lefts, right :: rights =>
    if left = right then
      compareBytes lefts rights
    else
      (left.toNat : Int) - right.toNat
  | _, _ => 0

def compareOids (left right : RawOid) : Int :=
  compareBytes left.bytes right.bytes

namespace PackEntryTable

variable {objectCount : Nat} (table : PackEntryTable objectCount)

/-- The order of the rows: by id, and entries with one id in pack order. -/
def rowBefore (left right : Fin objectCount) : Bool :=
  let difference := compareOids (table.oids left) (table.oids right)
  if difference = 0 then decide (left ≤ right) else decide (difference < 0)

def buildOidSortedEntryIndices : List (Fin objectCount) :=
  (List.finRange objectCount).mergeSort table.rowBefore

end PackEntryTable

/-! ## Writing -/

def idxMagic : Bytes := [0xff, 0x74, 0x4f, 0x63]

/-- Offsets from here on go to the table of 64-bit offsets. -/
def largeOffsetStart : Nat := 0x80000000

def firstByte (oid : RawOid) : Nat := (oid.bytes.headD 0).toNat

/-- Running totals, the first one on top of `cumulative`. -/
def cumulate : Nat → List Nat → List Nat
  | _, [] => []
  | cumulative, bucket :: buckets =>
    (cumulative + bucket) :: cumulate (cumulative + bucket) buckets

/-- The rows of the 32-bit offset table, and the offsets that it sends to the
64-bit table. -/
def splitOffsets : Nat → List Nat → List Nat × List Nat
  | _, [] => ([], [])
  | largeIdx, offset :: offsets =>
    if largeOffsetStart ≤ offset then
      let (small, large) := splitOffsets (largeIdx + 1) offsets
      ((largeOffsetStart ||| largeIdx) :: small, offset :: large)
    else
      let (small, large) := splitOffsets largeIdx offsets
      (offset :: small, large)

namespace PackEntryTable

variable {objectCount : Nat} (table : PackEntryTable objectCount)

/-- How many ids start with each byte. -/
def buckets : List Nat :=
  (List.range 256).map fun first =>
    table.buildOidSortedEntryIndices.countP fun entry =>
      decide (firstByte (table.oids entry) = first)

def sortedOffsetColumn : List Nat :=
  table.buildOidSortedEntryIndices.map fun entry =>
    (table.offsets entry).toNat

/-- Everything in front of the checksum of the index itself. -/
def idxBody (packChecksum : RawOid) : Bytes :=
  let sortedIndices := table.buildOidSortedEntryIndices
  let (offsets32, offsets64) := splitOffsets 0 table.sortedOffsetColumn
  idxMagic ++ bigEndian 4 2 ++
    (cumulate 0 table.buckets).flatMap (fun total => bigEndian 4 total) ++
    sortedIndices.flatMap (fun entry => (table.oids entry).bytes) ++
    sortedIndices.flatMap
      (fun entry => bigEndian 4 (table.crc32s entry).toNat) ++
    offsets32.flatMap (fun row => bigEndian 4 row) ++
    offsets64.flatMap
      (fun offset => bigEndian 4 0 ++ bigEndian 4 offset) ++
    packChecksum.bytes

def writeIdxV2 (sha1 : Bytes → RawOid) (packChecksum : RawOid) : Bytes :=
  let body := table.idxBody packChecksum
  body ++ (sha1 body).bytes

end PackEntryTable

/-! ## Reading -/

/-- A parsed index.  Rows are in id order. -/
structure IdxView where
  packKey : String
  count : Nat
  fanout : List Nat
  rawNames : Bytes
  offsets : List Nat
  nextOffsetByIndex : List Nat
  sortedOffsets : List Nat
  sortedOffsetIndices : List Nat
  packSize : Nat
  packChecksum : Bytes
  idxChecksum : Bytes

def idxTrailerBytes : Nat := 40

def maxSafeInteger : Nat := 2 ^ 53 - 1

def hexText (value : Nat) : String := String.ofList (Nat.toDigits 16 value)

def padStart (width : Nat) (text : String) : String :=
  String.ofList (List.replicate (width - text.length) '0') ++ text

/-- A 64-bit number, refused when a double cannot hold it. -/
def readUint64AsNumber (file : Bytes) (position : Nat) : Except String Nat :=
  let high := numberAt 4 file position
  let low := numberAt 4 file (position + 4)
  let value := high * 0x100000000 + low
  if maxSafeInteger < value then
    .error s!"idx: 64-bit offset 0x{hexText high}{padStart 8 (hexText low)} exceeds safe integer support"
  else
    .ok value

/-- The offset that a row of the 32-bit table stands for; the row may point
past the 64-bit table. -/
def readOffset (file : Bytes) (largeOffsetsStart largeOffsetsLimit : Nat)
    (row : Nat) : Except String (Option Nat) :=
  if row &&& 0x80000000 ≠ 0 then
    let position := largeOffsetsStart + (row &&& 0x7fffffff) * 8
    if largeOffsetsLimit < position + 8 then
      .ok none
    else
      (readUint64AsNumber file position).map some
  else
    .ok (some row)

def readOffsets (read : Nat → Except String (Option Nat)) :
    List Nat → Except String (Option (List Nat))
  | [] => .ok (some [])
  | row :: rows =>
    match read row with
    | .error failure => .error failure
    | .ok none => .ok none
    | .ok (some offset) =>
      (readOffsets read rows).map fun offsets =>
        offsets.map (offset :: ·)

/-- Store a value for each listed row. -/
def fillRows (column : List Nat) : List (Nat × Nat) → List Nat
  | [] => column
  | (row, value) :: rest => fillRows (column.set row value) rest

/-- The columns that are derived from the offsets. -/
def idxViewOf (packKey : String) (fanout : List Nat) (rawNames : Bytes)
    (offsets : List Nat) (packSize : Nat)
    (packChecksum idxChecksum : Bytes) : IdxView :=
  let count := offsets.length
  let sortedOffsetIndices :=
    (List.range count).mergeSort fun left right =>
      decide (offsets.getD left 0 ≤ offsets.getD right 0)
  let sortedOffsets :=
    sortedOffsetIndices.map fun row => offsets.getD row 0
  let nextOffsets := sortedOffsets.drop 1 ++ [packSize - 20]
  { packKey, count, fanout, rawNames, offsets
    nextOffsetByIndex :=
      fillRows (List.replicate count 0)
        (sortedOffsetIndices.zip nextOffsets)
    sortedOffsets, sortedOffsetIndices, packSize, packChecksum
    idxChecksum }

def parseIdxView (packKey : String) (idxBuf : Bytes) (packSize : Nat) :
    Except String (Option IdxView) :=
  if packSize < 20 ∨ maxSafeInteger < packSize then
    .error s!"idx: unsupported pack size {packSize}"
  else if idxBuf.length < 8 + 256 * 4 + idxTrailerBytes then
    .ok none
  else if slice idxBuf 0 4 ≠ idxMagic then
    .ok none
  else
    let version := numberAt 4 idxBuf 4
    if version ≠ 2 ∧ version ≠ 3 then
      .ok none
    else
      let fanout :=
        (List.range 256).map fun index => numberAt 4 idxBuf (8 + index * 4)
      let count := fanout.getD 255 0
      let namesStart := 8 + 256 * 4
      let namesEnd := namesStart + count * 20
      let crcsEnd := namesEnd + count * 4
      let offsetsStart := crcsEnd
      let offsetsEnd := offsetsStart + count * 4
      let largeOffsetsLimit := idxBuf.length - idxTrailerBytes
      if idxBuf.length < namesEnd ∨ largeOffsetsLimit < offsetsEnd then
        .ok none
      else
        let rows :=
          (List.range count).map fun index =>
            numberAt 4 idxBuf (offsetsStart + index * 4)
        let read := readOffset idxBuf offsetsEnd largeOffsetsLimit
        (readOffsets read rows).map fun offsets? =>
          offsets?.map fun offsets =>
            idxViewOf packKey fanout
              (slice idxBuf namesStart (count * 20)) offsets packSize
              (slice idxBuf (idxBuf.length - idxTrailerBytes) 20)
              (slice idxBuf (idxBuf.length - 20) 20)

/-! ## Lookups -/

/-- `sum >>> 1` -/
def unsignedHalf (first last : Int) : Int :=
  (first + last) % 0x100000000 / 2

/-- `sum >> 1`: the sum is taken as a signed 32-bit number. -/
def signedHalf (first last : Int) : Int :=
  let word := (first + last) % 0x100000000
  (if 0x80000000 ≤ word then word - 0x100000000 else word) / 2

/-- The branch that a search takes on a difference; `none` stands for a
difference that is not a number. -/
def branch : Option Int → Ordering
  | none => .gt
  | some difference =>
    if difference = 0 then .eq else if difference < 0 then .lt else .gt

/-- An inclusive range of rows. -/
structure OidRun where
  startIndex : Nat
  endIndex : Nat

namespace IdxView

variable (view : IdxView)

/-- The id in a row. -/
def nameAt (row : Nat) : Bytes := slice view.rawNames (row * 20) 20

/-- The loops below return `none` only when their rounds were not enough. -/
def rounds : Nat := view.count + 2

def findOffsetIndex (offset : Nat) : Option (Option Nat) :=
  let probe := fun mid : Int =>
    if 0 ≤ mid then
      branch
        ((view.sortedOffsets[mid.toNat]?).map fun value : Nat =>
          (value : Int) - offset)
    else
      branch none
  (bisect probe unsignedHalf view.rounds 0 (view.sortedOffsets.length - 1)).map
    fun found =>
      found.bind fun mid => view.sortedOffsetIndices[mid.toNat]?

def getNextOffset (offset : Nat) : Option (Option Nat) :=
  (view.findOffsetIndex offset).map fun found =>
    found.bind fun index => view.nextOffsetByIndex[index]?

/-- Bytes outside the name table are not numbers. -/
def compareOidAt (index : Int) (needle : Bytes) (needleStart : Nat) :
    Option Int :=
  if 0 ≤ index ∧ index < view.count then
    some
      (compareBytes (view.nameAt index.toNat)
        (slice needle needleStart 20))
  else
    none

def findOidIndexFromBytes (needle : Bytes) (needleStart : Int) : Option Int :=
  if needleStart < 0 ∨ needle.length < needleStart + 20 then
    some (-1)
  else
    let start := needleStart.toNat
    let first := (needle.getD start 0).toNat
    let low := if first = 0 then 0 else view.fanout.getD (first - 1) 0
    let high := (view.fanout.getD first 0 : Int) - 1
    if high < low then
      some (-1)
    else
      (bisect (fun mid => branch (view.compareOidAt mid needle start))
        signedHalf view.rounds low high).map fun found => found.getD (-1)

def oidAtIndexMatches (index : Nat) (oid : Bytes) : Bool :=
  decide (view.nameAt index = oid)

/-- `startIndex` after the first loop. -/
def firstOfRun (oid : Bytes) : Nat → Nat
  | 0 => 0
  | index + 1 =>
    if view.oidAtIndexMatches index oid then
      firstOfRun oid index
    else
      index + 1

/-- `endIndex` after the second loop, with `rows` rows behind it. -/
def lastOfRun (oid : Bytes) : Nat → Nat → Nat
  | 0, index => index
  | rows + 1, index =>
    if view.oidAtIndexMatches (index + 1) oid then
      lastOfRun oid rows (index + 1)
    else
      index

/-- The run of rows with a raw id; an id of another length has none. -/
def findOidRunInIdx (oid : Bytes) : Option (Option OidRun) :=
  if oid.length ≠ 20 then
    some none
  else
    (view.findOidIndexFromBytes oid 0).map fun hitIndex =>
      if hitIndex < 0 then
        none
      else
        let hit := hitIndex.toNat
        some
          ⟨view.firstOfRun oid hit,
            view.lastOfRun oid (view.count - 1 - hit) hit⟩

end IdxView

end GitOnCloudflare.Pack
