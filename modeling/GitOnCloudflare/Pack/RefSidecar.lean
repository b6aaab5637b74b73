import GitOnCloudflare.Pack.IdxFile
import GitOnCloudflare.Pack.LogicalRefs

/-!
# The reference sidecar

Next to the index of a pack stands a file with the type and the references of
every object, row by row in the order of the index.
-/

namespace GitOnCloudflare.Pack

open Foundations.ByteTable

/-! ## Types -/

def typeCodeToObjectType (typeCode : UInt8) : Option GitObjectType :=
  if typeCode = 1 then some .commit
  else if typeCode = 2 then some .tree
  else if typeCode = 3 then some .blob
  else if typeCode = 4 then some .tag
  else none

/-- The code that a resolved object has in the entry table. -/
def GitObjectType.typeCode : GitObjectType → UInt8
  | .commit => 1
  | .tree => 2
  | .blob => 3
  | .tag => 4

theorem typeCodeToObjectType_typeCode (type : GitObjectType) :
    typeCodeToObjectType type.typeCode = some type := by
  cases type <;> rfl

/-- Two hex digits for every byte. -/
def bytesToHex (bytes : Bytes) : String :=
  String.join (bytes.map fun byte => padStart 2 (hexText byte.toNat))

/-! ## Building -/

/-- The references recorded so far. -/
structure PackRefsBuilder (objectCount : Nat) where
  rawRefsByEntry : Fin objectCount → Option Bytes

structure PackRefBuildResult where
  bytes : Bytes
  objectCount : Nat
  refCount : Nat
  refIndexBytes : Nat

def packRefMagic : Nat := 0x50524546

def packRefVersion : Nat := 1

def packRefHeaderBytes : Nat := 4 + 4 + 4 + 8 + 20 + 20

/-- A 64-bit number in two halves. -/
def writeUint64 (value : Int) : Except String Bytes :=
  if value < 0 ∨ maxSafeInteger < value then
    .error s!"ref-index: unsupported 64-bit value {value}"
  else
    .ok
      (bigEndian 4 (value.toNat / 0x100000000) ++
        bigEndian 4 (value.toNat % 0x100000000))

/-- The number of references before each row, and of all rows. -/
def refStartsFrom : Nat → List Bytes → List Nat
  | refCount, [] => [refCount]
  | refCount, refs :: rows =>
    refCount :: refStartsFrom (refCount + refs.length / oidBytes) rows

namespace PackRefsBuilder

variable {objectCount : Nat}

def empty : PackRefsBuilder objectCount := ⟨fun _ => none⟩

def recordObject (builder : PackRefsBuilder objectCount)
    (index : Fin objectCount) (object : GitObject) :
    PackRefsBuilder objectCount :=
  ⟨Function.update builder.rawRefsByEntry index
    (some (objectRefBytes object))⟩

/-- The recorded references of an entry that passes the checks. -/
def checkedRefs (builder : PackRefsBuilder objectCount)
    (table : PackEntryTable objectCount) (entry : Fin objectCount) :
    Except String Bytes :=
  match typeCodeToObjectType (table.objectTypes entry) with
  | none => .error s!"ref-index: unresolved object type for entry {entry}"
  | some _ =>
    match builder.rawRefsByEntry entry with
    | none => .error s!"ref-index: missing logical refs for entry {entry}"
    | some refs =>
      if refs.length % oidBytes ≠ 0 then
        .error s!"ref-index: invalid logical refs for entry {entry}"
      else
        .ok refs

def build (builder : PackRefsBuilder objectCount)
    (table : PackEntryTable objectCount) (packBytes : Int)
    (packChecksum idxChecksum : RawOid) :
    Except String PackRefBuildResult := do
  let sortedIndices := table.buildOidSortedEntryIndices
  let rows ← sortedIndices.mapM (builder.checkedRefs table)
  let refCount := (rows.map fun refs => refs.length / oidBytes).sum
  let size ← writeUint64 packBytes
  let bytes :=
    bigEndian 4 packRefMagic ++ bigEndian 4 packRefVersion ++
      bigEndian 4 objectCount ++ size ++ packChecksum.bytes ++
      idxChecksum.bytes ++
      sortedIndices.map table.objectTypes ++
      (refStartsFrom 0 rows).flatMap (fun start => bigEndian 4 start) ++
      rows.flatten
  .ok ⟨bytes, objectCount, refCount, bytes.length⟩

end PackRefsBuilder

/-! ## Parsing -/

structure PackRefView where
  packKey : String
  objectCount : Nat
  packBytes : Nat
  packChecksum : Bytes
  idxChecksum : Bytes
  typeCodes : Bytes
  refStartsBytes : Bytes
  rawRefs : Bytes
deriving DecidableEq

inductive PackRefValidationKind where
  | corrupt
  | stale
deriving DecidableEq

inductive PackRefViewLoadResult where
  | ready (view : PackRefView)
  | missing
  | invalid (kind : PackRefValidationKind) (reason : String)
deriving DecidableEq

def readUint64 (file : Bytes) (position : Nat) : Except String Nat :=
  let value :=
    numberAt 4 file position * 0x100000000 + numberAt 4 file (position + 4)
  if maxSafeInteger < value then
    .error "ref-index: pack byte count exceeds safe integer support"
  else
    .ok value

/-- Everything behind the pack size, from the checksums on. -/
def parsePackRefSections (packKey : String) (bytes : Bytes) (idx : IdxView)
    (objectCount packBytes : Nat) : PackRefViewLoadResult :=
  let packChecksum := slice bytes 20 20
  let idxChecksum := slice bytes 40 20
  if packChecksum ≠ idx.packChecksum then
    .invalid .stale "pack-checksum-mismatch"
  else if idxChecksum ≠ idx.idxChecksum then
    .invalid .stale "idx-checksum-mismatch"
  else if bytes.length < packRefHeaderBytes + objectCount then
    .invalid .corrupt "truncated-type-codes"
  else
    let typeCodes := slice bytes packRefHeaderBytes objectCount
    let startsAt := packRefHeaderBytes + objectCount
    let startsBytes := (objectCount + 1) * 4
    if typeCodes.any fun code => (typeCodeToObjectType code).isNone then
      .invalid .corrupt "invalid-type-code"
    else if bytes.length < startsAt + startsBytes then
      .invalid .corrupt "truncated-ref-starts"
    else
      let refStartsBytes := slice bytes startsAt startsBytes
      if (List.range objectCount).any fun index =>
          decide
            (numberAt 4 bytes (startsAt + (index + 1) * 4) <
              numberAt 4 bytes (startsAt + index * 4)) then
        .invalid .corrupt "non-monotonic-ref-starts"
      else
        let rawRefs := bytes.drop (startsAt + startsBytes)
        let finalRefOffset := numberAt 4 refStartsBytes (objectCount * 4)
        if finalRefOffset * oidBytes ≠ rawRefs.length then
          .invalid .corrupt "invalid-final-ref-offset"
        else
          .ready
            { packKey, objectCount, packBytes, packChecksum, idxChecksum
              typeCodes, refStartsBytes, rawRefs }

def parsePackRefView (packKey : String) (bytes : Bytes) (idx : IdxView) :
    PackRefViewLoadResult :=
  if bytes.length < packRefHeaderBytes then
    .invalid .corrupt "truncated-header"
  else if numberAt 4 bytes 0 ≠ packRefMagic then
    .invalid .corrupt "bad-magic"
  else if numberAt 4 bytes 4 ≠ packRefVersion then
    .invalid .corrupt "bad-version"
  else
    let objectCount := numberAt 4 bytes 8
    if objectCount ≠ idx.count then
      .invalid .stale "object-count-mismatch"
    else
      match readUint64 bytes 12 with
      | .error _ => .invalid .corrupt "pack-bytes-overflow"
      | .ok packBytes =>
        if packBytes ≠ idx.packSize then
          .invalid .stale "pack-bytes-mismatch"
        else
          parsePackRefSections packKey bytes idx objectCount packBytes

/-! ## Reading a row -/

namespace PackRefView

variable (view : PackRefView)

def getPackRefTypeCode (oidIndex : Int) : Option UInt8 :=
  if oidIndex < 0 ∨ view.objectCount ≤ oidIndex then
    none
  else
    view.typeCodes[oidIndex.toNat]?

def getPackRefObjectType (oidIndex : Int) : Option GitObjectType :=
  (view.getPackRefTypeCode oidIndex).bind typeCodeToObjectType

def getPackRefStart (oidIndex : Nat) : Nat :=
  numberAt 4 view.refStartsBytes (oidIndex * 4)

def getPackRefRawRefAt (oidIndex refOffset : Int) : Option Bytes :=
  if oidIndex < 0 ∨ view.objectCount ≤ oidIndex ∨ refOffset < 0 then
    none
  else
    let refIndex := view.getPackRefStart oidIndex.toNat + refOffset.toNat
    if view.getPackRefStart (oidIndex.toNat + 1) ≤ refIndex then
      none
    else
      some (slice view.rawRefs (refIndex * oidBytes) oidBytes)

/-- The positions in `rawRefs` that the visitor is called with, in order. -/
def visitPackRefRawRefsAt (oidIndex : Int) : List Nat :=
  if oidIndex < 0 ∨ view.objectCount ≤ oidIndex then
    []
  else
    let refStart := view.getPackRefStart oidIndex.toNat
    let refEnd := view.getPackRefStart (oidIndex.toNat + 1)
    (List.range' refStart (refEnd - refStart)).map (· * oidBytes)

def getPackRefRefsAt (oidIndex : Int) : List String :=
  if oidIndex < 0 ∨ view.objectCount ≤ oidIndex then
    []
  else
    (view.visitPackRefRawRefsAt oidIndex).map fun byteStart =>
      bytesToHex (slice view.rawRefs byteStart oidBytes)

end PackRefView

end GitOnCloudflare.Pack
