import GitOnCloudflare.Pack.RefSidecarExact

/-!
# The reference index of the container

The container writes the reference sidecar of a pack that git has indexed: it
asks git for the objects in index order and scans their payloads on its own.
-/

namespace GitOnCloudflare.Container

open Foundations.ByteTable
open Pack

/-! ## References of an object -/

def decodeObjectID (value : Bytes) : Option Bytes :=
  if value.length < 40 then none
  else readHexPairs oidBytes (value.take 40)

/-- The lines of a payload before the first empty one. -/
def headLines (payload : Bytes) : List Bytes :=
  (splitLines payload).takeWhile fun line => decide (line ≠ [])

/-- The ids that a line gives for some prefixes, in their order. -/
def prefixedObjectIDs (prefixes : List Bytes) (line : Bytes) : List Bytes :=
  prefixes.filterMap fun linePrefix =>
    if linePrefix.isPrefixOf line then
      decodeObjectID (line.drop linePrefix.length)
    else
      none

/-- The trees and parents of a header, in order. -/
def parseCommitReferences (payload : Bytes) : List Bytes :=
  (headLines payload).flatMap
    (prefixedObjectIDs [treeLinePrefix, parentLinePrefix])

/-- The target read last, and whether the type read last is one. -/
structure TagScan where
  target : Option Bytes
  hasType : Bool

def isTargetTypeName (name : Bytes) : Bool := decide (name ∈ targetTypeNames)

def TagScan.read (scan : TagScan) (line : Bytes) : TagScan where
  target :=
    if objectLinePrefix.isPrefixOf line then
      decodeObjectID (line.drop objectLinePrefix.length)
    else
      scan.target
  hasType :=
    if typeLinePrefix.isPrefixOf line then
      isTargetTypeName (line.drop typeLinePrefix.length)
    else
      scan.hasType

/-- The target of a tag with a type line. -/
def parseTagReferences (payload : Bytes) : List Bytes :=
  let scan := (headLines payload).foldl TagScan.read ⟨none, false⟩
  match scan.target with
  | none => []
  | some target => if scan.hasType then [target] else []

/-- The loop over tree entries; every round reads at least one id. -/
def readTreeEntries : Nat → Bytes → Except String (List Bytes)
  | 0, _ => .ok []
  | _ + 1, [] => .ok []
  | fuel + 1, first :: more =>
    let payload := first :: more
    let mode := payload.takeWhile fun byte => decide (byte ≠ 0x20)
    match payload.dropWhile fun byte => decide (byte ≠ 0x20) with
    | [] => .error "invalid tree mode"
    | _ :: name =>
      match name.dropWhile fun byte => decide (byte ≠ 0x00) with
      | [] => .error "invalid tree name"
      | _ :: raw =>
        if raw.length < oidBytes then
          .error "truncated tree object id"
        else
          match readTreeEntries fuel (raw.drop oidBytes) with
          | .error failure => .error failure
          | .ok refs =>
            .ok ((if mode = gitlinkMode then []
              else [raw.take oidBytes]) ++ refs)

/-- The entries of a tree but its gitlinks. -/
def parseTreeReferences (payload : Bytes) : Except String (List Bytes) :=
  readTreeEntries payload.length payload

/-- The type code and references of an object. -/
def logicalReferences (object : GitObject) :
    Except String (UInt8 × List Bytes) :=
  match object.type with
  | .commit => .ok (1, parseCommitReferences object.payload)
  | .tree =>
    match parseTreeReferences object.payload with
    | .error failure => .error failure
    | .ok refs => .ok (2, refs)
  | .blob => .ok (3, [])
  | .tag => .ok (4, parseTagReferences object.payload)

/-! ## The index file -/

/-- The ids and digests of an index file. -/
structure ParsedIndex where
  oids : List Bytes
  packChecksum : Bytes
  idxChecksum : Bytes
deriving DecidableEq

/-- Read an index file and check it. -/
def parseIndex (sha1 : Bytes → RawOid) (data : Bytes) :
    Except String ParsedIndex :=
  if data.length < 8 + 256 * 4 + 40 ∨ data.take 4 ≠ idxMagic then
    .error "unsupported pack index"
  else if numberAt 4 data 4 ≠ 2 then
    .error "unsupported pack index version"
  else
    let count := numberAt 4 data (8 + 255 * 4)
    let oidStart := 8 + 256 * 4
    if data.length - 40 < oidStart + count * oidBytes then
      .error "truncated pack index object ids"
    else if (sha1 (data.take (data.length - 20))).bytes ≠
        data.drop (data.length - 20) then
      .error "pack index checksum mismatch"
    else
      .ok
        { oids := (List.range count).map fun index =>
            slice data (oidStart + index * oidBytes) oidBytes
          packChecksum := slice data (data.length - 40) 20
          idxChecksum := data.drop (data.length - 20) }

/-! ## Objects in index order -/

def maximumMetadataObjectBytes : Nat := 512 * 1024 * 1024

structure ObjectMetadata where
  typeCodes : Bytes
  refStarts : List Nat
  refs : List Bytes
  refCount : Nat

/-- The objects are read one by one; `catFile` is what git answers for an
id.  The count is a 32-bit number. -/
def streamObjectMetadata (catFile : Bytes → Option GitObject) :
    Nat → List Bytes → Except String ObjectMetadata
  | refCount, [] => .ok ⟨[], [refCount], [], refCount⟩
  | refCount, oid :: oids =>
    match catFile oid with
    | none => .error "unexpected cat-file response"
    | some object =>
      if object.type ≠ .blob ∧
          maximumMetadataObjectBytes < object.payload.length then
        .error "metadata object exceeds processor capacity"
      else
        match logicalReferences object with
        | .error failure => .error failure
        | .ok (typeCode, refs) =>
          match streamObjectMetadata catFile
              ((refCount + refs.length) % 2 ^ 32) oids with
          | .error failure => .error failure
          | .ok later =>
            .ok
              { typeCodes := typeCode :: later.typeCodes
                refStarts := refCount :: later.refStarts
                refs := refs ++ later.refs
                refCount := later.refCount }

/-! ## The sidecar -/

def writePackRefHeader (objectCount packBytes : Nat)
    (packChecksum idxChecksum : Bytes) : Bytes :=
  bigEndian 4 packRefMagic ++ bigEndian 4 packRefVersion ++
    bigEndian 4 objectCount ++ bigEndian 8 packBytes ++ packChecksum ++
    idxChecksum

structure BuiltReferenceIndex where
  objectCount : Nat
  packChecksum : String
  bytes : Bytes

/-- The reference file of a pack. -/
def buildPackReferenceIndex (sha1 : Bytes → RawOid)
    (catFile : Bytes → Option GitObject) (packSize : Nat) (idxBytes : Bytes) :
    Except String BuiltReferenceIndex :=
  match parseIndex sha1 idxBytes with
  | .error failure => .error failure
  | .ok index =>
    match streamObjectMetadata catFile 0 index.oids with
    | .error failure => .error failure
    | .ok metadata =>
      if metadata.refCount ≠ metadata.refStarts.getLastD 0 then
        .error "reference count mismatch"
      else
        .ok
          { objectCount := index.oids.length
            packChecksum := bytesToHex index.packChecksum
            bytes :=
              writePackRefHeader index.oids.length packSize
                  index.packChecksum index.idxChecksum ++
                metadata.typeCodes ++
                metadata.refStarts.flatMap (bigEndian 4) ++
                metadata.refs.flatten }

end GitOnCloudflare.Container
