import GitOnCloudflare.Foundations.ByteTable
import GitOnCloudflare.Foundations.StringBytes

/-!
# The catalog metadata bundle

The index and the reference sidecar of every active pack in one object, in the
order of the pack keys.  A bundle is read against a catalog, and its entries are
given in the order of the catalog.
-/

namespace GitOnCloudflare.Planner.CatalogBundle

open Foundations.ByteTable
open Foundations.StringBytes

def stockActivePackMaxCount : Nat := 64

def stockMetadataMaxBytes : Nat := 16 * 1024 * 1024

/-- The letters GOCMETA1. -/
def metadataMagic : List UInt8 :=
  [0x47, 0x4f, 0x43, 0x4d, 0x45, 0x54, 0x41, 0x31]

def fixedEntryBytes : Nat := 4 + 8 + 4 + 4

def maxSafeInteger : Int := 2 ^ 53 - 1

/-- One pack with its index and references. -/
structure BundleEntry where
  packKey : String
  packBytes : Int
  idx : List UInt8
  refs : List UInt8
deriving DecidableEq

/-- What the catalog says of a pack. -/
structure CatalogRow where
  packKey : String
  packBytes : Int
  idxBytes : Nat
deriving DecidableEq

/-- The row of an entry that is put. -/
def BundleEntry.row (entry : BundleEntry) : CatalogRow :=
  ⟨entry.packKey, entry.packBytes, entry.idx.length⟩

/-! ## Encoding -/

/-- A size as two words of four bytes. -/
def writeUint64 (value : Int) : Except String (List UInt8) :=
  if value < 0 ∨ maxSafeInteger < value then
    .error "catalog-metadata:pack-size"
  else
    .ok (bigEndian 4 (value.toNat / 2 ^ 32) ++ bigEndian 4 (value.toNat % 2 ^ 32))

/-- An entry as it is written: four lengths and three sections. -/
def writeEntry (entry : BundleEntry) : Except String (List UInt8) :=
  match writeUint64 entry.packBytes with
  | .error message => .error message
  | .ok packBytes =>
    let key := encode entry.packKey
    .ok (bigEndian 4 key.length ++ packBytes ++
      bigEndian 4 entry.idx.length ++ bigEndian 4 entry.refs.length ++
      key ++ entry.idx ++ entry.refs)

/-- The entries one after the other. -/
def writeEntries : List BundleEntry → Except String (List UInt8)
  | [] => .ok []
  | entry :: entries =>
    match writeEntry entry with
    | .error message => .error message
    | .ok written =>
      match writeEntries entries with
      | .error message => .error message
      | .ok rest => .ok (written ++ rest)

def entryBytes (entry : BundleEntry) : Nat :=
  fixedEntryBytes + (encode entry.packKey).length + entry.idx.length +
    entry.refs.length

def bundleBytes (entries : List BundleEntry) : Nat :=
  metadataMagic.length + 4 + (entries.map entryBytes).sum

/-- The bundle of all active packs. -/
def encodeCatalogMetadataBundle (entries : List BundleEntry) :
    Except String (List UInt8) :=
  if stockActivePackMaxCount < entries.length then
    .error "catalog-metadata:entry-count"
  else
    let ordered := sortByKey BundleEntry.packKey entries
    if ∃ entry ∈ ordered,
        0xffffffff < entry.idx.length ∨ 0xffffffff < entry.refs.length then
      .error "catalog-metadata:sidecar-size"
    else if stockMetadataMaxBytes < bundleBytes ordered then
      .error "catalog-metadata:bundle-size"
    else
      match writeEntries ordered with
      | .error message => .error message
      | .ok written =>
        .ok (metadataMagic ++ bigEndian 4 ordered.length ++ written)

/-! ## Decoding -/

/-- A size of two words, if it is a safe integer. -/
def readUint64 (bytes : List UInt8) (offset : Nat) : Except String Int :=
  let value : Int :=
    numberAt 4 bytes offset * 2 ^ 32 + numberAt 4 bytes (offset + 4)
  if maxSafeInteger < value then
    .error "catalog-metadata:pack-size"
  else
    .ok value

/-- An entry and the position behind it. -/
def readEntry (bytes : List UInt8) (offset : Nat) :
    Except String (BundleEntry × Nat) :=
  if bytes.length < offset + 20 then
    .error "catalog-metadata:truncated"
  else
    let keyBytes := numberAt 4 bytes offset
    match readUint64 bytes (offset + 4) with
    | .error message => .error message
    | .ok packBytes =>
      let idxBytes := numberAt 4 bytes (offset + 12)
      let refsBytes := numberAt 4 bytes (offset + 16)
      let start := offset + 20
      if bytes.length < start + keyBytes + idxBytes + refsBytes then
        .error "catalog-metadata:truncated"
      else
        match decodeFatal (slice bytes start keyBytes) with
        | none => .error "The encoded data was not valid for encoding utf-8"
        | some packKey =>
          .ok (⟨packKey, packBytes, slice bytes (start + keyBytes) idxBytes,
            slice bytes (start + keyBytes + idxBytes) refsBytes⟩,
            start + keyBytes + idxBytes + refsBytes)

/-- So many entries from an offset on. -/
def readEntries (bytes : List UInt8) :
    Nat → Nat → Except String (List BundleEntry × Nat)
  | 0, offset => .ok ([], offset)
  | count + 1, offset =>
    match readEntry bytes offset with
    | .error message => .error message
    | .ok (entry, next) =>
      match readEntries bytes count next with
      | .error message => .error message
      | .ok (entries, last) => .ok (entry :: entries, last)

/-- The entry of the last place a key has, as in a map that was filled in
order. -/
def entryByKey (entries : List BundleEntry) (packKey : String) :
    Option BundleEntry :=
  entries.reverse.find? fun entry => entry.packKey = packKey

/-- The entries of the expected rows, in their order. -/
def entriesOf (entries : List BundleEntry) :
    List CatalogRow → Except String (List BundleEntry)
  | [] => .ok []
  | row :: rows =>
    match entryByKey entries row.packKey with
    | none => .error "catalog-metadata:catalog-mismatch"
    | some entry =>
      match entriesOf entries rows with
      | .error message => .error message
      | .ok rest => .ok (entry :: rest)

/-- Read a bundle and match it with the rows. -/
def decodeCatalogMetadataBundle (bytes : List UInt8)
    (expected : List CatalogRow) : Except String (List BundleEntry) :=
  if bytes.length < metadataMagic.length + 4 ∨
      stockMetadataMaxBytes < bytes.length then
    .error "catalog-metadata:bundle-size"
  else if metadataMagic.isPrefixOf bytes = false then
    .error "catalog-metadata:magic"
  else
    let count := numberAt 4 bytes metadataMagic.length
    if stockActivePackMaxCount < count ∨ count ≠ expected.length then
      .error "catalog-metadata:entry-count"
    else
      match readEntries bytes count (metadataMagic.length + 4) with
      | .error message => .error message
      | .ok (entries, offset) =>
        if offset ≠ bytes.length then
          .error "catalog-metadata:trailing-bytes"
        else if entries.map BundleEntry.row ≠
            sortByKey CatalogRow.packKey expected then
          .error "catalog-metadata:catalog-mismatch"
        else
          entriesOf entries expected

end GitOnCloudflare.Planner.CatalogBundle
