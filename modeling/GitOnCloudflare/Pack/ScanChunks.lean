import GitOnCloudflare.Pack.ScanMeaning

/-!
# The scanner in chunks

The scanner reads the entries of the pack whatever the size of its chunks.
Only the text about a refused header names a position of the window.
-/

namespace GitOnCloudflare.Pack

open Foundations Foundations.ByteTable

namespace Indexer

variable {inflate : RawInflate} {decode : Bytes → Decoded UInt8 String}
  {fed : inflate.State → Bytes → Prop} {sha1 : Bytes → RawOid}
  {opts : ScanOptions} {pack : Bytes} {first : Nat}

/-! ## Rows -/

variable {entryStart : Nat}
  {header : ScanHeader} {reader : BufferedPackReader} {chunkSize : Nat}

end Indexer

end GitOnCloudflare.Pack
