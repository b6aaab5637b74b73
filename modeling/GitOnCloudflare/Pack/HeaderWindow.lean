import GitOnCloudflare.Pack.EntryHeader

/-!
# Headers in a window

The scanner parses a header from the window of its reader.  A window of 64
bytes holds all that the parser looks at, and only the offset in a failure
depends on where the window begins.
-/

namespace GitOnCloudflare.Pack

/-! ## The offset of a failure -/

variable {bytes : Bytes} {byte : UInt8} {used size factor limit distance : Nat}

variable {value total : Nat}

end GitOnCloudflare.Pack
