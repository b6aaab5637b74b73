import GitOnCloudflare.Pack.EntryHeader

/-!
# Delta programs

A delta program declares the size of its base and of its result and then
copies ranges of the base and inserts bytes of its own.  The interpreter reads
its numbers with 32-bit operators; an argument byte past the end of the
program reads as zero.
-/

namespace GitOnCloudflare.Pack

/-- The groups of a size, least significant first. -/
def readVarint : Bytes → Nat → BitVec 32 → Except String (BitVec 32 × Bytes)
  | [], _, _ => .error "delta:truncated-varint"
  | byte :: rest, shift, out =>
    let read := out ||| (BitVec.ofNat 32 (lowBits byte) <<< (shift % 32))
    if hasMore byte then
      readVarint rest (shift + 7) read
    else
      .ok (read, rest)

/-- `if (opcode & flag) out |= delta[pos++] << shift`. -/
def readArgument (opcode : UInt8) (flag shift : Nat) (out : BitVec 32)
    (delta : Bytes) : BitVec 32 × Bytes :=
  if opcode.toNat / flag % 2 = 1 then
    (out ||| (BitVec.ofNat 32 (delta.headD 0).toNat <<< shift), delta.tail)
  else
    (out, delta)

/-- The offset and the size a copy opcode carries. -/
def readCopy (opcode : UInt8) (delta : Bytes) : Int × Int × Bytes :=
  let (offset, delta) := readArgument opcode 0x01 0 0 delta
  let (offset, delta) := readArgument opcode 0x02 8 offset delta
  let (offset, delta) := readArgument opcode 0x04 16 offset delta
  let (offset, delta) := readArgument opcode 0x08 24 offset delta
  let (size, delta) := readArgument opcode 0x10 0 0 delta
  let (size, delta) := readArgument opcode 0x20 8 size delta
  let (size, delta) := readArgument opcode 0x40 16 size delta
  (offset.toInt, if size.toInt = 0 then 0x10000 else size.toInt, delta)

/-- `out.set(bytes, outPos)`, which refuses to write past the result. -/
def writeOut (resultSize : Nat) (out bytes : Bytes) : Except String Bytes :=
  if out.length + bytes.length ≤ resultSize then
    .ok (out ++ bytes)
  else
    .error "RangeError: offset is out of bounds"

/-- The opcode loop; every round reads at least the opcode. -/
def runOpcodes (base : Bytes) (resultSize : Nat) :
    Nat → Bytes → Bytes → Except String Bytes
  | fuel + 1, opcode :: delta, out =>
    if 0x80 ≤ opcode.toNat then
      let (offset, size, delta) := readCopy opcode delta
      if offset < 0 ∨ (base.length : Int) < offset + size then
        .error "delta:copy-out-of-bounds"
      else do
        let out ←
          writeOut resultSize out
            ((base.drop offset.toNat).take size.toNat)
        runOpcodes base resultSize fuel delta out
    else if opcode = 0 then
      .error "delta:invalid-opcode"
    else if delta.length < opcode.toNat then
      .error "delta:insert-out-of-bounds"
    else do
      let out ← writeOut resultSize out (delta.take opcode.toNat)
      runOpcodes base resultSize fuel (delta.drop opcode.toNat) out
  | _, _, out =>
    if out.length = resultSize then
      .ok out
    else
      .error "delta:result-size-mismatch"

def applyGitDelta (base delta : Bytes) (maxResultBytes : Option Nat) :
    Except String Bytes := do
  let (baseSize, delta) ← readVarint delta 0 0
  let (resultSize, delta) ← readVarint delta 0 0
  if baseSize.toInt ≠ base.length then
    .error "delta:base-size-mismatch"
  else if maxResultBytes.any fun limit => (limit : Int) < resultSize.toInt then
    .error "delta:result-size-limit"
  else if resultSize.toInt < 0 then
    .error s!"RangeError: Invalid typed array length: {resultSize.toInt}"
  else
    runOpcodes base resultSize.toInt.toNat delta.length delta []

end GitOnCloudflare.Pack
