import GitOnCloudflare.Pack.PackScan

/-!
# Building a pack in memory

A pack of whole objects, with its index and its reference sidecar, built
without reading the pack again.  The scanner decodes the headers of the
entries.
-/

namespace GitOnCloudflare.Pack

open Foundations.ByteTable

/-! ## Headers -/

/-- A number as the operand of a signed 32-bit operator. -/
def signedWord (value : Nat) : Int :=
  let word : Nat := value % 2 ^ 32
  if 2 ^ 31 ≤ word then (word : Int) - 2 ^ 32 else word

/-- The loop over the rest of a size. -/
def encodeSizeTail (size : Nat) : Bytes :=
  if size = 0 then
    []
  else if size / 128 = 0 then
    [UInt8.ofNat (size % 128)]
  else
    UInt8.ofNat (size % 128 + 128) :: encodeSizeTail (size / 128)
termination_by size

/-- The size is shifted as a signed word: nothing follows the first byte of a
negative one. -/
def encodeObjHeader (type size : Nat) : Bytes :=
  let first := type * 16 + size % 16
  let shifted := signedWord size / 16
  if 0 < shifted then
    UInt8.ofNat (first + 128) :: encodeSizeTail shifted.toNat
  else
    [UInt8.ofNat first]

theorem toNat_ofNat_small {value : Nat} (small : value < 256) :
    (UInt8.ofNat value).toNat = value :=
  UInt8.toNat_ofNat_of_lt' small

variable {size : Nat}

theorem encodeObjHeader_of_lt (type : Nat) (small : size < 2 ^ 31) :
    encodeObjHeader type size =
      if size / 16 = 0 then
        [UInt8.ofNat (type * 16 + size % 16)]
      else
        UInt8.ofNat (type * 16 + size % 16 + 128) ::
          encodeSizeTail (size / 16) := by
  have positive : signedWord size = size := by
    unfold signedWord
    dsimp only
    rw [Nat.mod_eq_of_lt (by omega), if_neg (by omega)]
  unfold encodeObjHeader
  rw [positive]
  dsimp only
  by_cases none_ : size / 16 = 0
  · rw [if_pos none_, if_neg (by omega)]
  · rw [if_neg none_, if_pos (by omega)]
    congr 1

theorem length_encodeSizeTail_le (groups : Nat) (small : size < 128 ^ groups) :
    (encodeSizeTail size).length ≤ groups := by
  induction groups generalizing size with
  | zero =>
    have none_ : size = 0 := by
      rw [pow_zero] at small
      omega
    unfold encodeSizeTail
    rw [if_pos none_]
    exact le_refl 0
  | succ groups ih =>
    unfold encodeSizeTail
    split
    · exact Nat.zero_le _
    · split
      · exact Nat.succ_le_succ (Nat.zero_le _)
      · apply Nat.succ_le_succ
        apply ih
        rw [pow_succ] at small
        exact Nat.div_lt_of_lt_mul (by rwa [Nat.mul_comm])

theorem length_encodeObjHeader (type : Nat) (small : size < 2 ^ 31) :
    0 < (encodeObjHeader type size).length ∧
      (encodeObjHeader type size).length ≤ 5 := by
  rw [encodeObjHeader_of_lt type small]
  split
  · exact ⟨Nat.zero_lt_one, Nat.succ_le_succ (Nat.zero_le _)⟩
  · have tail : (encodeSizeTail (size / 16)).length ≤ 4 :=
      length_encodeSizeTail_le 4 (by omega)
    rw [List.length_cons]
    exact ⟨Nat.succ_pos _, Nat.succ_le_succ tail⟩

/-- The scanner reads what is left of a size. -/
theorem continueSize_encodeSizeTail (some_ : size ≠ 0) {byte : UInt8}
    (more : hasMore byte = true) {sum factor : Nat} (used : Nat) (rest : Bytes)
    (factor_pos : 0 < factor) (fits : sum + size * factor ≤ maxPackObjectSize) :
    continueSize byte sum factor used (encodeSizeTail size ++ rest) =
      .value (sum + size * factor)
        (used + (encodeSizeTail size).length) := by
  induction size using Nat.strong_induction_on
    generalizing byte sum factor used with
  | _ size ih =>
  have parts : sum + size * factor =
      sum + size % 128 * factor + size / 128 * (factor * 128) := by
    calc
      sum + size * factor
          = sum + (128 * (size / 128) + size % 128) * factor := by
        rw [Nat.div_add_mod]
      _ = sum + size % 128 * factor + size / 128 * (factor * 128) := by
        ring
  have group : size % 128 < 128 := Nat.mod_lt _ (by omega)
  unfold encodeSizeTail
  rw [if_neg some_]
  by_cases last : size / 128 = 0
  · rw [if_pos last]
    have low : lowBits (UInt8.ofNat (size % 128)) = size % 128 := by
      unfold lowBits
      rw [toNat_ofNat_small (by omega)]
      exact Nat.mod_mod _ _
    have ends : hasMore (UInt8.ofNat (size % 128)) = false := by
      unfold hasMore
      rw [toNat_ofNat_small (by omega)]
      exact decide_eq_false (by omega)
    rw [last, Nat.zero_mul, Nat.add_zero] at parts
    rw [List.singleton_append, List.length_singleton]
    unfold continueSize
    rw [if_pos more]
    dsimp only
    rw [low, ends, ← parts, if_neg (by omega), if_neg (by decide)]
  · rw [if_neg last, List.cons_append, List.length_cons]
    have low : lowBits (UInt8.ofNat (size % 128 + 128)) = size % 128 := by
      unfold lowBits
      rw [toNat_ofNat_small (by omega)]
      omega
    have goesOn := hasMore_marked group
    have within : factor * 128 ≤ maxPackObjectSize := by
      have once : 1 * (factor * 128) ≤ size / 128 * (factor * 128) :=
        Nat.mul_le_mul_right _ (by omega)
      omega
    have safe : ¬ maxSafe < factor * 128 := by
      have bound : maxPackObjectSize ≤ maxSafe := by decide
      omega
    unfold continueSize
    rw [if_pos more]
    dsimp only
    rw [low, goesOn, if_neg (by omega), if_pos rfl, if_neg safe,
      ih (size / 128) (by omega) last goesOn (used + 1) (by omega)
        (by omega), ← parts]
    congr 1
    omega

/-- The first byte of a written header holds the type, and the scanner's loop
over what follows it ends with the size. -/
theorem continueSize_encodeObjHeader {type size : Nat} (typed : type < 8)
    (small : size < 2 ^ 31) :
    ∃ byte rest, encodeObjHeader type size = byte :: rest ∧
      typeBits byte = type ∧
      ∀ more, continueSize byte (byte.toNat % 16) 16 1 (rest ++ more) =
        .value size (encodeObjHeader type size).length := by
  rw [encodeObjHeader_of_lt type small]
  by_cases none_ : size / 16 = 0
  · rw [if_pos none_]
    have byte : (UInt8.ofNat (type * 16 + size % 16)).toNat =
        type * 16 + size % 16 := toNat_ofNat_small (by omega)
    refine ⟨_, [], rfl, ?_, ?_⟩
    · unfold typeBits
      rw [byte]
      omega
    · intro more
      have ends : hasMore (UInt8.ofNat (type * 16 + size % 16)) =
          false := by
        unfold hasMore
        rw [byte]
        exact decide_eq_false (by omega)
      rw [byte, List.nil_append]
      cases more <;>
        · unfold continueSize
          rw [ends, if_neg (by decide)]
          congr 1
          omega
  · rw [if_neg none_]
    have byte : (UInt8.ofNat (type * 16 + size % 16 + 128)).toNat =
        type * 16 + size % 16 + 128 := toNat_ofNat_small (by omega)
    refine ⟨_, encodeSizeTail (size / 16), rfl, ?_, ?_⟩
    · unfold typeBits
      rw [byte]
      omega
    · intro more
      have goesOn : hasMore
          (UInt8.ofNat (type * 16 + size % 16 + 128)) = true := by
        unfold hasMore
        rw [byte]
        exact decide_eq_true (by omega)
      have bound : maxPackObjectSize = 0xffffffff := rfl
      rw [byte, continueSize_encodeSizeTail none_ goesOn 1 more
        (by omega) (by omega), List.length_cons]
      congr 1 <;> omega

/-- The scanner reads the header that the builder wrote. -/
theorem parseEntryHeader_encodeObjHeader {type : Nat}
    (whole : 0 < type ∧ type < 5) (small : size < 2 ^ 31) {buf more : Bytes}
    {pos : Nat} (at_ : buf.drop pos = encodeObjHeader type size ++ more) :
    parseEntryHeader buf pos =
      .ok (some ⟨type, size, (encodeObjHeader type size).length, none,
        none⟩) := by
  rcases @continueSize_encodeObjHeader type size (by omega) small with
    ⟨byte, rest, start, typed, sized⟩
  rw [start, List.cons_append] at at_
  have free : isReservedPackType type = false := by
    unfold isReservedPackType
    rw [decide_eq_false (by omega), decide_eq_false (by omega)]
    rfl
  unfold parseEntryHeader
  rw [at_]
  dsimp only
  rw [typed, free, sized]
  dsimp only
  rw [if_neg (by decide), if_neg (by omega), if_neg (by omega)]

/-! ## Artifacts -/

structure PackV2Artifacts where
  pack : Bytes
  idx : Bytes
  refs : Bytes

/-- The header of a pack of version 2. -/
def packHeader (objectCount : Nat) : Bytes :=
  Indexer.packMagic ++ bigEndian 4 2 ++ bigEndian 4 objectCount

section Build

variable (sha1 : Bytes → RawOid) (deflate : Bytes → Bytes)

/-- One round of the loop: the row and the bytes of the entry. -/
def buildEntry (offset : Nat) (object : GitObject) : EntryRow × Bytes :=
  let typeCode := object.type.typeCode
  let entryHeader :=
    encodeObjHeader typeCode.toNat object.payload.length
  let compressed := deflate object.payload
  let crc := crc32Update (crc32Update crc32Init entryHeader) compressed
  ({ allocatedRow with
      offset := UInt32.ofNat offset
      type := typeCode
      headerLen := UInt16.ofNat entryHeader.length
      spanEnd :=
        UInt32.ofNat (offset + entryHeader.length + compressed.length)
      crc32 := crc32Finish crc }.record sha1 object,
    entryHeader ++ compressed)

/-- The next offset is read back from the table. -/
def buildEntries : Nat → List GitObject → List EntryRow × Bytes
  | _, [] => ([], [])
  | offset, object :: objects =>
    let (row, part) := buildEntry sha1 deflate offset object
    let (rows, parts) := buildEntries row.spanEnd.toNat objects
    (row :: rows, part ++ parts)

/-- The parts are the ones of a pack without its artifacts. -/
theorem buildEntries_parts (offset : Nat) (objs : List GitObject) :
    (buildEntries sha1 deflate offset objs).2 =
      objs.flatMap fun object =>
        encodeObjHeader object.type.typeCode.toNat object.payload.length ++
          deflate object.payload := by
  induction objs generalizing offset with
  | nil => rfl
  | cons object objs ih =>
    rw [List.flatMap_cons, ← ih]
    rfl

theorem length_buildEntries (offset : Nat) (objs : List GitObject) :
    (buildEntries sha1 deflate offset objs).1.length = objs.length := by
  induction objs generalizing offset with
  | nil => rfl
  | cons object objs ih =>
    rw [List.length_cons, ← ih]
    rfl

/-- Every row records an object. -/
theorem buildEntries_recorded {offset : Nat} {objs : List GitObject}
    {row : EntryRow} (member : row ∈ (buildEntries sha1 deflate offset objs).1) :
    row.resolved = true ∧ ∃ object : GitObject,
      row.rawRefs = some (objectRefBytes object) ∧
        row.objectType = object.type.typeCode := by
  induction objs generalizing offset with
  | nil => cases member
  | cons object objs ih =>
    rcases List.mem_cons.mp member with rfl | later
    · exact ⟨rfl, object, rfl, rfl⟩
    · exact ih later

end Build

/-- The deflater gets the compression level, or the default of the
runtime. -/
def buildPackV2 (sha1 : Bytes → RawOid)
    (deflate : Option Nat → Bytes → Bytes) (compressionLevel : Option Nat)
    (objs : List GitObject) : Except String Bytes :=
  if compressionLevel.any fun level => decide (9 < level) then
    .error "pack-build:compression-level"
  else
    let body :=
      packHeader objs.length ++
        objs.flatMap fun object =>
          encodeObjHeader object.type.typeCode.toNat
              object.payload.length ++
            deflate compressionLevel object.payload
    .ok (body ++ (sha1 body).bytes)

def buildPackV2Artifacts (sha1 : Bytes → RawOid)
    (deflate : Option Nat → Bytes → Bytes) (compressionLevel : Option Nat)
    (objs : List GitObject) : Except String PackV2Artifacts :=
  if compressionLevel.any fun level => decide (9 < level) then
    .error "pack-build:compression-level"
  else do
    let (rows, parts) :=
      buildEntries sha1 (deflate compressionLevel)
        Indexer.packHeaderBytes objs
    let body := packHeader objs.length ++ parts
    let packChecksum := sha1 body
    let pack := body ++ packChecksum.bytes
    let idx := (tableOf rows).writeIdxV2 sha1 packChecksum
    let refs ←
      (refsBuilderOf rows).build (tableOf rows) pack.length packChecksum
        (.ofBytes (idx.drop (idx.length - 20)))
    .ok ⟨pack, idx, refs.bytes⟩

end GitOnCloudflare.Pack
