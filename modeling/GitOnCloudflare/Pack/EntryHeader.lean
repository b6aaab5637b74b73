import Mathlib.Data.List.Basic
import Mathlib.Data.Nat.Basic
import Mathlib.Tactic.Ring

/-!
# Pack entry headers

An entry of a pack starts with a varint of its type and size; a delta entry
continues with its base, as a distance or as an object id.  The scanner and
the rewriter read this header with two decoders, and the rewriter writes
distances with an encoder and measures them with a second loop.
-/

namespace GitOnCloudflare.Pack

abbrev Bytes := List UInt8

/-- `byte & 0x80`. -/
def hasMore (byte : UInt8) : Bool := decide (128 ≤ byte.toNat)

/-- `byte & 0x7f`. -/
def lowBits (byte : UInt8) : Nat := byte.toNat % 128

/-- `(byte >> 4) & 0x07`. -/
def typeBits (byte : UInt8) : Nat := byte.toNat / 16 % 8

/-- The largest integer a number holds exactly. -/
def maxSafe : Nat := 9007199254740991

def maxPackOffset : Nat := 0xffffffff

def maxPackObjectSize : Nat := 0xffffffff

/-! ## Distances -/

/-- How reading a distance ends: it needs more bytes, it leaves the range, or
it has a value after a number of bytes. -/
inductive DistanceRead where
  | truncated
  | exceeds
  | value (distance used : Nat)
deriving DecidableEq

/-- The loop over the bytes after `byte`. -/
def continueDistance (limit : Nat) (byte : UInt8) (distance used : Nat) :
    Bytes → DistanceRead
  | [] => if hasMore byte then .truncated else .value distance used
  | next :: rest =>
    if hasMore byte then
      let longer := (distance + 1) * 128 + lowBits next
      if limit < longer then
        .exceeds
      else
        continueDistance limit next longer (used + 1) rest
    else
      .value distance used

/-- Read a distance; both decoders differ only in the bound they check. -/
def readDistance (limit : Nat) : Bytes → DistanceRead
  | [] => .truncated
  | byte :: rest => continueDistance limit byte (lowBits byte) 1 rest

/-- `rel >>> 0` of a positive number. -/
def toUint32 (rel : Int) : Nat := rel.toNat % 2 ^ 32

/-- The loop of `ofsDeltaDistanceLength`. -/
def countGroups (current count : Nat) : Nat :=
  if current / 128 = 0 then
    count + 1
  else
    countGroups (current / 128 - 1) (count + 1)
termination_by current

/-- The bytes that a distance takes. -/
def ofsDeltaDistanceLength (rel : Int) : Nat :=
  if rel ≤ 0 then 1 else countGroups (toUint32 rel) 0

/-- The groups of a distance, least significant first. -/
def distanceGroups (current : Nat) : List Nat :=
  if current / 128 = 0 then
    [current % 128]
  else
    current % 128 :: distanceGroups (current / 128 - 1)
termination_by current

/-- Reverse the groups and mark all but the last. -/
def markGroups : List Nat → Bytes
  | [] => []
  | last :: earlier =>
    (earlier.map fun group => UInt8.ofNat (group + 128)).reverse ++
      [UInt8.ofNat last]

/-- A distance in groups of seven bits. -/
def encodeOfsDeltaDistance (rel : Int) : Bytes :=
  if rel ≤ 0 then [0] else markGroups (distanceGroups (toUint32 rel))

theorem countGroups_eq (current count : Nat) :
    countGroups current count = count + (distanceGroups current).length := by
  induction current, count using countGroups.induct with
  | case1 current count small =>
    unfold countGroups distanceGroups
    simp [small]
  | case2 current count large ih =>
    unfold countGroups distanceGroups
    rw [if_neg large, if_neg large, ih, List.length_cons]
    ring

/-- The measured length of a distance is the length of its encoding. -/
theorem ofsDeltaDistanceLength_eq (rel : Int) :
    ofsDeltaDistanceLength rel = (encodeOfsDeltaDistance rel).length := by
  unfold ofsDeltaDistanceLength encodeOfsDeltaDistance
  split
  · rfl
  · rw [countGroups_eq, Nat.zero_add]
    generalize distanceGroups (toUint32 rel) = groups at *
    cases groups with
    | nil => rfl
    | cons last earlier => simp [markGroups]

variable {group factor wider : Nat} {taken left : Bytes}

theorem toNat_marked (small : group < 128) :
    (UInt8.ofNat (group + 128)).toNat = group + 128 := by
  rw [UInt8.toNat_ofNat']
  omega

theorem hasMore_marked (small : group < 128) :
    hasMore (UInt8.ofNat (group + 128)) = true := by
  rw [hasMore, toNat_marked small]
  simp

variable {limit distance used value total size pos : Nat} {byte : UInt8}
  {bytes buf : Bytes}

/-- The loop looks at no more of a marked byte than its mark. -/
theorem continueDistance_marked (more : hasMore byte = true)
    (distance used : Nat) (rest : Bytes) :
    continueDistance limit byte distance used rest =
      continueDistance limit 0x80 distance used rest := by
  have marked : hasMore 0x80 = true := by decide
  cases rest <;> simp [continueDistance, more, marked]

/-- One more byte after a marked one. -/
theorem continueDistance_next {next : UInt8}
    (inRange : (distance + 1) * 128 + lowBits next ≤ limit) (rest : Bytes) :
    continueDistance limit 0x80 distance used (next :: rest) =
      continueDistance limit next ((distance + 1) * 128 + lowBits next)
        (used + 1) rest := by
  have marked : hasMore 0x80 = true := by decide
  simp only [continueDistance, marked, if_true]
  rw [if_neg (by omega)]

/-- The loop stops at an unmarked byte. -/
theorem continueDistance_stop (ends : hasMore byte = false) (rest : Bytes) :
    continueDistance limit byte distance used rest =
      .value distance used := by
  cases rest <;> simp [continueDistance, ends]

/-- Reading marked groups leaves the reader at their value. -/
theorem readDistance_marked (limit current : Nat) (inRange : current ≤ limit)
    (rest : Bytes) :
    readDistance limit
        (((distanceGroups current).map fun group =>
          UInt8.ofNat (group + 128)).reverse ++ rest) =
      continueDistance limit 0x80 current (distanceGroups current).length
        rest := by
  induction current using distanceGroups.induct generalizing rest with
  | case1 current small =>
    have bounded : current % 128 < 128 := Nat.mod_lt _ (by decide)
    have value : lowBits (UInt8.ofNat (current % 128 + 128)) = current := by
      rw [lowBits, toNat_marked bounded]
      omega
    rw [distanceGroups, if_pos small]
    simp only [List.map_cons, List.map_nil, List.reverse_singleton,
      List.singleton_append, readDistance, List.length_singleton, value]
    exact continueDistance_marked (hasMore_marked bounded) current 1 rest
  | case2 current large ih =>
    have bounded : current % 128 < 128 := Nat.mod_lt _ (by decide)
    have value :
        (current / 128 - 1 + 1) * 128 +
            lowBits (UInt8.ofNat (current % 128 + 128)) =
          current := by
      rw [lowBits, toNat_marked bounded]
      omega
    rw [distanceGroups, if_neg large]
    simp only [List.map_cons, List.reverse_cons, List.append_assoc,
      List.singleton_append, List.length_cons]
    rw [ih (by omega), continueDistance_next (by omega), value]
    exact continueDistance_marked (hasMore_marked bounded) _ _ rest

/-- Either decoder reads back what the encoder wrote. -/
theorem readDistance_encode {limit distance : Nat} (positive : 0 < distance)
    (inRange : distance ≤ limit) (small : distance < 2 ^ 32) (rest : Bytes) :
    readDistance limit (encodeOfsDeltaDistance distance ++ rest) =
      .value distance (encodeOfsDeltaDistance distance).length := by
  have truncated : toUint32 (distance : Int) = distance := by
    rw [toUint32, Int.toNat_natCast]
    exact Nat.mod_eq_of_lt small
  have nonzero : ¬((distance : Int) ≤ 0) := by omega
  unfold encodeOfsDeltaDistance
  rw [if_neg nonzero, truncated, distanceGroups]
  have last : (UInt8.ofNat (distance % 128)).toNat = distance % 128 := by
    rw [UInt8.toNat_ofNat']
    omega
  have ends : hasMore (UInt8.ofNat (distance % 128)) = false := by
    rw [hasMore, last]
    exact decide_eq_false (by omega)
  have low : lowBits (UInt8.ofNat (distance % 128)) = distance % 128 := by
    rw [lowBits, last]
    omega
  split
  · next oneGroup =>
    have value : distance % 128 = distance := by omega
    simp only [markGroups, List.map_nil, List.reverse_nil, List.nil_append,
      List.singleton_append, readDistance, low, List.length_singleton]
    rw [continueDistance_stop ends, value]
  · next moreGroups =>
    have value :
        (distance / 128 - 1 + 1) * 128 +
            lowBits (UInt8.ofNat (distance % 128)) =
          distance := by
      rw [low]
      omega
    simp only [markGroups, List.append_assoc, List.singleton_append,
      List.length_append, List.length_reverse, List.length_map,
      List.length_singleton]
    rw [readDistance_marked limit _ (by omega),
      continueDistance_next (by omega), value, continueDistance_stop ends]

/-! ## Sizes and whole headers -/

/-- The bytes of a varint and the bytes after it. -/
def takeVarint : Bytes → Option (Bytes × Bytes)
  | [] => none
  | byte :: rest =>
    if hasMore byte then
      (takeVarint rest).map fun taken => (byte :: taken.1, taken.2)
    else
      some ([byte], rest)

/-- The type in the first byte of a header. -/
def headType (bytes : Bytes) : Nat := (bytes.head?.map typeBits).getD 0

/-- What `readPackHeaderExFromBuf` answers. -/
structure PackHeaderEx where
  type : Nat
  sizeVarBytes : Bytes
  headerLen : Nat
  baseOid : Option Bytes
  baseRel : Option Nat
deriving DecidableEq

/-- The rewriter's decoder. -/
def readPackHeaderExFromBuf (buf : Bytes) (offset : Nat) :
    Option PackHeaderEx :=
  match takeVarint (buf.drop offset) with
  | none => none
  | some (sizeVarBytes, rest) =>
    let type := headType sizeVarBytes
    if type = 7 then
      if rest.length < 20 then
        none
      else
        some
          ⟨type, sizeVarBytes, sizeVarBytes.length + 20,
            some (rest.take 20), none⟩
    else if type = 6 then
      match readDistance maxSafe rest with
      | .value distance used =>
        some
          ⟨type, sizeVarBytes, sizeVarBytes.length + used, none,
            some distance⟩
      | _ => none
    else
      some ⟨type, sizeVarBytes, sizeVarBytes.length, none, none⟩

/-- Why the scanner refuses an entry header. -/
inductive ScanFailure where
  | reservedType (type offset : Nat)
  | entrySizeRange (offset : Nat)
  | entrySizeUnsafe (offset : Nat)
  | distanceRange (offset : Nat)
deriving DecidableEq

def ScanFailure.message : ScanFailure → String
  | reservedType type offset =>
    "scan: invalid reserved pack type " ++ toString type ++ " at offset " ++
      toString offset
  | entrySizeRange offset =>
    "scan: entry size exceeds supported 32-bit range at offset " ++
      toString offset
  | entrySizeUnsafe offset =>
    "scan: entry size is too large to decode safely at offset " ++
      toString offset
  | distanceRange offset =>
    "scan: OFS_DELTA base distance exceeds 32-bit range at offset " ++
      toString offset

/-- How reading a size ends. -/
inductive SizeRead where
  | truncated
  | exceeds
  | tooLong
  | value (size used : Nat)
deriving DecidableEq

/-- The scanner's loop over the size bytes after `byte`. -/
def continueSize (byte : UInt8) (size factor used : Nat) : Bytes → SizeRead
  | [] => if hasMore byte then .truncated else .value size used
  | next :: rest =>
    if hasMore byte then
      let larger := size + lowBits next * factor
      if maxPackObjectSize < larger then
        .exceeds
      else if hasMore next then
        if maxSafe < factor * 128 then
          .tooLong
        else
          continueSize next larger (factor * 128) (used + 1) rest
      else
        .value larger (used + 1)
    else
      .value size used

/-- What the scanner reads of an entry header. -/
structure ScanHeader where
  type : Nat
  size : Nat
  headerLen : Nat
  baseOidBytes : Option Bytes
  baseRel : Option Nat
deriving DecidableEq

def isReservedPackType (type : Nat) : Bool := type = 0 || type = 5

/-- The scanner's decoder: no header yet, a failure, or a header. -/
def parseEntryHeader (buf : Bytes) (pos : Nat) :
    Except ScanFailure (Option ScanHeader) :=
  match buf.drop pos with
  | [] => .ok none
  | byte :: rest =>
    let type := typeBits byte
    if isReservedPackType type then
      .error (.reservedType type pos)
    else
      match continueSize byte (byte.toNat % 16) 16 1 rest with
      | .truncated => .ok none
      | .exceeds => .error (.entrySizeRange pos)
      | .tooLong => .error (.entrySizeUnsafe pos)
      | .value size used =>
        let after := buf.drop (pos + used)
        if type = 7 then
          if after.length < 20 then
            .ok none
          else
            .ok (some ⟨type, size, used + 20, some (after.take 20), none⟩)
        else if type = 6 then
          match readDistance maxPackOffset after with
          | .truncated => .ok none
          | .exceeds => .error (.distanceRange pos)
          | .value distance more =>
            .ok (some ⟨type, size, used + more, none, some distance⟩)
        else
          .ok (some ⟨type, size, used, none, none⟩)

/-- The bytes are one whole varint. -/
def IsVarint (bytes : Bytes) : Prop := takeVarint bytes = some (bytes, [])

theorem takeVarint_append (varint : takeVarint bytes = some (taken, left))
    (rest : Bytes) :
    takeVarint (bytes ++ rest) = some (taken, left ++ rest) := by
  induction bytes generalizing taken with
  | nil => cases varint
  | cons byte bytes ih =>
    unfold takeVarint at varint
    rw [List.cons_append, takeVarint]
    split at varint
    · next more =>
      rw [if_pos more]
      obtain ⟨⟨first, second⟩, found, same⟩ :=
        Option.map_eq_some_iff.mp varint
      cases same
      rw [ih found]
      rfl
    · next ends =>
      rw [if_neg ends]
      cases varint
      rfl

/-- A taken varint is a whole varint before the rest of the bytes. -/
theorem takeVarint_sound (varint : takeVarint bytes = some (taken, left)) :
    bytes = taken ++ left ∧ IsVarint taken := by
  induction bytes generalizing taken with
  | nil => cases varint
  | cons byte bytes ih =>
    unfold takeVarint at varint
    split at varint
    · next more =>
      obtain ⟨⟨first, second⟩, found, same⟩ :=
        Option.map_eq_some_iff.mp varint
      cases same
      obtain ⟨parts, whole⟩ := ih found
      refine ⟨by rw [parts]; rfl, ?_⟩
      unfold IsVarint takeVarint
      rw [if_pos more, whole]
      rfl
    · next ends =>
      cases varint
      refine ⟨rfl, ?_⟩
      unfold IsVarint takeVarint
      rw [if_neg ends]

theorem IsVarint.ne_nil (varint : IsVarint bytes) : bytes ≠ [] := by
  rintro rfl
  cases varint

/-- The bytes of a size as the scanner reads them, with its value. -/
def ScansSize (bytes : Bytes) (size : Nat) : Prop :=
  ∃ byte rest, bytes = byte :: rest ∧
    isReservedPackType (typeBits byte) = false ∧
    continueSize byte (byte.toNat % 16) 16 1 rest = .value size bytes.length

/-- A size that ends is read the same before any other bytes. -/
theorem continueSize_append
    (read : continueSize byte size factor used bytes = .value value total)
    (whole : total = used + bytes.length) (rest : Bytes) :
    continueSize byte size factor used (bytes ++ rest) =
      .value value total := by
  induction bytes generalizing byte size factor used with
  | nil =>
    unfold continueSize at read
    split at read
    · cases read
    · next ends =>
      cases read
      cases rest <;> simp [continueSize, ends]
  | cons next bytes ih =>
    rw [List.cons_append]
    unfold continueSize at read ⊢
    dsimp only at read ⊢
    split at read
    · next more =>
      rw [if_pos more]
      split at read
      · cases read
      · next inRange =>
        rw [if_neg inRange]
        split at read
        · next longer =>
          rw [if_pos longer]
          split at read
          · cases read
          · next exact_ =>
            rw [if_neg exact_]
            refine ih read ?_
            rw [whole, List.length_cons]
            omega
        · next ends =>
          rw [if_neg ends]
          exact read
    · next ends =>
      rw [if_neg ends]
      exact read

/-- A size the scanner reads is one whole varint. -/
theorem continueSize_varint
    (read : continueSize byte size factor used bytes = .value value total) :
    ∃ taken left, bytes = taken ++ left ∧ total = used + taken.length ∧
      takeVarint (byte :: bytes) = some (byte :: taken, left) ∧
      continueSize byte size factor used taken = .value value total := by
  induction bytes generalizing byte size factor used with
  | nil =>
    unfold continueSize at read
    split at read
    · cases read
    · next ends =>
      cases read
      exact ⟨[], [], rfl, rfl, by simp [takeVarint, ends],
        by simp [continueSize, ends]⟩
  | cons next bytes ih =>
    unfold continueSize at read
    dsimp only at read
    split at read
    · next more =>
      split at read
      · cases read
      · next inRange =>
        split at read
        · next longer =>
          split at read
          · cases read
          · next bounded =>
            obtain ⟨taken, left, parts, count, varint, again⟩ := ih read
            refine ⟨next :: taken, left, by rw [parts]; rfl, ?_, ?_, ?_⟩
            · rw [count, List.length_cons]
              omega
            · rw [takeVarint, if_pos more, varint]
              rfl
            · simp only [continueSize, more, if_true, longer]
              rw [if_neg inRange, if_neg bounded]
              exact again
        · next ends =>
          cases read
          refine ⟨[next], bytes, rfl, rfl, ?_, ?_⟩
          · simp [takeVarint, more, ends]
          · simp only [continueSize, more, if_true, ends]
            rw [if_neg inRange]
            rfl
    · next ends =>
      cases read
      refine ⟨[], next :: bytes, rfl, rfl, ?_, ?_⟩
      · simp [takeVarint, ends]
      · simp [continueSize, ends]

/-- A wider bound reads the same distance. -/
theorem continueDistance_widen (wide : limit ≤ wider)
    (read : continueDistance limit byte distance used bytes =
      .value value total) :
    continueDistance wider byte distance used bytes = .value value total := by
  induction bytes generalizing byte distance used with
  | nil => exact read
  | cons next bytes ih =>
    unfold continueDistance at read ⊢
    dsimp only at read ⊢
    split at read
    · next more =>
      rw [if_pos more]
      split at read
      · cases read
      · next inRange =>
        rw [if_neg (by omega)]
        exact ih read
    · next ends =>
      rw [if_neg ends]
      exact read

theorem readDistance_widen (wide : limit ≤ wider)
    (read : readDistance limit bytes = .value distance used) :
    readDistance wider bytes = .value distance used := by
  cases bytes with
  | nil => cases read
  | cons byte bytes => exact continueDistance_widen wide read

/-- One more group of a distance. -/
theorem distanceGroups_next (distance : Nat) (byte : UInt8) :
    (distanceGroups ((distance + 1) * 128 + lowBits byte)).length =
      (distanceGroups distance).length + 1 := by
  have low : lowBits byte < 128 := Nat.mod_lt _ (by decide)
  have high : ((distance + 1) * 128 + lowBits byte) / 128 = distance + 1 := by
    omega
  conv_lhs => rw [distanceGroups]
  rw [if_neg (by omega), List.length_cons, high, Nat.add_sub_cancel]

theorem continueDistance_groups
    (counted : used = (distanceGroups distance).length)
    (read : continueDistance limit byte distance used bytes =
      .value value total) : total = (distanceGroups value).length := by
  induction bytes generalizing byte distance used with
  | nil =>
    unfold continueDistance at read
    split at read
    · cases read
    · cases read
      exact counted
  | cons next bytes ih =>
    unfold continueDistance at read
    dsimp only at read
    split at read
    · split at read
      · cases read
      · refine ih ?_ read
        rw [distanceGroups_next, counted]
    · cases read
      exact counted

/-- A distance has one encoding, so its value tells how long it is. -/
theorem readDistance_groups
    (read : readDistance limit bytes = .value distance used) :
    used = (distanceGroups distance).length := by
  cases bytes with
  | nil => cases read
  | cons byte bytes =>
    refine continueDistance_groups ?_ read
    have low : lowBits byte < 128 := Nat.mod_lt _ (by decide)
    rw [distanceGroups, if_pos (by omega), List.length_singleton]

/-- The parts of a header that leads to an offset. -/
theorem readPackHeader_offset {varint : Bytes} {headerLen : Nat}
    (read : readPackHeaderExFromBuf buf pos =
      some ⟨6, varint, headerLen, none, some distance⟩) :
    headType varint = 6 ∧
      headerLen = varint.length + (distanceGroups distance).length := by
  unfold readPackHeaderExFromBuf at read
  split at read
  · cases read
  · dsimp only at read
    split at read
    · split at read
      · cases read
      · simp at read
    · split at read
      · next typed =>
        split at read
        · next found =>
          simp only [Option.some.injEq, PackHeaderEx.mk.injEq, true_and]
            at read
          obtain ⟨_, rfl, rfl, rfl⟩ := read
          exact ⟨typed, by rw [readDistance_groups found]⟩
        · cases read
      · simp at read

/-- What the rewriter reads where the scanner accepted a header. -/
structure AgreesWithScan
    (buf : Bytes)
    (pos : Nat)
    (scanned : ScanHeader)
    (header : PackHeaderEx) : Prop where
  read : readPackHeaderExFromBuf buf pos = some header
  type : header.type = scanned.type
  headerLen : header.headerLen = scanned.headerLen
  baseOid : header.baseOid = scanned.baseOidBytes
  baseRel : header.baseRel = scanned.baseRel
  varint : IsVarint header.sizeVarBytes
  size : ScansSize header.sizeVarBytes scanned.size
  bytes :
    header.sizeVarBytes =
      (buf.drop pos).take header.sizeVarBytes.length

/-- The two decoders agree on every header the scanner accepts. -/
theorem agreesWithScan {scanned : ScanHeader}
    (accepted : parseEntryHeader buf pos = .ok (some scanned)) :
    ∃ header, AgreesWithScan buf pos scanned header := by
  unfold parseEntryHeader at accepted
  split at accepted
  · cases accepted
  · next byte rest here =>
    dsimp only at accepted
    split at accepted
    · cases accepted
    · next allowed =>
      split at accepted
      · cases accepted
      · cases accepted
      · cases accepted
      · next size used read =>
        obtain ⟨taken, left, parts, count, varint, again⟩ :=
          continueSize_varint read
        have whole : IsVarint (byte :: taken) :=
          (takeVarint_sound varint).2
        have scans : ScansSize (byte :: taken) size := by
          refine ⟨byte, taken, rfl, by simpa using allowed, ?_⟩
          rw [again, count, List.length_cons, Nat.add_comm]
        have prefix_ : byte :: taken = (buf.drop pos).take
            (byte :: taken).length := by
          rw [here, parts, ← List.cons_append, List.take_left]
        have after : buf.drop (pos + used) = left := by
          rw [← List.drop_drop, here, parts, count, ← List.cons_append,
            Nat.add_comm, ← List.length_cons, List.drop_left]
        have length : (byte :: taken).length = used := by
          rw [count, List.length_cons, Nat.add_comm]
        have taken_ : takeVarint (buf.drop pos) =
            some (byte :: taken, left) := by
          rw [here, varint]
        have head : headType (byte :: taken) = typeBits byte := rfl
        rw [after] at accepted
        split at accepted
        · next reference =>
          split at accepted
          · cases accepted
          · next enough =>
            cases accepted
            refine ⟨⟨typeBits byte, byte :: taken, used + 20,
              some (left.take 20), none⟩, ?_, rfl, rfl, rfl, rfl, whole,
              scans, prefix_⟩
            unfold readPackHeaderExFromBuf
            rw [taken_]
            dsimp only
            rw [head, if_pos reference, if_neg enough, length]
        · next notReference =>
          split at accepted
          · next offset =>
            split at accepted
            · cases accepted
            · cases accepted
            · next distance more found =>
              cases accepted
              refine ⟨⟨typeBits byte, byte :: taken, used + more, none,
                some distance⟩, ?_, rfl, rfl, rfl, rfl, whole, scans,
                prefix_⟩
              have wider : readDistance maxSafe left = .value distance more :=
                readDistance_widen (by decide) found
              unfold readPackHeaderExFromBuf
              rw [taken_]
              dsimp only
              rw [head, if_neg notReference, if_pos offset, wider, length]
          · next notOffset =>
            cases accepted
            refine ⟨⟨typeBits byte, byte :: taken, used, none, none⟩, ?_, rfl,
              rfl, rfl, rfl, whole, scans, prefix_⟩
            unfold readPackHeaderExFromBuf
            rw [taken_]
            dsimp only
            rw [head, if_neg notReference, if_neg notOffset, length]

/-- Both decoders read an emitted distance entry. -/
theorem read_ofsDelta (before rest : Bytes) {var : Bytes}
    (varint : IsVarint var) (scans : ScansSize var size)
    (type : headType var = 6) (positive : 0 < distance)
    (small : distance < 2 ^ 32) :
    let encoded := encodeOfsDeltaDistance distance
    let buf := before ++ (var ++ (encoded ++ rest))
    readPackHeaderExFromBuf buf before.length =
        some ⟨6, var, var.length + encoded.length, none, some distance⟩ ∧
      parseEntryHeader buf before.length =
        .ok (some ⟨6, size, var.length + encoded.length, none,
          some distance⟩) := by
  dsimp only
  constructor
  · unfold readPackHeaderExFromBuf
    rw [List.drop_left, takeVarint_append varint, List.nil_append]
    dsimp only
    rw [type, if_neg (by decide), if_pos rfl,
      readDistance_encode positive (by unfold maxSafe; omega) small]
  · obtain ⟨byte, tail, rfl, allowed, read⟩ := scans
    unfold parseEntryHeader
    rw [List.drop_left, List.cons_append]
    have typed : typeBits byte = 6 := type
    have sized :=
      continueSize_append read (by rw [List.length_cons, Nat.add_comm])
        (encodeOfsDeltaDistance distance ++ rest)
    have after :
        (before ++ byte :: (tail ++
          (encodeOfsDeltaDistance distance ++ rest))).drop
            (before.length + (byte :: tail).length) =
          encodeOfsDeltaDistance distance ++ rest := by
      rw [← List.drop_drop, List.drop_left, ← List.cons_append,
        List.drop_left]
    dsimp only
    rw [sized]
    dsimp only
    rw [after, typed,
      readDistance_encode positive (by unfold maxPackOffset; omega) small]
    rfl

/-! ## Short reads -/

/-- A distance that is read is read the same before any other bytes. -/
theorem continueDistance_append
    (read : continueDistance limit byte distance used bytes =
      .value value total) (rest : Bytes) :
    continueDistance limit byte distance used (bytes ++ rest) =
      .value value total := by
  induction bytes generalizing byte distance used with
  | nil =>
    unfold continueDistance at read
    split at read
    · cases read
    · next ends =>
      rw [List.nil_append, continueDistance_stop (by simpa using ends)]
      exact read
  | cons next bytes ih =>
    rw [List.cons_append]
    unfold continueDistance at read ⊢
    dsimp only at read ⊢
    split at read
    · next more =>
      rw [if_pos more]
      split at read
      · cases read
      · next inRange =>
        rw [if_neg inRange]
        exact ih read
    · next ends =>
      rw [if_neg ends]
      exact read

theorem readDistance_append
    (read : readDistance limit bytes = .value distance used) (rest : Bytes) :
    readDistance limit (bytes ++ rest) = .value distance used := by
  cases bytes with
  | nil => cases read
  | cons byte bytes => exact continueDistance_append read rest

variable {header : PackHeaderEx}

/-- A header read from a window is the header of the whole pack. -/
theorem readPackHeader_append {window : Bytes}
    (read : readPackHeaderExFromBuf window 0 = some header) (rest : Bytes) :
    readPackHeaderExFromBuf (window ++ rest) 0 = some header := by
  unfold readPackHeaderExFromBuf at read ⊢
  rw [List.drop_zero] at read ⊢
  split at read
  · cases read
  · next sizeVarBytes left varint =>
    rw [takeVarint_append varint]
    dsimp only at read ⊢
    split at read
    · next reference =>
      rw [if_pos reference]
      split at read
      · cases read
      · next enough =>
        rw [if_neg (by rw [List.length_append]; omega),
          List.take_append_of_le_length (by omega)]
        exact read
    · next notReference =>
      rw [if_neg notReference]
      split at read
      · next offset =>
        rw [if_pos offset]
        split at read
        · next distance used found =>
          rw [readDistance_append found]
          exact read
        · cases read
      · next notOffset =>
        rw [if_neg notOffset]
        exact read

/-- Every byte after the first multiplies a distance. -/
theorem continueDistance_grows (bounded : distance ≤ limit)
    (read : continueDistance limit byte distance used bytes =
      .value value total) :
    value ≤ limit ∧
      ∃ extra, total = used + extra ∧
        (distance + 1) * 128 ^ extra ≤ value + 1 := by
  induction bytes generalizing byte distance used with
  | nil =>
    unfold continueDistance at read
    split at read
    · cases read
    · cases read
      exact ⟨bounded, 0, rfl, by simp⟩
  | cons next bytes ih =>
    unfold continueDistance at read
    dsimp only at read
    split at read
    · split at read
      · cases read
      · next inRange =>
        obtain ⟨kept, extra, count, grown⟩ := ih (by omega) read
        refine ⟨kept, extra + 1, by omega, ?_⟩
        calc
          (distance + 1) * 128 ^ (extra + 1) =
              ((distance + 1) * 128) * 128 ^ extra := by
            ring
          _ ≤ ((distance + 1) * 128 + lowBits next + 1) * 128 ^ extra :=
            Nat.mul_le_mul_right _ (by omega)
          _ ≤ value + 1 := grown
    · cases read
      exact ⟨bounded, 0, rfl, by simp⟩

/-- A safe distance takes at most eight bytes. -/
theorem readDistance_used_le
    (read : readDistance maxSafe bytes = .value distance used) : used ≤ 8 := by
  cases bytes with
  | nil => cases read
  | cons byte bytes =>
    have low : lowBits byte ≤ maxSafe := by
      unfold lowBits maxSafe
      omega
    obtain ⟨kept, extra, count, grown⟩ := continueDistance_grows low read
    by_contra long
    have large : 128 ^ 8 ≤ 128 ^ extra :=
      Nat.pow_le_pow_right (by decide) (by omega)
    have product : 128 ^ extra ≤ (lowBits byte + 1) * 128 ^ extra :=
      Nat.le_mul_of_pos_left _ (by omega)
    unfold maxSafe at kept
    omega

/-- A header is its varint and at most twenty bytes of a base. -/
theorem readPackHeader_headerLen
    (read : readPackHeaderExFromBuf buf pos = some header) :
    header.sizeVarBytes.length ≤ header.headerLen ∧
      header.headerLen ≤ header.sizeVarBytes.length + 20 := by
  unfold readPackHeaderExFromBuf at read
  split at read
  · cases read
  · next sizeVarBytes left varint =>
    dsimp only at read
    split at read
    · split at read
      · cases read
      · cases read
        exact ⟨Nat.le_add_right _ _, le_refl _⟩
    · split at read
      · split at read
        · next distance used found =>
          cases read
          have short := readDistance_used_le found
          exact ⟨Nat.le_add_right _ _, by dsimp only; omega⟩
        · cases read
      · cases read
        exact ⟨le_refl _, Nat.le_add_right _ _⟩

end GitOnCloudflare.Pack
