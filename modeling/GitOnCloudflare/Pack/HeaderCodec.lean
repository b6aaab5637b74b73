import GitOnCloudflare.Pack.PackBuild

/-!
# The codec of entry headers

What the two decoders of a header make of a written one and of any other
bytes.  The scanner refuses what does not fit its 32-bit columns and the types
that no object has; on everything else both read the same.
-/

namespace GitOnCloudflare.Pack

/-! ## The size in a header -/

/-- The loop over the bytes behind the first.  From the shift 1024 on a power
of two is not finite. -/
def decodeSizeLoop : Nat → Nat → Bytes → Option Nat
  | size, _, [] => some size
  | size, shift, byte :: rest =>
    if 1024 ≤ shift then
      none
    else
      let larger := size + lowBits byte * 2 ^ shift
      if maxSafe < larger then
        none
      else
        decodeSizeLoop larger (shift + 7) rest

def decodePackObjectSize (sizeVarBytes : Bytes) : Option Nat :=
  match sizeVarBytes with
  | [] => none
  | first :: rest => decodeSizeLoop (first.toNat % 16) 4 rest

/-- A size that the scanner reads is the size of its bytes. -/
theorem decodeSizeLoop_of_scan {byte : UInt8} {size shift used value total : Nat}
    {bytes : Bytes} (short : shift ≤ 52)
    (read : continueSize byte size (2 ^ shift) used bytes = .value value total)
    (whole : total = used + bytes.length) :
    decodeSizeLoop size shift bytes = some value := by
  induction bytes generalizing byte size shift used with
  | nil =>
    unfold continueSize at read
    split at read
    · cases read
    · cases read
      rfl
  | cons next bytes ih =>
    have bound : maxPackObjectSize ≤ maxSafe := by decide
    unfold continueSize at read
    dsimp only at read
    split at read
    · split at read
      · cases read
      · next fits =>
          rw [decodeSizeLoop, if_neg (by omega)]
          dsimp only
          rw [if_neg (by omega)]
          split at read
          · split at read
            · cases read
            · next safe =>
                have wider : 2 ^ shift * 128 = 2 ^ (shift + 7) :=
                  (Nat.pow_add 2 shift 7).symm
                rw [wider] at read safe
                apply ih _ read
                · rw [whole, List.length_cons]
                  omega
                · by_contra long
                  have big : 2 ^ 53 ≤ 2 ^ (shift + 7) :=
                    Nat.pow_le_pow_right (by decide) (by omega)
                  have limit : maxSafe = 9007199254740991 := rfl
                  omega
          · cases read
            rw [List.length_cons] at whole
            have none : bytes = [] := List.length_eq_zero_iff.mp (by omega)
            rw [none, decodeSizeLoop]
    · cases read
      rw [List.length_cons] at whole
      omega

variable {size value pos : Nat} {byte : UInt8} {buf : Bytes}

theorem decodePackObjectSize_of_scan {bytes : Bytes}
    (scans : ScansSize bytes size) :
    decodePackObjectSize bytes = some size := by
  rcases scans with ⟨byte, rest, rfl, _, read⟩
  apply @decodeSizeLoop_of_scan byte _ 4 1 size _ rest (by decide) read
  rw [List.length_cons]
  omega

variable {shift limit narrow distance used : Nat} {taken left : Bytes}

theorem decodeSizeLoop_cons {bytes : Bytes}
    (decoded : decodeSizeLoop size shift (byte :: bytes) = some value) :
    decodeSizeLoop (size + lowBits byte * 2 ^ shift) (shift + 7) bytes =
      some value := by
  rw [decodeSizeLoop] at decoded
  split at decoded
  · cases decoded
  · dsimp only at decoded
    split at decoded
    · cases decoded
    · exact decoded

theorem le_decodeSizeLoop {bytes : Bytes}
    (decoded : decodeSizeLoop size shift bytes = some value) :
    size ≤ value := by
  induction bytes generalizing size shift with
  | nil =>
    cases decoded
    exact le_rfl
  | cons byte bytes ih =>
    exact (Nat.le_add_right _ _).trans (ih (decodeSizeLoop_cons decoded))

/-- The scanner reads a size of at most eight bytes and 32 bits. -/
theorem continueSize_of_decoded (used : Nat) {bytes : Bytes}
    (varint : takeVarint (byte :: bytes) = some (byte :: taken, left))
    (decoded : decodeSizeLoop size shift taken = some value)
    (fits : value ≤ maxPackObjectSize) (short : shift + 7 * taken.length ≤ 53) :
    continueSize byte size (2 ^ shift) used bytes =
      .value value (used + taken.length) := by
  induction bytes generalizing byte size shift used taken with
  | nil =>
    unfold takeVarint at varint
    split at varint
    · cases varint
    · next ends =>
        cases varint
        cases decoded
        rw [continueSize, if_neg ends]
        rfl
  | cons next bytes ih =>
    rw [takeVarint] at varint
    split at varint
    · next more =>
        rcases Option.map_eq_some_iff.mp varint with ⟨⟨front, behind⟩, found, same⟩
        cases same
        have goes := found
        rw [takeVarint] at goes
        split at goes
        · next longer =>
            rcases Option.map_eq_some_iff.mp goes with
              ⟨⟨later, behind'⟩, found', same⟩
            cases same
            have decoded := decodeSizeLoop_cons decoded
            have grows := le_decodeSizeLoop decoded
            simp only [List.length_cons] at short
            have some_ : 0 < later.length := by
              have varint' := takeVarint_sound found'
              exact List.length_pos_iff.mpr varint'.2.ne_nil
            have wider : 2 ^ shift * 128 = 2 ^ (shift + 7) :=
              (Nat.pow_add 2 shift 7).symm
            have safe : 2 ^ (shift + 7) ≤ 2 ^ 46 :=
              Nat.pow_le_pow_right (by decide) (by omega)
            have limit : maxSafe = 9007199254740991 := rfl
            rw [continueSize, if_pos more]
            dsimp only
            rw [if_neg (by omega), if_pos longer, wider, if_neg (by omega),
              ih (used + 1) found decoded (by dsimp only; omega)]
            simp only [List.length_cons]
            congr 1
            omega
        · next ends =>
            cases goes
            cases decodeSizeLoop_cons decoded
            rw [continueSize, if_pos more]
            dsimp only
            rw [if_neg (by omega), if_neg ends]
            rfl
    · next ends =>
        cases varint
        cases decoded
        rw [continueSize, if_neg ends]
        rfl

/-! ## Written headers -/

/-- What follows the size in a header. -/
inductive HeaderBase where
  | whole (type : Nat) (isWhole : 0 < type ∧ type < 5)
  | offset (distance : Nat) (positive : 0 < distance) (small : distance < 2 ^ 32)
  | reference (oid : RawOid)

namespace HeaderBase

def type : HeaderBase → Nat
  | whole type _ => type
  | offset .. => 6
  | reference _ => 7

def bytes : HeaderBase → Bytes
  | whole .. => []
  | offset distance .. => encodeOfsDeltaDistance distance
  | reference oid => oid.bytes

def baseRel : HeaderBase → Option Nat
  | offset distance .. => some distance
  | _ => none

def baseOid : HeaderBase → Option Bytes
  | reference oid => some oid.bytes
  | _ => none

theorem type_lt (base : HeaderBase) : base.type < 8 := by
  cases base with
  | whole type isWhole => exact isWhole.2.trans (by decide)
  | offset => exact show 6 < 8 by decide
  | reference => exact show 7 < 8 by decide

theorem not_reserved (base : HeaderBase) : isReservedPackType base.type = false := by
  cases base with
  | whole type isWhole =>
    have apart : type ≠ 0 ∧ type ≠ 5 := by omega
    simp [HeaderBase.type, isReservedPackType, apart]
  | offset => rfl
  | reference => rfl

end HeaderBase

/-- Both decoders read a header alike. -/
structure ReadsAlike (buf : Bytes) (pos : Nat) (scanned : ScanHeader) : Prop where
  scan : parseEntryHeader buf pos = .ok (some scanned)
  read : ∃ sizeVarBytes,
    readPackHeaderExFromBuf buf pos =
      some ⟨scanned.type, sizeVarBytes, scanned.headerLen, scanned.baseOidBytes,
        scanned.baseRel⟩ ∧
    decodePackObjectSize sizeVarBytes = some scanned.size

/-- What the scanner accepts, both read alike. -/
theorem readsAlike_of_scan {scanned : ScanHeader}
    (accepted : parseEntryHeader buf pos = .ok (some scanned)) :
    ReadsAlike buf pos scanned := by
  rcases agreesWithScan accepted with ⟨header, agrees⟩
  refine ⟨accepted, header.sizeVarBytes, ?_,
    decodePackObjectSize_of_scan agrees.size⟩
  rw [agrees.read, ← agrees.type, ← agrees.headerLen, ← agrees.baseOid,
    ← agrees.baseRel]

/-- The scanner reads a header by its varint and its base. -/
theorem parseEntryHeader_eq (at_ : buf.drop pos = byte :: (taken ++ left))
    (allowed : isReservedPackType (typeBits byte) = false)
    (read : continueSize byte (byte.toNat % 16) 16 1 (taken ++ left) =
      .value size (1 + taken.length)) :
    parseEntryHeader buf pos =
      if typeBits byte = 7 then
        if left.length < 20 then
          .ok none
        else
          .ok (some ⟨typeBits byte, size, 1 + taken.length + 20,
            some (left.take 20), none⟩)
      else if typeBits byte = 6 then
        match readDistance maxPackOffset left with
        | .truncated => .ok none
        | .exceeds => .error (.distanceRange pos)
        | .value distance more =>
          .ok (some ⟨typeBits byte, size, 1 + taken.length + more, none,
            some distance⟩)
      else
        .ok (some ⟨typeBits byte, size, 1 + taken.length, none, none⟩) := by
  have after : buf.drop (pos + (1 + taken.length)) = left := by
    rw [← List.drop_drop, at_, ← List.cons_append, Nat.add_comm,
      ← List.length_cons, List.drop_left]
  unfold parseEntryHeader
  rw [at_]
  dsimp only
  rw [allowed, read]
  dsimp only
  rw [after]
  rfl

/-- A distance within a narrower bound is read under it. -/
theorem continueDistance_narrow {total : Nat} {bytes : Bytes}
    (bounded : distance ≤ limit)
    (read : continueDistance limit byte distance used bytes = .value value total)
    (fits : value ≤ narrow) :
    continueDistance narrow byte distance used bytes = .value value total := by
  induction bytes generalizing byte distance used with
  | nil => exact read
  | cons next bytes ih =>
    unfold continueDistance at read ⊢
    dsimp only at read ⊢
    split at read
    · next more =>
        rw [if_pos more]
        split at read
        · cases read
        · next inRange =>
            have within := Nat.le_of_not_lt inRange
            rcases (continueDistance_grows within read).2 with
              ⟨extra, _, grown⟩
            have one : 1 ≤ 128 ^ extra := Nat.one_le_pow _ _ (by decide)
            have larger := Nat.le_mul_of_pos_right
              ((distance + 1) * 128 + lowBits next + 1) one
            rw [if_neg (by omega)]
            exact ih within read
    · next ends =>
        rw [if_neg ends]
        exact read

theorem readDistance_narrow {bytes : Bytes} (wide : 127 ≤ limit)
    (read : readDistance limit bytes = .value distance used)
    (fits : distance ≤ narrow) :
    readDistance narrow bytes = .value distance used := by
  cases bytes with
  | nil => cases read
  | cons byte bytes =>
    have low : lowBits byte < 128 := Nat.mod_lt _ (by decide)
    exact continueDistance_narrow (by omega) read fits

/-- What the scanner has room for. -/
structure WithinScan (header : PackHeaderEx) (size : Nat) : Prop where
  allowed : isReservedPackType header.type = false
  size : size ≤ maxPackObjectSize
  short : header.sizeVarBytes.length ≤ 8
  distance : ∀ distance ∈ header.baseRel, distance ≤ maxPackOffset

/-- What the rewriter reads and the scanner has room for, both read alike. -/
theorem readsAlike_of_read {header : PackHeaderEx}
    (read : readPackHeaderExFromBuf buf pos = some header)
    (sized : decodePackObjectSize header.sizeVarBytes = some size)
    (within : WithinScan header size) :
    ∃ scanned, ReadsAlike buf pos scanned := by
  suffices accepted : ∃ scanned, parseEntryHeader buf pos = .ok (some scanned) by
    rcases accepted with ⟨scanned, accepted⟩
    exact ⟨scanned, readsAlike_of_scan accepted⟩
  unfold readPackHeaderExFromBuf at read
  split at read
  · cases read
  · next sizeVarBytes left varint =>
      rcases takeVarint_sound varint with ⟨parts, whole⟩
      have some_ := whole.ne_nil
      cases sizeVarBytes with
      | nil => exact absurd rfl some_
      | cons byte taken =>
        have typed : headType (byte :: taken) = typeBits byte := rfl
        rw [List.cons_append] at parts
        rw [parts] at varint
        dsimp only at read
        rw [typed] at read
        have fits := within.size
        have short := within.short
        have allowed := within.allowed
        have narrow := within.distance
        by_cases reference : typeBits byte = 7
        · rw [if_pos reference] at read
          split at read
          · cases read
          · next enough =>
              cases read
              rw [List.length_cons] at short
              have loop := continueSize_of_decoded 1 varint sized fits
                (by omega)
              rw [parseEntryHeader_eq parts allowed loop, if_pos reference,
                if_neg enough]
              exact ⟨_, rfl⟩
        · rw [if_neg reference] at read
          by_cases offset : typeBits byte = 6
          · rw [if_pos offset] at read
            split at read
            · next distance used found =>
                cases read
                rw [List.length_cons] at short
                have loop := continueSize_of_decoded 1 varint sized
                  fits (by omega)
                have again := readDistance_narrow (by decide) found
                  (narrow distance rfl)
                rw [parseEntryHeader_eq parts allowed loop, if_neg reference,
                  if_pos offset, again]
                exact ⟨_, rfl⟩
            · cases read
          · rw [if_neg offset] at read
            cases read
            rw [List.length_cons] at short
            have loop := continueSize_of_decoded 1 varint sized fits
              (by omega)
            rw [parseEntryHeader_eq parts allowed loop, if_neg reference,
              if_neg offset]
            exact ⟨_, rfl⟩

/-- A written header, behind and before any bytes, is read alike. -/
theorem readsAlike_written (base : HeaderBase) (small : size < 2 ^ 31)
    (before rest : Bytes) :
    ReadsAlike (before ++ (encodeObjHeader base.type size ++ (base.bytes ++ rest)))
      before.length
      ⟨base.type, size, (encodeObjHeader base.type size).length +
        base.bytes.length, base.baseOid, base.baseRel⟩ := by
  rcases continueSize_encodeObjHeader base.type_lt small with
    ⟨byte, taken, whole, typeByte, read⟩
  apply readsAlike_of_scan
  have at_ : (before ++ (encodeObjHeader base.type size ++
      (base.bytes ++ rest))).drop before.length =
        byte :: (taken ++ (base.bytes ++ rest)) := by
    rw [List.drop_left, whole, List.cons_append]
  have loop := read (base.bytes ++ rest)
  rw [whole, List.length_cons, Nat.add_comm] at loop
  rw [parseEntryHeader_eq at_ (by rw [typeByte, base.not_reserved]) loop,
    typeByte, whole, List.length_cons, Nat.add_comm taken.length]
  cases base with
  | whole type isWhole =>
    have apart : type ≠ 7 ∧ type ≠ 6 := by omega
    rw [HeaderBase.type, if_neg apart.1, if_neg apart.2]
    rfl
  | offset distance positive small =>
    have found := @readDistance_encode maxPackOffset distance positive
      (by unfold maxPackOffset; omega) small rest
    rw [HeaderBase.type, if_neg (by decide), if_pos rfl, HeaderBase.bytes, found]
    rfl
  | reference oid =>
    have length : oid.bytes.length = 20 := oid.length_eq
    rw [HeaderBase.type, if_pos rfl, HeaderBase.bytes, List.length_append, length,
      if_neg (by omega), List.take_left' length]
    rfl

/-- A header that is written, with a size below `2 ^ 31`. -/
structure WrittenHeader where
  base : HeaderBase
  size : Nat
  small : size < 2 ^ 31

def WrittenHeader.bytes (header : WrittenHeader) : Bytes :=
  encodeObjHeader header.base.type header.size

/-- Written headers are read back by both decoders, a distance takes its
measured length, and on any bytes what the scanner accepts is read alike, as is
what the rewriter reads when the scanner has room for it. -/
theorem packHeader_codec (header : WrittenHeader) (before rest : Bytes)
    (rel : Int) (buf : Bytes) (pos : Nat) :
    ReadsAlike (before ++ (header.bytes ++ (header.base.bytes ++ rest)))
      before.length
      ⟨header.base.type, header.size,
        header.bytes.length + header.base.bytes.length, header.base.baseOid,
        header.base.baseRel⟩ ∧
    (encodeOfsDeltaDistance rel).length = ofsDeltaDistanceLength rel ∧
    (∀ scanned, parseEntryHeader buf pos = .ok (some scanned) →
      ReadsAlike buf pos scanned) ∧
    ∀ read size, readPackHeaderExFromBuf buf pos = some read →
      decodePackObjectSize read.sizeVarBytes = some size →
      WithinScan read size → ∃ scanned, ReadsAlike buf pos scanned := by
  refine ⟨readsAlike_written header.base header.small before rest,
    (ofsDeltaDistanceLength_eq rel).symm, fun _ => readsAlike_of_scan, ?_⟩
  intro read size found sized within
  exact readsAlike_of_read found sized within

/-- The type 5 is written and read by the rewriter, and refused by the
scanner; so is a distance of 33 bits. -/
theorem not_readsAlike_reserved :
    (readPackHeaderExFromBuf (encodeObjHeader 5 0) 0 =
        some ⟨5, [0x50], 1, none, none⟩ ∧
      parseEntryHeader (encodeObjHeader 5 0) 0 = .error (.reservedType 5 0)) ∧
    readPackHeaderExFromBuf [0x60, 0x8e, 0xfe, 0xfe, 0xff, 0x00] 0 =
        some ⟨6, [0x60], 6, none, some 4294967296⟩ ∧
      parseEntryHeader [0x60, 0x8e, 0xfe, 0xfe, 0xff, 0x00] 0 =
        .error (.distanceRange 0) := by
  refine ⟨⟨by decide, by decide⟩, by decide, by decide⟩

end GitOnCloudflare.Pack
