import Mathlib.Logic.Function.Basic
import GitOnCloudflare.Pack.EntryHeader

/-!
# The selection table of a pack rewrite

One row for each selected pack entry.  Numeric columns are functions of the
row; the type and size varints of all rows share one flat buffer with five
bytes for each row, and writing past its end throws.
-/

namespace GitOnCloudflare.Pack

/-- Twenty raw bytes of an object id. -/
structure RawOid where
  bytes : Bytes
  length_eq : bytes.length = 20
deriving DecidableEq

/-- The buffer bytes that one row owns. -/
def sizeVarStride : Nat := 5

structure SelectionTable where
  count : Nat
  capacity : Nat
  packSlots : Nat → Nat
  entryIndices : Nat → Nat
  offsets : Nat → Nat
  nextOffsets : Nat → Nat
  oidsRaw : Nat → Option RawOid
  typeCodes : Nat → UInt8
  headerLens : Nat → UInt16
  payloadLens : Nat → Nat
  sizeVarBuf : Bytes
  sizeVarLens : Nat → UInt8
  baseSlots : Nat → Option Nat
  baseOidRaw : Option (Nat → RawOid)
  queuedForHeader : Nat → Bool
  ofsPinned : Nat → Bool
  syntheticPayloads : Nat → Option Bytes
  outputOffsets : Nat → Nat
  outputHeaderLens : Nat → UInt16
  outputOrder : List Nat

def allocateSelectionTable (capacity : Nat) : SelectionTable :=
  { count := 0
    capacity := capacity
    packSlots := fun _ => 0
    entryIndices := fun _ => 0
    offsets := fun _ => 0
    nextOffsets := fun _ => 0
    oidsRaw := fun _ => none
    typeCodes := fun _ => 0
    headerLens := fun _ => 0
    payloadLens := fun _ => 0
    sizeVarBuf := List.replicate (capacity * sizeVarStride) 0
    sizeVarLens := fun _ => 0
    baseSlots := fun _ => none
    baseOidRaw := none
    queuedForHeader := fun _ => false
    ofsPinned := fun _ => false
    syntheticPayloads := fun _ => none
    outputOffsets := fun _ => 0
    outputHeaderLens := fun _ => 0
    outputOrder := [] }

inductive TableFailure where
  | rangeError
  | invalidHeaderState (sel : Nat)
  | missingReadState (sel : Nat)
  | unexpectedEof (sel : Nat)
deriving DecidableEq

/-- `target.set(source, start)` of a byte array. -/
def setBytes (target source : Bytes) (start : Nat) :
    Except TableFailure Bytes :=
  if start + source.length ≤ target.length then
    .ok (target.take start ++ source ++ target.drop (start + source.length))
  else
    .error .rangeError

/-- `buffer.subarray(start, start + length)`. -/
def subarray (buffer : Bytes) (start length : Nat) : Bytes :=
  (buffer.drop start).take length

variable {target source result : Bytes} {start : Nat}

theorem setBytes_ok (written : setBytes target source start = .ok result) :
    start + source.length ≤ target.length ∧
      result =
        target.take start ++ source ++
          target.drop (start + source.length) := by
  unfold setBytes at written
  split at written
  · next fits => exact ⟨fits, (Except.ok.inj written).symm⟩
  · cases written

theorem length_setBytes (written : setBytes target source start = .ok result) :
    result.length = target.length := by
  obtain ⟨fits, rfl⟩ := setBytes_ok written
  simp only [List.length_append, List.length_take, List.length_drop]
  omega

/-- The bytes that were written. -/
theorem subarray_setBytes_same
    (written : setBytes target source start = .ok result) :
    subarray result start source.length = source := by
  obtain ⟨fits, rfl⟩ := setBytes_ok written
  have before : (target.take start).length = start := by
    rw [List.length_take]
    omega
  unfold subarray
  rw [List.append_assoc, List.drop_left' before, List.take_left]

variable {from_ length : Nat}

/-- The bytes before and after the written ones. -/
theorem subarray_setBytes_other
    (written : setBytes target source start = .ok result)
    (apart : from_ + length ≤ start ∨ start + source.length ≤ from_) :
    subarray result from_ length = subarray target from_ length := by
  obtain ⟨fits, rfl⟩ := setBytes_ok written
  unfold subarray
  apply List.ext_getElem?
  intro index
  by_cases inside : index < length
  · rw [List.getElem?_take_of_lt inside, List.getElem?_take_of_lt inside,
      List.getElem?_drop, List.getElem?_drop]
    rcases apart with earlier | later
    · rw [List.append_assoc, List.getElem?_append_left (by
        rw [List.length_take]
        omega)]
      exact List.getElem?_take_of_lt (by omega)
    · rw [List.getElem?_append_right (by
        rw [List.length_append, List.length_take]
        omega), List.getElem?_drop]
      congr 1
      rw [List.length_append, List.length_take]
      omega
  · rw [List.getElem?_eq_none (by rw [List.length_take]; omega),
      List.getElem?_eq_none (by rw [List.length_take]; omega)]

/-- Bytes appended behind a slice do not change it. -/
theorem subarray_append {buffer : Bytes}
    (inside : from_ + length ≤ buffer.length) (rest : Bytes) :
    subarray (buffer ++ rest) from_ length =
      subarray buffer from_ length := by
  unfold subarray
  rw [List.drop_append_of_le_length (by omega),
    List.take_append_of_le_length (by rw [List.length_drop]; omega)]

namespace SelectionTable

/-- Double the capacity and keep every row. -/
def grow (table : SelectionTable) : SelectionTable :=
  let next := max (table.capacity * 2) 64
  { table with
    capacity := next
    sizeVarBuf :=
      table.sizeVarBuf ++
        List.replicate (next * sizeVarStride - table.sizeVarBuf.length) 0 }

/-- The position of an entry in its pack, from the pack's index. -/
structure EntryIdentity where
  packSlot : Nat
  entryIndex : Nat
  offset : Nat
  nextOffset : Nat
  oid : RawOid

def setSelectionEntryIdentity (table : SelectionTable) (sel : Nat)
    (identity : EntryIdentity) : SelectionTable :=
  { table with
    packSlots := Function.update table.packSlots sel identity.packSlot
    entryIndices := Function.update table.entryIndices sel identity.entryIndex
    offsets := Function.update table.offsets sel identity.offset
    nextOffsets := Function.update table.nextOffsets sel identity.nextOffset
    oidsRaw := Function.update table.oidsRaw sel (some identity.oid)
    syntheticPayloads := Function.update table.syntheticPayloads sel none }

/-- Append a row; the caller has found that the entry has none. -/
def addRow (table : SelectionTable) (identity : EntryIdentity) :
    SelectionTable :=
  let grown := if table.capacity ≤ table.count then table.grow else table
  let added :=
    { grown with count := grown.count + 1 }.setSelectionEntryIdentity
      grown.count identity
  { added with
    baseSlots := Function.update added.baseSlots grown.count none }

/-- Store a parsed header; a payload of negative length is refused after the
type and the length of the header are stored. -/
def storeSelectionHeader (table : SelectionTable) (sel offset nextOffset : Nat)
    (header : PackHeaderEx) : Except TableFailure (Bool × SelectionTable) :=
  let typed :=
    { table with
      typeCodes :=
        Function.update table.typeCodes sel (UInt8.ofNat header.type)
      headerLens :=
        Function.update table.headerLens sel (UInt16.ofNat header.headerLen) }
  if nextOffset < offset + header.headerLen then
    .ok (false, typed)
  else
    match setBytes typed.sizeVarBuf header.sizeVarBytes
        (sel * sizeVarStride) with
    | .error failure => .error failure
    | .ok buffer =>
      .ok
        (true,
          { typed with
            payloadLens :=
              Function.update typed.payloadLens sel
                (nextOffset - offset - header.headerLen)
            sizeVarBuf := buffer
            sizeVarLens :=
              Function.update typed.sizeVarLens sel
                (UInt8.ofNat header.sizeVarBytes.length) })

/-- Copy the planner fields of one row to another. -/
def copySelectionRow (table : SelectionTable) (targetSel sourceSel : Nat)
    (preserveTargetOfsPinned : Bool) : Except TableFailure SelectionTable :=
  match setBytes table.sizeVarBuf
      (subarray table.sizeVarBuf (sourceSel * sizeVarStride) sizeVarStride)
      (targetSel * sizeVarStride) with
  | .error failure => .error failure
  | .ok buffer =>
    .ok
      { table with
        packSlots :=
          Function.update table.packSlots targetSel
            (table.packSlots sourceSel)
        entryIndices :=
          Function.update table.entryIndices targetSel
            (table.entryIndices sourceSel)
        offsets :=
          Function.update table.offsets targetSel (table.offsets sourceSel)
        nextOffsets :=
          Function.update table.nextOffsets targetSel
            (table.nextOffsets sourceSel)
        oidsRaw :=
          Function.update table.oidsRaw targetSel (table.oidsRaw sourceSel)
        typeCodes :=
          Function.update table.typeCodes targetSel
            (table.typeCodes sourceSel)
        headerLens :=
          Function.update table.headerLens targetSel
            (table.headerLens sourceSel)
        payloadLens :=
          Function.update table.payloadLens targetSel
            (table.payloadLens sourceSel)
        sizeVarBuf := buffer
        sizeVarLens :=
          Function.update table.sizeVarLens targetSel
            (table.sizeVarLens sourceSel)
        baseSlots :=
          Function.update table.baseSlots targetSel
            (table.baseSlots sourceSel)
        baseOidRaw :=
          table.baseOidRaw.map fun bases =>
            Function.update bases targetSel (bases sourceSel)
        queuedForHeader :=
          Function.update table.queuedForHeader targetSel
            (table.queuedForHeader sourceSel)
        ofsPinned :=
          Function.update table.ofsPinned targetSel
            (if preserveTargetOfsPinned then table.ofsPinned targetSel
              else table.ofsPinned sourceSel)
        syntheticPayloads :=
          Function.update table.syntheticPayloads targetSel
            (table.syntheticPayloads sourceSel) }

/-- The type and size varint of a row as the emitter reads it. -/
def rowVarint (table : SelectionTable) (sel : Nat) : Bytes :=
  subarray table.sizeVarBuf (sel * sizeVarStride)
    (table.sizeVarLens sel).toNat

/-! ## Emission -/

/-- The bytes of a pack that a rewrite reads, whole or in windows. -/
inductive PackReadState where
  | wholePack (bytes : Bytes)
  | windows (bytes : Bytes)

def PackReadState.bytes : PackReadState → Bytes
  | wholePack bytes => bytes
  | windows bytes => bytes

/-- The varint of a row in an array of zeros that has its length. -/
def paddedVarint (table : SelectionTable) (sel : Nat) : Bytes :=
  table.rowVarint sel ++
    List.replicate
      ((table.sizeVarLens sel).toNat - (table.rowVarint sel).length) 0

/-- The header of an emitted entry, if its row can be emitted.  The header of
a delta is a new array into which the varint and the base are set. -/
def buildEntryHeaderBytes (table : SelectionTable) (sel : Nat) : Option Bytes :=
  if table.sizeVarLens sel = 0 then
    none
  else if table.typeCodes sel = 6 then
    (table.baseSlots sel).map fun base =>
      table.paddedVarint sel ++
        encodeOfsDeltaDistance
          ((table.outputOffsets sel : Int) - table.outputOffsets base)
  else if table.typeCodes sel = 7 then
    table.baseOidRaw.map fun bases =>
      table.paddedVarint sel ++ (bases sel).bytes
  else
    some (table.rowVarint sel)

theorem length_paddedVarint (table : SelectionTable) (sel : Nat) :
    (table.paddedVarint sel).length = (table.sizeVarLens sel).toNat := by
  have short : (table.rowVarint sel).length ≤ (table.sizeVarLens sel).toNat :=
    List.length_take_le _ _
  unfold paddedVarint
  rw [List.length_append, List.length_replicate]
  omega

/-- The payload of an emitted entry: the synthetic one, or the compressed
bytes of the source entry.  A whole pack is sliced; windows end with an error
when the pack is too short. -/
def emitPackPayload (table : SelectionTable) (sel : Nat)
    (state : Option PackReadState) : Except TableFailure Bytes :=
  match table.syntheticPayloads sel with
  | some payload => .ok payload
  | none =>
    let start := table.offsets sel + (table.headerLens sel).toNat
    match state with
    | none => .error (.missingReadState sel)
    | some (.wholePack bytes) =>
      .ok (subarray bytes start (table.payloadLens sel))
    | some (.windows bytes) =>
      if table.payloadLens sel ≤ bytes.length - start then
        .ok (subarray bytes start (table.payloadLens sel))
      else
        .error (.unexpectedEof sel)

/-- The header and the payload of one emitted entry. -/
def emitEntry (table : SelectionTable) (readStates : Nat → Option PackReadState)
    (sel : Nat) : Except TableFailure (Bytes × Bytes) :=
  let state := readStates (table.packSlots sel)
  if state.isNone ∧ table.syntheticPayloads sel = none then
    .error (.missingReadState sel)
  else
    match table.buildEntryHeaderBytes sel with
    | none => .error (.invalidHeaderState sel)
    | some header =>
      match table.emitPackPayload sel state with
      | .error failure => .error failure
      | .ok payload => .ok (header, payload)

end SelectionTable

end GitOnCloudflare.Pack
