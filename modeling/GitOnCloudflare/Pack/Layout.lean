import GitOnCloudflare.Pack.BinaryHeap
import GitOnCloudflare.Pack.SelectionTable

/-!
# Output order and layout of a rewritten pack

Rows are ordered so that every base precedes its deltas.  Header lengths and
offsets depend on one another through the encoded distances; they are
recomputed until no length changes.
-/

namespace GitOnCloudflare.Pack

def headerStabilityCap : Nat := 16

namespace SelectionTable

/-! ## Output order -/

/-- Source-pack traversal order. -/
def comesBefore (table : SelectionTable) (left right : Nat) : Bool :=
  decide (table.packSlots left < table.packSlots right) ||
    (decide (table.packSlots left = table.packSlots right) &&
      decide (table.offsets left < table.offsets right))

/-- The rows whose base is `base`, the last row first. -/
def children (table : SelectionTable) (base : Nat) : List Nat :=
  ((List.range table.count).filter fun sel =>
    table.baseSlots sel = some base).reverse

/-- The roots, and for every other row the one base it waits for. -/
def initialIndegree (table : SelectionTable) (sel : Nat) : Nat :=
  if (table.baseSlots sel).isSome then 1 else 0

/-- Release the children of an emitted row. -/
def releaseChildren (table : SelectionTable) :
    List Nat → (Nat → Nat) → List Nat → (Nat → Nat) × List Nat
  | [], indegree, heap => (indegree, heap)
  | child :: rest, indegree, heap =>
    let lowered := Function.update indegree child (indegree child - 1)
    table.releaseChildren rest lowered
      (if lowered child = 0 then
        BinaryHeap.push table.comesBefore heap child
      else
        heap)

/-- Emit rows while the heap has one.  More rows than the table has are an
incomplete topology too. -/
def drainHeap (table : SelectionTable) :
    Nat → (Nat → Nat) → List Nat → List Nat → Option (List Nat)
  | fuel, indegree, heap, order =>
    match BinaryHeap.pop table.comesBefore heap with
    | none => some order
    | some (sel, rest) =>
      match fuel with
      | 0 => none
      | fuel + 1 =>
        let released :=
          table.releaseChildren (table.children sel) indegree rest
        table.drainHeap fuel released.1 released.2 (order ++ [sel])

/-- The table with its output order, unless the topology is incomplete. -/
def buildOutputOrder (table : SelectionTable) : Option SelectionTable :=
  let roots :=
    (List.range table.count).filter fun sel => table.initialIndegree sel = 0
  match table.drainHeap table.count table.initialIndegree
      (BinaryHeap.heapify table.comesBefore roots) [] with
  | none => none
  | some order =>
    if order.length = table.count then
      some { table with outputOrder := order }
    else
      none

/-! ## Header lengths and offsets -/

/-- The length of an emitted header under the given row positions. -/
def headerLenAt (table : SelectionTable) (positions : Nat → Nat) (sel : Nat) :
    Nat :=
  let varint := (table.sizeVarLens sel).toNat
  if table.typeCodes sel = 6 then
    match table.baseSlots sel with
    | some base =>
      varint +
        ofsDeltaDistanceLength ((positions sel : Int) - positions base)
    | none => varint + 1
  else if table.typeCodes sel = 7 then
    varint + 20
  else
    varint

/-- The first estimate, from the positions in the source packs. -/
def seedHeaderLens (table : SelectionTable) (sel : Nat) : UInt16 :=
  if sel ∈ table.outputOrder then
    UInt16.ofNat (table.headerLenAt table.offsets sel)
  else
    table.outputHeaderLens sel

/-- Place the rows one after another from `cursor` on. -/
def placeRows (table : SelectionTable) (lengths : Nat → UInt16) :
    List Nat → Nat → (Nat → Nat) → (Nat → Nat) × Nat
  | [], cursor, positions => (positions, cursor)
  | sel :: rest, cursor, positions =>
    table.placeRows lengths rest
      (cursor + ((lengths sel).toNat + table.payloadLens sel))
      (Function.update positions sel cursor)

/-- The rows whose length is recomputed: distances to a selected base. -/
def hasDistance (table : SelectionTable) (sel : Nat) : Bool :=
  decide (sel ∈ table.outputOrder) && decide (table.typeCodes sel = 6) &&
    (table.baseSlots sel).isSome

/-- The lengths at new positions. -/
def resizeHeaders (table : SelectionTable) (positions : Nat → Nat)
    (lengths : Nat → UInt16) (sel : Nat) : UInt16 :=
  if table.hasDistance sel then
    UInt16.ofNat (table.headerLenAt positions sel)
  else
    lengths sel

/-- A recomputed length differs from the stored one. -/
def lengthsChanged (table : SelectionTable) (positions : Nat → Nat)
    (lengths : Nat → UInt16) : Bool :=
  table.outputOrder.any fun sel =>
    table.hasDistance sel &&
      decide (table.headerLenAt positions sel ≠ (lengths sel).toNat)

/-- Place and measure until no length changes. -/
def stabilize (table : SelectionTable) :
    Nat → (Nat → UInt16) → (Nat → Nat) → Option SelectionTable
  | 0, _, _ => none
  | fuel + 1, lengths, previous =>
    let placed := table.placeRows lengths table.outputOrder 12 previous
    if table.lengthsChanged placed.1 lengths then
      table.stabilize fuel (table.resizeHeaders placed.1 lengths) placed.1
    else if 0xffffffff < placed.2 then
      none
    else
      some
        { table with
          outputOffsets := placed.1
          outputHeaderLens := lengths }

/-- The table with its layout, unless it does not converge or is too long. -/
def computeHeaderLengths (table : SelectionTable) : Option SelectionTable :=
  table.stabilize headerStabilityCap table.seedHeaderLens
    table.outputOffsets

/-! ## The emitted stream -/

/-- The length a rewrite reports for its pack. -/
def packBytes (table : SelectionTable) : Nat :=
  12 + 20 +
    ((List.range table.count).map fun sel =>
      (table.outputHeaderLens sel).toNat + table.payloadLens sel).sum

/-- Four big-endian bytes. -/
def uint32Bytes (value : Nat) : Bytes :=
  [UInt8.ofNat (value / 2 ^ 24), UInt8.ofNat (value / 2 ^ 16),
    UInt8.ofNat (value / 2 ^ 8), UInt8.ofNat value]

def buildPackHeader (objectCount : Nat) : Bytes :=
  [0x50, 0x41, 0x43, 0x4b] ++ uint32Bytes 2 ++ uint32Bytes objectCount

/-- The entries in output order, as header and payload. -/
def emitEntries (table : SelectionTable)
    (readStates : Nat → Option PackReadState) :
    List Nat → Except TableFailure (List (Bytes × Bytes))
  | [] => .ok []
  | sel :: rest =>
    match table.emitEntry readStates sel with
    | .error failure => .error failure
    | .ok entry =>
      match table.emitEntries readStates rest with
      | .error failure => .error failure
      | .ok entries => .ok (entry :: entries)

/-- The bytes of emitted entries. -/
def entryBytes (entries : List (Bytes × Bytes)) : Bytes :=
  entries.flatMap fun entry => entry.1 ++ entry.2

/-- The stream of a rewrite: the pack header, every entry and the checksum of
what comes before it. -/
def createRewriteStream (sha1 : Bytes → RawOid) (table : SelectionTable)
    (readStates : Nat → Option PackReadState) : Except TableFailure Bytes :=
  match table.emitEntries readStates table.outputOrder with
  | .error failure => .error failure
  | .ok entries =>
    let body := buildPackHeader table.count ++ entryBytes entries
    .ok (body ++ (sha1 body).bytes)

end SelectionTable

end GitOnCloudflare.Pack
