import GitOnCloudflare.Pack.DeltaProgram
import GitOnCloudflare.Pack.LogicalRefs
import Mathlib.Data.Fin.Basic
import Mathlib.Data.Fintype.Basic
import Mathlib.Logic.Function.Basic
import Mathlib.Order.Monotone.Defs

/-!
# Delta resolution

The second pass over a scanned pack gives every delta entry its object.  An
entry is resolved when its base is; until then it waits for an object id or
for the entry of its base, and a queue holds the entries whose base became
available.  What is left asks the object store for an external base.
Resolved bases are kept in a cache with a byte budget and are computed again
after an eviction.
-/

namespace GitOnCloudflare.Pack

/-! ## Scanned packs -/

/-- What the header of an entry says about its payload. -/
inductive EntryKind (Oid : Type) where
  | full (type : GitObjectType)
  | ofsDelta (baseOffset : Nat)
  | refDelta (baseOid : Oid)

/-- One row of the entry table, with the payload its bytes inflate to. -/
structure PackEntry (Oid : Type) where
  offset : Nat
  kind : EntryKind Oid
  payload : Bytes
  decompressedSize : Nat

/-- The entries of a pack the scanner accepted, in pack order. -/
structure ScanResult (Oid : Type) (objectCount : Nat) where
  entry : Fin objectCount → PackEntry Oid
  ascending : StrictMono fun index => (entry index).offset
  backward : ∀ index baseOffset,
    (entry index).kind = .ofsDelta baseOffset →
      baseOffset ≤ (entry index).offset

/-- What one resolve pass is given. -/
structure ResolveOptions (Oid : Type) (objectCount : Nat) where
  scanResult : ScanResult Oid objectCount
  computeOidBytes : GitObject → Oid
  bytesToHex : Oid → String
  readExternalBaseObject : Oid → Option GitObject
  lruBudget : Nat
  maxObjectBytes : Option Nat

/-! ## Payload cache -/

/-- The cached payloads, oldest first. -/
structure PayloadLRU (objectCount : Nat) where
  budget : Nat
  items : List (Fin objectCount × GitObject)
  currentOffset : Nat

namespace PayloadLRU

variable {objectCount : Nat}

/-- The bytes that the cached payloads take. -/
def totalBytes (items : List (Fin objectCount × GitObject)) : Nat :=
  (items.map fun item => item.2.payload.length).sum

def setCurrentOffset (lru : PayloadLRU objectCount) (offset : Nat) :
    PayloadLRU objectCount :=
  { lru with currentOffset := offset }

/-- Read an entry and make it the newest. -/
def get (lru : PayloadLRU objectCount) (index : Fin objectCount) :
    Option (GitObject × PayloadLRU objectCount) :=
  match lru.items.find? fun item => decide (item.1 = index) with
  | none => none
  | some item =>
    some
      (item.2,
        { lru with
          items :=
            (lru.items.filter fun other => decide (other.1 ≠ index)) ++
              [item] })

/-- The oldest entry past its deadline, else the oldest. -/
def findEvictionCandidate (deadlines : Fin objectCount → Nat)
    (currentOffset : Nat) (items : List (Fin objectCount × GitObject)) :
    Option (Fin objectCount) :=
  match
    items.find? fun item => decide (deadlines item.1 ≤ currentOffset) with
  | some item => some item.1
  | none => items.head?.map Prod.fst

/-- Evict while the budget is exceeded and more than one entry is left. -/
def evict (deadlines : Fin objectCount → Nat) (budget currentOffset : Nat) :
    Nat → List (Fin objectCount × GitObject) →
      List (Fin objectCount × GitObject)
  | 0, items => items
  | fuel + 1, items =>
    if budget < totalBytes items ∧ 1 < items.length then
      match findEvictionCandidate deadlines currentOffset items with
      | none => items
      | some candidate =>
        evict deadlines budget currentOffset fuel
          (items.filter fun item => decide (item.1 ≠ candidate))
    else
      items

/-- Cache a payload, dropping the least useful beyond the budget. -/
def set (lru : PayloadLRU objectCount) (deadlines : Fin objectCount → Nat)
    (index : Fin objectCount) (object : GitObject) : PayloadLRU objectCount :=
  let others := lru.items.filter fun item => decide (item.1 ≠ index)
  if lru.budget < object.payload.length then
    { lru with items := others }
  else
    { lru with
      items :=
        evict deadlines lru.budget lru.currentOffset (others.length + 1)
          (others ++ [(index, object)]) }

end PayloadLRU

/-! ## State of the pass -/

/-- The arrays of the pass.  An entry has an object id once it is resolved. -/
structure ResolveState (Oid : Type) (objectCount : Nat) where
  oids : Fin objectCount → Option Oid
  objectTypes : Fin objectCount → Option GitObjectType
  rawRefs : Fin objectCount → Option Bytes
  isBase : Fin objectCount → Bool
  baseIndex : Fin objectCount → Option (Fin objectCount)
  deadlines : Fin objectCount → Nat
  resolvedEntries : Oid → Option (Fin objectCount)
  waiting : Oid → List (Fin objectCount)
  waitingOnBase : Fin objectCount → List (Fin objectCount)
  registeredBase : Fin objectCount → Option (Fin objectCount)
  deferred : List (Fin objectCount)
  readyDeferred : List (Fin objectCount)
  deferredQueued : Fin objectCount → Bool
  lru : PayloadLRU objectCount
  resolved : Nat

namespace ResolveOptions

variable {Oid : Type} {objectCount : Nat}

section Entries

variable (opts : ResolveOptions Oid objectCount)

def entry (index : Fin objectCount) : PackEntry Oid :=
  opts.scanResult.entry index

def offset (index : Fin objectCount) : Nat := (opts.entry index).offset

def kind (index : Fin objectCount) : EntryKind Oid := (opts.entry index).kind

/-- The object of an entry stored whole. -/
def fullObject (index : Fin objectCount) : Option GitObject :=
  match opts.kind index with
  | .full type => some ⟨type, (opts.entry index).payload⟩
  | _ => none

/-- The base id of a REF delta. -/
def refBaseOid (index : Fin objectCount) : Option Oid :=
  match opts.kind index with
  | .refDelta baseOid => some baseOid
  | _ => none

/-- The binary search over the ascending offsets, from `lo` up to `hi`. -/
def searchOffsetIndex (target : Nat) :
    Nat → Nat → Nat → Option (Fin objectCount)
  | 0, _, _ => none
  | fuel + 1, lo, hi =>
    if lo < hi then
      let mid := (lo + hi - 1) / 2
      if inside : mid < objectCount then
        let value := opts.offset ⟨mid, inside⟩
        if value = target then
          some ⟨mid, inside⟩
        else if value < target then
          searchOffsetIndex target fuel (mid + 1) hi
        else
          searchOffsetIndex target fuel lo mid
      else
        none
    else
      none

/-- The entry that starts at an offset. -/
def entryAtOffset (target : Nat) : Option (Fin objectCount) :=
  opts.searchOffsetIndex target (objectCount + 1) 0 objectCount

/-- Apply the program of an entry to a base.  The label says which of the
three places reports a wrong size. -/
def applyEntryDelta (label : String) (index : Fin objectCount)
    (base : GitObject) : Except String GitObject := do
  let result ←
    applyGitDelta base.payload (opts.entry index).payload opts.maxObjectBytes
  if result.length ≠ (opts.entry index).decompressedSize then
    .error s!"{label} result size mismatch at offset {opts.offset index} (expected {(opts.entry index).decompressedSize}, got {result.length})"
  else
    .ok ⟨base.type, result⟩

end Entries

/-! ## Materialization -/

section Materialize

variable (opts : ResolveOptions Oid objectCount)

/-- Follow bases down to a cached or whole object or an external base, and
remember the entries passed on the way. -/
def walkToBase (state : ResolveState Oid objectCount) (index : Fin objectCount) :
    Nat → PayloadLRU objectCount → Fin objectCount →
      List (Fin objectCount) →
        Except String
          (GitObject × List (Fin objectCount) × PayloadLRU objectCount)
  | 0, _, _, _ =>
    .error s!"materialize: base chain cycle or runaway traversal for entry {index}"
  | fuel + 1, lru, current, pending =>
    match lru.get current with
    | some (cached, lru) => .ok (cached, pending, lru)
    | none =>
      match opts.fullObject current with
      | some base =>
        .ok (base, pending, lru.set state.deadlines current base)
      | none =>
        match state.baseIndex current with
        | some base =>
          walkToBase state index fuel lru base (current :: pending)
        | none =>
          match opts.refBaseOid current with
          | none =>
            .error s!"materialize: unresolved in-pack base for entry {current}"
          | some baseOid =>
            match opts.readExternalBaseObject baseOid with
            | none =>
              .error s!"materialize: external base {opts.bytesToHex baseOid} not found"
            | some base => .ok (base, current :: pending, lru)

/-- Apply the remembered programs, the last entry first. -/
def replayPending (state : ResolveState Oid objectCount) :
    List (Fin objectCount) → GitObject → PayloadLRU objectCount →
      Except String (GitObject × PayloadLRU objectCount)
  | [], base, lru => .ok (base, lru)
  | index :: pending, base, lru => do
      let result ← opts.applyEntryDelta "materialize: delta" index base
      replayPending state pending result
        (lru.set state.deadlines index result)

/-- Compute an entry again from its chain of bases. -/
def materializeEntry (state : ResolveState Oid objectCount)
    (index : Fin objectCount) :
    Except String (GitObject × PayloadLRU objectCount) := do
  let (base, pending, lru) ←
    opts.walkToBase state index objectCount state.lru index []
  opts.replayPending state pending base lru

/-- The payload of a base, cached or computed again. -/
def getBasePayload (state : ResolveState Oid objectCount)
    (index : Fin objectCount) :
    Except String (GitObject × PayloadLRU objectCount) :=
  match state.lru.get index with
  | some cached => .ok cached
  | none => opts.materializeEntry state index

end Materialize

/-! ## Wake-ups -/

end ResolveOptions

namespace ResolveState

variable {Oid : Type} {objectCount : Nat}

/-- The base of an entry is known and resolved. -/
def baseReady (state : ResolveState Oid objectCount)
    (index : Fin objectCount) : Bool :=
  match state.baseIndex index with
  | none => false
  | some base => (state.oids base).isSome

/-- Queue an entry whose base has become ready. -/
def enqueueReadyDeferred (state : ResolveState Oid objectCount)
    (index : Fin objectCount) : ResolveState Oid objectCount :=
  if state.deferredQueued index || (state.oids index).isSome ||
      !state.baseReady index then
    state
  else
    { state with
      deferredQueued := Function.update state.deferredQueued index true
      readyDeferred := state.readyDeferred ++ [index] }

/-- Wake one entry that registered on a base. -/
def wakeDependent (state : ResolveState Oid objectCount)
    (index : Fin objectCount) : ResolveState Oid objectCount :=
  enqueueReadyDeferred
    { state with
      registeredBase := Function.update state.registeredBase index none }
    index

/-- Wake the entries that wait for a base entry. -/
def promoteReadyInPackDependents (state : ResolveState Oid objectCount)
    (resolvedIndex : Fin objectCount) : ResolveState Oid objectCount :=
  (state.waitingOnBase resolvedIndex).foldl wakeDependent
    { state with
      waitingOnBase :=
        Function.update state.waitingOnBase resolvedIndex [] }

/-- Let an entry wait for its base entry. -/
def registerInPackDependency (state : ResolveState Oid objectCount)
    (index : Fin objectCount) : ResolveState Oid objectCount :=
  match state.baseIndex index with
  | none => state
  | some base =>
    if state.registeredBase index = some base then
      state
    else
      { state with
        waitingOnBase :=
          Function.update state.waitingOnBase base
            (index :: state.waitingOnBase base)
        registeredBase :=
          Function.update state.registeredBase index (some base) }

/-- Raise the deadlines along a chain of bases; the guard bounds the walk. -/
def extendDeadlineChain (baseIndex : Fin objectCount → Option (Fin objectCount))
    (neededUntil : Nat) :
    Nat → Fin objectCount → (Fin objectCount → Nat) →
      Fin objectCount → Nat
  | 0, _, deadlines => deadlines
  | guard + 1, current, deadlines =>
    let raised :=
      if deadlines current < neededUntil then
        Function.update deadlines current neededUntil
      else
        deadlines
    match baseIndex current with
    | none => raised
    | some base =>
      extendDeadlineChain baseIndex neededUntil guard base raised

end ResolveState

namespace ResolveOptions

variable {Oid : Type} {objectCount : Nat} [DecidableEq Oid]

section Steps

variable (opts : ResolveOptions Oid objectCount)

/-- Some REF_DELTA entry names the id, so that the lookup has a slot for
it. -/
def hasSlot (oid : Oid) : Bool :=
  (List.finRange objectCount).any fun index =>
    decide (opts.refBaseOid index = some oid)

/-- Note the entry that has an id. -/
def noteResolvedEntry (state : ResolveState Oid objectCount)
    (index : Fin objectCount) : ResolveState Oid objectCount :=
  match state.oids index with
  | none => state
  | some oid =>
    if opts.hasSlot oid then
      { state with
        resolvedEntries :=
          Function.update state.resolvedEntries oid (some index) }
    else
      state

/-- Give a waiting entry without a base the entry that was just resolved. -/
def promoteWaiter (resolvedIndex : Fin objectCount)
    (state : ResolveState Oid objectCount) (waiter : Fin objectCount) :
    ResolveState Oid objectCount :=
  match state.baseIndex waiter with
  | some _ => state
  | none =>
    let baseIndex :=
      Function.update state.baseIndex waiter (some resolvedIndex)
    ResolveState.enqueueReadyDeferred
      { state with
        baseIndex := baseIndex
        deadlines :=
          ResolveState.extendDeadlineChain baseIndex
            (max (opts.offset waiter) (state.deadlines waiter))
            objectCount resolvedIndex state.deadlines }
      waiter

/-- Give the entries that wait for an id their base. -/
def promoteWaitingRefDeltas (state : ResolveState Oid objectCount)
    (resolvedIndex : Fin objectCount) : ResolveState Oid objectCount :=
  match state.oids resolvedIndex with
  | none => state
  | some oid =>
    if opts.hasSlot oid then
      match state.waiting oid with
      | [] => opts.noteResolvedEntry state resolvedIndex
      | waiters =>
        waiters.foldl (opts.promoteWaiter resolvedIndex)
          { opts.noteResolvedEntry state resolvedIndex with
            waiting := Function.update state.waiting oid []
            isBase := Function.update state.isBase resolvedIndex true }
    else
      state

/-! ## Resolving one entry -/

/-- `storeOid`, the type columns and the reference builder. -/
def recordResult (state : ResolveState Oid objectCount)
    (index : Fin objectCount) (object : GitObject) :
    ResolveState Oid objectCount :=
  { state with
    oids :=
      Function.update state.oids index (some (opts.computeOidBytes object))
    objectTypes :=
      Function.update state.objectTypes index (some object.type)
    rawRefs :=
      Function.update state.rawRefs index (some (objectRefBytes object)) }

/-- Cache a payload that other entries build on. -/
def cacheIfBase (state : ResolveState Oid objectCount) (index : Fin objectCount)
    (object : GitObject) : ResolveState Oid objectCount :=
  if state.isBase index then
    { state with lru := state.lru.set state.deadlines index object }
  else
    state

/-- Record a result, wake what waited for it and keep its payload.  A pack
without REF_DELTA entries has nothing to wake. -/
def publishResult (mixed : Bool) (state : ResolveState Oid objectCount)
    (index : Fin objectCount) (object : GitObject) :
    ResolveState Oid objectCount :=
  let recorded := opts.recordResult state index object
  let woken :=
    if mixed then
      (opts.promoteWaitingRefDeltas recorded
        index).promoteReadyInPackDependents index
    else
      recorded
  cacheIfBase woken index object

/-- Apply a delta to its base and publish the result. -/
def resolveDeltaEntry (mixed : Bool) (state : ResolveState Oid objectCount)
    (index : Fin objectCount) : Except String (ResolveState Oid objectCount) :=
  match state.baseIndex index with
  | none => .error s!"resolve: base entry -1 is not ready for {index}"
  | some base =>
    if (state.oids base).isNone then
      .error s!"resolve: base entry {base} is not ready for {index}"
    else do
      let (object, lru) ← opts.getBasePayload state base
      let result ← opts.applyEntryDelta "resolve: delta" index object
      .ok (opts.publishResult mixed { state with lru := lru } index result)

/-- Resolve an entry and count it, as every caller does. -/
def resolveAndCount (mixed : Bool) (state : ResolveState Oid objectCount)
    (index : Fin objectCount) :
    Except String (ResolveState Oid objectCount) := do
  let next ← opts.resolveDeltaEntry mixed state index
  .ok { next with resolved := next.resolved + 1 }

/-! ## Dependencies known before the pass -/

/-- Set the base of an entry and keep the base until the entry needs it. -/
def linkBase (state : ResolveState Oid objectCount)
    (index base : Fin objectCount) : ResolveState Oid objectCount :=
  { state with
    baseIndex := Function.update state.baseIndex index (some base)
    isBase := Function.update state.isBase base true
    deadlines :=
      Function.update state.deadlines base
        (max (state.deadlines base) (opts.offset index)) }

/-- One entry of `buildOfsDependencies` or `buildMixedDependencies`; only the
second registers on a base that is not resolved. -/
def buildDependency (mixed : Bool) (state : ResolveState Oid objectCount)
    (index : Fin objectCount) : Except String (ResolveState Oid objectCount) :=
  if (state.oids index).isSome then
    .ok state
  else
    match opts.kind index with
    | .full _ => .ok state
    | .ofsDelta baseOffset =>
      match opts.entryAtOffset baseOffset with
      | none =>
        .error s!"resolve: OFS_DELTA at offset {opts.offset index} references unknown base offset {baseOffset}"
      | some base =>
        let linked := opts.linkBase state index base
        .ok
          (if mixed && (state.oids base).isNone then
            linked.registerInPackDependency index
          else
            linked)
    | .refDelta baseOid =>
      match state.resolvedEntries baseOid with
      | some base => .ok (opts.linkBase state index base)
      | none =>
        .ok
          { state with
            waiting :=
              Function.update state.waiting baseOid
                (index :: state.waiting baseOid) }

/-- The dependencies of a pack of OFS deltas. -/
def buildOfsDependencies (state : ResolveState Oid objectCount) :
    Except String (ResolveState Oid objectCount) :=
  (List.finRange objectCount).foldlM (opts.buildDependency false) state

/-- The dependencies of a pack with REF deltas. -/
def buildMixedDependencies (state : ResolveState Oid objectCount) :
    Except String (ResolveState Oid objectCount) :=
  (List.finRange objectCount).foldlM (opts.buildDependency true) state

/-- Pass the deadline of an entry on to its base. -/
def propagateDeadline (state : ResolveState Oid objectCount)
    (index : Fin objectCount) : ResolveState Oid objectCount :=
  if (state.oids index).isSome then
    state
  else
    match state.baseIndex index with
    | none => state
    | some base =>
      let neededUntil := max (opts.offset index) (state.deadlines index)
      if state.deadlines base < neededUntil then
        { state with
          deadlines :=
            Function.update state.deadlines base neededUntil }
      else
        state

/-- The last offset at which each base is needed. -/
def propagateDeadlines (state : ResolveState Oid objectCount) :
    ResolveState Oid objectCount :=
  (List.finRange objectCount).reverse.foldl opts.propagateDeadline state

/-! ## The passes -/

/-- Cache a resolved base that is not cached. -/
def cacheResolvedBaseIfNeeded (state : ResolveState Oid objectCount)
    (index : Fin objectCount) : ResolveState Oid objectCount :=
  match state.lru.get index with
  | some (_, lru) => { state with lru := lru }
  | none =>
    if state.isBase index then
      match opts.fullObject index with
      | none => state
      | some object =>
        { state with lru := state.lru.set state.deadlines index object }
    else
      state

def atOffsetOf (state : ResolveState Oid objectCount)
    (index : Fin objectCount) : ResolveState Oid objectCount :=
  { state with lru := state.lru.setCurrentOffset (opts.offset index) }

/-- One round of the pass over a pack without REF_DELTA entries. -/
def ofsMainStep (state : ResolveState Oid objectCount) (index : Fin objectCount) :
    Except String (ResolveState Oid objectCount) :=
  let state := opts.atOffsetOf state index
  if (state.oids index).isSome then
    .ok (opts.cacheResolvedBaseIfNeeded state index)
  else if state.baseReady index then
    opts.resolveAndCount false state index
  else
    .error s!"resolve: OFS_DELTA base is not ready for entry {index}"

/-- One round of the pass over a mixed pack. -/
def mixedMainStep (state : ResolveState Oid objectCount)
    (index : Fin objectCount) : Except String (ResolveState Oid objectCount) :=
  let state := opts.atOffsetOf state index
  if (state.oids index).isSome then
    .ok (opts.cacheResolvedBaseIfNeeded state index)
  else if state.baseReady index then
    opts.resolveAndCount true state index
  else
    .ok { state with deferred := state.deferred ++ [index] }

/-- Take entries from the queue until it is empty.  An entry is queued once,
so that `fuel` rounds are enough. -/
def drainQueue : Nat → ResolveState Oid objectCount →
    Except String (ResolveState Oid objectCount)
  | 0, state => .ok state
  | fuel + 1, state =>
    match state.readyDeferred with
    | [] => .ok state
    | index :: rest =>
      let taken : ResolveState Oid objectCount :=
        { state with
          readyDeferred := rest
          deferredQueued :=
            Function.update state.deferredQueued index false }
      if (taken.oids index).isSome || !taken.baseReady index then
        drainQueue fuel taken
      else do
        let next ←
          opts.resolveAndCount true (opts.atOffsetOf taken index) index
        drainQueue fuel next

/-- Resolve queued entries until none is left. -/
def drainReadyDeferredQueue (state : ResolveState Oid objectCount) :
    Except String (ResolveState Oid objectCount) :=
  opts.drainQueue (state.readyDeferred.length + objectCount) state

/-- One deferred entry of the external fallback. -/
def fallbackStep (state : ResolveState Oid objectCount)
    (index : Fin objectCount) : Except String (ResolveState Oid objectCount) :=
  if (state.oids index).isSome then
    .ok state
  else if (state.baseIndex index).isSome then
    .ok (state.enqueueReadyDeferred index)
  else
    match (opts.refBaseOid index).bind opts.readExternalBaseObject with
    | none => .ok state
    | some base => do
        let result ←
          opts.applyEntryDelta "resolve: deferred delta" index base
        let published :=
          opts.publishResult true (opts.atOffsetOf state index) index result
        opts.drainReadyDeferredQueue
          { published with resolved := published.resolved + 1 }

/-! ## The whole resolution -/

/-- The state after the scan: whole entries are resolved. -/
def scanned : ResolveState Oid objectCount where
  oids := fun index => (opts.fullObject index).map opts.computeOidBytes
  objectTypes := fun index => (opts.fullObject index).map GitObject.type
  rawRefs := fun index => (opts.fullObject index).map objectRefBytes
  isBase := fun _ => false
  baseIndex := fun _ => none
  deadlines := fun _ => 0
  resolvedEntries := fun _ => none
  waiting := fun _ => []
  waitingOnBase := fun _ => []
  registeredBase := fun _ => none
  deferred := []
  readyDeferred := []
  deferredQueued := fun _ => false
  lru := ⟨opts.lruBudget, [], 0⟩
  resolved :=
    (List.finRange objectCount).countP fun index =>
      (opts.fullObject index).isSome

def refDeltaCount : Nat :=
  (List.finRange objectCount).countP fun index =>
    (opts.refBaseOid index).isSome

/-- The columns the index and the reference sidecar are written from. -/
structure ResolvedTable (Oid : Type) (objectCount : Nat) where
  oids : Fin objectCount → Option Oid
  objectTypes : Fin objectCount → Option GitObjectType
  rawRefs : Fin objectCount → Option Bytes

/-- The checks that building the sidecar makes on one entry. -/
def buildRefsEntry (state : ResolveState Oid objectCount)
    (index : Fin objectCount) : Except String Unit :=
  match state.objectTypes index, state.rawRefs index with
  | none, _ => .error s!"ref-index: unresolved object type for entry {index}"
  | some _, none =>
    .error s!"ref-index: missing logical refs for entry {index}"
  | some _, some refs =>
    if refs.length % oidBytes ≠ 0 then
      .error s!"ref-index: invalid logical refs for entry {index}"
    else
      .ok ()

/-- The table of a resolution that has ended. -/
def writeAndParseIdx (state : ResolveState Oid objectCount) :
    Except String (ResolvedTable Oid objectCount) := do
  (List.finRange objectCount).forM (buildRefsEntry state)
  .ok ⟨state.oids, state.objectTypes, state.rawRefs⟩

/-- The last check of both passes. -/
def finishResolve (state : ResolveState Oid objectCount) :
    Except String (ResolvedTable Oid objectCount) :=
  if state.resolved ≠ objectCount then
    .error s!"resolve: {objectCount - state.resolved} objects could not be resolved"
  else
    writeAndParseIdx state

/-- Resolve a pack that has OFS deltas only. -/
def resolveOfsPack : Except String (ResolvedTable Oid objectCount) := do
  let built ← opts.buildOfsDependencies opts.scanned
  let final ←
    (List.finRange objectCount).foldlM opts.ofsMainStep
      (opts.propagateDeadlines built)
  finishResolve final

/-- The entries that the scan resolved, by object id; a later one wins. -/
def noteScannedEntries : ResolveState Oid objectCount :=
  (List.finRange objectCount).foldl opts.noteResolvedEntry opts.scanned

/-- Resolve a pack that has REF deltas. -/
def resolveMixedPack : Except String (ResolvedTable Oid objectCount) := do
  let built ← opts.buildMixedDependencies opts.noteScannedEntries
  let passed ←
    (List.finRange objectCount).foldlM opts.mixedMainStep
      (opts.propagateDeadlines built)
  let drained ←
    opts.drainReadyDeferredQueue
      (passed.deferred.foldl ResolveState.enqueueReadyDeferred passed)
  let fallen ← passed.deferred.foldlM opts.fallbackStep drained
  let final ← opts.drainReadyDeferredQueue fallen
  finishResolve final

/-- Resolve all entries of a scanned pack. -/
def resolveDeltasAndWriteIdx :
    Except String (ResolvedTable Oid objectCount) :=
  if objectCount = 0 ∨ opts.scanned.resolved = objectCount then
    writeAndParseIdx opts.scanned
  else if opts.refDeltaCount = 0 then
    opts.resolveOfsPack
  else
    opts.resolveMixedPack

end Steps

end ResolveOptions

end GitOnCloudflare.Pack
