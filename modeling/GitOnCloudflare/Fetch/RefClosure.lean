import GitOnCloudflare.Pack.RefSidecar
import GitOnCloudflare.Repo.RefClosure

/-!
# The object selection of a fetch

Two walks over the reference sidecars of a snapshot of packs: the first marks
what the common haves reach, the second selects what the wants reach without
it.  Readings of the clock are given by the environment.
-/

namespace GitOnCloudflare.Fetch

open Foundations
open Foundations.ByteTable
open Pack
open Repo (isValidOid haveCap missingRefCap)

/-! ## Object ids as text -/

/-- The value of a hex digit: `parseInt(digit, 16)`. -/
def hexDigitValue (digit : Char) : Nat :=
  if '0' ≤ digit ∧ digit ≤ '9' then digit.toNat - 0x30
  else if 'a' ≤ digit ∧ digit ≤ 'f' then digit.toNat - 0x61 + 10
  else if 'A' ≤ digit ∧ digit ≤ 'F' then digit.toNat - 0x41 + 10
  else 0

def hexPairs : List Char → Bytes
  | high :: low :: rest =>
    UInt8.ofNat (hexDigitValue high * 16 + hexDigitValue low) ::
      hexPairs rest
  | _ => []

/-- Only valid ids are converted, which are of even length. -/
def hexToBytes (hex : String) : Bytes := hexPairs hex.toList

/-! ## Located objects -/

/-- A pack with its index and its references. -/
structure PackRefSnapshotEntry where
  packKey : String
  idx : IdxView
  refs : PackRefView

/-- Where the objects of each pack are counted from. -/
structure ClosureIndex where
  packBaseOrdinals : List Nat
  objectCount : Nat

def packBaseOrdinalsFrom (objectCount : Nat) :
    List PackRefSnapshotEntry → List Nat
  | [] => [objectCount]
  | pack :: packs =>
    objectCount :: packBaseOrdinalsFrom (objectCount + pack.idx.count) packs

/-- Count the objects of the packs one after the other. -/
def buildClosureIndex (packs : List PackRefSnapshotEntry) : ClosureIndex :=
  ⟨packBaseOrdinalsFrom 0 packs, (packs.map fun pack => pack.idx.count).sum⟩

/-- A row of a pack and its number among all rows. -/
structure LocatedObject where
  packSlot : Nat
  oidIndex : Nat
  ordinal : Nat

/-- One round of the loop over the packs. -/
def locateInPack (closureIndex : ClosureIndex) (rawOid : Bytes)
    (rawOidStart packSlot : Nat) (pack : PackRefSnapshotEntry) :
    Option LocatedObject :=
  (pack.idx.findOidIndexFromBytes rawOid rawOidStart).bind fun oidIndex =>
    if oidIndex < 0 then
      none
    else
      some
        ⟨packSlot, oidIndex.toNat,
          closureIndex.packBaseOrdinals.getD packSlot 0 + oidIndex.toNat⟩

/-- The loop over the packs from a slot on. -/
def locateFrom (closureIndex : ClosureIndex) (rawOid : Bytes)
    (rawOidStart packSlot : Nat) (packs : List PackRefSnapshotEntry) :
    Option LocatedObject :=
  (packs.zipIdx packSlot).findSome? fun slotted =>
    locateInPack closureIndex rawOid rawOidStart slotted.2 slotted.1

/-- The first pack that has an id. -/
def locateObject (packs : List PackRefSnapshotEntry)
    (closureIndex : ClosureIndex) (rawOid : Bytes) (rawOidStart : Nat) :
    Option LocatedObject :=
  locateFrom closureIndex rawOid rawOidStart 0 packs

/-- The packs and their closure index. -/
def locate (packs : List PackRefSnapshotEntry) (rawOid : Bytes)
    (rawOidStart : Nat) : Option LocatedObject :=
  locateObject packs (buildClosureIndex packs) rawOid rawOidStart

/-! ## Common haves -/

/-- A have that the packs have. -/
structure CommonHave where
  oid : String
  located : LocatedObject

/-- The haves found so far. -/
structure HaveScan where
  seenFlags : Nat → Bool
  found : List CommonHave

/-- Look one have up. -/
def HaveScan.next (packs : List PackRefSnapshotEntry) (scan : HaveScan)
    (haveText : String) : HaveScan :=
  let oid := Text.toLowerCase haveText
  if !isValidOid oid then
    scan
  else
    match locate packs (hexToBytes oid) 0 with
    | none => scan
    | some located =>
      if scan.seenFlags located.ordinal then
        scan
      else
        { seenFlags := Function.update scan.seenFlags located.ordinal true
          found := scan.found ++ [⟨oid, located⟩] }

/-- The haves that the packs have, each once. -/
def findCommonHavesInSnapshot (packs : List PackRefSnapshotEntry)
    (haves : List String) : List CommonHave :=
  ((haves.take haveCap).foldl (HaveScan.next packs)
    ⟨fun _ => false, []⟩).found

/-! ## Walking references -/

/-- Slots and rows of queued objects, and how many were taken. -/
structure LocatedObjectQueue where
  entries : List (Nat × Nat)
  cursor : Nat

/-- The queue of a walk with its flags, and the sets of missing ids. -/
structure RefWalk where
  queue : LocatedObjectQueue
  queuedFlags : Nat → Bool
  duplicateQueueSkips : Nat
  missingSeen : List String
  missingNeeded : List String
  edgeVisits : Nat
  budgetExceeded : Bool

def RefWalk.start (missingSeen : List String) : RefWalk :=
  ⟨⟨[], 0⟩, fun _ => false, 0, missingSeen, [], 0, false⟩

/-- Queue a row once. -/
def RefWalk.enqueueLocatedObject (walk : RefWalk) (located : LocatedObject) :
    RefWalk :=
  if walk.queuedFlags located.ordinal then
    { walk with duplicateQueueSkips := walk.duplicateQueueSkips + 1 }
  else
    { walk with
      queuedFlags := Function.update walk.queuedFlags located.ordinal true
      queue :=
        { walk.queue with
          entries :=
            walk.queue.entries ++ [(located.packSlot, located.oidIndex)] } }

/-- Note an id that no pack has, up to the cap. -/
def RefWalk.recordMissingOid (walk : RefWalk) (oid : String)
    (includeNeeded : Bool) : RefWalk :=
  if oid ∈ walk.missingSeen then
    walk
  else if missingRefCap ≤ walk.missingSeen.length then
    { walk with budgetExceeded := true }
  else
    { walk with
      missingSeen := walk.missingSeen ++ [oid]
      missingNeeded :=
        if includeNeeded then walk.missingNeeded ++ [oid]
        else walk.missingNeeded }

/-- The visitor of both walks; the first one includes every id. -/
def RefWalk.visitRawRef (packs : List PackRefSnapshotEntry)
    (includeNeeded : String → Bool) (rawRefs : Bytes) (walk : RefWalk)
    (oidStart : Nat) : RefWalk :=
  let counted := { walk with edgeVisits := walk.edgeVisits + 1 }
  if walk.budgetExceeded then
    counted
  else
    match locate packs rawRefs oidStart with
    | some located => counted.enqueueLocatedObject located
    | none =>
      let oid := bytesToHex (slice rawRefs oidStart oidBytes)
      counted.recordMissingOid oid (includeNeeded oid)

/-- Queue the references of a row. -/
def RefWalk.visitRefs (packs : List PackRefSnapshotEntry)
    (includeNeeded : String → Bool) (walk : RefWalk)
    (entry : Nat × Nat) : RefWalk :=
  match packs[entry.1]? with
  | none => walk
  | some pack =>
    (pack.refs.visitPackRefRawRefsAt entry.2).foldl
      (RefWalk.visitRawRef packs includeNeeded pack.refs.rawRefs) walk

def RefWalk.advance (walk : RefWalk) : RefWalk :=
  { walk with queue := { walk.queue with cursor := walk.queue.cursor + 1 } }

/-- Why a walk stops early. -/
inductive BudgetReason where
  | timeout
  | missingRefBudget
deriving DecidableEq

/-- The loop over the closure of the haves; `none` when the rounds are not
enough. -/
def walkHaves (packs : List PackRefSnapshotEntry) (late : Nat → Bool) :
    Nat → RefWalk → Option (Except (BudgetReason × RefWalk) RefWalk)
  | 0, _ => none
  | rounds + 1, walk =>
    match walk.queue.entries[walk.queue.cursor]? with
    | none => some (.ok walk)
    | some entry =>
      if late walk.queue.cursor then
        some (.error (.timeout, walk))
      else
        let visited :=
          walk.advance.visitRefs packs (fun _ => true) entry
        if visited.budgetExceeded then
          some (.error (.missingRefBudget, visited))
        else
          walkHaves packs late rounds visited

/-! ## Selecting objects -/

/-- The walk from the wants with its flags. -/
structure ClosureWalk where
  refs : RefWalk
  seenFlags : Nat → Bool
  neededFlags : Nat → Bool
  needed : List (Nat × Nat)
  seenCount : Nat

def ClosureWalk.start (refs : RefWalk) : ClosureWalk :=
  ⟨refs, fun _ => false, fun _ => false, [], 0⟩

/-- A want that is no object id, or is not in the snapshot, is missing. -/
def RefWalk.queueWant (packs : List PackRefSnapshotEntry) (walk : RefWalk)
    (want : String) : RefWalk :=
  let normalized := Text.toLowerCase want
  if walk.budgetExceeded then
    walk
  else if !isValidOid normalized then
    walk.recordMissingOid normalized true
  else
    match locate packs (hexToBytes normalized) 0 with
    | none => walk.recordMissingOid normalized true
    | some located => walk.enqueueLocatedObject located

/-- Note a row that is to be sent, once. -/
def ClosureWalk.addNeededObject (walk : ClosureWalk) (ordinal : Nat)
    (entry : Nat × Nat) : ClosureWalk :=
  if walk.neededFlags ordinal then
    walk
  else
    { walk with
      neededFlags := Function.update walk.neededFlags ordinal true
      needed := walk.needed ++ [entry] }

/-- The ordinal of a queued slot and row. -/
def ordinalOf (packs : List PackRefSnapshotEntry) (entry : Nat × Nat) : Nat :=
  (buildClosureIndex packs).packBaseOrdinals.getD entry.1 0 + entry.2

/-- Walk from the wants to what the client has. -/
def walkWants (packs : List PackRefSnapshotEntry) (late : Nat → Bool)
    (stopFlags : Nat → Bool) (missingStop : List String) :
    Nat → ClosureWalk →
      Option (Except (BudgetReason × ClosureWalk) ClosureWalk)
  | 0, _ => none
  | rounds + 1, walk =>
    match walk.refs.queue.entries[walk.refs.queue.cursor]? with
    | none => some (.ok walk)
    | some entry =>
      if late walk.refs.queue.cursor then
        some (.error (.timeout, walk))
      else
        let taken := { walk with refs := walk.refs.advance }
        let ordinal := ordinalOf packs entry
        if walk.seenFlags ordinal then
          walkWants packs late stopFlags missingStop rounds taken
        else
          let seen :=
            { taken with
              seenFlags := Function.update walk.seenFlags ordinal true
              seenCount := walk.seenCount + 1 }
          if stopFlags ordinal then
            walkWants packs late stopFlags missingStop rounds seen
          else
            let needing := seen.addNeededObject ordinal entry
            let visited :=
              { needing with
                refs :=
                  needing.refs.visitRefs packs
                    (fun oid => decide (oid ∉ missingStop)) entry }
            if visited.refs.budgetExceeded then
              some (.error (.missingRefBudget, visited))
            else
              walkWants packs late stopFlags missingStop rounds visited

/-- The counts of a walk. -/
structure RefClosureStats where
  indexedObjects : Nat
  queued : Nat
  seen : Nat
  needed : Nat
  missing : Nat
  edgeVisits : Nat
  duplicateQueueSkips : Nat
deriving DecidableEq

/-- The needed ids, or where the budget ended. -/
inductive RefClosureResult where
  | ready (neededOids ackOids : List String) (stats : RefClosureStats)
  | budgetExceeded (reason : BudgetReason) (neededOids ackOids : List String)
      (stats : RefClosureStats)
deriving DecidableEq

/-- The id of a slot and row. -/
def nameOf (packs : List PackRefSnapshotEntry) (entry : Nat × Nat) : String :=
  match packs[entry.1]? with
  | none => ""
  | some pack => bytesToHex (pack.idx.nameAt entry.2)

/-- The names of the needed rows and missing ids. -/
def buildNeededOids (packs : List PackRefSnapshotEntry)
    (walk : ClosureWalk) : List String :=
  walk.needed.map (nameOf packs) ++ walk.refs.missingNeeded

/-- The counts of a walk that has ended. -/
def buildRefClosureStats (packs : List PackRefSnapshotEntry)
    (walk : ClosureWalk) : RefClosureStats where
  indexedObjects := (buildClosureIndex packs).objectCount
  queued := walk.refs.queue.entries.length
  seen := walk.seenCount
  needed := walk.needed.length + walk.refs.missingNeeded.length
  missing := walk.refs.missingSeen.length
  edgeVisits := walk.refs.edgeVisits
  duplicateQueueSkips := walk.refs.duplicateQueueSkips

/-- What a walk without budget answers. -/
def buildBudgetExceededResult (packs : List PackRefSnapshotEntry)
    (ackOids : List String) (reason : BudgetReason) (walk : ClosureWalk) :
    RefClosureResult :=
  .budgetExceeded reason (buildNeededOids packs walk) ackOids
    (buildRefClosureStats packs walk)

/-- Every object is queued at most once. -/
def walkRounds (packs : List PackRefSnapshotEntry) : Nat :=
  (buildClosureIndex packs).objectCount + 1

/-- What a fetch needs, from the reference files alone. -/
def computeNeededFromPackRefs (packs : List PackRefSnapshotEntry)
    (lateHaves lateWants : Nat → Bool) (wants haves : List String) :
    Option RefClosureResult :=
  let commonHaves := findCommonHavesInSnapshot packs haves
  let ackOids := commonHaves.map CommonHave.oid
  let haveStart :=
    commonHaves.foldl
      (fun walk common => walk.enqueueLocatedObject common.located)
      (RefWalk.start [])
  match walkHaves packs lateHaves (walkRounds packs) haveStart with
  | none => none
  | some (.error (reason, walked)) =>
    some
      (buildBudgetExceededResult packs ackOids reason
        (ClosureWalk.start (RefWalk.start walked.missingSeen)))
  | some (.ok had) =>
    let queued :=
      wants.foldl (RefWalk.queueWant packs)
        (RefWalk.start had.missingSeen)
    if queued.budgetExceeded then
      some
        (buildBudgetExceededResult packs ackOids .missingRefBudget
          (ClosureWalk.start queued))
    else
      match walkWants packs lateWants had.queuedFlags had.missingNeeded
          (walkRounds packs) (ClosureWalk.start queued) with
      | none => none
      | some (.error (reason, walked)) =>
        some (buildBudgetExceededResult packs ackOids reason walked)
      | some (.ok walked) =>
        some
          (.ready (buildNeededOids packs walked) ackOids
            (buildRefClosureStats packs walked))

end GitOnCloudflare.Fetch
