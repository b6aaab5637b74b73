import GitOnCloudflare.Foundations.OpenAddressing
import GitOnCloudflare.Pack.PackScan

/-!
# Open-addressed tables of object ids

The planner of a pack rewrite keeps the row that owns each object id, and the
resolver keeps the slot of each base that a reference delta names.  Both pack
the ids into one byte array and probe it linearly.  The first table grows; the
second is made large enough for the reference deltas of one pack.

A row or an entry is `none` where the arrays hold `-1`.
-/

namespace GitOnCloudflare.Pack.OidLookup

/-! ## The runtime -/

/-- The memory limit of an isolate, 128 MB. -/
def isolateMemory : Nat := 128 * 1024 * 1024

/-- Which typed arrays the runtime allocates, by their bytes; an isolate has no
array beyond its memory. -/
structure ArrayRuntime where
  allocates : Nat → Bool
  withinMemory : ∀ byteLength, allocates byteLength = true →
    byteLength ≤ isolateMemory

/-- A call throws, or one of its loops does not end. -/
inductive LookupFailure where
  | rangeError
  | neverEnds
deriving DecidableEq

/-! ## Hashing and comparing -/

/-- `value & mask` of two numbers, which takes their low 32 bits. -/
def bitAnd (value mask : Nat) : Nat :=
  (UInt32.ofNat value &&& UInt32.ofNat mask).toNat

/-- `rawBytes[position]` as an operand of `^`. -/
def byteAt (rawBytes : Bytes) (position : Nat) : UInt32 :=
  match rawBytes[position]? with
  | none => 0
  | some byte => byte.toUInt32

/-- The hash of an id within longer bytes. -/
def hashOidAt (rawBytes : Bytes) (start : Nat) : UInt32 :=
  (List.range 20).foldl
    (fun hash i => (hash ^^^ byteAt rawBytes (start + i)) * 16777619)
    2166136261

def hashOid (oid : Bytes) : UInt32 := hashOidAt oid 0

/-- A slot has the id. -/
def slotKeyEquals (keys : Bytes) (slot : Nat) (rawBytes : Bytes)
    (start : Nat) : Bool :=
  (List.range 20).all fun i =>
    keys[slot * 20 + i]? == rawBytes[start + i]?

/-! ## Probing -/

/-- The arrays that a probe reads. -/
structure Slots where
  mask : Nat
  slotCount : Nat
  used : Nat → Bool
  keys : Bytes

/-- The slot at which the loop of a probe ends: a free one, or one that has the
id. -/
def Slots.probe (slots : Slots) (rawBytes : Bytes) (start : Nat) :
    Nat → Nat → Option Nat
  | 0, _ => none
  | rounds + 1, slot =>
    if slots.used slot then
      if slotKeyEquals slots.keys slot rawBytes start then
        some slot
      else
        probe slots rawBytes start rounds (bitAnd (slot + 1) slots.mask)
    else
      some slot

/-- A loop that went past every slot goes on for ever. -/
def Slots.probeFromHash (slots : Slots) (rawBytes : Bytes) (start : Nat) :
    Except LookupFailure Nat :=
  match
    slots.probe rawBytes start slots.slotCount
      (bitAnd (hashOidAt rawBytes start).toNat slots.mask) with
  | none => .error .neverEnds
  | some slot => .ok slot

/-- `keys.set(rawBytes.subarray(start, start + 20), slot * 20)` of a slot that
becomes used. -/
def Slots.take (slots : Slots) (slot : Nat) (rawBytes : Bytes)
    (start : Nat) : Except LookupFailure Slots :=
  match setBytes slots.keys (subarray rawBytes start 20) (slot * 20) with
  | .error _ => .error .rangeError
  | .ok keys =>
    .ok
      { slots with
        used := Function.update slots.used slot true
        keys := keys }

/-- New arrays of a number of slots. -/
def allocateSlots (runtime : ArrayRuntime) (slotCount : Nat) :
    Except LookupFailure Slots :=
  if runtime.allocates slotCount && runtime.allocates (slotCount * 20) &&
      runtime.allocates (slotCount * 4) then
    .ok
      { mask := slotCount - 1
        slotCount := slotCount
        used := fun _ => false
        keys := List.replicate (slotCount * 20) 0 }
  else
    .error .rangeError

/-! ## The owners of a rewrite -/

/-- The planner's table of the row that owns each id. -/
structure SelectedOidLookup where
  count : Nat
  slots : Slots
  owners : Nat → Option Nat

def emptySelectedOidLookup (runtime : ArrayRuntime) (slotCount : Nat) :
    Except LookupFailure SelectedOidLookup := do
  let slots ← allocateSlots runtime slotCount
  .ok { count := 0, slots := slots, owners := fun _ => none }

/-- The row that owns an id. -/
def findSelectedOidOwner (lookup : SelectedOidLookup) (rawBytes : Bytes)
    (start : Nat) : Except LookupFailure (Option Nat) := do
  let slot ← lookup.slots.probeFromHash rawBytes start
  if lookup.slots.used slot then
    .ok (lookup.owners slot)
  else
    .ok none

/-- A call of `setSelectedOidOwner`. -/
abbrev SetOwner :=
  SelectedOidLookup → Bytes → Nat → Option Nat →
    Except LookupFailure SelectedOidLookup

/-- Move one slot of the previous arrays. -/
def moveSlot (set : SetOwner) (previous lookup : SelectedOidLookup)
    (slot : Nat) : Except LookupFailure SelectedOidLookup :=
  if previous.slots.used slot then
    set lookup previous.slots.keys (slot * 20) (previous.owners slot)
  else
    .ok lookup

/-- Move all ids to a larger table. -/
def rehashSelectedOidLookup (runtime : ArrayRuntime) (set : SetOwner)
    (lookup : SelectedOidLookup) (nextSlotCount : Nat) :
    Except LookupFailure SelectedOidLookup := do
  let next ← emptySelectedOidLookup runtime nextSlotCount
  (List.range lookup.slots.slotCount).foldlM (moveSlot set lookup) next

/-- Grow the table before it is too full. -/
def ensureSelectedOidLookupCapacity (runtime : ArrayRuntime) (set : SetOwner)
    (lookup : SelectedOidLookup) : Except LookupFailure SelectedOidLookup :=
  if (lookup.count + 1) * 10 ≤ lookup.slots.slotCount * 7 then
    .ok lookup
  else
    rehashSelectedOidLookup runtime set lookup (lookup.slots.slotCount * 2)

/-- Install or replace the owner once there is room. -/
def storeSelectedOidOwner (lookup : SelectedOidLookup) (rawBytes : Bytes)
    (start : Nat) (ownerSel : Option Nat) :
    Except LookupFailure SelectedOidLookup := do
  let slot ← lookup.slots.probeFromHash rawBytes start
  if lookup.slots.used slot then
    .ok { lookup with owners := Function.update lookup.owners slot ownerSel }
  else do
    let slots ← lookup.slots.take slot rawBytes start
    .ok
      { count := lookup.count + 1
        slots := slots
        owners := Function.update lookup.owners slot ownerSel }

/-- A rehash sets the owners of the previous slots, and each of these calls
looks after its own capacity; the depth bounds rehashes within rehashes. -/
def setSelectedOidOwner (runtime : ArrayRuntime) : Nat → SetOwner
  | 0, _, _, _, _ => .error .neverEnds
  | depth + 1, lookup, rawBytes, start, ownerSel => do
      let lookup ←
        ensureSelectedOidLookupCapacity runtime
          (setSelectedOidOwner runtime depth) lookup
      storeSelectedOidOwner lookup rawBytes start ownerSel

/-! ## The bases of reference deltas -/

/-- What the scanner knows of the reference deltas of a pack: the types of the
entries, twenty bytes for the base of each, and how many entries are reference
deltas. -/
structure RefDeltaScan where
  types : List UInt8
  refBaseOids : Bytes
  refDeltaCount : Nat
  length_refBaseOids : refBaseOids.length = types.length * 20
  counted : refDeltaCount = types.count 7
  indexable : types.length ≤ Indexer.maxIndexableObjectCount

def RefDeltaScan.objectCount (scan : RefDeltaScan) : Nat :=
  scan.types.length

def getRefBaseOidAt (refBaseOids : Bytes) (index : Nat) : Bytes :=
  subarray refBaseOids (index * 20) 20

/-- The base ids of a pack's REF deltas. -/
structure RefBaseLookup where
  slots : Slots
  resolvedEntries : Nat → Option Nat
  entrySlots : Nat → Option Nat

/-- The slot of an id, if it has one. -/
def findExistingSlot (lookup : RefBaseLookup) (oid : Bytes) :
    Except LookupFailure (Option Nat) := do
  let slot ← lookup.slots.probeFromHash oid 0
  if lookup.slots.used slot then
    .ok (some slot)
  else
    .ok none

/-- The first lines of `promoteWaitingRefDeltas` store an entry the same
way. -/
def noteResolvedEntry (lookup : RefBaseLookup) (oidBuffer : Bytes)
    (entryIndex : Nat) : Except LookupFailure RefBaseLookup := do
  let slot ←
    findExistingSlot lookup (subarray oidBuffer (entryIndex * 20) 20)
  match slot with
  | none => .ok lookup
  | some slot =>
    .ok
      { lookup with
        resolvedEntries :=
          Function.update lookup.resolvedEntries slot entryIndex }

/-- The entry that resolved the base of an entry. -/
def getResolvedBaseEntry (lookup : RefBaseLookup) (entryIndex : Nat) :
    Option Nat :=
  match lookup.entrySlots entryIndex with
  | none => none
  | some slot => lookup.resolvedEntries slot

end GitOnCloudflare.Pack.OidLookup
