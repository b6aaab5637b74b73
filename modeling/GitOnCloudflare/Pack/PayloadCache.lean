import GitOnCloudflare.Foundations.LinkedOrder
import GitOnCloudflare.Pack.DeltaResolution

/-!
# The payload cache in arrays

The cache of the resolver keeps payloads in arrays indexed by pack entry and
links the entries it has, the coldest first.  A new payload evicts entries that
are past their deadline, or else the coldest, until the budget is met or one
entry is left.
-/

namespace GitOnCloudflare.Pack.PayloadCache

open Foundations

/-- A call throws, or one of its loops does not end. -/
inductive CacheFailure where
  | thrown (message : String)
  | neverEnds

def encodeType : GitObjectType → UInt8
  | .commit => 1
  | .tree => 2
  | .blob => 3
  | .tag => 4

def decodeType (typeCode : UInt8) : Except CacheFailure GitObjectType :=
  match typeCode with
  | 1 => .ok .commit
  | 2 => .ok .tree
  | 3 => .ok .blob
  | 4 => .ok .tag
  | other => .error (.thrown s!"payload-cache: unknown object type code {other}")

/-- The arrays of the cache.  The deadlines are a table that the resolver goes
on changing. -/
structure PayloadLRU (capacity : Nat) where
  payloads : Fin capacity → Option Bytes
  typeCodes : Fin capacity → UInt8
  present : Fin capacity → Bool
  links : Links (Fin capacity)
  totalBytes : Int
  budget : Nat
  cachedEntries : Int
  deadlinesArr : Option (Fin capacity → UInt32)
  currentOffset : Nat

namespace PayloadLRU

variable {capacity : Nat}

def create (budget capacity : Nat) : PayloadLRU capacity where
  payloads := fun _ => none
  typeCodes := fun _ => 0
  present := fun _ => false
  links := .empty
  totalBytes := 0
  budget := budget
  cachedEntries := 0
  deadlinesArr := none
  currentOffset := 0

def setDeadlines (lru : PayloadLRU capacity)
    (deadlines : Fin capacity → UInt32) : PayloadLRU capacity :=
  { lru with deadlinesArr := some deadlines }

def setCurrentOffset (lru : PayloadLRU capacity) (offset : Nat) :
    PayloadLRU capacity :=
  { lru with currentOffset := offset }

def appendTail (lru : PayloadLRU capacity) (index : Fin capacity) :
    PayloadLRU capacity :=
  { lru with links := lru.links.append index }

def detach (lru : PayloadLRU capacity) (index : Fin capacity) :
    PayloadLRU capacity :=
  { lru with links := lru.links.detach index }

def touch (lru : PayloadLRU capacity) (index : Fin capacity) :
    PayloadLRU capacity :=
  if lru.links.tail = some index then
    lru
  else
    (lru.detach index).appendTail index

def remove (lru : PayloadLRU capacity) (index : Fin capacity) :
    PayloadLRU capacity :=
  if lru.present index then
    let removed :=
      { lru.detach index with
        present := Function.update lru.present index false
        payloads := Function.update lru.payloads index none
        typeCodes := Function.update lru.typeCodes index 0
        cachedEntries := lru.cachedEntries - 1 }
    match lru.payloads index with
    | none => removed
    | some payload =>
      { removed with totalBytes := lru.totalBytes - payload.length }
  else
    lru

/-- Read an entry and make it the newest. -/
def get (lru : PayloadLRU capacity) (index : Fin capacity) :
    Except CacheFailure (Option GitObject × PayloadLRU capacity) :=
  if lru.present index then
    match lru.payloads index with
    | none => .ok (none, lru)
    | some payload => do
        let lru := lru.touch index
        let type ← decodeType (lru.typeCodes index)
        .ok (some ⟨type, payload⟩, lru)
  else
    .ok (none, lru)

/-- The deadline of an entry; without a table every entry is past it. -/
def deadline (lru : PayloadLRU capacity) (candidate : Fin capacity) : Nat :=
  match lru.deadlinesArr with
  | none => 0
  | some deadlines => (deadlines candidate).toNat

/-- Walk from the oldest entry to the first one past its deadline, else take
the oldest.  The walk of a list has at most one round more than the list has
entries. -/
def findEvictionCandidate (lru : PayloadLRU capacity) :
    Except CacheFailure (Option (Fin capacity)) :=
  match
    lru.links.search
      (fun candidate => decide (lru.deadline candidate ≤ lru.currentOffset))
      (capacity + 1) lru.links.head with
  | none => .error .neverEnds
  | some none => .ok lru.links.head
  | some (some candidate) => .ok (some candidate)

def evict : Nat → PayloadLRU capacity →
    Except CacheFailure (PayloadLRU capacity)
  | 0, _ => .error .neverEnds
  | rounds + 1, lru =>
    if (lru.budget : Int) < lru.totalBytes ∧ 1 < lru.cachedEntries then do
      let candidate ← lru.findEvictionCandidate
      match candidate with
      | none => .ok lru
      | some candidate => evict rounds (lru.remove candidate)
    else
      .ok lru

/-- The assignments for an entry that the cache does not have. -/
def add (lru : PayloadLRU capacity) (index : Fin capacity)
    (entry : GitObject) : PayloadLRU capacity :=
  appendTail
    { lru with
      payloads := Function.update lru.payloads index (some entry.payload)
      typeCodes := Function.update lru.typeCodes index (encodeType entry.type)
      present := Function.update lru.present index true
      cachedEntries := lru.cachedEntries + 1
      totalBytes := lru.totalBytes + entry.payload.length }
    index

def set (lru : PayloadLRU capacity) (index : Fin capacity)
    (entry : GitObject) : Except CacheFailure (PayloadLRU capacity) :=
  let lru := if lru.present index then lru.remove index else lru
  if lru.budget < entry.payload.length then
    .ok lru
  else
    (lru.add index entry).evict (capacity + 1)

end PayloadLRU

end GitOnCloudflare.Pack.PayloadCache
