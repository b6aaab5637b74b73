import GitOnCloudflare.Core.ObjectParse
import GitOnCloudflare.Store.PackedRead

/-!
# Peeled tags

The refs of tags are grouped by their ids and looked up in the packs of the
catalog.  What is found in one pack is read in the order of its offsets, with a
cache of the pack.  The base of a delta is looked for in the same pack first,
and then read as any object.
-/

namespace GitOnCloudflare.Store.PeeledTags

open GitOnCloudflare.Core
open Foundations
open Pack

/-- Where an object is, and the refs that name it. -/
structure PackedTagLocation where
  candidate : PackedObjectCandidate
  refNames : List String

/-- Where a pack has the object of a tag ref. -/
def buildPackedTagLocation (packSlot : Nat) (source : IndexedPackSource String)
    (oid : String) (refNames : List String) : Option PackedTagLocation :=
  (source.findOidIndex oid).map fun objectIndex =>
    ⟨⟨packSlot, objectIndex⟩, refNames⟩

/-! ## Reading -/

/-- The objects of one pack that were read before. -/
abbrev PeelCache := Nat → Option GitObject

/-- Where the base of a delta is read. -/
inductive PeelBase where
  | samePack (base : PackedObjectCandidate)
  | anyPack (oid : String)
  | missing

section Reading

variable (packs : List (IndexedPackSource String))

/-- A base id looked up in the delta's own pack. -/
def samePackBase (candidate : PackedObjectCandidate) (oid : String) :
    Option PackedObjectCandidate :=
  (packs[candidate.packSlot]?).bind fun source =>
    (buildPackedTagLocation candidate.packSlot source oid []).map
      PackedTagLocation.candidate

/-- The base of an entry, in its pack where it can be. -/
def peelBase (candidate : PackedObjectCandidate) :
    EntryKind String → PeelBase
  | .full _ => .missing
  | .ofsDelta baseOffset =>
    match baseAtOffset packs candidate baseOffset with
    | some base => .samePack base
    | none => .missing
  | .refDelta baseOid =>
    match samePackBase packs candidate baseOid with
    | some base => .samePack base
    | none => .anyPack baseOid

/-- A read that is handed the rows being read. -/
def readObjectVisited (fuel : Nat) (visited : List PackedObjectCandidate)
    (oid : String) : ReadResult :=
  match findObject packs oid with
  | none => .ok none
  | some candidate => materializeCandidate packs fuel visited candidate

/-- What was read is kept for the pack. -/
def keepResolved (cache : PeelCache) (candidate : PackedObjectCandidate)
    (resolved : Option GitObject) : Option GitObject × PeelCache :=
  match resolved with
  | none => (none, cache)
  | some object =>
    (some object, Function.update cache candidate.objectIndex (some object))

/-- Read an object through the cache. -/
def readPackedObjectFromLocation : Nat → List PackedObjectCandidate →
    PeelCache → PackedObjectCandidate →
      Except String (Option GitObject × PeelCache)
  | 0, _, _, _ => .error "peel: out of fuel"
  | fuel + 1, visited, cache, candidate =>
    match cache candidate.objectIndex with
    | some cached => .ok (some cached, cache)
    | none =>
      if candidate ∈ visited then
        .error "ls-refs peel recursion cycle"
      else
        match entryAt packs candidate with
        | none => .ok (none, cache)
        | some entry =>
          match entry.kind with
          | .full type =>
            .ok (keepResolved cache candidate
              (some ⟨type, entry.payload⟩))
          | kind =>
            match peelBase packs candidate kind with
            | .missing => .ok (none, cache)
            | .samePack base =>
              (readPackedObjectFromLocation fuel
                (candidate :: visited) cache base).bind fun read =>
                  (applyToBase entry.payload read.1).map
                    (keepResolved read.2 candidate)
            | .anyPack oid =>
              (readObjectVisited packs fuel (candidate :: visited)
                oid).bind fun base =>
                  (applyToBase entry.payload base).map
                    (keepResolved cache candidate)

end Reading

/-! ## Refs -/

/-- The map of peeled ids by ref name. -/
abbrev PeeledByRef := KeyedList (Prod.fst : String × String → String)

def PeeledByRef.get (peeledByRef : PeeledByRef) (name : String) :
    Option String :=
  (peeledByRef.find? name).map Prod.snd

/-- The locations by pack, for the packs that have any. -/
def locateFrom : Nat → List (IndexedPackSource String) →
    List (String × List String) → List (List PackedTagLocation)
  | _, [], _ => []
  | packSlot, source :: sources, unresolved =>
    if unresolved = [] then
      []
    else
      let locations := unresolved.filterMap fun group =>
        buildPackedTagLocation packSlot source group.1 group.2
      let left := unresolved.filter fun group =>
        (buildPackedTagLocation packSlot source group.1 group.2).isNone
      if locations = [] then
        locateFrom (packSlot + 1) sources left
      else
        locations :: locateFrom (packSlot + 1) sources left

/-- The target that a tag names. -/
def tagTarget (object : GitObject) : Option String :=
  if object.type = .tag then
    (parseTagTarget object.payload).map TagTarget.targetOid
  else
    none

section Loading

variable (packs : List (IndexedPackSource String))

end Loading

end GitOnCloudflare.Store.PeeledTags
