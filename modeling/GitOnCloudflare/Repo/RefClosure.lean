import GitOnCloudflare.Repo.AcceptedWrites

/-!
# Needed objects over reference sidecars

The walk that selects the objects reachable from wanted ids and not already
reachable from had ids, over the logical references of loaded packs.  An
object is identified by its id: every lookup takes the first loaded pack that
holds it.  The clock limit of the walk belongs to the environment, which may
withhold the views instead.
-/

namespace GitOnCloudflare.Repo

open Foundations
open Receive

def haveCap : Nat := 128

def missingRefCap : Nat := 1024

def isHexDigit (char : Char) : Bool :=
  isLowerHex char || ('A' ≤ char && char ≤ 'F')

/-- `/^[0-9a-f]{40}$/i`. -/
def isValidOid (oid : String) : Bool :=
  Text.matchesClass isHexDigit 40 40 oid

/-- The first loaded pack entry with an id. -/
def locateObject (packs : List PackRefView) (oid : String) :
    Option PackObjectView :=
  packs.findSome? fun pack => pack.objects.find? fun entry => entry.oid = oid

/-- The queue, the ids ever queued, the ids selected and the ids not found. -/
structure RefWalk where
  queue : List String
  queued : List String
  needed : List String
  missing : List String

/-- Meet one id: queue it once, or note it as missing within the budget. -/
def RefWalk.meet (packs : List PackRefView) (walk : RefWalk) (oid : String) :
    Option RefWalk :=
  if (locateObject packs oid).isSome then
    if oid ∈ walk.queued then
      some walk
    else
      some
        { walk with
          queue := walk.queue ++ [oid]
          queued := walk.queued ++ [oid] }
  else if oid ∈ walk.missing then
    some walk
  else if missingRefCap ≤ walk.missing.length then
    none
  else
    some { walk with missing := walk.missing ++ [oid] }

/-- Take ids off the queue, selecting and expanding those not stopped. -/
def RefWalk.run (packs : List PackRefView) (stops : List String) :
    Nat → RefWalk → Option RefWalk
  | 0, walk => some walk
  | fuel + 1, walk =>
    match walk.queue with
    | [] => some walk
    | oid :: rest =>
      if oid ∈ stops then
        RefWalk.run packs stops fuel { walk with queue := rest }
      else
        let refs :=
          ((locateObject packs oid).map PackObjectView.refs).getD []
        match refs.foldlM (RefWalk.meet packs)
            { walk with queue := rest, needed := walk.needed ++ [oid] }
            with
        | none => none
        | some next => RefWalk.run packs stops fuel next

/-- Every id is queued at most once, so this many rounds empty the queue. -/
def walkFuel (packs : List PackRefView) : Nat :=
  (packs.map fun pack => pack.objects.length).sum + 1

/-- The had ids that some loaded pack holds. -/
def findCommonHavesInSnapshot (packs : List PackRefView) (haves : List String) :
    List String :=
  (((haves.take haveCap).map Text.toLowerCase).filter fun oid =>
    isValidOid oid && (locateObject packs oid).isSome).dedup

/-- A wanted id that is no object id counts as missing. -/
def RefWalk.want (packs : List PackRefView) (walk : RefWalk) (wanted : String) :
    Option RefWalk :=
  RefWalk.meet packs walk (Text.toLowerCase wanted)

def computeNeededFromPackRefs (packs : List PackRefView)
    (wants haves : List String) : Option (List String) :=
  let common := findCommonHavesInSnapshot packs haves
  match RefWalk.run packs [] (walkFuel packs) ⟨common, common, [], []⟩ with
  | none => none
  | some had =>
    match wants.foldlM (RefWalk.want packs) ⟨[], [], [], had.missing⟩ with
    | none => none
    | some start =>
      match RefWalk.run packs had.queued (walkFuel packs) start with
      | none => none
      | some walked =>
        some
          (walked.needed ++ walked.missing.drop had.missing.length)

end GitOnCloudflare.Repo
