import GitOnCloudflare.Fetch.RefClosure

/-!
# The boundary of a stock receive

The planner derives the closure of the advertised refs over the active packs,
walks the incoming pack from the new ids of the commands, and rejects incoming
objects that neither walk meets.
-/

namespace GitOnCloudflare.Planner

open Foundations
open Pack
open Fetch (PackRefSnapshotEntry hexToBytes)
open Receive (ReceiveCommand)

def maxClosureObjects : Nat := 100000

def maxClosureEdges : Nat := 500000

/-! ## Nodes -/

/-- The index, the sidecar and the key of an active pack. -/
abbrev BoundActivePack := PackRefSnapshotEntry

/-- The type and the references of an object. -/
structure PlannerNode where
  refs : List String
  type : GitObjectType

/-- The comparison of two copies of an object. -/
def PlannerNode.mismatches (found node : PlannerNode) : Bool :=
  decide (found.type ≠ node.type) || decide (found.refs ≠ node.refs)

/-- The row of an id, or -1. -/
def findOidIndex (idx : IdxView) (oid : String) : Int :=
  let needle := hexToBytes (Text.toLowerCase oid)
  if needle.length ≠ oidBytes then -1
  else (idx.findOidIndexFromBytes needle 0).getD (-1)

/-- Look an id up in one more pack; copies must agree. -/
def activeNodeStep (oid : String) (found : Option PlannerNode)
    (pack : BoundActivePack) : Except String (Option PlannerNode) :=
  let index := findOidIndex pack.idx oid
  if index < 0 then
    .ok found
  else
    match pack.refs.getPackRefObjectType index with
    | none => .error "stock-plan:active-type-missing"
    | some type =>
      let node := ⟨pack.refs.getPackRefRefsAt index, type⟩
      if found.any fun copy => copy.mismatches node then
        .error "stock-plan:duplicate-pref-mismatch"
      else
        .ok (some node)

/-- An object of the active packs. -/
def activeNode (packs : List BoundActivePack) (oid : String) :
    Except String (Option PlannerNode) :=
  packs.foldlM (activeNodeStep oid) none

/-- An object of the incoming pack. -/
def incomingNode (idx : IdxView) (refs : PackRefView) (oid : String) :
    Except String (Option PlannerNode) :=
  let index := findOidIndex idx oid
  if index < 0 then
    .ok none
  else
    match refs.getPackRefObjectType index with
    | none => .error "stock-plan:incoming-type-missing"
    | some type => .ok (some ⟨refs.getPackRefRefsAt index, type⟩)

/-! ## The advertised closure -/

/-- A ref that the push was told of. -/
structure AdvertisedRef where
  name : String
  oid : String

/-- The loop over the queue, given the ids seen and the edges counted.  The
references are pushed as the arguments of one call, of which the engine takes
no more than `maxArguments`. -/
def advertisedLoop (maxArguments : Nat) (packs : List BoundActivePack) :
    List String → List String → Nat → Except String (List String)
  | [], seen, _ => .ok seen
  | oid :: queue, seen, edges =>
    if oid ∈ seen then
      advertisedLoop maxArguments packs queue seen edges
    else if maxClosureObjects ≤ seen.length then
      .error "stock-plan:advertised-closure-limit"
    else
      match activeNode packs oid with
      | .error failure => .error failure
      | .ok none => .error "stock-plan:advertised-object-missing"
      | .ok (some node) =>
        if maxClosureEdges < edges + node.refs.length then
          .error "stock-plan:advertised-edge-limit"
        else if maxArguments < node.refs.length then
          .error "RangeError: Maximum call stack size exceeded"
        else
          advertisedLoop maxArguments packs (queue ++ node.refs)
            (seen ++ [oid]) (edges + node.refs.length)
termination_by queue _ edges => queue.length + (maxClosureEdges - edges)
decreasing_by
  · simp only [List.length_cons]
    omega
  · simp only [List.length_cons, List.length_append]
    omega

def sortOids (oids : List String) : List String :=
  oids.mergeSort fun left right => decide (left ≤ right)

/-- The non-zero ids of a list, in lower case. -/
def startOids (oids : List String) : List String :=
  (oids.map Text.toLowerCase).filter fun oid => decide (oid ≠ Receive.zeroOid)

/-- All that the advertised refs reach, sorted. -/
def deriveAdvertisedClosure (maxArguments : Nat) (packs : List BoundActivePack)
    (advertisedRefs : List AdvertisedRef) : Except String (List String) :=
  (advertisedLoop maxArguments packs
    (startOids (advertisedRefs.map AdvertisedRef.oid)) [] 0).map sortOids

/-! ## The incoming boundary -/

/-- What the walk from the new ids has gathered. -/
structure BoundaryWalk where
  visited : List String
  external : List String
  objectTypeCounts : GitObjectType → Nat
  logicalEdgeCount : Nat
  internalEdgeCount : Nat
  externalEdgeCount : Nat

def BoundaryWalk.start : BoundaryWalk := ⟨[], [], fun _ => 0, 0, 0, 0⟩

/-- A set keeps the order in which its members came. -/
def addToSet (set : List String) (oid : String) : List String :=
  if oid ∈ set then set else set ++ [oid]

/-- Count an object of the incoming pack. -/
def BoundaryWalk.visit (walk : BoundaryWalk) (oid : String)
    (node : PlannerNode) : BoundaryWalk :=
  { walk with
    visited := walk.visited ++ [oid]
    objectTypeCounts :=
      Function.update walk.objectTypeCounts node.type
        (walk.objectTypeCounts node.type + 1)
    logicalEdgeCount := walk.logicalEdgeCount + node.refs.length }

/-- The loop over the references of a visited object: the walk, and the ids
that are pushed. -/
def followRefs (incomingIdx : IdxView) (advertised : List String) :
    List String → BoundaryWalk → Except String (BoundaryWalk × List String)
  | [], walk => .ok (walk, [])
  | target :: targets, walk =>
    if 0 ≤ findOidIndex incomingIdx target then
      match followRefs incomingIdx advertised targets
          { walk with internalEdgeCount := walk.internalEdgeCount + 1 } with
      | .error failure => .error failure
      | .ok (after, pushed) => .ok (after, target :: pushed)
    else if target ∈ advertised then
      followRefs incomingIdx advertised targets
        { walk with
          externalEdgeCount := walk.externalEdgeCount + 1
          external := addToSet walk.external target }
    else
      .error "stock-plan:external-edge-not-advertised"

theorem followRefs_edges {incomingIdx : IdxView} {advertised : List String}
    {targets : List String} {walk after : BoundaryWalk} {pushed : List String}
    (followed : followRefs incomingIdx advertised targets walk =
      .ok (after, pushed)) :
    pushed.length ≤ targets.length ∧
      after.logicalEdgeCount = walk.logicalEdgeCount := by
  induction targets generalizing walk after pushed with
  | nil =>
    cases followed
    exact ⟨le_refl _, rfl⟩
  | cons target targets ih =>
    rw [followRefs] at followed
    split at followed
    · split at followed
      · cases followed
      · next more =>
        cases followed
        rcases ih more with ⟨fewer, same⟩
        exact ⟨Nat.succ_le_succ fewer, same⟩
    · split at followed
      · rcases ih followed with ⟨fewer, same⟩
        exact ⟨Nat.le_succ_of_le fewer, same⟩
      · cases followed

/-- The loop over the queue of incoming objects. -/
def boundaryLoop (incomingIdx : IdxView) (incomingRefs : PackRefView)
    (advertised : List String) :
    List String → BoundaryWalk → Except String BoundaryWalk
  | [], walk => .ok walk
  | oid :: queue, walk =>
    if oid ∈ walk.visited ∨ oid ∈ walk.external then
      boundaryLoop incomingIdx incomingRefs advertised queue walk
    else if oid ∈ advertised then
      boundaryLoop incomingIdx incomingRefs advertised queue
        { walk with external := walk.external ++ [oid] }
    else
      match incomingNode incomingIdx incomingRefs oid with
      | .error failure => .error failure
      | .ok none => .error "stock-plan:incoming-closure-missing"
      | .ok (some node) =>
        if maxClosureObjects ≤ walk.visited.length then
          .error "stock-plan:incoming-closure-limit"
        else if maxClosureEdges <
            walk.logicalEdgeCount + node.refs.length then
          .error "stock-plan:incoming-edge-limit"
        else
          match followed : followRefs incomingIdx advertised node.refs
              (walk.visit oid node) with
          | .error failure => .error failure
          | .ok (after, pushed) =>
            boundaryLoop incomingIdx incomingRefs advertised
              (queue ++ pushed) after
termination_by queue walk =>
  queue.length + (maxClosureEdges - walk.logicalEdgeCount)
decreasing_by
  · simp only [List.length_cons]
    omega
  · simp only [List.length_cons]
    omega
  · rcases followRefs_edges followed with ⟨fewer, same⟩
    have counted : (walk.visit oid node).logicalEdgeCount =
        walk.logicalEdgeCount + node.refs.length := rfl
    simp only [List.length_cons, List.length_append]
    omega

/-- What the walk from the new ids answers. -/
structure IncomingBoundary where
  visitedIncomingOids : List String
  semanticExternalOids : List String
  visitedIncomingObjectCount : Nat
  logicalEdgeCount : Nat
  internalEdgeCount : Nat
  externalEdgeCount : Nat
  missingObjectCount : Nat
  objectTypeCounts : GitObjectType → Nat

/-- What is returned of the walk. -/
def BoundaryWalk.boundary (walk : BoundaryWalk) : IncomingBoundary where
  visitedIncomingOids := sortOids walk.visited
  semanticExternalOids := sortOids walk.external
  visitedIncomingObjectCount := walk.visited.length
  logicalEdgeCount := walk.logicalEdgeCount
  internalEdgeCount := walk.internalEdgeCount
  externalEdgeCount := walk.externalEdgeCount
  missingObjectCount := 0
  objectTypeCounts := walk.objectTypeCounts

/-- Walk from the new ids to the advertised closure. -/
def deriveIncomingBoundary (commands : List ReceiveCommand)
    (incomingIdx : IdxView) (incomingRefs : PackRefView)
    (advertised : List String) : Except String IncomingBoundary :=
  (boundaryLoop incomingIdx incomingRefs advertised
    (startOids (commands.map ReceiveCommand.newOid)) .start).map
      BoundaryWalk.boundary

/-! ## Both walks -/

/-- The two closures of a plan. -/
structure StockBoundary where
  advertisedReachableOids : List String
  boundary : IncomingBoundary

/-- Some incoming object was met by neither walk. -/
def hasUnreachable (idx : IdxView) (advertised visited : List String) : Bool :=
  (List.range idx.count).any fun index =>
    let oid := bytesToHex (idx.nameAt index)
    decide (oid ∉ visited) && decide (oid ∉ advertised)

/-- What the planner derives before it plans the dependencies. -/
def deriveStockBoundary (maxArguments : Nat) (active : List BoundActivePack)
    (advertisedRefs : List AdvertisedRef) (commands : List ReceiveCommand)
    (incomingIdx : IdxView) (incomingRefs : PackRefView) :
    Except String StockBoundary := do
  let advertised ← deriveAdvertisedClosure maxArguments active advertisedRefs
  let boundary ← deriveIncomingBoundary commands incomingIdx incomingRefs
    advertised
  if hasUnreachable incomingIdx advertised boundary.visitedIncomingOids then
    .error "stock-plan:unreachable-input-object"
  else
    .ok ⟨advertised, boundary⟩

end GitOnCloudflare.Planner
