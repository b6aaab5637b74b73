import GitOnCloudflare.Planner.BoundaryNodes

/-!
# The two walks of the planner

What the loops over the queues have met when they return, and that they return
when all they look for is there and below the limits.
-/

namespace GitOnCloudflare.Planner

open Foundations.MarkedSearch
open Pack
open Fetch

/-- A copy of the source references the target. -/
def Refers (packs : List BoundActivePack) (source target : String) : Prop :=
  ∃ node, NodeOf packs source node ∧ target ∈ node.refs

/-- Different objects with their nodes. -/
abbrev NodeList := List (String × PlannerNode)

def edgeCount (nodes : NodeList) : Nat :=
  (nodes.map fun entry => entry.2.refs.length).sum

/-- Different ids among what is reached, with their nodes. -/
structure ReachedNodes (packs : List BoundActivePack)
    (starts : String → Prop) (nodes : NodeList) : Prop where
  reached : ∀ entry ∈ nodes, Reach (Refers packs) starts entry.1
  nodes : ∀ entry ∈ nodes, NodeOf packs entry.1 entry.2

/-- A walk that visits these ids stays within the limits. -/
def BelowLimits (packs : List BoundActivePack) (visited : String → Prop) :
    Prop :=
  ∀ nodes : NodeList, (nodes.map Prod.fst).Nodup →
    (∀ entry ∈ nodes, visited entry.1 ∧ NodeOf packs entry.1 entry.2) →
      nodes.length ≤ maxClosureObjects ∧ edgeCount nodes ≤ maxClosureEdges

variable {oid : String}

theorem nodup_concat {oids : List String} (distinct : oids.Nodup)
    (fresh : oid ∉ oids) : (oids ++ [oid]).Nodup := by
  apply List.Nodup.append distinct (List.nodup_singleton oid)
  intro other member lone
  cases List.mem_singleton.mp lone
  exact fresh member

section Walks

variable {everything active : List BoundActivePack}
  {incoming : BoundActivePack}

theorem ReachedNodes.cons {queue pushed : List String} {oid : String}
    {node : PlannerNode} {nodes : NodeList} (found : NodeOf everything oid node)
    (follows : ∀ target ∈ pushed, target ∈ node.refs)
    (later : ReachedNodes everything (· ∈ queue ++ pushed) nodes) :
    ReachedNodes everything (· ∈ oid :: queue) ((oid, node) :: nodes) where
  reached := by
    intro entry member
    have here : Reach (Refers everything) (· ∈ oid :: queue) oid :=
      Reach.start List.mem_cons_self
    rcases List.mem_cons.mp member with rfl | member
    · exact here
    · apply (later.reached entry member).trans
      intro start given
      rcases List.mem_append.mp given with queued | among
      · exact Reach.start (List.mem_cons_of_mem _ queued)
      · exact here.follow ⟨node, found, follows start among⟩
  nodes := by
    intro entry member
    rcases List.mem_cons.mp member with rfl | member
    · exact found
    · exact later.nodes entry member

variable {queue advertised : List String} {node : PlannerNode}
  {walk after : BoundaryWalk}

/-- The head of the queue alone is reached. -/
theorem ReachedNodes.single (found : NodeOf everything oid node) :
    ReachedNodes everything (· ∈ oid :: queue) [(oid, node)] := by
  apply @ReachedNodes.cons everything queue [] oid node [] found nofun
  exact ⟨nofun, nofun⟩

theorem Reach.tail {next : String}
    (path : Reach (Refers everything) (· ∈ queue) oid) :
    Reach (Refers everything) (· ∈ next :: queue) oid :=
  path.trans fun _ given => Reach.start (List.mem_cons_of_mem _ given)

theorem ReachedNodes.tail {nodes : NodeList}
    (reached : ReachedNodes everything (· ∈ queue) nodes) :
    ReachedNodes everything (· ∈ oid :: queue) nodes :=
  ⟨fun entry among => Reach.tail (reached.reached entry among), reached.nodes⟩

theorem Reach.pushed {pushed : List String} {oid target : String}
    (found : NodeOf everything oid node)
    (follows : ∀ target ∈ pushed, target ∈ node.refs)
    (reached : Reach (Refers everything) (· ∈ queue ++ pushed) target) :
    Reach (Refers everything) (· ∈ oid :: queue) target := by
  apply reached.trans
  intro start given
  rcases List.mem_append.mp given with queued | among
  · exact Reach.start (List.mem_cons_of_mem _ queued)
  · exact (Reach.start List.mem_cons_self).follow
      ⟨node, found, follows start among⟩

/-! ## The advertised closure -/

/-- What the loop has added: reached, held by an active pack with no more
references than one call takes, and closed. -/
structure AdvertisedMet (maxArguments : Nat)
    (everything active : List BoundActivePack)
    (queue seen after : List String) : Prop where
  kept : ∀ oid ∈ seen, oid ∈ after
  queued : ∀ oid ∈ queue, oid ∈ after
  distinct : after.Nodup
  reached : ∀ oid ∈ after, oid ∈ seen ∨
    Reach (Refers everything) (· ∈ queue) oid ∧ InSnapshot active oid ∧
      (∀ node, NodeOf everything oid node → node.refs.length ≤ maxArguments) ∧
      ∀ target, Refers everything oid target → target ∈ after

variable {maxArguments : Nat}
  {seen set : List String} {edges : Nat} {idx : IdxView}
  {nodes : NodeList}

theorem advertisedLoop_sound (coherent : Coherent everything)
    (within : ∀ pack ∈ active, pack ∈ everything) {after : List String}
    (oids : ∀ oid ∈ queue, IsOid oid) (distinct : seen.Nodup)
    (returned : advertisedLoop maxArguments active queue seen edges = .ok after) :
    AdvertisedMet maxArguments everything active queue seen after := by
  fun_induction advertisedLoop maxArguments active queue seen edges with
  | case1 =>
    cases returned
    exact ⟨fun _ member => member, nofun, distinct, fun _ => .inl⟩
  | case2 oid queue seen edges known ih =>
    rcases ih (fun other member => oids other (List.mem_cons_of_mem _ member))
      distinct returned with ⟨kept, queued, nodup, reached⟩
    refine ⟨kept, ?_, nodup, ?_⟩
    · intro other member
      rcases List.mem_cons.mp member with rfl | member
      · exact kept _ known
      · exact queued other member
    · intro other member
      rcases reached other member with before | ⟨path, rest⟩
      · exact .inl before
      · exact .inr ⟨Reach.tail path, rest⟩
  | case3 => cases returned
  | case4 => cases returned
  | case5 => cases returned
  | case6 => cases returned
  | case7 => cases returned
  | case8 oid queue seen edges fresh room node found few taken ih =>
    rcases activeNode_nodeOf coherent within (oids oid List.mem_cons_self)
      found with ⟨nodeOf, held⟩
    have pushedOids : ∀ other ∈ queue ++ node.refs, IsOid other := by
      intro other member
      rcases List.mem_append.mp member with queued | among
      · exact oids other (List.mem_cons_of_mem _ queued)
      · exact nodeOf.refs_isOid coherent.valid among
    rcases ih pushedOids (nodup_concat distinct fresh) returned with
      ⟨kept, queued, distinct, reached⟩
    refine ⟨?_, ?_, distinct, ?_⟩
    · intro other member
      exact kept other (List.mem_append_left _ member)
    · intro other member
      rcases List.mem_cons.mp member with rfl | member
      · exact kept _ (List.mem_append_right _ List.mem_cons_self)
      · exact queued other (List.mem_append_left _ member)
    · intro other member
      rcases reached other member with before | ⟨path, rest⟩
      · rcases List.mem_append.mp before with before | lone
        · exact .inl before
        · cases List.mem_singleton.mp lone
          refine .inr ⟨Reach.start List.mem_cons_self, held, ?_, ?_⟩
          · intro copy copyOf
            cases coherent.alike copyOf nodeOf
            exact Nat.not_lt.mp taken
          · rintro target ⟨copy, copyOf, among⟩
            cases coherent.alike copyOf nodeOf
            exact queued target (List.mem_append_right _ among)
      · exact .inr ⟨Reach.pushed nodeOf (fun _ among => among) path, rest⟩

/-- No object reached from these ids has more references than one call takes. -/
def Pushable (everything : List BoundActivePack) (maxArguments : Nat)
    (advertised : String → Prop) : Prop :=
  ∀ oid node, Reach (Refers everything) advertised oid →
    NodeOf everything oid node → node.refs.length ≤ maxArguments

theorem advertisedLoop_complete (coherent : Coherent everything)
    (within : ∀ pack ∈ active, pack ∈ everything)
    (oids : ∀ oid ∈ queue, IsOid oid) (distinct : seen.Nodup)
    (held : ∀ oid, Reach (Refers everything) (· ∈ queue) oid →
      InSnapshot active oid)
    (pushable : Pushable everything maxArguments (· ∈ queue))
    (limits : ∀ nodes : NodeList, (seen ++ nodes.map Prod.fst).Nodup →
      ReachedNodes everything (· ∈ queue) nodes →
        seen.length + nodes.length ≤ maxClosureObjects ∧
          edges + edgeCount nodes ≤ maxClosureEdges) :
    ∃ after, advertisedLoop maxArguments active queue seen edges = .ok after := by
  fun_induction advertisedLoop maxArguments active queue seen edges with
  | case1 seen => exact ⟨seen, rfl⟩
  | case2 oid queue seen edges known ih =>
    apply ih
    · exact fun other member => oids other (List.mem_cons_of_mem _ member)
    · exact distinct
    · intro other path
      exact held other (Reach.tail path)
    · intro other node path
      exact pushable other node (Reach.tail path)
    · intro nodes fresh reached
      exact limits nodes fresh reached.tail
  | case3 oid queue seen edges fresh full =>
    have here := held oid (Reach.start List.mem_cons_self)
    rcases (exists_nodeOf fun pack member =>
      coherent.valid pack (within pack member)).mpr here with ⟨node, copy⟩
    have few := (limits [(oid, node)] (nodup_concat distinct fresh)
      (ReachedNodes.single (copy.mono within))).1
    rw [List.length_singleton] at few
    omega
  | case4 oid queue seen edges fresh room failure failed =>
    rcases activeNode_spec coherent within (oids oid List.mem_cons_self) with
      ⟨node, looked, _⟩ | ⟨missed, _⟩
    · cases looked.symm.trans failed
    · cases missed.symm.trans failed
  | case5 oid queue seen edges fresh room missing =>
    rcases activeNode_spec coherent within (oids oid List.mem_cons_self) with
      ⟨node, looked, _⟩ | ⟨_, absent⟩
    · cases looked.symm.trans missing
    · exact absurd (held oid (Reach.start List.mem_cons_self)) absent
  | case6 oid queue seen edges fresh room node found many =>
    rcases activeNode_nodeOf coherent within (oids oid List.mem_cons_self)
      found with ⟨nodeOf, _⟩
    have few := (limits [(oid, node)] (nodup_concat distinct fresh)
      (ReachedNodes.single nodeOf)).2
    unfold edgeCount at few
    rw [List.map_singleton, List.sum_singleton] at few
    dsimp only at few
    omega
  | case7 oid queue seen edges fresh room node found few many =>
    rcases activeNode_nodeOf coherent within (oids oid List.mem_cons_self)
      found with ⟨nodeOf, _⟩
    exact absurd (pushable oid node (Reach.start List.mem_cons_self) nodeOf)
      (Nat.not_le.mpr many)
  | case8 oid queue seen edges fresh room node found few taken ih =>
    rcases activeNode_nodeOf coherent within (oids oid List.mem_cons_self)
      found with ⟨nodeOf, _⟩
    apply ih
    · intro other member
      rcases List.mem_append.mp member with queued | among
      · exact oids other (List.mem_cons_of_mem _ queued)
      · exact nodeOf.refs_isOid coherent.valid among
    · exact nodup_concat distinct fresh
    · intro other path
      exact held other (Reach.pushed nodeOf (fun _ among => among) path)
    · intro other copy path
      exact pushable other copy
        (Reach.pushed nodeOf (fun _ among => among) path)
    · intro nodes distinct reached
      have more := limits ((oid, node) :: nodes) (by
        rw [List.append_assoc] at distinct
        exact distinct) (ReachedNodes.cons nodeOf (fun _ among => among)
          reached)
      unfold edgeCount at more ⊢
      rw [List.length_cons, List.map_cons, List.sum_cons] at more
      rw [List.length_append, List.length_singleton]
      dsimp only at more
      omega

/-! ## The references of an incoming object -/

/-- The target has a row in the incoming index. -/
def isIncoming (idx : IdxView) (target : String) : Bool :=
  decide (0 ≤ findOidIndex idx target)

/-- What following the references of an object does to the walk. -/
structure RefsFollowed (idx : IdxView) (advertised targets : List String)
    (walk after : BoundaryWalk) (pushed : List String) : Prop where
  pushed : pushed = targets.filter (isIncoming idx)
  known : ∀ target ∈ targets, isIncoming idx target = true ∨
    target ∈ advertised
  external : ∀ oid, oid ∈ after.external ↔
    oid ∈ walk.external ∨ oid ∈ targets ∧ isIncoming idx oid = false
  distinct : walk.external.Nodup → after.external.Nodup
  visited : after.visited = walk.visited
  types : after.objectTypeCounts = walk.objectTypeCounts
  logical : after.logicalEdgeCount = walk.logicalEdgeCount
  internal : after.internalEdgeCount =
    walk.internalEdgeCount + targets.countP (isIncoming idx)
  outward : after.externalEdgeCount =
    walk.externalEdgeCount + targets.countP fun oid => !isIncoming idx oid

theorem mem_addToSet {other : String} :
    other ∈ addToSet set oid ↔ other ∈ set ∨ other = oid := by
  unfold addToSet
  split
  · next member =>
    constructor
    · exact .inl
    · rintro (inside | rfl)
      · exact inside
      · exact member
  · rw [List.mem_append, List.mem_singleton]

theorem nodup_addToSet (distinct : set.Nodup) :
    (addToSet set oid).Nodup := by
  unfold addToSet
  split
  · exact distinct
  · next fresh => exact nodup_concat distinct fresh

theorem followRefs_sound {targets : List String} {pushed : List String}
    (followed : followRefs idx advertised targets walk = .ok (after, pushed)) :
    RefsFollowed idx advertised targets walk after pushed := by
  induction targets generalizing walk after pushed with
  | nil =>
    cases followed
    refine ⟨rfl, ?_, by simp, id, rfl, rfl, rfl, rfl, rfl⟩
    intro other member
    cases member
  | cons target targets ih =>
    rw [followRefs] at followed
    split at followed
    · next inside =>
      have incoming : isIncoming idx target = true := decide_eq_true inside
      split at followed
      · cases followed
      · next more =>
        cases followed
        have rest := ih more
        refine ⟨?_, ?_, ?_, rest.distinct, rest.visited, rest.types,
          rest.logical, ?_, ?_⟩
        · rw [List.filter_cons_of_pos incoming, rest.pushed]
        · intro other member
          rcases List.mem_cons.mp member with rfl | member
          · exact .inl incoming
          · exact rest.known other member
        · intro oid
          rw [rest.external, List.mem_cons]
          apply or_congr_right
          constructor
          · rintro ⟨member, outside⟩
            exact ⟨.inr member, outside⟩
          · rintro ⟨rfl | member, outside⟩
            · rw [incoming] at outside
              cases outside
            · exact ⟨member, outside⟩
        · rw [rest.internal, List.countP_cons_of_pos incoming]
          dsimp only
          omega
        · rw [rest.outward, List.countP_cons_of_neg (by rw [incoming]; decide)]
    · next outside =>
      have absent : isIncoming idx target = false := decide_eq_false outside
      split at followed
      · next among =>
        have rest := ih followed
        refine ⟨?_, ?_, ?_, ?_, rest.visited, rest.types, rest.logical, ?_,
          ?_⟩
        · rw [List.filter_cons_of_neg (by rw [absent]; decide), rest.pushed]
        · intro other member
          rcases List.mem_cons.mp member with rfl | member
          · exact .inr among
          · exact rest.known other member
        · intro oid
          rw [rest.external, mem_addToSet, List.mem_cons]
          constructor
          · rintro ((before | rfl) | ⟨member, missing⟩)
            · exact .inl before
            · exact .inr ⟨.inl rfl, absent⟩
            · exact .inr ⟨.inr member, missing⟩
          · rintro (before | ⟨rfl | member, missing⟩)
            · exact .inl (.inl before)
            · exact .inl (.inr rfl)
            · exact .inr ⟨member, missing⟩
        · intro distinct
          exact rest.distinct (nodup_addToSet distinct)
        · rw [rest.internal, List.countP_cons_of_neg (by rw [absent]; decide)]
        · rw [rest.outward, List.countP_cons_of_pos (by rw [absent]; rfl)]
          dsimp only
          omega
      · cases followed

theorem followRefs_complete {idx : IdxView} {advertised targets : List String}
    {walk : BoundaryWalk}
    (known : ∀ target ∈ targets, isIncoming idx target = true ∨
      target ∈ advertised) :
    ∃ after pushed, followRefs idx advertised targets walk =
      .ok (after, pushed) := by
  induction targets generalizing walk with
  | nil => exact ⟨walk, [], rfl⟩
  | cons target targets ih =>
    have rest : ∀ other ∈ targets, isIncoming idx other = true ∨
        other ∈ advertised := fun other member =>
      known other (List.mem_cons_of_mem _ member)
    rw [followRefs]
    split
    · rcases @ih { walk with
        internalEdgeCount := walk.internalEdgeCount + 1 } rest with
        ⟨after, pushed, followed⟩
      rw [followed]
      exact ⟨after, target :: pushed, rfl⟩
    · next outside =>
      rcases known target List.mem_cons_self with inside | among
      · exact absurd (of_decide_eq_true inside) outside
      · rw [if_pos among]
        exact ih rest

/-! ## The incoming boundary -/

/-- The counters of a walk over these nodes. -/
structure WalkCounts (idx : IdxView) (nodes : NodeList)
    (walk : BoundaryWalk) : Prop where
  visited : walk.visited = nodes.map Prod.fst
  types : ∀ type, walk.objectTypeCounts type =
    nodes.countP fun entry => decide (entry.2.type = type)
  logical : walk.logicalEdgeCount = edgeCount nodes
  internal : walk.internalEdgeCount =
    (nodes.map fun entry => entry.2.refs.countP (isIncoming idx)).sum
  outward : walk.externalEdgeCount =
    (nodes.map fun entry =>
      entry.2.refs.countP fun oid => !isIncoming idx oid).sum

theorem WalkCounts.visit {pushed : List String}
    (counts : WalkCounts idx nodes walk)
    (followed : RefsFollowed idx advertised node.refs (walk.visit oid node)
      after pushed) : WalkCounts idx (nodes ++ [(oid, node)]) after where
  visited := by
    rw [followed.visited, List.map_append, ← counts.visited]
    rfl
  types := by
    intro type
    rw [followed.types, List.countP_append, ← counts.types]
    show Function.update _ _ _ type = _
    by_cases same : node.type = type
    · subst same
      rw [Function.update_self, List.countP_singleton]
      simp
    · rw [Function.update_of_ne (Ne.symm same), List.countP_singleton]
      simp [same]
  logical := by
    rw [followed.logical]
    unfold edgeCount
    rw [List.map_append, List.sum_append]
    show walk.logicalEdgeCount + node.refs.length = _
    rw [counts.logical]
    rfl
  internal := by
    rw [followed.internal, List.map_append, List.sum_append]
    show walk.internalEdgeCount + _ = _
    rw [counts.internal, List.map_singleton, List.sum_singleton]
  outward := by
    rw [followed.outward, List.map_append, List.sum_append]
    show walk.externalEdgeCount + _ = _
    rw [counts.outward, List.map_singleton, List.sum_singleton]

theorem WalkCounts.start (idx : IdxView) : WalkCounts idx [] .start :=
  ⟨rfl, fun _ => rfl, rfl, rfl, rfl⟩

/-- What the loop has met: incoming objects that are not advertised, and
advertised objects that are wanted or referenced by one of them. -/
structure BoundaryMet (everything : List BoundActivePack)
    (incoming : BoundActivePack) (advertised queue : List String)
    (walk after : BoundaryWalk) (nodes more : NodeList) : Prop where
  counts : WalkCounts incoming.idx (nodes ++ more) after
  queued : ∀ oid ∈ queue, oid ∈ after.visited ∨ oid ∈ after.external
  kept : ∀ oid ∈ walk.external, oid ∈ after.external
  distinct : after.visited.Nodup ∧ after.external.Nodup
  visited : ∀ entry ∈ more, entry.1 ∉ advertised ∧
    NodeOf everything entry.1 entry.2 ∧ InSnapshot [incoming] entry.1 ∧
    Reach (Refers everything) (· ∈ queue) entry.1 ∧
    ∀ target ∈ entry.2.refs,
      target ∈ after.visited ∨ target ∈ after.external
  external : ∀ oid ∈ after.external, oid ∈ walk.external ∨
    oid ∈ advertised ∧ (oid ∈ queue ∨ ∃ entry ∈ more, oid ∈ entry.2.refs)

theorem boundaryLoop_sound (coherent : Coherent everything)
    (member : incoming ∈ everything) (oids : ∀ oid ∈ queue, IsOid oid)
    (counts : WalkCounts incoming.idx nodes walk)
    (distinct : walk.visited.Nodup ∧ walk.external.Nodup)
    (returned : boundaryLoop incoming.idx incoming.refs advertised queue
      walk = .ok after) :
    ∃ more, BoundaryMet everything incoming advertised queue walk after
      nodes more := by
  have valid := coherent.valid incoming member
  fun_induction boundaryLoop incoming.idx incoming.refs advertised queue walk
    generalizing nodes with
  | case1 walk =>
    cases returned
    refine ⟨[], ?_, nofun, fun _ => id, distinct, nofun, fun _ => .inl⟩
    rw [List.append_nil]
    exact counts
  | case2 oid queue walk known ih =>
    rcases ih (fun other inside => oids other (List.mem_cons_of_mem _ inside))
      counts distinct returned with ⟨more, met⟩
    have kept : oid ∈ after.visited ∨ oid ∈ after.external := by
      rcases known with seen | seen
      · left
        rw [met.counts.visited, List.map_append, ← counts.visited]
        exact List.mem_append_left _ seen
      · exact .inr (met.kept oid seen)
    refine ⟨more, met.counts, ?_, met.kept, met.distinct, ?_, ?_⟩
    · intro other inside
      rcases List.mem_cons.mp inside with rfl | inside
      · exact kept
      · exact met.queued other inside
    · intro entry among
      rcases met.visited entry among with ⟨outside, node, held, path, refs⟩
      exact ⟨outside, node, held, Reach.tail path, refs⟩
    · intro other inside
      rcases met.external other inside with before | ⟨among, wanted⟩
      · exact .inl before
      · exact .inr ⟨among, wanted.imp_left (List.mem_cons_of_mem _)⟩
  | case3 oid queue walk fresh among ih =>
    rw [not_or] at fresh
    have nodup := nodup_concat distinct.2 fresh.2
    rcases ih (fun other inside => oids other (List.mem_cons_of_mem _ inside))
      ⟨counts.visited, counts.types, counts.logical, counts.internal,
        counts.outward⟩ ⟨distinct.1, nodup⟩ returned with ⟨more, met⟩
    refine ⟨more, met.counts, ?_, ?_, met.distinct, ?_, ?_⟩
    · intro other inside
      rcases List.mem_cons.mp inside with rfl | inside
      · exact .inr (met.kept _ (List.mem_append_right _ List.mem_cons_self))
      · exact met.queued other inside
    · intro other inside
      exact met.kept other (List.mem_append_left _ inside)
    · intro entry inside
      rcases met.visited entry inside with ⟨outside, node, held, path, refs⟩
      exact ⟨outside, node, held, Reach.tail path, refs⟩
    · intro other inside
      rcases met.external other inside with before | ⟨listed, wanted⟩
      · rcases List.mem_append.mp before with before | lone
        · exact .inl before
        · cases List.mem_singleton.mp lone
          exact .inr ⟨among, .inl List.mem_cons_self⟩
      · exact .inr ⟨listed, wanted.imp_left (List.mem_cons_of_mem _)⟩
  | case4 => cases returned
  | case5 => cases returned
  | case6 => cases returned
  | case7 => cases returned
  | case8 => cases returned
  | case9 oid queue walk fresh outside node found room few next pushed
      followed ih =>
    rw [not_or] at fresh
    have nodeOf :=
      incomingNode_nodeOf valid (oids oid List.mem_cons_self) found
    have held := (exists_nodeOf fun pack inside => by
      cases List.mem_singleton.mp inside
      exact valid).mp ⟨node, nodeOf⟩
    have wide := nodeOf.mono fun pack inside => by
      cases List.mem_singleton.mp inside
      exact member
    have refs := followRefs_sound followed
    have among : ∀ target ∈ pushed, target ∈ node.refs := by
      intro target inside
      rw [refs.pushed] at inside
      exact List.mem_of_mem_filter inside
    have pushedOids : ∀ other ∈ queue ++ pushed, IsOid other := by
      intro other inside
      rcases List.mem_append.mp inside with queued | inside
      · exact oids other (List.mem_cons_of_mem _ queued)
      · exact wide.refs_isOid coherent.valid (among other inside)
    have nodup : next.visited.Nodup ∧ next.external.Nodup := by
      constructor
      · rw [refs.visited]
        exact nodup_concat distinct.1 fresh.1
      · exact refs.distinct distinct.2
    rcases ih pushedOids (counts.visit refs) nodup returned with
      ⟨more, met⟩
    have visited : ∀ other, other ∈ walk.visited ++ [oid] →
        other ∈ after.visited := by
      intro other inside
      rw [met.counts.visited, List.map_append, ← (counts.visit refs).visited,
        refs.visited]
      exact List.mem_append_left _ inside
    have targets : ∀ target ∈ node.refs,
        target ∈ after.visited ∨ target ∈ after.external := by
      intro target inside
      cases incomingTarget : isIncoming incoming.idx target with
      | true =>
        apply met.queued
        apply List.mem_append_right
        rw [refs.pushed]
        exact List.mem_filter.mpr ⟨inside, incomingTarget⟩
      | false =>
        exact .inr (met.kept target
          ((refs.external target).mpr (.inr ⟨inside, incomingTarget⟩)))
    refine ⟨(oid, node) :: more, ?_, ?_, ?_, met.distinct, ?_, ?_⟩
    · have shifted := met.counts
      rw [List.append_assoc] at shifted
      exact shifted
    · intro other inside
      rcases List.mem_cons.mp inside with rfl | inside
      · exact .inl (visited _ (List.mem_append_right _ List.mem_cons_self))
      · exact met.queued other (List.mem_append_left _ inside)
    · intro other inside
      exact met.kept other ((refs.external other).mpr (.inl inside))
    · intro entry inside
      rcases List.mem_cons.mp inside with rfl | inside
      · exact ⟨outside, wide, held, Reach.start List.mem_cons_self, targets⟩
      · rcases met.visited entry inside with
          ⟨unlisted, copy, here, path, rest⟩
        exact ⟨unlisted, copy, here, Reach.pushed wide among path, rest⟩
    · intro other inside
      rcases met.external other inside with before | ⟨listed, wanted⟩
      · rcases (refs.external other).mp before with
          before | ⟨target, absent⟩
        · exact .inl before
        · right
          constructor
          · rcases refs.known other target with held | listed
            · rw [absent] at held
              cases held
            · exact listed
          · exact .inr ⟨_, List.mem_cons_self, target⟩
      · refine .inr ⟨listed, ?_⟩
        rcases wanted with queued | ⟨entry, inside, target⟩
        · rcases List.mem_append.mp queued with queued | pushedHere
          · exact .inl (List.mem_cons_of_mem _ queued)
          · exact .inr ⟨_, List.mem_cons_self, among other pushedHere⟩
        · exact .inr ⟨entry, List.mem_cons_of_mem _ inside, target⟩

theorem boundaryLoop_complete (coherent : Coherent everything)
    (member : incoming ∈ everything) (oids : ∀ oid ∈ queue, IsOid oid)
    (distinct : walk.visited.Nodup)
    (held : ∀ oid, Reach (Refers everything) (· ∈ queue) oid →
      oid ∈ advertised ∨ InSnapshot [incoming] oid)
    (limits : ∀ nodes : NodeList,
      (walk.visited ++ nodes.map Prod.fst).Nodup →
        ReachedNodes everything (· ∈ queue) nodes →
          (∀ entry ∈ nodes, entry.1 ∉ advertised) →
            walk.visited.length + nodes.length ≤ maxClosureObjects ∧
              walk.logicalEdgeCount + edgeCount nodes ≤ maxClosureEdges) :
    ∃ after, boundaryLoop incoming.idx incoming.refs advertised queue walk =
      .ok after := by
  have valid := coherent.valid incoming member
  have wide : ∀ {oid node}, NodeOf [incoming] oid node →
      NodeOf everything oid node := by
    intro oid node found
    apply found.mono
    intro pack inside
    cases List.mem_singleton.mp inside
    exact member
  have single_outside : ∀ {oid : String} {node : PlannerNode},
      oid ∉ advertised → ∀ entry ∈ [(oid, node)], entry.1 ∉ advertised := by
    intro oid node outside entry inside
    cases List.mem_singleton.mp inside
    exact outside
  fun_induction boundaryLoop incoming.idx incoming.refs advertised queue
    walk with
  | case1 walk => exact ⟨walk, rfl⟩
  | case2 oid queue walk known ih =>
    apply ih
    · exact fun other inside => oids other (List.mem_cons_of_mem _ inside)
    · exact distinct
    · intro other path
      exact held other (Reach.tail path)
    · intro nodes fresh reached
      exact limits nodes fresh reached.tail
  | case3 oid queue walk fresh among ih =>
    apply ih
    · exact fun other inside => oids other (List.mem_cons_of_mem _ inside)
    · exact distinct
    · intro other path
      exact held other (Reach.tail path)
    · intro nodes unseen reached
      exact limits nodes unseen reached.tail
  | case4 oid queue walk fresh outside failure failed =>
    rcases incomingNode_spec valid (oids oid List.mem_cons_self) with
      ⟨node, looked, _⟩ | ⟨missed, _⟩
    · cases looked.symm.trans failed
    · cases missed.symm.trans failed
  | case5 oid queue walk fresh outside missing =>
    rcases incomingNode_spec valid (oids oid List.mem_cons_self) with
      ⟨node, looked, _⟩ | ⟨_, absent⟩
    · cases looked.symm.trans missing
    · rcases held oid (Reach.start List.mem_cons_self) with listed | here
      · exact absurd listed outside
      · exact absurd here absent
  | case6 oid queue walk fresh outside node found full =>
    have nodeOf :=
      incomingNode_nodeOf valid (oids oid List.mem_cons_self) found
    rw [not_or] at fresh
    have few := (limits [(oid, node)] (nodup_concat distinct fresh.1)
      (ReachedNodes.single (wide nodeOf)) (single_outside outside)).1
    rw [List.length_singleton] at few
    omega
  | case7 oid queue walk fresh outside node found room many =>
    have nodeOf :=
      incomingNode_nodeOf valid (oids oid List.mem_cons_self) found
    rw [not_or] at fresh
    have few := (limits [(oid, node)] (nodup_concat distinct fresh.1)
      (ReachedNodes.single (wide nodeOf)) (single_outside outside)).2
    unfold edgeCount at few
    rw [List.map_singleton, List.sum_singleton] at few
    dsimp only at few
    omega
  | case8 oid queue walk fresh outside node found room few failure failed =>
    have nodeOf :=
      incomingNode_nodeOf valid (oids oid List.mem_cons_self) found
    have known : ∀ target ∈ node.refs,
        isIncoming incoming.idx target = true ∨ target ∈ advertised := by
      intro target inside
      have path : Reach (Refers everything) (· ∈ oid :: queue) target :=
        (Reach.start List.mem_cons_self).follow
          ⟨node, wide nodeOf, inside⟩
      rcases held target path with listed | here
      · exact .inr listed
      · left
        have isOid := (wide nodeOf).refs_isOid coherent.valid inside
        exact decide_eq_true ((findOidIndex_iff valid isOid).mpr here)
    rcases @followRefs_complete incoming.idx advertised node.refs
        (walk.visit oid node) known with ⟨after, pushed, followed⟩
    cases followed.symm.trans failed
  | case9 oid queue walk fresh outside node found room few next pushed
      followed ih =>
    have nodeOf :=
      incomingNode_nodeOf valid (oids oid List.mem_cons_self) found
    rw [not_or] at fresh
    have refs := followRefs_sound followed
    have among : ∀ target ∈ pushed, target ∈ node.refs := by
      intro target inside
      rw [refs.pushed] at inside
      exact List.mem_of_mem_filter inside
    have visited : next.visited = walk.visited ++ [oid] := refs.visited
    have logical : next.logicalEdgeCount =
        walk.logicalEdgeCount + node.refs.length := refs.logical
    apply ih
    · intro other inside
      rcases List.mem_append.mp inside with queued | inside
      · exact oids other (List.mem_cons_of_mem _ queued)
      · exact (wide nodeOf).refs_isOid coherent.valid (among other inside)
    · rw [visited]
      exact nodup_concat distinct fresh.1
    · intro other path
      exact held other (Reach.pushed (wide nodeOf) among path)
    · intro nodes unseen reached unlisted
      have outsideAll : ∀ entry ∈ (oid, node) :: nodes,
          entry.1 ∉ advertised := by
        intro entry inside
        rcases List.mem_cons.mp inside with rfl | inside
        · exact outside
        · exact unlisted entry inside
      have more := limits ((oid, node) :: nodes) (by
        rw [visited, List.append_assoc] at unseen
        exact unseen) (ReachedNodes.cons (wide nodeOf) among reached)
        outsideAll
      unfold edgeCount at more ⊢
      rw [List.length_cons, List.map_cons, List.sum_cons] at more
      rw [visited, logical, List.length_append, List.length_singleton]
      dsimp only at more
      omega

end Walks

end GitOnCloudflare.Planner
