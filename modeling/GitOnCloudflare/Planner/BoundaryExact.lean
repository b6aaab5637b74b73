import GitOnCloudflare.Fetch.ClosureExact
import GitOnCloudflare.Planner.BoundaryWalks
import Mathlib.Algebra.Order.BigOperators.Group.List
import Mathlib.Data.String.Basic

/-!
# Soundness and exactness of the boundary

The planner accepts a push exactly when the advertised closure is held, every
wanted object is held or advertised, and every incoming object is wanted or
advertised; what it returns is determined by reachability alone.
-/

namespace GitOnCloudflare.Planner

open Foundations
open Foundations.ByteTable
open Foundations.MarkedSearch
open Pack
open Fetch
open Receive (ReceiveCommand)
open Repo (isValidOid)

/-! ## Sorted sets -/

variable {oid : String} {oids : List String} {result other : StockBoundary}

theorem mem_sortOids :
    oid ∈ sortOids oids ↔ oid ∈ oids :=
  List.mem_mergeSort

theorem sortOids_eq {first second : List String} (distinct : first.Nodup)
    (distinctSecond : second.Nodup) (same : ∀ oid, oid ∈ first ↔ oid ∈ second) :
    sortOids first = sortOids second := by
  have perm : first.Perm second :=
    (List.perm_ext_iff_of_nodup distinct distinctSecond).mpr same
  have sorted : ∀ oids : List String,
      (sortOids oids).Pairwise fun left right => left ≤ right := by
    intro oids
    have ordered := @List.pairwise_mergeSort String
      (fun left right => decide (left ≤ right))
      (fun first second third => by
        simp only [decide_eq_true_eq]
        exact le_trans)
      (fun first second => by
        simp only [Bool.or_eq_true, decide_eq_true_eq]
        exact le_total first second) oids
    exact ordered.imp of_decide_eq_true
  apply List.Perm.eq_of_pairwise _ (sorted first) (sorted second)
  · exact (List.mergeSort_perm _ _).trans
      (perm.trans (List.mergeSort_perm _ _).symm)
  · exact fun _ _ _ _ => le_antisymm

/-! ## The conditions and the result -/

variable {source target : String} {pack : BoundActivePack}

section Boundary

variable {everything active : List BoundActivePack}
  {incoming : BoundActivePack} {advertised wanted : String → Prop}

/-- What the planner demands of a push. -/
structure BoundaryHolds (everything active : List BoundActivePack)
    (incoming : BoundActivePack) (advertised wanted : String → Prop) :
    Prop where
  advertisedHeld : ∀ oid, Reach (Refers everything) advertised oid →
    InSnapshot active oid
  wantedHeld : ∀ oid, Reach (Refers everything) wanted oid →
    InSnapshot [incoming] oid ∨ Reach (Refers everything) advertised oid
  incomingMet : ∀ oid, InSnapshot [incoming] oid →
    Reach (Refers everything) wanted oid ∨
      Reach (Refers everything) advertised oid

/-- What the planner returns, and that advertised and incoming objects
together are closed under references. -/
structure BoundaryExact (everything : List BoundActivePack)
    (incoming : BoundActivePack) (advertised wanted : String → Prop)
    (result : StockBoundary) : Prop where
  reachable : ∀ oid, oid ∈ result.advertisedReachableOids ↔
    Reach (Refers everything) advertised oid
  visited : ∀ oid, oid ∈ result.boundary.visitedIncomingOids ↔
    Reach (Refers everything) wanted oid ∧
      ¬ Reach (Refers everything) advertised oid
  external : ∀ oid, oid ∈ result.boundary.semanticExternalOids ↔
    Reach (Refers everything) advertised oid ∧
      (wanted oid ∨ ∃ source ∈ result.boundary.visitedIncomingOids,
        Refers everything source oid)
  closed : ∀ source target,
    (Reach (Refers everything) advertised source ∨
        InSnapshot [incoming] source) →
      Refers everything source target →
        Reach (Refers everything) advertised target ∨
          InSnapshot [incoming] target

/-- The result is that of some walk over these nodes. -/
structure WalkedOver (everything : List BoundActivePack)
    (incoming : BoundActivePack) (result : StockBoundary)
    (seen : List String) (walk : BoundaryWalk) (nodes : NodeList) :
    Prop where
  reachable : result.advertisedReachableOids = sortOids seen
  boundary : result.boundary = walk.boundary
  counts : WalkCounts incoming.idx nodes walk
  nodeOf : ∀ entry ∈ nodes, NodeOf everything entry.1 entry.2
  distinctSeen : seen.Nodup
  distinctVisited : walk.visited.Nodup
  distinctExternal : walk.external.Nodup

/-- Both walks, and what they have met. -/
structure BothWalks (everything active : List BoundActivePack)
    (incoming : BoundActivePack) (advertised wanted : String → Prop)
    (seen : List String) (walk : BoundaryWalk) (nodes : NodeList) :
    Prop where
  listed : ∀ oid, oid ∈ seen ↔ Reach (Refers everything) advertised oid
  held : ∀ oid ∈ seen, InSnapshot active oid
  starts : ∀ oid, wanted oid → oid ∈ walk.visited ∨ oid ∈ walk.external
  counts : WalkCounts incoming.idx nodes walk
  visited : ∀ entry ∈ nodes, entry.1 ∉ seen ∧
    NodeOf everything entry.1 entry.2 ∧ InSnapshot [incoming] entry.1 ∧
    Reach (Refers everything) wanted entry.1 ∧
    ∀ target ∈ entry.2.refs,
      target ∈ walk.visited ∨ target ∈ walk.external
  external : ∀ oid ∈ walk.external, oid ∈ seen ∧
    (wanted oid ∨ ∃ entry ∈ nodes, oid ∈ entry.2.refs)

variable {seen : List String} {walk : BoundaryWalk} {nodes : NodeList}

theorem BothWalks.mem_visited
    (walks : BothWalks everything active incoming advertised wanted seen walk
      nodes) : oid ∈ walk.visited ↔ ∃ entry ∈ nodes, entry.1 = oid := by
  rw [walks.counts.visited, List.mem_map]

/-- A visited object references visited and advertised objects only. -/
theorem BothWalks.follow (coherent : Coherent everything)
    (walks : BothWalks everything active incoming advertised wanted seen walk
      nodes) (visited : source ∈ walk.visited)
    (refers : Refers everything source target) :
    target ∈ walk.visited ∨ target ∈ walk.external := by
  rcases walks.mem_visited.mp visited with ⟨entry, member, rfl⟩
  rcases walks.visited entry member with ⟨_, found, _, _, targets⟩
  rcases refers with ⟨node, copy, among⟩
  cases coherent.alike copy found
  exact targets target among

/-- What is wanted is visited or advertised. -/
theorem BothWalks.reached (coherent : Coherent everything)
    (walks : BothWalks everything active incoming advertised wanted seen walk
      nodes) (path : Reach (Refers everything) wanted oid) :
    oid ∈ seen ∨ oid ∈ walk.visited := by
  apply path.outside
  · intro source target stopped follows
    exact (walks.listed target).mpr (((walks.listed source).mp stopped).follow
      follows)
  · intro start given
    rcases walks.starts start given with visited | external
    · exact .inr visited
    · exact .inl (walks.external start external).1
  · intro source target visited _ follows
    rcases walks.follow coherent visited follows with visited | external
    · exact .inr visited
    · exact .inl (walks.external target external).1

theorem BothWalks.visited_iff (coherent : Coherent everything)
    (walks : BothWalks everything active incoming advertised wanted seen walk
      nodes) :
    oid ∈ walk.visited ↔ Reach (Refers everything) wanted oid ∧
      ¬ Reach (Refers everything) advertised oid := by
  rw [← walks.listed]
  constructor
  · intro visited
    rcases walks.mem_visited.mp visited with ⟨entry, member, rfl⟩
    rcases walks.visited entry member with ⟨outside, _, _, path, _⟩
    exact ⟨path, outside⟩
  · rintro ⟨path, outside⟩
    exact (walks.reached coherent path).resolve_left outside

theorem BothWalks.external_iff (coherent : Coherent everything)
    (walks : BothWalks everything active incoming advertised wanted seen walk
      nodes) :
    oid ∈ walk.external ↔ Reach (Refers everything) advertised oid ∧
      (wanted oid ∨ ∃ source ∈ walk.visited, Refers everything source oid) := by
  rw [← walks.listed]
  constructor
  · intro external
    rcases walks.external oid external with ⟨listed, given | ⟨entry, member, among⟩⟩
    · exact ⟨listed, .inl given⟩
    · refine ⟨listed, .inr ⟨entry.1, ?_, entry.2, ?_, among⟩⟩
      · exact walks.mem_visited.mpr ⟨entry, member, rfl⟩
      · exact (walks.visited entry member).2.1
  · rintro ⟨listed, given | ⟨source, visited, refers⟩⟩
    · apply (walks.starts oid given).resolve_left
      intro visited
      exact ((walks.visited_iff coherent).mp visited).2
        ((walks.listed oid).mp listed)
    · apply (walks.follow coherent visited refers).resolve_left
      intro visited
      exact ((walks.visited_iff coherent).mp visited).2
        ((walks.listed oid).mp listed)

variable {otherSeen : List String} {otherWalk : BoundaryWalk}
  {otherNodes : NodeList}

/-- Two walks over the same ids visit the same nodes. -/
theorem WalkedOver.perm (coherent : Coherent everything)
    (walked : WalkedOver everything incoming result seen walk nodes)
    (walkedOther : WalkedOver everything incoming other otherSeen otherWalk
      otherNodes) (same : ∀ oid, oid ∈ walk.visited ↔ oid ∈ otherWalk.visited) :
    nodes.Perm otherNodes := by
  have distinct : nodes.Nodup := by
    have names := walked.distinctVisited
    rw [walked.counts.visited] at names
    exact names.of_map _
  have distinctOther : otherNodes.Nodup := by
    have names := walkedOther.distinctVisited
    rw [walkedOther.counts.visited] at names
    exact names.of_map _
  rw [walked.counts.visited, walkedOther.counts.visited] at same
  apply (List.perm_ext_iff_of_nodup distinct distinctOther).mpr
  rintro ⟨oid, node⟩
  constructor
  · intro member
    have listed := (same oid).mp (List.mem_map.mpr ⟨_, member, rfl⟩)
    rcases List.mem_map.mp listed with ⟨⟨name, copy⟩, inside, named⟩
    cases named
    have equal : node = copy :=
      coherent.alike (walked.nodeOf _ member) (walkedOther.nodeOf _ inside)
    rw [equal]
    exact inside
  · intro member
    have listed := (same oid).mpr (List.mem_map.mpr ⟨_, member, rfl⟩)
    rcases List.mem_map.mp listed with ⟨⟨name, copy⟩, inside, named⟩
    cases named
    have equal : node = copy :=
      coherent.alike (walkedOther.nodeOf _ member) (walked.nodeOf _ inside)
    rw [equal]
    exact inside

/-- The sets determine the result. -/
theorem WalkedOver.unique (coherent : Coherent everything)
    (walked : WalkedOver everything incoming result seen walk nodes)
    (walkedOther : WalkedOver everything incoming other otherSeen otherWalk
      otherNodes) (sameSeen : ∀ oid, oid ∈ seen ↔ oid ∈ otherSeen)
    (sameVisited : ∀ oid, oid ∈ walk.visited ↔ oid ∈ otherWalk.visited)
    (sameExternal : ∀ oid, oid ∈ walk.external ↔ oid ∈ otherWalk.external) :
    result = other := by
  have perm := walked.perm coherent walkedOther sameVisited
  have boundary : walk.boundary = otherWalk.boundary := by
    unfold BoundaryWalk.boundary
    rw [IncomingBoundary.mk.injEq]
    refine ⟨?_, ?_, ?_, ?_, ?_, ?_, rfl, ?_⟩
    · exact sortOids_eq walked.distinctVisited walkedOther.distinctVisited
        sameVisited
    · exact sortOids_eq walked.distinctExternal walkedOther.distinctExternal
        sameExternal
    · rw [walked.counts.visited, walkedOther.counts.visited, List.length_map,
        List.length_map]
      exact perm.length_eq
    · rw [walked.counts.logical, walkedOther.counts.logical]
      exact (perm.map _).sum_eq
    · rw [walked.counts.internal, walkedOther.counts.internal]
      exact (perm.map _).sum_eq
    · rw [walked.counts.outward, walkedOther.counts.outward]
      exact (perm.map _).sum_eq
    · funext type
      rw [walked.counts.types, walkedOther.counts.types]
      exact perm.countP_eq _
  have reachable : sortOids seen = sortOids otherSeen :=
    sortOids_eq walked.distinctSeen walkedOther.distinctSeen sameSeen
  calc result
      = ⟨sortOids seen, walk.boundary⟩ := by
        rw [← walked.reachable, ← walked.boundary]
    _ = ⟨sortOids otherSeen, otherWalk.boundary⟩ := by
        rw [reachable, boundary]
    _ = other := by
        rw [← walkedOther.reachable, ← walkedOther.boundary]

end Boundary

/-! ## The planner -/

section Planner

variable {everything active : List BoundActivePack}
  {incoming : BoundActivePack} {advertisedRefs : List AdvertisedRef}
  {commands : List ReceiveCommand} {maxArguments : Nat}

def AdvertisedStart (refs : List AdvertisedRef) (oid : String) : Prop :=
  oid ∈ startOids (refs.map AdvertisedRef.oid)

def WantedStart (commands : List ReceiveCommand) (oid : String) : Prop :=
  oid ∈ startOids (commands.map ReceiveCommand.newOid)

theorem startOids_isOid
    (valid : ∀ oid ∈ oids, isValidOid (Text.toLowerCase oid) = true) :
    ∀ oid ∈ startOids oids, IsOid oid := by
  intro oid member
  rcases List.mem_map.mp (List.mem_of_mem_filter member) with
    ⟨text, among, rfl⟩
  rcases exists_oid_of_isValidOid (valid text among) with ⟨raw, same, _⟩
  exact ⟨raw, same⟩

theorem hasUnreachable_iff {advertised visited : List String} :
    hasUnreachable incoming.idx advertised visited = false ↔
      ∀ oid, InSnapshot [incoming] oid → oid ∈ visited ∨ oid ∈ advertised := by
  unfold hasUnreachable
  rw [List.any_eq_false]
  constructor
  · rintro all oid ⟨pack, member, row, inside, rfl⟩
    cases List.mem_singleton.mp member
    have met := all row (List.mem_range.mpr inside)
    rw [Bool.and_eq_true, decide_eq_true_iff, decide_eq_true_iff] at met
    by_contra neither
    rw [not_or] at neither
    exact met neither
  · intro all row inside met
    rw [Bool.and_eq_true, decide_eq_true_iff, decide_eq_true_iff] at met
    rcases all _ ⟨incoming, List.mem_cons_self, row,
      List.mem_range.mp inside, rfl⟩ with visited | listed
    · exact met.1 visited
    · exact met.2 listed

/-- A result is that of two walks that leave no incoming object out. -/
theorem deriveStockBoundary_eq_ok {incomingIdx : IdxView}
    {incomingRefs : PackRefView} :
    deriveStockBoundary maxArguments active advertisedRefs commands incomingIdx
        incomingRefs = .ok result ↔
      ∃ seen walk,
        advertisedLoop maxArguments active
            (startOids (advertisedRefs.map AdvertisedRef.oid)) [] 0 =
          .ok seen ∧
        boundaryLoop incomingIdx incomingRefs (sortOids seen)
            (startOids (commands.map ReceiveCommand.newOid)) .start =
          .ok walk ∧
        hasUnreachable incomingIdx (sortOids seen) (sortOids walk.visited) =
          false ∧
        result = ⟨sortOids seen, walk.boundary⟩ := by
  unfold deriveStockBoundary
  rw [CheckedFold.bind_eq_ok]
  constructor
  · rintro ⟨advertised, first, rest⟩
    rcases CheckedFold.map_eq_ok.mp first with ⟨seen, looped, rfl⟩
    rcases CheckedFold.bind_eq_ok.mp rest with ⟨boundary, second, rest⟩
    rcases CheckedFold.map_eq_ok.mp second with ⟨walk, walked, rfl⟩
    split at rest
    · cases rest
    · next met =>
      cases rest
      exact ⟨seen, walk, looped, walked, Bool.eq_false_of_not_eq_true met,
        rfl⟩
  · rintro ⟨seen, walk, looped, walked, met, rfl⟩
    refine ⟨sortOids seen, CheckedFold.map_eq_ok.mpr ⟨seen, looped, rfl⟩, ?_⟩
    apply CheckedFold.bind_eq_ok.mpr
    refine ⟨walk.boundary, CheckedFold.map_eq_ok.mpr ⟨walk, walked, rfl⟩, ?_⟩
    exact if_neg (Bool.not_eq_true _ ▸ met)

section Derived

variable (coherent : Coherent everything)
  (within : ∀ pack ∈ active, pack ∈ everything)
  (member : incoming ∈ everything)
  (advertisedOids : ∀ oid, AdvertisedStart advertisedRefs oid → IsOid oid)
  (wantedOids : ∀ oid, WantedStart commands oid → IsOid oid)

include coherent within member advertisedOids wantedOids

/-- The two walks behind a result. -/
theorem deriveStockBoundary_walks
    (derived : deriveStockBoundary maxArguments active advertisedRefs commands
      incoming.idx incoming.refs = .ok result) :
    ∃ seen walk nodes,
      BothWalks everything active incoming (AdvertisedStart advertisedRefs)
          (WantedStart commands) seen walk nodes ∧
        WalkedOver everything incoming result seen walk nodes ∧
        hasUnreachable incoming.idx result.advertisedReachableOids
          result.boundary.visitedIncomingOids = false ∧
        Pushable everything maxArguments (AdvertisedStart advertisedRefs) := by
  rcases deriveStockBoundary_eq_ok.mp derived with
    ⟨seen, walk, first, second, met, rfl⟩
  have advertised := advertisedLoop_sound coherent within advertisedOids
    List.nodup_nil first
  rcases boundaryLoop_sound coherent member wantedOids
    (WalkCounts.start incoming.idx) ⟨List.nodup_nil, List.nodup_nil⟩ second
    with ⟨nodes, boundary⟩
  have counts := boundary.counts
  rw [List.nil_append] at counts
  have closed : ∀ oid ∈ seen,
      Reach (Refers everything) (AdvertisedStart advertisedRefs) oid ∧
        InSnapshot active oid ∧
        (∀ node, NodeOf everything oid node →
          node.refs.length ≤ maxArguments) ∧
        ∀ target, Refers everything oid target → target ∈ seen :=
    fun oid inside => (advertised.reached oid inside).resolve_left
      List.not_mem_nil
  have listed : ∀ oid, oid ∈ seen ↔
      Reach (Refers everything) (AdvertisedStart advertisedRefs) oid := by
    apply met_iff_reach advertised.queued
    · exact fun oid inside => (closed oid inside).1
    · exact fun source target inside follows =>
        (closed source inside).2.2.2 target follows
  refine ⟨seen, walk, nodes, ?_, ?_, met, fun oid node path found =>
    (closed oid ((listed oid).mpr path)).2.2.1 node found⟩
  · refine ⟨listed, fun oid inside => (closed oid inside).2.1,
      boundary.queued, counts, ?_, ?_⟩
    · intro entry inside
      have visited := boundary.visited entry inside
      rw [mem_sortOids] at visited
      exact visited
    · intro oid inside
      have external := (boundary.external oid inside).resolve_left
        List.not_mem_nil
      rw [mem_sortOids] at external
      exact external
  · exact
      { reachable := rfl
        boundary := rfl
        counts := counts
        nodeOf := fun entry inside => (boundary.visited entry inside).2.1
        distinctSeen := advertised.distinct
        distinctVisited := boundary.distinct.1
        distinctExternal := boundary.distinct.2 }

/-- What the planner accepts meets the conditions, and no push of references
was too long. -/
theorem deriveStockBoundary_sound
    (derived : deriveStockBoundary maxArguments active advertisedRefs commands
      incoming.idx incoming.refs = .ok result) :
    BoundaryHolds everything active incoming
        (AdvertisedStart advertisedRefs) (WantedStart commands) ∧
      Pushable everything maxArguments (AdvertisedStart advertisedRefs) ∧
      BoundaryExact everything incoming (AdvertisedStart advertisedRefs)
        (WantedStart commands) result := by
  rcases deriveStockBoundary_walks coherent within member advertisedOids
    wantedOids derived with ⟨seen, walk, nodes, walks, walked, all, pushable⟩
  have met : ∀ oid, InSnapshot [incoming] oid →
      oid ∈ walk.visited ∨ oid ∈ seen := by
    intro oid held
    have either := hasUnreachable_iff.mp all oid held
    rw [walked.reachable, walked.boundary] at either
    exact either.imp mem_sortOids.mp mem_sortOids.mp
  have wantedHeld : ∀ oid, oid ∈ walk.visited → InSnapshot [incoming] oid := by
    intro oid visited
    rcases walks.mem_visited.mp visited with ⟨entry, inside, rfl⟩
    exact (walks.visited entry inside).2.2.1
  refine ⟨?_, pushable, ?_⟩
  · refine ⟨?_, ?_, ?_⟩
    · intro oid path
      exact walks.held oid ((walks.listed oid).mpr path)
    · intro oid path
      rcases walks.reached coherent path with listed | visited
      · exact .inr ((walks.listed oid).mp listed)
      · exact .inl (wantedHeld oid visited)
    · intro oid held
      rcases met oid held with visited | listed
      · exact .inl ((walks.visited_iff coherent).mp visited).1
      · exact .inr ((walks.listed oid).mp listed)
  · refine ⟨?_, ?_, ?_, ?_⟩
    · intro oid
      rw [walked.reachable, mem_sortOids]
      exact walks.listed oid
    · intro oid
      rw [walked.boundary]
      exact mem_sortOids.trans (walks.visited_iff coherent)
    · intro oid
      rw [walked.boundary]
      apply mem_sortOids.trans
      rw [walks.external_iff coherent]
      apply and_congr_right
      intro _
      apply or_congr_right
      constructor
      · rintro ⟨source, visited, refers⟩
        exact ⟨source, mem_sortOids.mpr visited, refers⟩
      · rintro ⟨source, visited, refers⟩
        exact ⟨source, mem_sortOids.mp visited, refers⟩
    · rintro source target (listed | held) follows
      · exact .inl (listed.follow follows)
      · rcases met source held with visited | listed
        · rcases walks.follow coherent visited follows with
            visited | external
          · exact .inr (wantedHeld target visited)
          · exact .inl ((walks.listed target).mp
              (walks.external target external).1)
        · exact .inl (((walks.listed source).mp listed).follow follows)

/-- Below the limits, the planner accepts what meets the conditions. -/
theorem deriveStockBoundary_complete
    (advertisedLimits : BelowLimits everything
      (Reach (Refers everything) (AdvertisedStart advertisedRefs)))
    (wantedLimits : BelowLimits everything fun oid =>
      Reach (Refers everything) (WantedStart commands) oid ∧
        ¬ Reach (Refers everything) (AdvertisedStart advertisedRefs) oid)
    (holds : BoundaryHolds everything active incoming
      (AdvertisedStart advertisedRefs) (WantedStart commands))
    (pushable : Pushable everything maxArguments
      (AdvertisedStart advertisedRefs)) :
    ∃ result, deriveStockBoundary maxArguments active advertisedRefs commands
      incoming.idx incoming.refs = .ok result := by
  have first_limits : ∀ nodes : NodeList,
      ([] ++ nodes.map Prod.fst).Nodup →
        ReachedNodes everything (AdvertisedStart advertisedRefs) nodes →
          0 + nodes.length ≤ maxClosureObjects ∧
            0 + edgeCount nodes ≤ maxClosureEdges := by
    intro nodes distinct reached
    rw [Nat.zero_add, Nat.zero_add]
    apply advertisedLimits nodes distinct
    exact fun entry inside =>
      ⟨reached.reached entry inside, reached.nodes entry inside⟩
  rcases advertisedLoop_complete coherent within advertisedOids
    List.nodup_nil holds.advertisedHeld pushable first_limits with ⟨seen, first⟩
  have advertised := advertisedLoop_sound coherent within advertisedOids
    List.nodup_nil first
  have listed : ∀ oid,
      Reach (Refers everything) (AdvertisedStart advertisedRefs) oid →
        oid ∈ sortOids seen := by
    intro oid path
    rw [mem_sortOids]
    apply path.induct advertised.queued
    intro source target inside follows
    exact ((advertised.reached source inside).resolve_left
      List.not_mem_nil).2.2.2 target follows
  have held : ∀ oid, Reach (Refers everything) (WantedStart commands) oid →
      oid ∈ sortOids seen ∨ InSnapshot [incoming] oid := by
    intro oid path
    rcases holds.wantedHeld oid path with inside | path
    · exact .inr inside
    · exact .inl (listed oid path)
  have unvisited : BoundaryWalk.start.visited.Nodup := List.nodup_nil
  have second_limits : ∀ nodes : NodeList,
      ([] ++ nodes.map Prod.fst).Nodup →
        ReachedNodes everything (WantedStart commands) nodes →
          (∀ entry ∈ nodes, entry.1 ∉ sortOids seen) →
            0 + nodes.length ≤ maxClosureObjects ∧
              0 + edgeCount nodes ≤ maxClosureEdges := by
    intro nodes distinct reached unlisted
    rw [Nat.zero_add, Nat.zero_add]
    apply wantedLimits nodes distinct
    exact fun entry inside =>
      ⟨⟨reached.reached entry inside, fun path =>
        unlisted entry inside (listed entry.1 path)⟩,
        reached.nodes entry inside⟩
  rcases boundaryLoop_complete coherent member wantedOids unvisited held
    second_limits with ⟨walk, second⟩
  rcases boundaryLoop_sound coherent member wantedOids
    (WalkCounts.start incoming.idx) ⟨List.nodup_nil, List.nodup_nil⟩ second
    with ⟨nodes, boundary⟩
  have met : hasUnreachable incoming.idx (sortOids seen)
      (sortOids walk.visited) = false := by
    rw [hasUnreachable_iff]
    intro oid inside
    rw [mem_sortOids]
    rcases holds.incomingMet oid inside with path | path
    · have both : oid ∈ sortOids seen ∨ oid ∈ walk.visited := by
        apply path.outside
        · intro source target stopped follows
          rw [mem_sortOids] at stopped ⊢
          exact ((advertised.reached source stopped).resolve_left
            List.not_mem_nil).2.2.2 target follows
        · intro start given
          rcases boundary.queued start given with visited | external
          · exact .inr visited
          · exact .inl ((boundary.external start external).resolve_left
              List.not_mem_nil).1
        · intro source target visited _ follows
          rw [boundary.counts.visited, List.nil_append] at visited
          rcases List.mem_map.mp visited with ⟨entry, among, rfl⟩
          rcases boundary.visited entry among with ⟨_, found, _, _, targets⟩
          rcases follows with ⟨node, copy, reference⟩
          cases coherent.alike copy found
          rcases targets target reference with visited | external
          · exact .inr visited
          · exact .inl ((boundary.external target external).resolve_left
              List.not_mem_nil).1
      exact both.symm
    · exact .inr (listed oid path)
  exact ⟨_, deriveStockBoundary_eq_ok.mpr
    ⟨seen, walk, first, second, met, rfl⟩⟩

end Derived

/-- The ids to start from do not depend on the order of the list. -/
theorem mem_startOids_perm {others : List String} (perm : oids.Perm others)
    (oid : String) : oid ∈ startOids oids ↔ oid ∈ startOids others :=
  ((perm.map _).filter _).mem_iff

/-- Two results over the same packs, refs and commands are equal. -/
theorem deriveStockBoundary_unique (coherent : Coherent everything)
    {others : List BoundActivePack} {otherRefs : List AdvertisedRef}
    {otherCommands : List ReceiveCommand}
    (within : ∀ pack ∈ active, pack ∈ everything)
    (withinOthers : ∀ pack ∈ others, pack ∈ everything)
    (member : incoming ∈ everything)
    (advertisedOids : ∀ oid, AdvertisedStart advertisedRefs oid → IsOid oid)
    (wantedOids : ∀ oid, WantedStart commands oid → IsOid oid)
    (sameRefs : AdvertisedStart otherRefs = AdvertisedStart advertisedRefs)
    (sameCommands : WantedStart otherCommands = WantedStart commands)
    (derived : deriveStockBoundary maxArguments active advertisedRefs commands
      incoming.idx incoming.refs = .ok result)
    (derivedOther : deriveStockBoundary maxArguments others otherRefs otherCommands
      incoming.idx incoming.refs = .ok other) : result = other := by
  rcases deriveStockBoundary_walks coherent within member advertisedOids
    wantedOids derived with ⟨seen, walk, nodes, walks, walked, _⟩
  rw [← sameRefs] at advertisedOids
  rw [← sameCommands] at wantedOids
  rcases deriveStockBoundary_walks coherent withinOthers member
    advertisedOids wantedOids derivedOther with
    ⟨otherSeen, otherWalk, otherNodes, otherWalks, walkedOther, _⟩
  rw [sameRefs, sameCommands] at otherWalks
  have visited : ∀ oid, oid ∈ walk.visited ↔ oid ∈ otherWalk.visited :=
    fun oid => (walks.visited_iff coherent).trans
      (otherWalks.visited_iff coherent).symm
  apply walked.unique coherent walkedOther _ visited
  · intro oid
    rw [walks.external_iff coherent, otherWalks.external_iff coherent]
    simp only [visited]
  · exact fun oid => (walks.listed oid).trans (otherWalks.listed oid).symm

/-- Beside the sizes that it checks, the planner accepts what meets the
conditions as long as the references of one object are no more than one call
takes; what it returns is always exact, whatever the order of packs, refs and
commands. -/
theorem deriveStockBoundary_exact (maxArguments : Nat)
    (coherent : Coherent (incoming :: active))
    (refOids : ∀ ref ∈ advertisedRefs,
      isValidOid (Text.toLowerCase ref.oid) = true)
    (newOids : ∀ command ∈ commands,
      isValidOid (Text.toLowerCase command.newOid) = true)
    (advertisedLimits : BelowLimits (incoming :: active)
      (Reach (Refers (incoming :: active)) (AdvertisedStart advertisedRefs)))
    (wantedLimits : BelowLimits (incoming :: active) fun oid =>
      Reach (Refers (incoming :: active)) (WantedStart commands) oid ∧
        ¬ Reach (Refers (incoming :: active))
          (AdvertisedStart advertisedRefs) oid) :
    (((∃ result, deriveStockBoundary maxArguments active advertisedRefs commands
        incoming.idx incoming.refs = .ok result) ↔
      BoundaryHolds (incoming :: active) active incoming
        (AdvertisedStart advertisedRefs) (WantedStart commands)) ↔
      (BoundaryHolds (incoming :: active) active incoming
        (AdvertisedStart advertisedRefs) (WantedStart commands) →
          Pushable (incoming :: active) maxArguments
            (AdvertisedStart advertisedRefs))) ∧
    (∀ result, deriveStockBoundary maxArguments active advertisedRefs commands
        incoming.idx incoming.refs = .ok result →
      BoundaryExact (incoming :: active) incoming
        (AdvertisedStart advertisedRefs) (WantedStart commands) result) ∧
    ∀ others otherRefs otherCommands, others.Perm active →
      otherRefs.Perm advertisedRefs → otherCommands.Perm commands →
        (deriveStockBoundary maxArguments others otherRefs otherCommands
            incoming.idx incoming.refs).toOption =
          (deriveStockBoundary maxArguments active advertisedRefs commands
            incoming.idx incoming.refs).toOption := by
  have within : ∀ pack ∈ active, pack ∈ incoming :: active :=
    fun _ => List.mem_cons_of_mem _
  have member : incoming ∈ incoming :: active := List.mem_cons_self
  have advertisedOids : ∀ oid, AdvertisedStart advertisedRefs oid →
      IsOid oid := by
    apply startOids_isOid
    intro oid among
    rcases List.mem_map.mp among with ⟨ref, inside, rfl⟩
    exact refOids ref inside
  have wantedOids : ∀ oid, WantedStart commands oid → IsOid oid := by
    apply startOids_isOid
    intro oid among
    rcases List.mem_map.mp among with ⟨command, inside, rfl⟩
    exact newOids command inside
  have accepted : ∀ result, deriveStockBoundary maxArguments active advertisedRefs
      commands incoming.idx incoming.refs = .ok result → _ :=
    fun result derived => deriveStockBoundary_sound coherent within member
      advertisedOids wantedOids derived
  refine ⟨⟨?_, ?_⟩, fun result derived => (accepted result derived).2.2, ?_⟩
  · intro exact holds
    rcases exact.mpr holds with ⟨result, derived⟩
    exact (accepted result derived).2.1
  · intro pushable
    constructor
    · rintro ⟨result, derived⟩
      exact (accepted result derived).1
    · intro holds
      exact deriveStockBoundary_complete coherent within member advertisedOids
        wantedOids advertisedLimits wantedLimits holds (pushable holds)
  · intro others otherRefs otherCommands packs refs wants
    have sameRefs : AdvertisedStart otherRefs =
        AdvertisedStart advertisedRefs := by
      funext oid
      exact propext (mem_startOids_perm (refs.map _) oid)
    have sameCommands : WantedStart otherCommands = WantedStart commands := by
      funext oid
      exact propext (mem_startOids_perm (wants.map _) oid)
    have withinOthers : ∀ pack ∈ others, pack ∈ incoming :: active :=
      fun pack inside => within pack (packs.mem_iff.mp inside)
    have held : ∀ oid, InSnapshot others oid ↔ InSnapshot active oid := by
      intro oid
      unfold InSnapshot
      simp only [packs.mem_iff]
    have bothHold : BoundaryHolds (incoming :: active) others incoming
          (AdvertisedStart advertisedRefs) (WantedStart commands) ↔
        BoundaryHolds (incoming :: active) active incoming
          (AdvertisedStart advertisedRefs) (WantedStart commands) := by
      constructor
      · intro holds
        refine ⟨?_, holds.wantedHeld, holds.incomingMet⟩
        exact fun oid path => (held oid).mp (holds.advertisedHeld oid path)
      · intro holds
        refine ⟨?_, holds.wantedHeld, holds.incomingMet⟩
        exact fun oid path => (held oid).mpr (holds.advertisedHeld oid path)
    cases derived : deriveStockBoundary maxArguments active advertisedRefs commands
        incoming.idx incoming.refs with
    | ok result =>
      have holds := bothHold.mpr (accepted result derived).1
      have pushable := (accepted result derived).2.1
      rw [← sameRefs] at pushable
      rw [← sameRefs, ← sameCommands] at holds
      rcases deriveStockBoundary_complete coherent withinOthers member
        (sameRefs ▸ advertisedOids) (sameCommands ▸ wantedOids)
        (sameRefs ▸ advertisedLimits)
        (sameRefs ▸ sameCommands ▸ wantedLimits) holds pushable with
        ⟨other, derivedOther⟩
      rw [derivedOther]
      exact congrArg some (deriveStockBoundary_unique coherent within
        withinOthers member advertisedOids wantedOids sameRefs sameCommands
        derived derivedOther).symm
    | error failure =>
      cases derivedOther : deriveStockBoundary maxArguments others otherRefs otherCommands
          incoming.idx incoming.refs with
      | error => rfl
      | ok other =>
        rcases deriveStockBoundary_sound coherent withinOthers member
          (sameRefs ▸ advertisedOids) (sameCommands ▸ wantedOids)
          derivedOther with ⟨holds, pushable, _⟩
        rw [sameRefs] at pushable
        rw [sameRefs, sameCommands] at holds
        rcases deriveStockBoundary_complete coherent within member
          advertisedOids wantedOids advertisedLimits wantedLimits
          (bothHold.mp holds) pushable with ⟨result, found⟩
        cases derived.symm.trans found

end Planner

/-! ## A commit over an advertised tree -/

/-- An index of one row. -/
def soleIdx (name : UInt8) : IdxView where
  packKey := "sole"
  count := 1
  fanout := (List.range 256).map fun first =>
    if first < name.toNat then 0 else 1
  rawNames := (evenOid name).bytes
  offsets := [12]
  nextOffsetByIndex := [80]
  sortedOffsets := [12]
  sortedOffsetIndices := [0]
  packSize := 100
  packChecksum := (evenOid 8).bytes
  idxChecksum := (evenOid 9).bytes

def soleTable (name : UInt8) (object : GitObject) : PackEntryTable 1 where
  offsets := fun _ => 12
  objectTypes := fun _ => object.type.typeCode
  crc32s := fun _ => 0
  oids := fun _ => evenOid name

/-- A pack of one object, with the sidecar that is built for it. -/
def solePack (name : UInt8) (object : GitObject) : BoundActivePack where
  packKey := "sole"
  idx := soleIdx name
  refs := (soleTable name object).sidecarView (fun _ => object) 100
    (evenOid 8) (evenOid 9) "sole"

theorem soleIdx_names (name : UInt8) :
    (soleIdx name).Names fun _ : Fin 1 => evenOid name where
  count := rfl
  named := by
    intro row
    rw [Subsingleton.elim row 0]
    rfl
  ordered := fun _ _ _ => (compareBytes_self _).le
  fanout := by
    intro first small row
    have start : firstByte (evenOid name) = name.toNat := rfl
    unfold soleIdx
    rw [start, List.getD_eq_getElem _ _ (by simpa using small),
      List.getElem_map, List.getElem_range]
    split <;> omega
  bounded := by
    intro first
    unfold soleIdx
    by_cases small : first < 256
    · rw [List.getD_eq_getElem _ _ (by simpa using small), List.getElem_map]
      split
      · exact Nat.zero_le _
      · exact le_refl _
    · rw [List.getD_eq_default _ _ (by simpa using small)]
      exact Nat.zero_le _

theorem soleTable_totalRefs (name : UInt8) (object : GitObject) :
    (soleTable name object).totalRefs (fun _ => object) * oidBytes =
      (objectRefBytes object).length := by
  rw [← PackEntryTable.length_flatten_refRows]
  unfold PackEntryTable.refRows
  rcases List.length_eq_one_iff.mp
    (soleTable name object).length_buildOidSortedEntryIndices with ⟨entry, sole⟩
  rw [sole, List.map_singleton, List.flatten_cons, List.flatten_nil,
    List.append_nil]

section Sole

variable {name : UInt8} {object : GitObject}

theorem solePack_valid (few : (objectRefBytes object).length < 2 ^ 32) :
    (solePack name object).Valid := by
  have total := soleTable_totalRefs name object
  have fewer : (soleTable name object).totalRefs (fun _ => object) < 2 ^ 32 := by
    unfold oidBytes at total
    omega
  apply PackRefSnapshotEntry.valid_of_names (soleIdx_names name) (by decide)
  exact (soleTable name object).parsePackRefView_sidecarFile _ _ _ _ _
    (by decide) fewer (fun _ => rfl) (by decide) rfl rfl rfl rfl

/-- The node of the only row. -/
theorem nodeOf_solePack {node : PlannerNode} {row : Nat}
    (few : (objectRefBytes object).length < 2 ^ 32)
    (sole : pack = solePack name object) (inside : row < pack.idx.count)
    (named : bytesToHex (pack.idx.nameAt row) = oid)
    (refs : pack.refs.getPackRefRefsAt row = node.refs)
    (typed : pack.refs.getPackRefObjectType row = some node.type) :
    (oid, node) = (bytesToHex (evenOid name).bytes,
      ⟨(logicalRefs (objectRefBytes object)).map bytesToHex, object.type⟩) := by
  subst sole
  have total := soleTable_totalRefs name object
  have fewer : (soleTable name object).totalRefs (fun _ => object) < 2 ^ 32 := by
    unfold oidBytes at total
    omega
  have reflects := (soleTable name object).sidecarView_reflects
    (fun _ => object) 100 (evenOid 8) (evenOid 9) "sole" fewer fun _ => rfl
  have first : row = 0 := Nat.lt_one_iff.mp inside
  subst first
  have sameRefs := (reflects.refs 0).symm.trans refs
  have sameType := Option.some.inj ((reflects.objectType 0).symm.trans typed)
  rcases node with ⟨_, _⟩
  cases named
  cases sameRefs
  cases sameType
  rfl

end Sole

/-- A tree that names one blob so many times. -/
def wideTree (count : Nat) : GitObject where
  type := .tree
  payload := (List.replicate count
    ([0x31, 0x30, 0x30, 0x36, 0x34, 0x34, 0x20, 0x61, 0x00] ++
      (evenOid 3).bytes)).flatten

def treeCommit : GitObject where
  type := .commit
  payload := treeLinePrefix ++
    (List.replicate oidBytes [0x30, 0x32]).flatten ++ [0x0a]

theorem objectRefBytes_wideTree (count : Nat) :
    objectRefBytes (wideTree count) =
      (List.replicate count (evenOid 3).bytes).flatten := by
  have visits : ∀ fuel count, count ≤ fuel →
      visitTreeClosureRawRefs fuel (wideTree count).payload =
        (List.replicate count (evenOid 3).bytes).flatten := by
    intro fuel count enough
    induction count generalizing fuel with
    | zero => cases fuel <;> rfl
    | succ count ih =>
      cases fuel with
      | zero => cases enough
      | succ fuel =>
        have rest := ih fuel (Nat.le_of_succ_le_succ enough)
        unfold wideTree at rest ⊢
        rw [List.replicate_succ, List.flatten_cons, List.replicate_succ,
          List.flatten_cons, ← rest]
        rfl
  apply visits
  unfold wideTree
  rw [List.length_flatten, List.map_replicate, List.sum_replicate_nat]
  exact Nat.le_mul_of_pos_right count (Nat.succ_pos _)

theorem refs_wideTree (count : Nat) :
    (logicalRefs (objectRefBytes (wideTree count))).map bytesToHex =
      List.replicate count (bytesToHex (evenOid 3).bytes) := by
  rw [objectRefBytes_wideTree, logicalRefs_flatten, List.map_replicate]
  exact fun id member => (List.eq_of_mem_replicate member) ▸ (evenOid 3).length_eq

def treeOid : String := bytesToHex (evenOid 2).bytes

def commitOid : String := bytesToHex (evenOid 5).bytes

def blobOid : String := bytesToHex (evenOid 3).bytes

def commitPack : BoundActivePack := solePack 5 treeCommit

/-- The tree and the blob that it names so many times. -/
def widePacks (count : Nat) : List BoundActivePack :=
  [solePack 2 (wideTree count), solePack 3 ⟨.blob, []⟩]

/-- The nodes of all packs. -/
def wideNodes (count : Nat) : NodeList :=
  [(commitOid, ⟨[treeOid], .commit⟩),
    (treeOid, ⟨List.replicate count blobOid, .tree⟩), (blobOid, ⟨[], .blob⟩)]

section Wide

variable {count : Nat} {oid : String} {node : PlannerNode}

theorem length_wideTree_refs (few : count < 2 ^ 27) :
    (objectRefBytes (wideTree count)).length < 2 ^ 32 := by
  rw [objectRefBytes_wideTree, List.length_flatten, List.map_replicate,
    List.sum_replicate_nat, RawOid.length_eq]
  omega

theorem widePacks_cases (few : count < 2 ^ 27)
    (member : pack ∈ commitPack :: widePacks count) :
    ∃ name object, pack = solePack name object ∧
      (objectRefBytes object).length < 2 ^ 32 ∧
      (bytesToHex (evenOid name).bytes,
        ⟨(logicalRefs (objectRefBytes object)).map bytesToHex, object.type⟩) ∈
          wideNodes count := by
  have treeRefs : (logicalRefs (objectRefBytes treeCommit)).map bytesToHex =
      [treeOid] := by
    decide +kernel
  rcases List.mem_cons.mp member with rfl | member
  · refine ⟨5, treeCommit, rfl, by decide +kernel, ?_⟩
    rw [treeRefs]
    exact List.mem_cons_self
  rcases List.mem_cons.mp member with rfl | member
  · refine ⟨2, wideTree count, rfl, length_wideTree_refs few, ?_⟩
    rw [refs_wideTree]
    exact List.mem_cons_of_mem _ List.mem_cons_self
  · cases List.mem_singleton.mp member
    refine ⟨3, ⟨.blob, []⟩, rfl, by decide, ?_⟩
    exact List.mem_cons_of_mem _ (List.mem_cons_of_mem _ List.mem_cons_self)

theorem mem_wideNodes (few : count < 2 ^ 27)
    (found : NodeOf (commitPack :: widePacks count) oid node) :
    (oid, node) ∈ wideNodes count := by
  rcases found with ⟨pack, member, row, inside, named, refs, typed⟩
  rcases widePacks_cases few member with ⟨name, object, sole, small, among⟩
  rw [nodeOf_solePack small sole inside named refs typed]
  exact among

theorem wideNodes_nodup (count : Nat) :
    ((wideNodes count).map Prod.fst).Nodup := by
  have distinct : [commitOid, treeOid, blobOid].Nodup := by decide +kernel
  exact distinct

theorem widePacks_coherent (few : count < 2 ^ 27) :
    Coherent (commitPack :: widePacks count) where
  valid := by
    intro pack member
    rcases widePacks_cases few member with ⟨name, object, rfl, small, _⟩
    exact solePack_valid small
  alike := by
    intro oid first second found other
    have same := List.inj_on_of_nodup_map (wideNodes_nodup count)
      (mem_wideNodes few found) (mem_wideNodes few other) rfl
    exact (Prod.mk.inj same).2

theorem wideTree_node (few : count < 2 ^ 27) :
    NodeOf (commitPack :: widePacks count) treeOid
      ⟨List.replicate count blobOid, .tree⟩ := by
  have held : InSnapshot (commitPack :: widePacks count) treeOid :=
    ⟨_, List.mem_cons_of_mem _ List.mem_cons_self, 0, Nat.one_pos, rfl⟩
  rcases (exists_nodeOf (widePacks_coherent few).valid).mpr held with
    ⟨node, found⟩
  have same := List.inj_on_of_nodup_map (wideNodes_nodup count)
    (mem_wideNodes few found)
    (List.mem_cons_of_mem _ List.mem_cons_self) rfl
  exact (Prod.mk.inj same).2 ▸ found

/-- The tree has the blob, and the commit has the tree. -/
theorem refers_wideNodes (few : count < 2 ^ 27)
    (refers : Refers (commitPack :: widePacks count) source target) :
    source = commitOid ∧ target = treeOid ∨
      source = treeOid ∧ target = blobOid := by
  rcases refers with ⟨node, found, among⟩
  have member := mem_wideNodes few found
  unfold wideNodes at member
  simp only [List.mem_cons, List.not_mem_nil, or_false, Prod.mk.injEq] at member
  rcases member with ⟨rfl, rfl⟩ | ⟨rfl, rfl⟩ | ⟨rfl, rfl⟩
  · exact .inl ⟨rfl, List.mem_singleton.mp among⟩
  · exact .inr ⟨rfl, List.eq_of_mem_replicate among⟩
  · cases among

/-- Nodes among these stay within the limits. -/
theorem belowLimits_wide (few : count ≤ 400000) (visited : String → Prop) :
    BelowLimits (commitPack :: widePacks count) visited := by
  intro nodes distinct met
  have within : nodes ⊆ wideNodes count := fun entry member =>
    mem_wideNodes (by omega) (met entry member).2
  rcases List.subperm_of_subset (distinct.of_map _) within with
    ⟨sub, perm, among⟩
  constructor
  · have three : sub.length ≤ 3 := among.length_le
    rw [perm.length_eq] at three
    exact three.trans (by decide)
  · have fewer : edgeCount sub ≤ edgeCount (wideNodes count) :=
      (among.map _).sum_le_sum fun _ _ => Nat.zero_le _
    have same : edgeCount sub = edgeCount nodes := (perm.map _).sum_eq
    have all : edgeCount (wideNodes count) = 1 + count := by
      unfold edgeCount wideNodes
      simp only [List.map_cons, List.map_nil, List.sum_cons, List.sum_nil,
        List.length_replicate, List.length_cons, List.length_nil]
      omega
    unfold maxClosureEdges
    omega

end Wide

def treeRef : AdvertisedRef := ⟨"refs/heads/main", treeOid⟩

def commitCommand : ReceiveCommand :=
  ⟨Receive.zeroOid, commitOid, "refs/heads/new"⟩

theorem wide_starts :
    startOids ([treeRef].map AdvertisedRef.oid) = [treeOid] ∧
      startOids ([commitCommand].map ReceiveCommand.newOid) = [commitOid] := by
  decide +kernel

theorem wide_advertised : AdvertisedStart [treeRef] treeOid := by
  unfold AdvertisedStart
  rw [wide_starts.1]
  exact List.mem_cons_self

theorem boundaryHolds_wide {count : Nat} (few : count < 2 ^ 27) :
    BoundaryHolds (commitPack :: widePacks count) (widePacks count) commitPack
      (AdvertisedStart [treeRef]) (WantedStart [commitCommand]) := by
  have treeReached : Reach (Refers (commitPack :: widePacks count))
      (AdvertisedStart [treeRef]) treeOid := Reach.start wide_advertised
  have advertised : ∀ oid, Reach (Refers (commitPack :: widePacks count))
      (AdvertisedStart [treeRef]) oid → oid = treeOid ∨ oid = blobOid := by
    intro oid path
    apply path.induct
    · intro start given
      unfold AdvertisedStart at given
      rw [wide_starts.1] at given
      exact .inl (List.mem_singleton.mp given)
    · intro source target _ refers
      exact (refers_wideNodes few refers).imp And.right And.right
  have wanted : ∀ oid, Reach (Refers (commitPack :: widePacks count))
      (WantedStart [commitCommand]) oid → oid = commitOid ∨
        Reach (Refers (commitPack :: widePacks count))
          (AdvertisedStart [treeRef]) oid := by
    intro oid path
    apply path.induct
    · intro start given
      unfold WantedStart at given
      rw [wide_starts.2] at given
      exact .inl (List.mem_singleton.mp given)
    · intro source target met refers
      rcases met with rfl | met
      · rcases refers_wideNodes few refers with ⟨_, rfl⟩ | ⟨never, _⟩
        · exact .inr treeReached
        · exact absurd never (by decide +kernel)
      · exact .inr (met.follow refers)
  refine ⟨?_, ?_, ?_⟩
  · intro oid path
    rcases advertised oid path with rfl | rfl
    · exact ⟨_, List.mem_cons_self, 0, Nat.one_pos, rfl⟩
    · exact ⟨_, List.mem_cons_of_mem _ List.mem_cons_self, 0, Nat.one_pos, rfl⟩
  · intro oid path
    rcases wanted oid path with rfl | met
    · exact .inl ⟨_, List.mem_cons_self, 0, Nat.one_pos, rfl⟩
    · exact .inr met
  · rintro oid ⟨pack, member, row, inside, rfl⟩
    cases List.mem_singleton.mp member
    have first : row = 0 := Nat.lt_one_iff.mp inside
    subst first
    left
    apply Reach.start
    unfold WantedStart
    rw [wide_starts.2]
    exact List.mem_cons_self

/-- The words of the default stack of the engine, on which the arguments of a call
lie. -/
def stackWords : Nat := 984 * 1024 / 8

theorem deriveStockBoundary_exact_commit :
    ∃ result, deriveStockBoundary stackWords (widePacks 3) [treeRef]
        [commitCommand] commitPack.idx commitPack.refs = .ok result ∧
      BoundaryExact (commitPack :: widePacks 3) commitPack
        (AdvertisedStart [treeRef]) (WantedStart [commitCommand]) result := by
  have pushable : Pushable (commitPack :: widePacks 3) stackWords
      (AdvertisedStart [treeRef]) := by
    intro oid node _ found
    have short : ∀ entry ∈ wideNodes 3, entry.2.refs.length ≤ stackWords := by
      decide
    exact short _ (mem_wideNodes (by decide) found)
  rcases @deriveStockBoundary_exact (widePacks 3) commitPack [treeRef]
    [commitCommand] stackWords (widePacks_coherent (by decide))
    (by decide +kernel) (by decide +kernel) (belowLimits_wide (by decide) _)
    (belowLimits_wide (by decide) _) with ⟨accepts, results, _⟩
  rcases (accepts.mpr fun _ => pushable).mpr (boundaryHolds_wide (by decide)) with
    ⟨result, derived⟩
  exact ⟨result, derived, results result derived⟩

/-- A tree with 130,000 entries is pushed in one call, which the engine does not
take. -/
theorem deriveStockBoundary_wide :
    Coherent (commitPack :: widePacks 130000) ∧
      (∀ visited, BelowLimits (commitPack :: widePacks 130000) visited) ∧
      BoundaryHolds (commitPack :: widePacks 130000) (widePacks 130000)
        commitPack (AdvertisedStart [treeRef]) (WantedStart [commitCommand]) ∧
      ¬ ∃ result, deriveStockBoundary stackWords (widePacks 130000) [treeRef]
        [commitCommand] commitPack.idx commitPack.refs = .ok result := by
  have few : (130000 : Nat) < 2 ^ 27 := by decide
  refine ⟨widePacks_coherent few, belowLimits_wide (by decide),
    boundaryHolds_wide few, ?_⟩
  rintro ⟨result, derived⟩
  have advertisedOids : ∀ oid, AdvertisedStart [treeRef] oid → IsOid oid := by
    apply startOids_isOid
    decide +kernel
  have wantedOids : ∀ oid, WantedStart [commitCommand] oid → IsOid oid := by
    apply startOids_isOid
    decide +kernel
  have pushable := (deriveStockBoundary_sound (widePacks_coherent few)
    (fun _ => List.mem_cons_of_mem _) List.mem_cons_self advertisedOids
    wantedOids derived).2.1
  have short := pushable treeOid _ (Reach.start wide_advertised)
    (wideTree_node few)
  rw [List.length_replicate] at short
  exact absurd short (by decide)

end GitOnCloudflare.Planner
