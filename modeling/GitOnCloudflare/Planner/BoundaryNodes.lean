import GitOnCloudflare.Fetch.LocatedObjects
import GitOnCloudflare.Planner.Boundary

/-!
# Nodes of the packs

The planner looks ids up in indexes and reads types and references from the
sidecars.  Where all copies of an object agree, a lookup over any order of the
packs answers the node of the id.
-/

namespace GitOnCloudflare.Planner

open Foundations
open Foundations.ByteTable
open Pack
open Fetch

/-! ## Ids -/

/-- The text of twenty bytes. -/
def IsOid (oid : String) : Prop :=
  ∃ raw : RawOid, bytesToHex raw.bytes = oid

theorem toLowerCase_bytesToHex (bytes : Bytes) :
    Text.toLowerCase (bytesToHex bytes) = bytesToHex bytes := by
  have digits : lowerDigits.all (fun digit => digit.toLower == digit) =
      true := by
    decide +kernel
  have member : ∀ value, value < 16 →
      lowerDigits.getD value '0' ∈ lowerDigits := by
    intro value small
    have inside : value < lowerDigits.length := small
    rw [List.getD_eq_getElem?_getD, List.getElem?_eq_getElem inside]
    exact List.getElem_mem inside
  apply String.toList_injective
  unfold Text.toLowerCase
  rw [String.toList_ofList, toList_bytesToHex]
  have fixed : ∀ digit ∈ bytes.flatMap byteDigits,
      digit.toLower = digit := by
    intro digit among
    rcases List.mem_flatMap.mp among with ⟨byte, _, placed⟩
    have small := byte.toNat_lt
    apply eq_of_beq
    apply List.all_eq_true.mp digits digit
    rcases List.mem_cons.mp placed with rfl | placed
    · exact member _ (by omega)
    · cases List.mem_singleton.mp placed
      exact member _ (by omega)
  rw [List.map_congr_left fixed, List.map_id']

theorem findOidIndex_spec {pack : BoundActivePack} (valid : pack.Valid)
    (raw : RawOid) :
    (∃ row, row < pack.idx.count ∧ pack.idx.nameAt row = raw.bytes ∧
        findOidIndex pack.idx (bytesToHex raw.bytes) = (row : Int)) ∨
      (∀ row, row < pack.idx.count → pack.idx.nameAt row ≠ raw.bytes) ∧
        findOidIndex pack.idx (bytesToHex raw.bytes) = -1 := by
  have looked : findOidIndex pack.idx (bytesToHex raw.bytes) =
      (pack.idx.findOidIndexFromBytes raw.bytes 0).getD (-1) := by
    unfold findOidIndex
    rw [toLowerCase_bytesToHex, hexToBytes_bytesToHex]
    exact if_neg (not_not.mpr raw.length_eq)
  rw [looked]
  rcases valid.finds raw with ⟨row, inside, named, found⟩ | ⟨absent, missed⟩
  · left
    refine ⟨row, inside, named, ?_⟩
    rw [found]
    rfl
  · right
    refine ⟨absent, ?_⟩
    rw [missed]
    rfl

/-! ## Rows -/

theorem objectType_of_ready {packKey : String} {bytes : Bytes}
    {idx : IdxView} {view : PackRefView}
    (accepted : parsePackRefView packKey bytes idx = .ready view) {row : Nat}
    (inside : row < idx.count) :
    ∃ type, view.getPackRefObjectType row = some type := by
  rcases sections_of_ready accepted with ⟨counted, size, sections⟩
  rw [← counted] at inside
  generalize numberAt 4 bytes 8 = objectCount at sections inside
  unfold parsePackRefSections at sections
  dsimp only at sections
  repeat' split at sections
  all_goals try cases sections
  next _ _ short typed long _ _ =>
    have length : (slice bytes packRefHeaderBytes objectCount).length =
        objectCount := by
      unfold slice
      rw [List.length_take, List.length_drop]
      omega
    have placed : row < (slice bytes packRefHeaderBytes objectCount).length := by
      rw [length]
      exact inside
    have known : typeCodeToObjectType
        (slice bytes packRefHeaderBytes objectCount)[row] ≠ none := by
      intro unknown
      apply typed
      rw [List.any_eq_true]
      refine ⟨_, List.getElem_mem placed, ?_⟩
      rw [unknown]
      rfl
    rcases Option.ne_none_iff_exists'.mp known with ⟨type, found⟩
    refine ⟨type, ?_⟩
    unfold PackRefView.getPackRefObjectType PackRefView.getPackRefTypeCode
    dsimp only
    rw [if_neg (by omega), Int.toNat_natCast, List.getElem?_eq_getElem placed,
      Option.bind_some]
    exact found

/-- A row of some pack gives the id this node. -/
def NodeOf (packs : List BoundActivePack) (oid : String)
    (node : PlannerNode) : Prop :=
  ∃ pack ∈ packs, ∃ row, row < pack.idx.count ∧
    bytesToHex (pack.idx.nameAt row) = oid ∧
    pack.refs.getPackRefRefsAt row = node.refs ∧
    pack.refs.getPackRefObjectType row = some node.type

/-- The packs are valid, and an id has the same type and references in every
pack. -/
structure Coherent (packs : List BoundActivePack) : Prop where
  valid : ∀ pack ∈ packs, pack.Valid
  alike : ∀ {oid first second}, NodeOf packs oid first →
    NodeOf packs oid second → first = second

section Packs

variable {packs more : List BoundActivePack} {oid : String}
  {node : PlannerNode}

theorem NodeOf.mono (within : ∀ pack ∈ packs, pack ∈ more)
    (found : NodeOf packs oid node) : NodeOf more oid node := by
  rcases found with ⟨pack, member, rest⟩
  exact ⟨pack, within pack member, rest⟩

theorem exists_nodeOf (valid : ∀ pack ∈ packs, pack.Valid) :
    (∃ node, NodeOf packs oid node) ↔ InSnapshot packs oid := by
  constructor
  · rintro ⟨node, pack, member, row, inside, named, _⟩
    exact ⟨pack, member, row, inside, named⟩
  · rintro ⟨pack, member, row, inside, named⟩
    rcases (valid pack member).sidecar with ⟨bytes, accepted⟩
    rcases objectType_of_ready accepted inside with ⟨type, typed⟩
    exact ⟨⟨pack.refs.getPackRefRefsAt row, type⟩, pack, member, row, inside,
      named, rfl, typed⟩

/-- References are the texts of whole ids. -/
theorem NodeOf.refs_isOid (valid : ∀ pack ∈ packs, pack.Valid)
    (found : NodeOf packs oid node) {target : String}
    (among : target ∈ node.refs) : IsOid target := by
  rcases found with ⟨pack, member, row, inside, _, refs, _⟩
  rw [← refs, getPackRefRefsAt_eq] at among
  rcases List.mem_map.mp among with ⟨oidStart, visited, rfl⟩
  have whole := (valid pack member).visited inside visited
  refine ⟨⟨slice pack.refs.rawRefs oidStart oidBytes, ?_⟩, rfl⟩
  unfold slice
  rw [List.length_take, List.length_drop]
  unfold oidBytes at whole ⊢
  omega

/-- One copy after the other, the search over the packs keeps the node. -/
theorem foldlM_activeNodeStep (coherent : Coherent more)
    (within : ∀ pack ∈ packs, pack ∈ more) (raw : RawOid)
    {found : Option PlannerNode}
    (earlier : ∀ node, found = some node →
      NodeOf more (bytesToHex raw.bytes) node) :
    ∃ after, packs.foldlM (activeNodeStep (bytesToHex raw.bytes)) found =
        .ok after ∧
      (∀ node, after = some node →
        NodeOf more (bytesToHex raw.bytes) node) ∧
      (after = none ↔ found = none ∧
        ∀ node, ¬ NodeOf packs (bytesToHex raw.bytes) node) := by
  induction packs generalizing found with
  | nil =>
    refine ⟨found, rfl, earlier, ?_⟩
    constructor
    · intro none_
      refine ⟨none_, ?_⟩
      rintro node ⟨pack, member, _⟩
      cases member
    · exact And.left
  | cons pack packs ih =>
    have here := within pack List.mem_cons_self
    have rest : ∀ pack ∈ packs, pack ∈ more := fun other member =>
      within other (List.mem_cons_of_mem _ member)
    rcases findOidIndex_spec (coherent.valid pack here) raw with
      ⟨row, inside, named, index⟩ | ⟨absent, index⟩
    · rcases (coherent.valid pack here).sidecar with ⟨bytes, accepted⟩
      rcases objectType_of_ready accepted inside with ⟨type, typed⟩
      have copy : NodeOf (pack :: packs) (bytesToHex raw.bytes)
          ⟨pack.refs.getPackRefRefsAt row, type⟩ :=
        ⟨pack, List.mem_cons_self, row, inside, by rw [named], rfl, typed⟩
      have copyMore := copy.mono within
      have step : activeNodeStep (bytesToHex raw.bytes) found pack =
          .ok (some ⟨pack.refs.getPackRefRefsAt row, type⟩) := by
        have same : (found.any fun copy => copy.mismatches
            ⟨pack.refs.getPackRefRefsAt row, type⟩) = false := by
          cases found with
          | none => rfl
          | some first =>
            have equal := coherent.alike (earlier first rfl) copyMore
            subst equal
            show (decide _ || decide _) = false
            rw [decide_eq_false (not_not.mpr rfl),
              decide_eq_false (not_not.mpr rfl)]
            rfl
        unfold activeNodeStep
        dsimp only
        rw [index, if_neg (by omega), typed]
        dsimp only
        rw [same]
        rfl
      have kept : ∀ node, some ⟨pack.refs.getPackRefRefsAt row, type⟩ =
          some node → NodeOf more (bytesToHex raw.bytes) node := by
        rintro node ⟨⟩
        exact copyMore
      rcases ih rest kept with ⟨after, folded, nodes, none_⟩
      refine ⟨after, ?_, nodes, ?_⟩
      · rw [List.foldlM_cons, step]
        exact folded
      · rw [none_]
        constructor
        · rintro ⟨impossible, _⟩
          cases impossible
        · rintro ⟨_, missing⟩
          exact absurd copy (missing _)
    · have step : activeNodeStep (bytesToHex raw.bytes) found pack =
          .ok found := by
        unfold activeNodeStep
        dsimp only
        rw [index, if_pos (by decide)]
      rcases ih rest earlier with ⟨after, folded, nodes, none_⟩
      refine ⟨after, ?_, nodes, ?_⟩
      · rw [List.foldlM_cons, step]
        exact folded
      · rw [none_]
        apply and_congr_right
        intro _
        constructor
        · rintro missing node ⟨other, member, row, inside, named, rest⟩
          rcases List.mem_cons.mp member with rfl | member
          · exact absent row inside (bytesToHex_inj named)
          · exact missing node ⟨other, member, row, inside, named, rest⟩
        · intro missing node copy
          exact missing node
            (copy.mono fun _ member => List.mem_cons_of_mem _ member)

/-- The node of an id, or no pack holds it. -/
theorem activeNode_spec (coherent : Coherent more)
    (within : ∀ pack ∈ packs, pack ∈ more) (isOid : IsOid oid) :
    (∃ node, activeNode packs oid = .ok (some node) ∧
        NodeOf more oid node ∧ InSnapshot packs oid) ∨
      activeNode packs oid = .ok none ∧ ¬ InSnapshot packs oid := by
  rcases isOid with ⟨raw, rfl⟩
  have valid : ∀ pack ∈ packs, pack.Valid := fun pack member =>
    coherent.valid pack (within pack member)
  have nothing : ∀ node, (none : Option PlannerNode) = some node →
      NodeOf more (bytesToHex raw.bytes) node := nofun
  rcases foldlM_activeNodeStep coherent within raw nothing with
    ⟨after, folded, nodes, none_⟩
  cases after with
  | none =>
    right
    refine ⟨folded, ?_⟩
    rw [← exists_nodeOf valid]
    rintro ⟨node, copy⟩
    exact (none_.mp rfl).2 node copy
  | some node =>
    left
    refine ⟨node, folded, nodes node rfl, ?_⟩
    rw [← exists_nodeOf valid]
    by_contra missing
    have gone := none_.mpr ⟨rfl, fun node copy => missing ⟨node, copy⟩⟩
    cases gone

theorem activeNode_nodeOf {node : PlannerNode} (coherent : Coherent more)
    (within : ∀ pack ∈ packs, pack ∈ more) (isOid : IsOid oid)
    (found : activeNode packs oid = .ok (some node)) :
    NodeOf more oid node ∧ InSnapshot packs oid := by
  rcases activeNode_spec coherent within isOid with
    ⟨same, looked, nodeOf, held⟩ | ⟨missed, _⟩
  · cases looked.symm.trans found
    exact ⟨nodeOf, held⟩
  · cases missed.symm.trans found

variable {incoming : BoundActivePack}

theorem findOidIndex_iff (valid : incoming.Valid) (isOid : IsOid oid) :
    0 ≤ findOidIndex incoming.idx oid ↔ InSnapshot [incoming] oid := by
  rcases isOid with ⟨raw, rfl⟩
  rcases findOidIndex_spec valid raw with
    ⟨row, inside, named, index⟩ | ⟨absent, index⟩
  · rw [index]
    refine iff_of_true (by omega) ?_
    exact ⟨incoming, List.mem_cons_self, row, inside, by rw [named]⟩
  · rw [index]
    refine iff_of_false (by decide) ?_
    rintro ⟨pack, member, row, inside, named⟩
    cases List.mem_singleton.mp member
    exact absent row inside (bytesToHex_inj named)

theorem incomingNode_spec (valid : incoming.Valid) (isOid : IsOid oid) :
    (∃ node, incomingNode incoming.idx incoming.refs oid =
          .ok (some node) ∧ NodeOf [incoming] oid node) ∨
      incomingNode incoming.idx incoming.refs oid = .ok none ∧
        ¬ InSnapshot [incoming] oid := by
  have held := findOidIndex_iff valid isOid
  rcases isOid with ⟨raw, rfl⟩
  rcases findOidIndex_spec valid raw with
    ⟨row, inside, named, index⟩ | ⟨absent, index⟩
  · left
    rcases valid.sidecar with ⟨bytes, accepted⟩
    rcases objectType_of_ready accepted inside with ⟨type, typed⟩
    refine ⟨⟨incoming.refs.getPackRefRefsAt row, type⟩, ?_, incoming,
      List.mem_cons_self, row, inside, by rw [named], rfl, typed⟩
    unfold incomingNode
    dsimp only
    rw [index, if_neg (by omega), typed]
  · right
    constructor
    · unfold incomingNode
      dsimp only
      rw [index, if_pos (by decide)]
    · rw [← held, index]
      decide

theorem incomingNode_nodeOf {node : PlannerNode} (valid : incoming.Valid)
    (isOid : IsOid oid)
    (found : incomingNode incoming.idx incoming.refs oid = .ok (some node)) :
    NodeOf [incoming] oid node := by
  rcases incomingNode_spec valid isOid with ⟨same, looked, nodeOf⟩ | ⟨missed, _⟩
  · cases looked.symm.trans found
    exact nodeOf
  · cases missed.symm.trans found

end Packs

end GitOnCloudflare.Planner
