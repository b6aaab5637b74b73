import GitOnCloudflare.Fetch.OidText
import GitOnCloudflare.Foundations.MarkedSearch
import GitOnCloudflare.Pack.IdxLookup
import GitOnCloudflare.Pack.RefSidecarRows

/-!
# Located objects

Every id has at most one place in a snapshot: the row that the index search
of the first pack holding it answers.  The references of an object are those
of this first copy.
-/

namespace GitOnCloudflare.Fetch

open Foundations
open Foundations.ByteTable
open Pack

/-- The index of a pack answers lookups from its rows, and its sidecar was
accepted beside the index. -/
structure PackRefSnapshotEntry.Valid (pack : PackRefSnapshotEntry) :
    Prop where
  whole : ∀ row, row < pack.idx.count →
    (pack.idx.nameAt row).length = oidBytes
  finds : ∀ oid : RawOid,
    (∃ row, row < pack.idx.count ∧ pack.idx.nameAt row = oid.bytes ∧
        pack.idx.findOidIndexFromBytes oid.bytes 0 = some (row : Int)) ∨
      (∀ row, row < pack.idx.count → pack.idx.nameAt row ≠ oid.bytes) ∧
        pack.idx.findOidIndexFromBytes oid.bytes 0 = some (-1)
  sidecar : ∃ bytes,
    parsePackRefView pack.packKey bytes pack.idx = .ready pack.refs

/-- An index with sorted names and an exact fanout, of as many rows as its
search can address, is valid beside an accepted sidecar. -/
theorem PackRefSnapshotEntry.valid_of_names {pack : PackRefSnapshotEntry}
    {objectCount : Nat} {names : Fin objectCount → RawOid}
    (sorted : pack.idx.Names names) (few : objectCount ≤ 2 ^ 30) {bytes : Bytes}
    (accepted : parsePackRefView pack.packKey bytes pack.idx = .ready pack.refs) :
    pack.Valid where
  whole := by
    intro row inside
    rw [sorted.count] at inside
    rw [sorted.named ⟨row, inside⟩]
    exact (names _).length_eq
  finds := by
    intro oid
    rcases sorted.findOidIndexFromBytes few oid with
      ⟨row, same, found⟩ | ⟨absent, missed⟩
    · left
      refine ⟨row, ?_, ?_, found⟩
      · rw [sorted.count]
        exact row.isLt
      · rw [sorted.named, same]
    · right
      refine ⟨?_, missed⟩
      intro row inside held
      rw [sorted.count] at inside
      rw [sorted.named ⟨row, inside⟩] at held
      exact absent _ (RawOid.bytes_inj.mp held)
  sidecar := ⟨bytes, accepted⟩

/-! ## First copies -/

/-- The pack in a slot is the first one that holds an id, in the row that its
index search answers. -/
structure FirstCopy (packs : List PackRefSnapshotEntry) (oid : RawOid)
    (entry : Nat × Nat) (pack : PackRefSnapshotEntry) : Prop where
  placed : packs[entry.1]? = some pack
  earlier : ∀ slot other, slot < entry.1 → packs[slot]? = some other →
    ∀ row, row < other.idx.count → other.idx.nameAt row ≠ oid.bytes
  inside : entry.2 < pack.idx.count
  named : pack.idx.nameAt entry.2 = oid.bytes
  found : pack.idx.findOidIndexFromBytes oid.bytes 0 =
    some (entry.2 : Int)

/-- Some row of the snapshot holds the id. -/
def InSnapshot (packs : List PackRefSnapshotEntry) (oid : String) : Prop :=
  ∃ pack ∈ packs, ∃ row, row < pack.idx.count ∧
    bytesToHex (pack.idx.nameAt row) = oid

/-- The references of the first copy of an object. -/
def References (packs : List PackRefSnapshotEntry)
    (source target : String) : Prop :=
  ∃ oid entry pack, bytesToHex oid.bytes = source ∧
    FirstCopy packs oid entry pack ∧
    target ∈ pack.refs.getPackRefRefsAt entry.2

section Snapshot

variable {packs : List PackRefSnapshotEntry} {oid : RawOid}
  {entry other : Nat × Nat} {pack next : PackRefSnapshotEntry}

theorem FirstCopy.unique (first : FirstCopy packs oid entry pack)
    (second : FirstCopy packs oid other next) :
    entry = other ∧ pack = next := by
  have slots : entry.1 = other.1 := by
    rcases Nat.lt_trichotomy entry.1 other.1 with less | same | more
    · exact absurd first.named
        (second.earlier _ _ less first.placed _ first.inside)
    · exact same
    · exact absurd second.named
        (first.earlier _ _ more second.placed _ second.inside)
  have packs_same : pack = next := by
    have placed := first.placed
    rw [slots, second.placed] at placed
    exact (Option.some.inj placed).symm
  subst packs_same
  have rows := Option.some.inj (first.found.symm.trans second.found)
  exact ⟨Prod.ext slots (Int.ofNat.inj rows), rfl⟩

theorem FirstCopy.nameOf (first : FirstCopy packs oid entry pack) :
    nameOf packs entry = bytesToHex oid.bytes := by
  unfold Fetch.nameOf
  rw [first.placed]
  exact congrArg bytesToHex first.named

theorem FirstCopy.inSnapshot (first : FirstCopy packs oid entry pack) :
    InSnapshot packs (bytesToHex oid.bytes) :=
  ⟨pack, List.mem_of_getElem? first.placed, entry.2, first.inside,
    congrArg bytesToHex first.named⟩

variable {target : String} {row slot : Nat}

/-- An object has the references of its first copy. -/
theorem FirstCopy.references (first : FirstCopy packs oid entry pack) :
    References packs (bytesToHex oid.bytes) target ↔
      target ∈ pack.refs.getPackRefRefsAt entry.2 := by
  constructor
  · rintro ⟨same, place, copy, text, second, member⟩
    have ids : same = oid := RawOid.bytes_inj.mp (bytesToHex_inj text)
    subst ids
    rcases second.unique first with ⟨rfl, rfl⟩
    exact member
  · intro member
    exact ⟨oid, entry, pack, rfl, first, member⟩

theorem References.inSnapshot {source : String}
    (refers : References packs source target) : InSnapshot packs source := by
  rcases refers with ⟨oid, entry, pack, rfl, first, _⟩
  exact first.inSnapshot

/-! ## The search over the packs -/

variable {raw : Bytes} {start : Nat}

theorem locateFrom_hit (closureIndex : ClosureIndex) (slot : Nat)
    (found : pack.idx.findOidIndexFromBytes raw (start : Int) =
      some (row : Int)) :
    locateFrom closureIndex raw start slot (pack :: packs) =
      some
        ⟨slot, row, closureIndex.packBaseOrdinals.getD slot 0 + row⟩ := by
  have here : locateInPack closureIndex raw start slot pack =
      some
        ⟨slot, row, closureIndex.packBaseOrdinals.getD slot 0 + row⟩ := by
    unfold locateInPack
    rw [found, Option.bind_some, if_neg (by omega), Int.toNat_natCast]
  unfold locateFrom
  rw [List.zipIdx_cons, List.findSome?_cons, here]

theorem locateFrom_miss (closureIndex : ClosureIndex) (slot : Nat)
    (missed : pack.idx.findOidIndexFromBytes raw (start : Int) = some (-1)) :
    locateFrom closureIndex raw start slot (pack :: packs) =
      locateFrom closureIndex raw start (slot + 1) packs := by
  have here : locateInPack closureIndex raw start slot pack = none := by
    unfold locateInPack
    rw [missed, Option.bind_some, if_pos (by decide)]
  unfold locateFrom
  rw [List.zipIdx_cons, List.findSome?_cons, here]

theorem locateFrom_spec (closureIndex : ClosureIndex) (oid : RawOid)
    (front back : List PackRefSnapshotEntry) (valid : ∀ pack ∈ back, pack.Valid)
    (absent : ∀ (slot : Nat) (other : PackRefSnapshotEntry),
      slot < front.length → (front ++ back)[slot]? = some other →
      ∀ row, row < other.idx.count → other.idx.nameAt row ≠ oid.bytes) :
    (∃ entry pack, FirstCopy (front ++ back) oid entry pack ∧
        locateFrom closureIndex oid.bytes 0 front.length back =
          some
            ⟨entry.1, entry.2,
              closureIndex.packBaseOrdinals.getD entry.1 0 + entry.2⟩) ∨
      locateFrom closureIndex oid.bytes 0 front.length back = none ∧
        ∀ (slot : Nat) (other : PackRefSnapshotEntry),
          (front ++ back)[slot]? = some other →
          ∀ row, row < other.idx.count →
            other.idx.nameAt row ≠ oid.bytes := by
  induction back generalizing front with
  | nil =>
    right
    refine ⟨rfl, ?_⟩
    intro slot other placed
    refine absent slot other ?_ placed
    rw [List.append_nil] at placed
    exact (List.getElem?_eq_some_iff.mp placed).1
  | cons pack back ih =>
    have here : (front ++ pack :: back)[front.length]? = some pack := by
      rw [List.getElem?_append_right (le_refl _), Nat.sub_self]
      rfl
    rcases (valid pack List.mem_cons_self).finds oid with
      ⟨row, inside, named, found⟩ | ⟨missing, missed⟩
    · left
      exact ⟨(front.length, row), pack,
        ⟨here, absent, inside, named, found⟩,
        locateFrom_hit closureIndex front.length found⟩
    · have more : front ++ pack :: back = (front ++ [pack]) ++ back := by
        rw [List.append_assoc]
        rfl
      have onward :
          locateFrom closureIndex oid.bytes 0 front.length (pack :: back) =
            locateFrom closureIndex oid.bytes 0 (front ++ [pack]).length
              back := by
        rw [List.length_append, List.length_singleton]
        exact locateFrom_miss closureIndex front.length missed
      rw [onward, more]
      apply ih (front ++ [pack])
      · intro other member
        exact valid other (List.mem_cons_of_mem _ member)
      · intro slot other before placed
        rw [List.length_append, List.length_singleton] at before
        rw [← more] at placed
        rcases Nat.lt_succ_iff_lt_or_eq.mp before with earlier | rfl
        · exact absent slot other earlier placed
        · cases here.symm.trans placed
          exact missing

/-- An id is located at its first copy, and only ids of no row are not. -/
theorem locate_spec (valid : ∀ pack ∈ packs, pack.Valid) (oid : RawOid) :
    (∃ entry pack, FirstCopy packs oid entry pack ∧
        locate packs oid.bytes 0 =
          some ⟨entry.1, entry.2, ordinalOf packs entry⟩) ∨
      locate packs oid.bytes 0 = none ∧
        ¬ InSnapshot packs (bytesToHex oid.bytes) := by
  rcases locateFrom_spec (buildClosureIndex packs) oid [] packs valid
      (by simp) with found | ⟨missed, absent⟩
  · exact .inl found
  · right
    refine ⟨missed, ?_⟩
    rintro ⟨pack, member, row, inside, same⟩
    rcases List.getElem?_of_mem member with ⟨slot, placed⟩
    exact absent slot pack placed row inside (bytesToHex_inj same)

theorem findOidIndexFromBytes_slice (view : IdxView)
    (inside : start + oidBytes ≤ raw.length) :
    view.findOidIndexFromBytes raw start =
      view.findOidIndexFromBytes (slice raw start oidBytes)
        ((0 : Nat) : Int) := by
  have length : (slice raw start oidBytes).length = oidBytes := by
    unfold slice
    rw [List.length_take, List.length_drop]
    omega
  have first : raw.getD start 0 = (slice raw start oidBytes).getD 0 0 := by
    unfold slice
    rw [List.getD_eq_getElem?_getD, List.getD_eq_getElem?_getD,
      List.getElem?_take_of_lt (by decide), List.getElem?_drop,
      Nat.add_zero]
  have again : slice (slice raw start oidBytes) 0 20 = slice raw start 20 :=
    slice_slice raw (le_refl _)
  have whole : ¬ ((start : Int) < 0 ∨ (raw.length : Int) < start + 20) := by
    unfold oidBytes at inside
    omega
  have wholeSlice : ¬ (((0 : Nat) : Int) < 0 ∨
      ((slice raw start oidBytes).length : Int) < ((0 : Nat) : Int) + 20) := by
    rw [length]
    decide
  unfold IdxView.findOidIndexFromBytes
  rw [if_neg whole, if_neg wholeSlice, Int.toNat_natCast, Int.toNat_natCast]
  unfold IdxView.compareOidAt
  simp only [first, again]

theorem locateFrom_slice (closureIndex : ClosureIndex)
    (inside : start + oidBytes ≤ raw.length) (slot : Nat)
    (packs : List PackRefSnapshotEntry) :
    locateFrom closureIndex raw start slot packs =
      locateFrom closureIndex (slice raw start oidBytes) 0 slot packs := by
  unfold locateFrom locateInPack
  simp only [findOidIndexFromBytes_slice _ inside]

/-! ## References as bytes -/

/-- The places of the references of a row hold whole ids. -/
theorem PackRefSnapshotEntry.Valid.visited (valid : pack.Valid)
    (inside : row < pack.idx.count) {oidStart : Nat}
    (member : oidStart ∈ pack.refs.visitPackRefRawRefsAt row) :
    oidStart + oidBytes ≤ pack.refs.rawRefs.length := by
  rcases valid.sidecar with ⟨bytes, accepted⟩
  rcases wellFormed_of_ready accepted with ⟨count, formed⟩
  exact formed.visited_inside (by rw [count]; exact inside) member

theorem getPackRefRefsAt_eq (view : PackRefView) (row : Int) :
    view.getPackRefRefsAt row =
      (view.visitPackRefRawRefsAt row).map fun oidStart =>
        bytesToHex (slice view.rawRefs oidStart oidBytes) := by
  unfold PackRefView.getPackRefRefsAt
  split
  · next outside =>
    unfold PackRefView.visitPackRefRawRefsAt
    rw [if_pos outside]
    rfl
  · rfl

/-! ## Ordinals -/

/-- The rows of the packs before a slot. -/
def rowsBefore (packs : List PackRefSnapshotEntry) (slot : Nat) : Nat :=
  ((packs.take slot).map fun pack => pack.idx.count).sum

theorem getD_packBaseOrdinalsFrom (objectCount : Nat)
    (inside : slot ≤ packs.length) :
    (packBaseOrdinalsFrom objectCount packs).getD slot 0 =
      objectCount + rowsBefore packs slot := by
  induction packs generalizing objectCount slot with
  | nil =>
    rw [List.length_nil, Nat.le_zero] at inside
    subst inside
    rfl
  | cons pack packs ih =>
    cases slot with
    | zero => rfl
    | succ slot =>
      unfold packBaseOrdinalsFrom
      rw [List.getD_cons_succ, ih _ (Nat.le_of_succ_le_succ inside)]
      unfold rowsBefore
      rw [List.take_succ_cons, List.map_cons, List.sum_cons, Nat.add_assoc]

theorem rowsBefore_mono {first second : Nat} (before : first ≤ second) :
    rowsBefore packs first ≤ rowsBefore packs second := by
  unfold rowsBefore
  rw [← List.take_append_drop first (packs.take second), List.take_take,
    Nat.min_eq_left before, List.map_append, List.sum_append]
  exact Nat.le_add_right _ _

theorem rowsBefore_succ (placed : packs[slot]? = some pack) :
    rowsBefore packs (slot + 1) = rowsBefore packs slot + pack.idx.count := by
  unfold rowsBefore
  rw [List.take_add_one, placed, List.map_append, List.sum_append]
  rfl

theorem FirstCopy.ordinal (first : FirstCopy packs oid entry pack) :
    ordinalOf packs entry = rowsBefore packs entry.1 + entry.2 := by
  have inside := (List.getElem?_eq_some_iff.mp first.placed).1
  unfold ordinalOf buildClosureIndex
  rw [getD_packBaseOrdinalsFrom 0 inside.le, Nat.zero_add]

theorem FirstCopy.ordinal_lt (first : FirstCopy packs oid entry pack) :
    ordinalOf packs entry < (buildClosureIndex packs).objectCount := by
  have inside := (List.getElem?_eq_some_iff.mp first.placed).1
  have next := rowsBefore_succ first.placed
  have all := @rowsBefore_mono packs (entry.1 + 1) packs.length inside
  have total : rowsBefore packs packs.length =
      (buildClosureIndex packs).objectCount := by
    unfold rowsBefore
    rw [List.take_length]
    rfl
  have row := first.inside
  rw [first.ordinal]
  omega

/-- Two places with one ordinal are the same. -/
theorem FirstCopy.ordinal_inj {second : RawOid}
    (here : FirstCopy packs oid entry pack)
    (there : FirstCopy packs second other next)
    (same : ordinalOf packs entry = ordinalOf packs other) : entry = other := by
  rw [here.ordinal, there.ordinal] at same
  have hereNext := rowsBefore_succ here.placed
  have thereNext := rowsBefore_succ there.placed
  have hereRow := here.inside
  have thereRow := there.inside
  have slots : entry.1 = other.1 := by
    rcases Nat.lt_trichotomy entry.1 other.1 with less | equal | more
    · have below := @rowsBefore_mono packs _ _ (Nat.succ_le_of_lt less)
      rw [Nat.succ_eq_add_one] at below
      omega
    · exact equal
    · have below := @rowsBefore_mono packs _ _ (Nat.succ_le_of_lt more)
      rw [Nat.succ_eq_add_one] at below
      omega
  refine Prod.ext slots ?_
  rw [slots] at same
  exact Nat.add_left_cancel same

end Snapshot

end GitOnCloudflare.Fetch
