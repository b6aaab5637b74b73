import GitOnCloudflare.Fetch.ClosureLoops

/-!
# The selection is exact

When the selection ends within its budgets, the needed ids are those that the
wants reach and the common haves do not.
-/

namespace GitOnCloudflare.Fetch

open Foundations
open Foundations.ByteTable
open Foundations.MarkedSearch
open Pack
open Repo (isValidOid haveCap)

variable {packs : List PackRefSnapshotEntry}
  {text : String} {walk : RefWalk}

theorem InSnapshot.isValidOid (valid : ∀ pack ∈ packs, pack.Valid)
    (held : InSnapshot packs text) : isValidOid text = true := by
  rcases held with ⟨pack, member, row, inside, rfl⟩
  exact isValidOid_bytesToHex ((valid pack member).whole row inside)

/-! ## Common haves -/

open Classical in
/-- A text is a valid id of the snapshot. -/
noncomputable def isCommon (packs : List PackRefSnapshotEntry)
    (oid : String) : Bool :=
  isValidOid oid && decide (InSnapshot packs oid)

open Classical in
theorem isCommon_iff {oid : String} :
    isCommon packs oid = true ↔
      isValidOid oid = true ∧ InSnapshot packs oid := by
  unfold isCommon
  rw [Bool.and_eq_true, decide_eq_true_eq]

/-- The valid ids of the snapshot, each at its first occurrence. -/
noncomputable def commonHaves (packs : List PackRefSnapshotEntry)
    (texts : List String) : List String :=
  (texts.filter (isCommon packs)).eraseDups

variable {texts : List String}

theorem commonHaves_append_new (fresh : text ∉ commonHaves packs texts)
    (common : isCommon packs text = true) :
    commonHaves packs (texts ++ [text]) =
      commonHaves packs texts ++ [text] := by
  unfold commonHaves at fresh ⊢
  rw [List.mem_eraseDups] at fresh
  rw [List.filter_append, List.eraseDups_append,
    List.filter_cons_of_pos common, List.filter_nil]
  generalize texts.filter (isCommon packs) = kept at fresh ⊢
  simp [List.removeAll, fresh, List.eraseDups_cons]

theorem commonHaves_append_old
    (old : text ∈ commonHaves packs texts ∨ ¬ isCommon packs text = true) :
    commonHaves packs (texts ++ [text]) = commonHaves packs texts := by
  unfold commonHaves at old ⊢
  rw [List.mem_eraseDups] at old
  rw [List.filter_append, List.eraseDups_append]
  by_cases common : isCommon packs text = true
  · have known := old.resolve_right (not_not.mpr common)
    rw [List.filter_cons_of_pos common, List.filter_nil]
    generalize texts.filter (isCommon packs) = kept at known ⊢
    simp [List.removeAll, known]
  · rw [List.filter_cons_of_neg common, List.filter_nil]
    simp [List.removeAll]

namespace HaveScan

/-- What was found among the texts scanned so far. -/
structure Scanned (packs : List PackRefSnapshotEntry) (texts : List String)
    (scan : HaveScan) : Prop where
  found : scan.found.map CommonHave.oid = commonHaves packs texts
  located : ∀ common ∈ scan.found, ∃ entry,
    Placed packs entry common.oid ∧
      common.located = ⟨entry.1, entry.2, ordinalOf packs entry⟩
  flags : ∀ entry text, Placed packs entry text →
    (scan.seenFlags (ordinalOf packs entry) = true ↔
      text ∈ scan.found.map CommonHave.oid)

variable {texts : List String} {scan : HaveScan}

theorem Scanned.next (valid : ∀ pack ∈ packs, pack.Valid)
    (scanned : Scanned packs texts scan) (haveText : String) :
    Scanned packs (texts ++ [Text.toLowerCase haveText])
      (scan.next packs haveText) := by
  have skip :
      (Text.toLowerCase haveText ∈ commonHaves packs texts ∨
        ¬ isCommon packs (Text.toLowerCase haveText) = true) →
      Scanned packs (texts ++ [Text.toLowerCase haveText]) scan := by
    intro old
    refine ⟨?_, scanned.located, scanned.flags⟩
    rw [commonHaves_append_old old]
    exact scanned.found
  unfold HaveScan.next
  dsimp only
  by_cases checked : isValidOid (Text.toLowerCase haveText) = true
  · rw [checked, if_neg (by decide)]
    rcases exists_oid_of_isValidOid checked with ⟨oid, text, bytes⟩
    rcases locate_text valid oid with ⟨entry, placed, found⟩ | ⟨missed, absent⟩
    · rw [bytes, found]
      rw [text] at placed
      dsimp only
      by_cases flagged : scan.seenFlags (ordinalOf packs entry) = true
      · rw [if_pos flagged]
        apply skip
        left
        rw [← scanned.found]
        exact (scanned.flags entry _ placed).mp flagged
      · rw [if_neg flagged]
        have fresh : Text.toLowerCase haveText ∉
            scan.found.map CommonHave.oid := fun member =>
          flagged ((scanned.flags entry _ placed).mpr member)
        refine ⟨?_, ?_, ?_⟩
        · rw [commonHaves_append_new (by rw [← scanned.found]; exact fresh)
            (isCommon_iff.mpr ⟨checked, placed.inSnapshot⟩),
            List.map_append, scanned.found]
          rfl
        · intro common member
          rcases List.mem_append.mp member with old | new
          · exact scanned.located common old
          · cases List.mem_singleton.mp new
            exact ⟨entry, placed, rfl⟩
        · intro other second there
          rw [List.map_append, List.mem_append]
          show Function.update scan.seenFlags (ordinalOf packs entry) true
            (ordinalOf packs other) = true ↔ _ ∨ second ∈ [_]
          rw [List.mem_singleton]
          by_cases same : ordinalOf packs other = ordinalOf packs entry
          · rw [same, Function.update_self]
            cases there.ordinal_inj placed same
            exact iff_of_true rfl (.inr (there.text_unique placed))
          · rw [Function.update_of_ne same,
              scanned.flags other second there]
            constructor
            · exact .inl
            · rintro (old | new)
              · exact old
              · subst new
                rw [there.entry_unique placed] at same
                exact absurd rfl same
    · rw [bytes, missed]
      apply skip
      right
      rw [isCommon_iff, ← text]
      exact fun held => absent held.2
  · rw [Bool.eq_false_of_not_eq_true checked, if_pos (by decide)]
    apply skip
    right
    rw [isCommon_iff]
    exact fun held => checked held.1

theorem scanned_foldl (valid : ∀ pack ∈ packs, pack.Valid)
    (haves : List String) (scanned : Scanned packs texts scan) :
    Scanned packs (texts ++ haves.map Text.toLowerCase)
      (haves.foldl (HaveScan.next packs) scan) := by
  induction haves generalizing texts scan with
  | nil =>
    rw [List.map_nil, List.append_nil]
    exact scanned
  | cons haveText haves ih =>
    have more := ih (scanned.next valid haveText)
    rw [List.append_assoc] at more
    exact more

end HaveScan

/-- The haves that count: the valid ones among the first that are in the
snapshot. -/
noncomputable def countedHaves (packs : List PackRefSnapshotEntry)
    (haves : List String) : List String :=
  commonHaves packs ((haves.take haveCap).map Text.toLowerCase)

theorem findCommonHavesInSnapshot_spec (valid : ∀ pack ∈ packs, pack.Valid)
    (haves : List String) :
    (findCommonHavesInSnapshot packs haves).map CommonHave.oid =
        countedHaves packs haves ∧
      ∀ common ∈ findCommonHavesInSnapshot packs haves, ∃ entry,
        Placed packs entry common.oid ∧
          common.located = ⟨entry.1, entry.2, ordinalOf packs entry⟩ := by
  have empty : HaveScan.Scanned packs [] ⟨fun _ => false, []⟩ := by
    refine ⟨rfl, ?_, ?_⟩
    · intro common member
      cases member
    · intro entry text placed
      exact iff_of_false Bool.false_ne_true List.not_mem_nil
  have scanned := HaveScan.scanned_foldl valid (haves.take haveCap) empty
  rw [List.nil_append] at scanned
  exact ⟨scanned.found, scanned.located⟩

/-! ## The starts of the walks -/

namespace RefWalk

theorem start_sound {missing : List String}
    (absent : ∀ text ∈ missing, ¬ InSnapshot packs text)
    (distinct : missing.Nodup) : (start missing).Sound packs where
  placed := by
    intro entry member
    cases member
  nodup := List.nodup_nil
  flags := by
    intro entry text placed
    exact iff_of_false Bool.false_ne_true List.not_mem_nil
  missing := absent
  missingNodup := distinct

theorem enqueueHaves_grows {common : List CommonHave} (sound : walk.Sound packs)
    (located : ∀ one ∈ common, ∃ entry, Placed packs entry one.oid ∧
      one.located = ⟨entry.1, entry.2, ordinalOf packs entry⟩) :
    Grows packs (· ∈ common.map CommonHave.oid) walk
      (common.foldl
        (fun walk one => walk.enqueueLocatedObject one.located) walk) := by
  induction common generalizing walk with
  | nil => exact Grows.refl sound fun _ => List.not_mem_nil
  | cons one common ih =>
    rcases located one List.mem_cons_self with ⟨entry, placed, same⟩
    have here := enqueueLocatedObject_grows sound placed
    rw [← same] at here
    have rest := ih here.sound fun other member =>
      located other (List.mem_cons_of_mem _ member)
    rw [List.foldl_cons]
    apply (here.trans rest).congr
    intro text
    rw [List.map_cons, List.mem_cons]

/-- Queueing leaves the budget alone. -/
theorem enqueueHaves_unspent (common : List CommonHave) (walk : RefWalk) :
    (common.foldl
      (fun walk one => walk.enqueueLocatedObject one.located)
      walk).budgetExceeded = walk.budgetExceeded := by
  induction common generalizing walk with
  | nil => rfl
  | cons one common ih =>
    rw [List.foldl_cons, ih]
    unfold enqueueLocatedObject
    split
    · rfl
    · rfl

theorem queueWant_grows (valid : ∀ pack ∈ packs, pack.Valid)
    (sound : walk.Sound packs) (want : String) :
    Grows packs (· = Text.toLowerCase want) walk
      (walk.queueWant packs want) := by
  unfold queueWant
  dsimp only
  by_cases exceeded : walk.budgetExceeded = true
  · rw [if_pos exceeded]
    refine ⟨sound, List.prefix_refl _, rfl,
      ⟨[], (List.append_nil _).symm, (List.append_nil _).symm⟩,
      fun _ met => .inl met, ?_⟩
    intro open_
    exact absurd (exceeded.symm.trans open_) (by decide)
  · rw [if_neg exceeded]
    by_cases checked : isValidOid (Text.toLowerCase want) = true
    · rw [checked, if_neg (by decide)]
      rcases exists_oid_of_isValidOid checked with ⟨oid, text, bytes⟩
      rcases locate_text valid oid with
        ⟨entry, placed, found⟩ | ⟨missed, absent⟩
      · rw [bytes, found]
        rw [text] at placed
        exact enqueueLocatedObject_grows sound placed
      · rw [bytes, missed]
        rw [text] at absent
        exact recordMissingOid_grows sound absent fun _ => rfl
    · rw [Bool.eq_false_of_not_eq_true checked, if_pos (by decide)]
      refine recordMissingOid_grows sound ?_ fun _ => rfl
      intro held
      exact checked (held.isValidOid valid)

theorem queueWants_grows (valid : ∀ pack ∈ packs, pack.Valid)
    (sound : walk.Sound packs) (wants : List String) :
    Grows packs (· ∈ wants.map Text.toLowerCase) walk
      (wants.foldl (queueWant packs) walk) := by
  induction wants generalizing walk with
  | nil => exact Grows.refl sound fun _ => List.not_mem_nil
  | cons want wants ih =>
    have here := queueWant_grows valid sound want
    rw [List.foldl_cons]
    apply (here.trans (ih here.sound)).congr
    intro text
    rw [List.map_cons, List.mem_cons]

end RefWalk

/-! ## Exactness -/

/-- The needed ids are those reached from the wants and not from the common
haves, which are acknowledged in their order. -/
structure ClosureExact (packs : List PackRefSnapshotEntry)
    (wants haves neededOids ackOids : List String) : Prop where
  nodup : neededOids.Nodup
  members : ∀ oid, oid ∈ neededOids ↔
    Reach (References packs) (· ∈ wants.map Text.toLowerCase) oid ∧
      ¬ Reach (References packs) (· ∈ countedHaves packs haves) oid
  closed : ∀ oid ∈ neededOids, ∀ target, References packs oid target →
    target ∈ neededOids ∨
      Reach (References packs) (· ∈ countedHaves packs haves) target
  acks : ackOids = countedHaves packs haves

section Ends

variable {starts stop : String → Prop} {stopFlags : Nat → Bool}
  {missingStop : List String} {walk : ClosureWalk}

/-- The result of a finished walk. -/
theorem ClosureWalk.WantLoop.mem_neededOids
    (loop : ClosureWalk.WantLoop packs starts stop stopFlags missingStop walk)
    (ended : walk.refs.queue.entries[walk.refs.queue.cursor]? = none)
    (stops : ∀ entry text, Placed packs entry text →
      (stopFlags (ordinalOf packs entry) = true ↔ stop text))
    (stopClosed : ∀ source target, stop source →
      References packs source target → stop target)
    (missingStops : ∀ text, ¬ InSnapshot packs text →
      (stop text ↔ text ∈ missingStop))
    (outside : ∀ text ∈ missingStop, ¬ InSnapshot packs text) (text : String) :
    text ∈ buildNeededOids packs walk ↔
      Reach (References packs) starts text ∧ ¬ stop text := by
  have all := RefWalk.taken_of_end ended
  have selected : ∀ entry, entry ∈ walk.needed ↔
      entry ∈ walk.refs.queue.entries ∧
        ¬ stopFlags (ordinalOf packs entry) = true := by
    intro entry
    rw [loop.needed, all, List.mem_filter, Bool.not_eq_true',
      Bool.not_eq_true]
  unfold buildNeededOids
  rw [List.mem_append, List.mem_map]
  constructor
  · rintro (⟨entry, member, same⟩ | member)
    · rcases (selected entry).mp member with ⟨queued, free⟩
      rcases loop.sound.placed entry queued with ⟨named, placed⟩
      cases placed.nameOf.symm.trans same
      refine ⟨?_, fun stopped => free ((stops entry _ placed).mpr stopped)⟩
      rcases loop.reached _ (.inl ⟨entry, queued, placed⟩) with
        reached | stopped
      · exact reached
      · exact absurd placed.inSnapshot (outside _ stopped)
    · have seen : text ∈ walk.refs.missingSeen := by
        rw [loop.missing]
        exact List.mem_append_right _ member
      have absent := loop.sound.missing text seen
      have distinct := loop.sound.missingNodup
      rw [loop.missing] at distinct
      have other : text ∉ missingStop := fun stopped =>
        (List.nodup_append.mp distinct).2.2 text stopped text member rfl
      refine ⟨?_, fun stopped => other ((missingStops text absent).mp stopped)⟩
      exact (loop.reached text (.inr seen)).resolve_right other
  · rintro ⟨reached, free⟩
    have met : stop text ∨ walk.refs.Met packs text := by
      apply reached.outside stopClosed
      · exact fun start given => .inr (loop.first start given)
      · rintro source target (⟨entry, member, placed⟩ | missing) open_ refers
        · rw [← all] at member
          exact .inr (loop.followed entry member source placed open_ target
            refers)
        · exact absurd refers.inSnapshot (loop.sound.missing source missing)
    rcases met.resolve_left free with ⟨entry, member, placed⟩ | missing
    · left
      refine ⟨entry, (selected entry).mpr ⟨member, ?_⟩, placed.nameOf⟩
      intro flag
      exact free ((stops entry text placed).mp flag)
    · right
      have absent := loop.sound.missing text missing
      rw [loop.missing] at missing
      rcases List.mem_append.mp missing with stopped | needed
      · exact absurd ((missingStops text absent).mpr stopped) free
      · exact needed

theorem ClosureWalk.WantLoop.nodup_neededOids
    (loop : ClosureWalk.WantLoop packs starts stop stopFlags missingStop walk) :
    (buildNeededOids packs walk).Nodup := by
  have placed : ∀ entry ∈ walk.needed, ∃ text, Placed packs entry text := by
    intro entry member
    rw [loop.needed] at member
    exact loop.sound.placed entry
      (List.mem_of_mem_take (List.mem_filter.mp member).1)
  have distinct : walk.needed.Nodup := by
    rw [loop.needed]
    exact (loop.sound.nodup.sublist (List.take_sublist _ _)).filter _
  have missing := loop.sound.missingNodup
  rw [loop.missing] at missing
  unfold buildNeededOids
  apply List.Nodup.append
  · apply distinct.map_on
    intro entry member other among same
    rcases placed entry member with ⟨text, here⟩
    rcases placed other among with ⟨second, there⟩
    rw [here.nameOf, there.nameOf] at same
    subst same
    exact here.entry_unique there
  · exact (List.nodup_append.mp missing).2.1
  · intro text named absent
    rcases List.mem_map.mp named with ⟨entry, member, rfl⟩
    rcases placed entry member with ⟨text, here⟩
    rw [here.nameOf] at absent
    refine loop.sound.missing text ?_ here.inSnapshot
    rw [loop.missing]
    exact List.mem_append_right _ absent

end Ends

theorem haveLoop_start {starts : String → Prop}
    (grown : RefWalk.Grows packs starts (RefWalk.start []) walk)
    (unspent : walk.budgetExceeded = false) :
    RefWalk.HaveLoop packs starts walk where
  sound := grown.sound
  first := (grown.meets unspent).2
  reached := by
    intro text met
    rcases grown.back text met with (⟨entry, member, _⟩ | member) | given
    · cases member
    · cases member
    · exact Reach.start given
  followed := by
    intro entry member
    unfold RefWalk.taken at member
    rw [grown.cursor] at member
    cases member
  within := by
    rw [grown.cursor]
    exact Nat.zero_le _
  unspent := unspent
  same := by
    rcases grown.missing with ⟨more, seen, needed⟩
    rw [seen, needed]
    rfl

theorem wantLoop_start {starts stop : String → Prop}
    {stopFlags : Nat → Bool} {missingStop : List String} {walk : RefWalk}
    (grown : RefWalk.Grows packs starts (RefWalk.start missingStop) walk)
    (unspent : walk.budgetExceeded = false) :
    ClosureWalk.WantLoop packs starts stop stopFlags missingStop
      (ClosureWalk.start walk) := by
  have untaken : walk.taken = [] := by
    unfold RefWalk.taken
    rw [grown.cursor]
    rfl
  refine
    { sound := grown.sound
      first := (grown.meets unspent).2
      reached := ?_
      followed := ?_
      within := ?_
      unspent := unspent
      missing := ?_
      seen := ?_
      flagged := ?_
      needed := ?_ }
  · intro text met
    rcases grown.back text met with (⟨entry, member, _⟩ | member) | given
    · cases member
    · exact .inr member
    · exact .inl (Reach.start given)
  · intro entry member
    change entry ∈ walk.taken at member
    rw [untaken] at member
    cases member
  · show walk.queue.cursor ≤ _
    rw [grown.cursor]
    exact Nat.zero_le _
  · rcases grown.missing with ⟨more, seen, needed⟩
    show walk.missingSeen = missingStop ++ walk.missingNeeded
    rw [seen, needed]
    rfl
  · intro entry text placed
    show _ ↔ entry ∈ walk.taken
    rw [untaken]
    exact iff_of_false Bool.false_ne_true List.not_mem_nil
  · intro entry text placed
    exact iff_of_false Bool.false_ne_true List.not_mem_nil
  · show [] = walk.taken.filter _
    rw [untaken]
    rfl

/-- Over valid packs the walks end, and a selection that is ready is
exact. -/
theorem computeNeededFromPackRefs_exact (valid : ∀ pack ∈ packs, pack.Valid)
    (lateHaves lateWants : Nat → Bool) (wants haves : List String) :
    ∃ result,
      computeNeededFromPackRefs packs lateHaves lateWants wants haves =
          some result ∧
        ∀ neededOids ackOids stats,
          result = .ready neededOids ackOids stats →
            ClosureExact packs wants haves neededOids ackOids := by
  rcases findCommonHavesInSnapshot_spec valid haves with ⟨acks, located⟩
  have haveGrown := RefWalk.enqueueHaves_grows
    (RefWalk.start_sound (fun _ member => absurd member List.not_mem_nil)
      List.nodup_nil)
    located
  rw [acks] at haveGrown
  have haveUnspent := RefWalk.enqueueHaves_unspent
    (findCommonHavesInSnapshot packs haves) (RefWalk.start [])
  have haveLoop := haveLoop_start haveGrown haveUnspent
  rcases haveLoop.run valid lateHaves (walkRounds packs)
      (Nat.lt_of_lt_of_le (Nat.lt_succ_self _) (Nat.le_add_right _ _)) with
    ⟨outcome, walked, haveEnd⟩
  unfold computeNeededFromPackRefs
  dsimp only
  rw [walked, acks]
  cases outcome with
  | error stopped =>
    refine ⟨_, rfl, ?_⟩
    rintro _ _ _ ⟨⟩
  | ok had =>
    rcases haveEnd had rfl with ⟨haveLoop, haveEnded⟩
    have reach := haveLoop.met_iff haveEnded
    have wantGrown := RefWalk.queueWants_grows valid
      (RefWalk.start_sound haveLoop.sound.missing haveLoop.sound.missingNodup)
      wants
    dsimp only
    split
    · refine ⟨_, rfl, ?_⟩
      rintro _ _ _ ⟨⟩
    · next open_ =>
      have wantLoop := @wantLoop_start _ _
        (Reach (References packs) (· ∈ countedHaves packs haves))
        had.queuedFlags _ _ wantGrown (Bool.eq_false_of_not_eq_true open_)
      have stops : ∀ entry text, Placed packs entry text →
          (had.queuedFlags (ordinalOf packs entry) = true ↔
            Reach (References packs) (· ∈ countedHaves packs haves) text) := by
        intro entry text placed
        rw [haveLoop.sound.flags entry text placed, ← reach]
        constructor
        · exact fun member => .inl ⟨entry, member, placed⟩
        · rintro (⟨other, member, there⟩ | missing)
          · rw [placed.entry_unique there]
            exact member
          · exact absurd placed.inSnapshot
              (haveLoop.sound.missing text missing)
      have outside := haveLoop.sound.missing
      rcases wantLoop.run valid lateWants (walkRounds packs) stops
          outside
          (Nat.lt_of_lt_of_le (Nat.lt_succ_self _) (Nat.le_add_right _ _))
        with ⟨outcome, selected, wantEnd⟩
      rw [haveLoop.same, selected]
      cases outcome with
      | error stopped =>
        refine ⟨_, rfl, ?_⟩
        rintro _ _ _ ⟨⟩
      | ok ended =>
        rcases wantEnd ended rfl with ⟨loop, finished⟩
        refine ⟨_, rfl, ?_⟩
        rintro _ _ _ ⟨⟩
        have members := loop.mem_neededOids finished stops
          (fun _ _ stopped refers => stopped.follow refers)
          (fun text absent => by
            rw [← reach]
            constructor
            · rintro (⟨entry, _, placed⟩ | missing)
              · exact absurd placed.inSnapshot absent
              · exact missing
            · exact .inr)
          outside
        refine ⟨loop.nodup_neededOids, members, ?_, rfl⟩
        intro oid needed target refers
        rcases (members oid).mp needed with ⟨reached, _⟩
        by_cases had : Reach (References packs)
            (· ∈ countedHaves packs haves) target
        · exact .inr had
        · exact .inl ((members target).mpr ⟨reached.follow refers, had⟩)

/-! ## A chain of three objects -/

theorem length_evenBytes (byte : UInt8) :
    (List.replicate oidBytes byte).length = 20 := rfl

/-- An id of twenty equal bytes. -/
def evenOid (byte : UInt8) : RawOid :=
  ⟨List.replicate oidBytes byte, length_evenBytes byte⟩

/-- The ids of a commit, its tree and a blob. -/
def chainNames (row : Fin 3) : RawOid := evenOid (UInt8.ofNat (row + 1))

def chainIdx : IdxView where
  packKey := "chain"
  count := 3
  fanout := (List.range 256).map (min 3)
  rawNames :=
    (evenOid 1).bytes ++ (evenOid 2).bytes ++ (evenOid 3).bytes
  offsets := [12, 40, 60]
  nextOffsetByIndex := [40, 60, 80]
  sortedOffsets := [12, 40, 60]
  sortedOffsetIndices := [0, 1, 2]
  packSize := 100
  packChecksum := (evenOid 8).bytes
  idxChecksum := (evenOid 9).bytes

/-- The tree has the blob and an object outside of the snapshot. -/
def chainRefs : PackRefView where
  packKey := "chain"
  objectCount := 3
  packBytes := 100
  packChecksum := (evenOid 8).bytes
  idxChecksum := (evenOid 9).bytes
  typeCodes := [1, 2, 3]
  refStartsBytes := [0, 0, 0, 0, 0, 0, 0, 1, 0, 0, 0, 3, 0, 0, 0, 3]
  rawRefs :=
    (evenOid 2).bytes ++ (evenOid 3).bytes ++ (evenOid 4).bytes

def chainPack : PackRefSnapshotEntry := ⟨"chain", chainIdx, chainRefs⟩

/-- The sidecar of the chain. -/
def chainFile : Bytes :=
  bigEndian 4 packRefMagic ++ [0, 0, 0, 1, 0, 0, 0, 3] ++
    [0, 0, 0, 0, 0, 0, 0, 100] ++ (evenOid 8).bytes ++ (evenOid 9).bytes ++
    [1, 2, 3] ++ chainRefs.refStartsBytes ++ chainRefs.rawRefs

theorem chainPack_valid : chainPack.Valid := by
  have sorted : chainIdx.Names chainNames := by
    refine ⟨rfl, ?_, ?_, ?_, ?_⟩
    · decide
    · decide
    · decide +kernel
    · intro first
      unfold chainIdx
      by_cases small : first < 256
      · rw [List.getD_eq_getElem _ _ (by simpa using small),
          List.getElem_map]
        exact Nat.min_le_left _ _
      · rw [List.getD_eq_default _ _ (by simpa using small)]
        exact Nat.zero_le _
  refine PackRefSnapshotEntry.valid_of_names sorted (by decide)
    (?_ : parsePackRefView "chain" chainFile chainIdx = .ready chainRefs)
  decide +kernel

theorem computeNeededFromPackRefs_exact_chain :
    ∃ neededOids ackOids stats,
      computeNeededFromPackRefs [chainPack] (fun _ => false)
          (fun _ => false) ["0101010101010101010101010101010101010101"]
          ["0303030303030303030303030303030303030303"] =
          some (.ready neededOids ackOids stats) ∧
        neededOids.length = 3 ∧
        ClosureExact [chainPack]
          ["0101010101010101010101010101010101010101"]
          ["0303030303030303030303030303030303030303"] neededOids
          ackOids := by
  have valid : ∀ pack ∈ [chainPack], pack.Valid := by
    intro pack member
    rw [List.mem_singleton.mp member]
    exact chainPack_valid
  rcases computeNeededFromPackRefs_exact valid (fun _ => false)
      (fun _ => false) ["0101010101010101010101010101010101010101"]
      ["0303030303030303030303030303030303030303"] with ⟨result, ran, ready⟩
  have evaluated :
      computeNeededFromPackRefs [chainPack] (fun _ => false)
          (fun _ => false) ["0101010101010101010101010101010101010101"]
          ["0303030303030303030303030303030303030303"] =
        some
          (.ready
            ["0101010101010101010101010101010101010101",
              "0202020202020202020202020202020202020202",
              "0404040404040404040404040404040404040404"]
            ["0303030303030303030303030303030303030303"]
            ⟨3, 3, 3, 3, 1, 3, 0⟩) := by
    decide +kernel
  rw [evaluated] at ran
  cases ran
  exact ⟨_, _, _, evaluated, rfl, ready _ _ _ rfl⟩

end GitOnCloudflare.Fetch
