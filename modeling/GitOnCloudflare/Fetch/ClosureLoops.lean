import GitOnCloudflare.Fetch.ClosureWalk

/-!
# The two loops

The loop from the haves ends with everything they reach.  The loop from the
wants does not follow what it knows to be stopped, and ends with everything
they reach outside of it.
-/

namespace GitOnCloudflare.Fetch

open Foundations.MarkedSearch

variable {packs : List PackRefSnapshotEntry} {starts : String → Prop}

namespace RefWalk

variable {walk next : RefWalk}

/-- The entries taken from the queue. -/
def taken (walk : RefWalk) : List (Nat × Nat) :=
  walk.queue.entries.take walk.queue.cursor

/-- Every entry has an ordinal of its own. -/
theorem Sound.length_le (sound : walk.Sound packs) :
    walk.queue.entries.length ≤ (buildClosureIndex packs).objectCount := by
  have distinct : (walk.queue.entries.map (ordinalOf packs)).Nodup := by
    apply sound.nodup.map_on
    intro entry member other among same
    rcases sound.placed entry member with ⟨text, placed⟩
    rcases sound.placed other among with ⟨second, there⟩
    exact placed.ordinal_inj there same
  have small : walk.queue.entries.map (ordinalOf packs) ⊆
      List.range (buildClosureIndex packs).objectCount := by
    intro ordinal member
    rcases List.mem_map.mp member with ⟨entry, among, rfl⟩
    rcases sound.placed entry among with ⟨text, oid, pack, first, _⟩
    exact List.mem_range.mpr first.ordinal_lt
  have counted := (List.subperm_of_subset distinct small).length_le
  rw [List.length_map, List.length_range] at counted
  exact counted

section Taking

variable {targets : String → Prop} {entry : Nat × Nat}

theorem cursor_lt (here : walk.queue.entries[walk.queue.cursor]? = some entry) :
    walk.queue.cursor < walk.queue.entries.length :=
  (List.getElem?_eq_some_iff.mp here).1

/-- Taking an entry and visiting it puts it behind the entries taken. -/
theorem Grows.taken_eq (grown : Grows packs targets walk.advance next)
    (here : walk.queue.entries[walk.queue.cursor]? = some entry) :
    next.taken = walk.taken ++ [entry] := by
  rcases grown.entries with ⟨more, entries⟩
  change walk.queue.entries ++ more = next.queue.entries at entries
  unfold taken
  rw [grown.cursor, ← entries]
  show (walk.queue.entries ++ more).take (walk.queue.cursor + 1) = _
  rw [List.take_append_of_le_length (cursor_lt here), List.take_add_one,
    here]
  rfl

theorem taken_advance
    (here : walk.queue.entries[walk.queue.cursor]? = some entry) :
    walk.advance.taken = walk.taken ++ [entry] := by
  unfold taken advance
  show walk.queue.entries.take (walk.queue.cursor + 1) = _
  rw [List.take_add_one, here]
  rfl

theorem taken_of_end (ended : walk.queue.entries[walk.queue.cursor]? = none) :
    walk.taken = walk.queue.entries :=
  List.take_of_length_le (List.getElem?_eq_none_iff.mp ended)

/-- An entry is taken once. -/
theorem Sound.not_mem_taken (sound : walk.Sound packs)
    (here : walk.queue.entries[walk.queue.cursor]? = some entry) :
    entry ∉ walk.taken := by
  have distinct : (walk.taken ++ [entry]).Nodup := by
    rw [← taken_advance here]
    exact sound.nodup.sublist (List.take_sublist _ _)
  intro member
  exact (List.nodup_append.mp distinct).2.2 entry member entry
    (List.mem_singleton.mpr rfl) rfl

theorem Grows.within (grown : Grows packs targets walk.advance next)
    (here : walk.queue.entries[walk.queue.cursor]? = some entry) :
    next.queue.cursor ≤ next.queue.entries.length := by
  rw [grown.cursor]
  exact (Nat.succ_le_of_lt (cursor_lt here)).trans grown.entries.length_le

end Taking

/-! ## The haves -/

/-- Between two rounds the starts are met, and so are the references of the
entries taken. -/
structure HaveLoop (packs : List PackRefSnapshotEntry)
    (starts : String → Prop) (walk : RefWalk) : Prop where
  sound : walk.Sound packs
  first : ∀ text, starts text → walk.Met packs text
  reached : ∀ text, walk.Met packs text →
    Reach (References packs) starts text
  followed : ∀ entry ∈ walk.taken, ∀ text, Placed packs entry text →
    ∀ target, References packs text target → walk.Met packs target
  within : walk.queue.cursor ≤ walk.queue.entries.length
  unspent : walk.budgetExceeded = false
  same : walk.missingNeeded = walk.missingSeen

theorem HaveLoop.step (valid : ∀ pack ∈ packs, pack.Valid)
    (loop : HaveLoop packs starts walk) {entry : Nat × Nat}
    (here : walk.queue.entries[walk.queue.cursor]? = some entry)
    (unspent :
      (walk.advance.visitRefs packs (fun _ => true) entry).budgetExceeded =
        false) :
    HaveLoop packs starts
      (walk.advance.visitRefs packs (fun _ => true) entry) := by
  have member := List.mem_of_getElem? here
  rcases loop.sound.placed entry member with ⟨text, placed⟩
  have grown : Grows packs (References packs text) walk.advance
      (walk.advance.visitRefs packs (fun _ => true) entry) :=
    visitRefs_grows valid loop.sound.advance (fun _ _ => rfl) placed
  have keeps : ∀ {met}, walk.advance.Met packs met →
      (walk.advance.visitRefs packs (fun _ => true) entry).Met packs met :=
    fun met => met.mono grown
  refine
    { sound := grown.sound
      first := fun start given => keeps (loop.first start given)
      reached := ?_
      followed := ?_
      within := grown.within here
      unspent := unspent
      same := ?_ }
  · intro target met
    rcases grown.back target met with before | refers
    · exact loop.reached target before
    · exact (loop.reached text (.inl ⟨entry, member, placed⟩)).follow refers
  · intro other among source there target refers
    rw [grown.taken_eq here] at among
    rcases List.mem_append.mp among with old | new
    · exact keeps (loop.followed other old source there target refers)
    · cases List.mem_singleton.mp new
      cases there.text_unique placed
      exact (grown.meets unspent).2 target refers
  · rcases grown.missing with ⟨more, seen, needed⟩
    rw [seen, needed]
    show walk.missingNeeded ++ more = walk.missingSeen ++ more
    rw [loop.same]

/-- With enough rounds the loop ends, within the budget only when nothing is
left in the queue. -/
theorem HaveLoop.run (valid : ∀ pack ∈ packs, pack.Valid)
    (late : Nat → Bool) (rounds : Nat) (loop : HaveLoop packs starts walk)
    (enough : (buildClosureIndex packs).objectCount <
      rounds + walk.queue.cursor) :
    ∃ outcome, walkHaves packs late rounds walk = some outcome ∧
      ∀ ended, outcome = .ok ended →
        HaveLoop packs starts ended ∧
          ended.queue.entries[ended.queue.cursor]? = none := by
  induction rounds generalizing walk with
  | zero =>
    have bound := loop.sound.length_le
    have within := loop.within
    omega
  | succ rounds ih =>
    rw [walkHaves]
    cases here : walk.queue.entries[walk.queue.cursor]? with
    | none =>
      refine ⟨_, rfl, ?_⟩
      rintro ended ⟨⟩
      exact ⟨loop, here⟩
    | some entry =>
      dsimp only
      split
      · refine ⟨_, rfl, ?_⟩
        rintro ended ⟨⟩
      · split
        · refine ⟨_, rfl, ?_⟩
          rintro ended ⟨⟩
        · next open_ =>
          have unspent := Bool.eq_false_of_not_eq_true open_
          have stepped := loop.step valid here unspent
          apply ih stepped
          rcases loop.sound.placed entry (List.mem_of_getElem? here) with
            ⟨text, placed⟩
          have grown : Grows packs (References packs text) walk.advance
              (walk.advance.visitRefs packs (fun _ => true) entry) :=
            visitRefs_grows valid loop.sound.advance (fun _ _ => rfl) placed
          rw [grown.cursor]
          show _ < rounds + (walk.queue.cursor + 1)
          omega

/-- A finished walk has met what is reached. -/
theorem HaveLoop.met_iff (loop : HaveLoop packs starts walk)
    (ended : walk.queue.entries[walk.queue.cursor]? = none) (text : String) :
    walk.Met packs text ↔ Reach (References packs) starts text := by
  apply met_iff_reach loop.first loop.reached
  rintro source target (⟨entry, member, placed⟩ | missing) refers
  · rw [← taken_of_end ended] at member
    exact loop.followed entry member source placed target refers
  · exact absurd refers.inSnapshot (loop.sound.missing source missing)

end RefWalk

/-! ## The wants -/

namespace ClosureWalk

/-- Between two rounds the entries taken are seen, those of them that are not
stopped are needed, and their references are met. -/
structure WantLoop (packs : List PackRefSnapshotEntry)
    (starts stop : String → Prop) (stopFlags : Nat → Bool)
    (missingStop : List String) (walk : ClosureWalk) : Prop where
  sound : walk.refs.Sound packs
  first : ∀ text, starts text → walk.refs.Met packs text
  reached : ∀ text, walk.refs.Met packs text →
    Reach (References packs) starts text ∨ text ∈ missingStop
  followed : ∀ entry ∈ walk.refs.taken, ∀ text, Placed packs entry text →
    ¬ stop text → ∀ target, References packs text target →
      walk.refs.Met packs target
  within : walk.refs.queue.cursor ≤ walk.refs.queue.entries.length
  unspent : walk.refs.budgetExceeded = false
  missing : walk.refs.missingSeen = missingStop ++ walk.refs.missingNeeded
  seen : ∀ entry text, Placed packs entry text →
    (walk.seenFlags (ordinalOf packs entry) = true ↔
      entry ∈ walk.refs.taken)
  flagged : ∀ entry text, Placed packs entry text →
    (walk.neededFlags (ordinalOf packs entry) = true ↔
      entry ∈ walk.needed)
  needed : walk.needed =
    walk.refs.taken.filter fun entry => !stopFlags (ordinalOf packs entry)

section Round

variable {stop : String → Prop} {stopFlags : Nat → Bool}
  {missingStop : List String} {walk : ClosureWalk} {entry : Nat × Nat}
  {text : String}

/-- Marking the place of an entry adds this entry to those marked. -/
theorem update_flags {flags : Nat → Bool} {marked : List (Nat × Nat)}
    (exact_ : ∀ other second, Placed packs other second →
      (flags (ordinalOf packs other) = true ↔ other ∈ marked))
    (placed : Placed packs entry text) :
    ∀ other second, Placed packs other second →
      (Function.update flags (ordinalOf packs entry) true
          (ordinalOf packs other) = true ↔ other ∈ marked ++ [entry]) := by
  intro other second there
  rw [List.mem_append, List.mem_singleton]
  by_cases same : ordinalOf packs other = ordinalOf packs entry
  · rw [same, Function.update_self]
    exact iff_of_true rfl (.inr (there.ordinal_inj placed same))
  · rw [Function.update_of_ne same, exact_ other second there]
    constructor
    · exact .inl
    · rintro (old | new)
      · exact old
      · rw [new] at same
        exact absurd rfl same

theorem WantLoop.stopped
    (loop : WantLoop packs starts stop stopFlags missingStop walk)
    (here : walk.refs.queue.entries[walk.refs.queue.cursor]? = some entry)
    (placed : Placed packs entry text) (stopped : stop text)
    (flag : stopFlags (ordinalOf packs entry) = true) :
    WantLoop packs starts stop stopFlags missingStop
      { walk with
        refs := walk.refs.advance
        seenFlags :=
          Function.update walk.seenFlags (ordinalOf packs entry) true
        seenCount := walk.seenCount + 1 } where
  sound := loop.sound.advance
  first := loop.first
  reached := loop.reached
  followed := by
    intro other among source there free target refers
    rw [RefWalk.taken_advance here] at among
    rcases List.mem_append.mp among with old | new
    · exact loop.followed other old source there free target refers
    · cases List.mem_singleton.mp new
      cases there.text_unique placed
      exact absurd stopped free
  within := RefWalk.cursor_lt here
  unspent := loop.unspent
  missing := loop.missing
  seen := by
    rw [RefWalk.taken_advance here]
    exact update_flags loop.seen placed
  flagged := loop.flagged
  needed := by
    show walk.needed = _
    rw [RefWalk.taken_advance here, List.filter_append, ← loop.needed,
      List.filter_cons_of_neg (by rw [flag]; decide), List.filter_nil,
      List.append_nil]

/-- What the walk from the haves recorded is not included again. -/
theorem WantLoop.grows (valid : ∀ pack ∈ packs, pack.Valid)
    (loop : WantLoop packs starts stop stopFlags missingStop walk)
    (placed : Placed packs entry text) :
    RefWalk.Grows packs (References packs text) walk.refs.advance
      (walk.refs.advance.visitRefs packs
        (fun oid => decide (oid ∉ missingStop)) entry) := by
  refine RefWalk.visitRefs_grows valid loop.sound.advance ?_ placed
  intro other unknown
  apply decide_eq_true
  intro stopped
  apply unknown
  show other ∈ walk.refs.missingSeen
  rw [loop.missing]
  exact List.mem_append_left _ stopped

/-- The walk after an entry that is not stopped, with its references
visited. -/
theorem WantLoop.select (valid : ∀ pack ∈ packs, pack.Valid)
    (loop : WantLoop packs starts stop stopFlags missingStop walk)
    (here : walk.refs.queue.entries[walk.refs.queue.cursor]? = some entry)
    (placed : Placed packs entry text)
    (outside : ∀ other ∈ missingStop, ¬ InSnapshot packs other)
    (flag : ¬ stopFlags (ordinalOf packs entry) = true) {next : ClosureWalk}
    (refs : next.refs =
      walk.refs.advance.visitRefs packs
        (fun oid => decide (oid ∉ missingStop)) entry)
    (seenFlags : next.seenFlags =
      Function.update walk.seenFlags (ordinalOf packs entry) true)
    (neededFlags : next.neededFlags =
      Function.update walk.neededFlags (ordinalOf packs entry) true)
    (needed : next.needed = walk.needed ++ [entry])
    (unspent : next.refs.budgetExceeded = false) :
    WantLoop packs starts stop stopFlags missingStop next := by
  have member := List.mem_of_getElem? here
  have grown := loop.grows valid placed
  rw [← refs] at grown
  have keeps : ∀ {met}, walk.refs.advance.Met packs met →
      next.refs.Met packs met :=
    fun met => met.mono grown
  refine
    { sound := grown.sound
      first := fun start given => keeps (loop.first start given)
      reached := ?_
      followed := ?_
      within := grown.within here
      unspent := unspent
      missing := ?_
      seen := ?_
      flagged := ?_
      needed := ?_ }
  · intro target met
    rcases grown.back target met with before | refers
    · exact loop.reached target before
    · rcases loop.reached text (.inl ⟨entry, member, placed⟩) with
        reached | stopped
      · exact .inl (reached.follow refers)
      · exact absurd placed.inSnapshot (outside text stopped)
  · intro other among source there free target refers
    rw [grown.taken_eq here] at among
    rcases List.mem_append.mp among with old | new
    · exact keeps (loop.followed other old source there free target refers)
    · cases List.mem_singleton.mp new
      cases there.text_unique placed
      exact (grown.meets unspent).2 target refers
  · rcases grown.missing with ⟨more, seen, added⟩
    rw [seen, added]
    show walk.refs.missingSeen ++ more =
      missingStop ++ (walk.refs.missingNeeded ++ more)
    rw [loop.missing, List.append_assoc]
  · rw [grown.taken_eq here, seenFlags]
    exact update_flags loop.seen placed
  · rw [needed, neededFlags]
    exact update_flags loop.flagged placed
  · rw [grown.taken_eq here, needed, List.filter_append, ← loop.needed,
      List.filter_cons_of_pos (by simpa using flag), List.filter_nil]

/-- An entry that is taken was not selected before. -/
theorem WantLoop.not_needed
    (loop : WantLoop packs starts stop stopFlags missingStop walk)
    (here : walk.refs.queue.entries[walk.refs.queue.cursor]? = some entry)
    (placed : Placed packs entry text) :
    ¬ walk.neededFlags (ordinalOf packs entry) = true := by
  intro flag
  have member := (loop.flagged entry text placed).mp flag
  rw [loop.needed] at member
  exact loop.sound.not_mem_taken here (List.mem_filter.mp member).1

theorem WantLoop.run (valid : ∀ pack ∈ packs, pack.Valid)
    (late : Nat → Bool) (rounds : Nat)
    (loop : WantLoop packs starts stop stopFlags missingStop walk)
    (stops : ∀ entry text, Placed packs entry text →
      (stopFlags (ordinalOf packs entry) = true ↔ stop text))
    (outside : ∀ other ∈ missingStop, ¬ InSnapshot packs other)
    (enough : (buildClosureIndex packs).objectCount <
      rounds + walk.refs.queue.cursor) :
    ∃ outcome,
      walkWants packs late stopFlags missingStop rounds walk =
          some outcome ∧
        ∀ ended, outcome = .ok ended →
          WantLoop packs starts stop stopFlags missingStop ended ∧
            ended.refs.queue.entries[ended.refs.queue.cursor]? = none := by
  induction rounds generalizing walk with
  | zero =>
    have bound := loop.sound.length_le
    have within := loop.within
    omega
  | succ rounds ih =>
    rw [walkWants]
    cases here : walk.refs.queue.entries[walk.refs.queue.cursor]? with
    | none =>
      refine ⟨_, rfl, ?_⟩
      rintro ended ⟨⟩
      exact ⟨loop, here⟩
    | some entry =>
      rcases loop.sound.placed entry (List.mem_of_getElem? here) with
        ⟨text, placed⟩
      have fresh : ¬ walk.seenFlags (ordinalOf packs entry) = true := by
        intro flag
        exact loop.sound.not_mem_taken here
          ((loop.seen entry text placed).mp flag)
      dsimp only
      by_cases tardy : late walk.refs.queue.cursor = true
      · rw [if_pos tardy]
        refine ⟨_, rfl, ?_⟩
        rintro ended ⟨⟩
      · rw [if_neg tardy, if_neg fresh]
        by_cases flag : stopFlags (ordinalOf packs entry) = true
        · rw [if_pos flag]
          apply ih (loop.stopped here placed
            ((stops entry text placed).mp flag) flag)
          show _ < rounds + (walk.refs.queue.cursor + 1)
          omega
        · rw [if_neg flag]
          unfold addNeededObject
          rw [if_neg (loop.not_needed here placed)]
          dsimp only
          split
          · refine ⟨_, rfl, ?_⟩
            rintro ended ⟨⟩
          · next open_ =>
            have unspent := Bool.eq_false_of_not_eq_true open_
            apply ih (loop.select valid here placed outside flag rfl rfl
              rfl rfl unspent)
            have cursor := (loop.grows valid placed).cursor
            change _ = walk.refs.queue.cursor + 1 at cursor
            dsimp only
            omega

end Round

end ClosureWalk

end GitOnCloudflare.Fetch
