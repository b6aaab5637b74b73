import GitOnCloudflare.Fetch.LocatedObjects

/-!
# Walks over references

What a walk has met: the ids of its queue and the missing ids.  Meeting an
id, visiting the references of a row and queueing the wants only add the ids
in question, and both loops end with what is reached.
-/

namespace GitOnCloudflare.Fetch

open Foundations
open Foundations.ByteTable
open Foundations.MarkedSearch
open Pack
open Repo (isValidOid missingRefCap)

variable {packs : List PackRefSnapshotEntry}

/-- An entry of a queue is the place of an id. -/
def Placed (packs : List PackRefSnapshotEntry) (entry : Nat × Nat)
    (text : String) : Prop :=
  ∃ oid pack, FirstCopy packs oid entry pack ∧ bytesToHex oid.bytes = text

section Places

variable {entry other : Nat × Nat} {text second : String}

theorem Placed.nameOf (placed : Placed packs entry text) :
    nameOf packs entry = text := by
  rcases placed with ⟨oid, pack, first, rfl⟩
  exact first.nameOf

theorem Placed.inSnapshot (placed : Placed packs entry text) :
    InSnapshot packs text := by
  rcases placed with ⟨oid, pack, first, rfl⟩
  exact first.inSnapshot

theorem Placed.ordinal_inj (here : Placed packs entry text)
    (there : Placed packs other second)
    (same : ordinalOf packs entry = ordinalOf packs other) : entry = other := by
  rcases here with ⟨_, _, first, _⟩
  rcases there with ⟨_, _, next, _⟩
  exact first.ordinal_inj next same

/-- An id has one place. -/
theorem Placed.entry_unique (here : Placed packs entry text)
    (there : Placed packs other text) : entry = other := by
  rcases here with ⟨oid, pack, first, rfl⟩
  rcases there with ⟨again, copy, next, same⟩
  cases RawOid.bytes_inj.mp (bytesToHex_inj same)
  exact (first.unique next).1

theorem Placed.text_unique (here : Placed packs entry text)
    (there : Placed packs entry second) : text = second :=
  here.nameOf.symm.trans there.nameOf

/-- Locating the bytes of an id finds its place, unless no row holds it. -/
theorem locate_text (valid : ∀ pack ∈ packs, pack.Valid) (oid : RawOid) :
    (∃ entry, Placed packs entry (bytesToHex oid.bytes) ∧
        locate packs oid.bytes 0 =
          some ⟨entry.1, entry.2, ordinalOf packs entry⟩) ∨
      locate packs oid.bytes 0 = none ∧
        ¬ InSnapshot packs (bytesToHex oid.bytes) := by
  rcases locate_spec valid oid with ⟨entry, pack, first, found⟩ | missed
  · exact .inl ⟨entry, ⟨oid, pack, first, rfl⟩, found⟩
  · exact .inr missed

end Places

/-! ## Meeting ids -/

namespace RefWalk

/-- The ids of the queue and the missing ids. -/
def Met (packs : List PackRefSnapshotEntry) (walk : RefWalk)
    (text : String) : Prop :=
  (∃ entry ∈ walk.queue.entries, Placed packs entry text) ∨
    text ∈ walk.missingSeen

/-- The queue holds places, each once and flagged, and missing ids are not in
the snapshot. -/
structure Sound (packs : List PackRefSnapshotEntry) (walk : RefWalk) :
    Prop where
  placed : ∀ entry ∈ walk.queue.entries, ∃ text, Placed packs entry text
  nodup : walk.queue.entries.Nodup
  flags : ∀ entry text, Placed packs entry text →
    (walk.queuedFlags (ordinalOf packs entry) = true ↔
      entry ∈ walk.queue.entries)
  missing : ∀ text ∈ walk.missingSeen, ¬ InSnapshot packs text
  missingNodup : walk.missingSeen.Nodup

/-- A walk met the targets, unless its budget is exceeded, and nothing
else. -/
structure Grows (packs : List PackRefSnapshotEntry)
    (targets : String → Prop) (walk next : RefWalk) : Prop where
  sound : next.Sound packs
  entries : walk.queue.entries <+: next.queue.entries
  cursor : next.queue.cursor = walk.queue.cursor
  missing : ∃ more, next.missingSeen = walk.missingSeen ++ more ∧
    next.missingNeeded = walk.missingNeeded ++ more
  back : ∀ text, next.Met packs text → walk.Met packs text ∨ targets text
  meets : next.budgetExceeded = false →
    walk.budgetExceeded = false ∧ ∀ text, targets text → next.Met packs text

section Growth

variable {walk middle next : RefWalk} {targets others : String → Prop}
  {text : String} {includeNeeded : String → Bool}

theorem Met.mono (met : walk.Met packs text)
    (grown : Grows packs targets walk next) : next.Met packs text := by
  rcases met with ⟨entry, member, placed⟩ | member
  · exact .inl ⟨entry, grown.entries.subset member, placed⟩
  · rcases grown.missing with ⟨more, seen, _⟩
    right
    rw [seen]
    exact List.mem_append_left _ member

theorem Grows.refl (sound : walk.Sound packs)
    (nothing : ∀ text, ¬ targets text) : Grows packs targets walk walk where
  sound := sound
  entries := List.prefix_refl _
  cursor := rfl
  missing := ⟨[], (List.append_nil _).symm, (List.append_nil _).symm⟩
  back := fun _ met => .inl met
  meets := fun open_ => ⟨open_, fun text target => absurd target (nothing text)⟩

theorem Grows.trans (first : Grows packs targets walk middle)
    (second : Grows packs others middle next) :
    Grows packs (fun text => targets text ∨ others text) walk next where
  sound := second.sound
  entries := first.entries.trans second.entries
  cursor := second.cursor.trans first.cursor
  missing := by
    rcases first.missing with ⟨more, seen, needed⟩
    rcases second.missing with ⟨rest, seenNext, neededNext⟩
    refine ⟨more ++ rest, ?_, ?_⟩
    · rw [seenNext, seen, List.append_assoc]
    · rw [neededNext, needed, List.append_assoc]
  back := by
    intro text met
    rcases second.back text met with before | target
    · rcases first.back text before with earlier | target
      · exact .inl earlier
      · exact .inr (.inl target)
    · exact .inr (.inr target)
  meets := by
    intro open_
    rcases second.meets open_ with ⟨openMiddle, metOthers⟩
    rcases first.meets openMiddle with ⟨openWalk, metTargets⟩
    refine ⟨openWalk, ?_⟩
    rintro text (target | other)
    · exact (metTargets text target).mono second
    · exact metOthers text other

theorem Grows.congr (grown : Grows packs targets walk next)
    (same : ∀ text, targets text ↔ others text) :
    Grows packs others walk next where
  sound := grown.sound
  entries := grown.entries
  cursor := grown.cursor
  missing := grown.missing
  back := fun text met => (grown.back text met).imp id (same text).mp
  meets := fun open_ =>
    ⟨(grown.meets open_).1, fun text other =>
      (grown.meets open_).2 text ((same text).mpr other)⟩

/-- Counting an edge changes nothing that a walk has met. -/
theorem Grows.of_counted (visits : Nat)
    (grown : Grows packs targets { walk with edgeVisits := visits } next) :
    Grows packs targets walk next :=
  ⟨grown.sound, grown.entries, grown.cursor, grown.missing, grown.back,
    grown.meets⟩

theorem Sound.counted (sound : walk.Sound packs) (visits : Nat) :
    ({ walk with edgeVisits := visits } : RefWalk).Sound packs :=
  ⟨sound.placed, sound.nodup, sound.flags, sound.missing,
    sound.missingNodup⟩

theorem Sound.advance (sound : walk.Sound packs) : walk.advance.Sound packs :=
  ⟨sound.placed, sound.nodup, sound.flags, sound.missing,
    sound.missingNodup⟩

variable {entry : Nat × Nat} {rawRefs : Bytes}

theorem enqueueLocatedObject_grows (sound : walk.Sound packs)
    (placed : Placed packs entry text) :
    Grows packs (· = text) walk
      (walk.enqueueLocatedObject
        ⟨entry.1, entry.2, ordinalOf packs entry⟩) := by
  unfold enqueueLocatedObject
  by_cases flagged : walk.queuedFlags (ordinalOf packs entry) = true
  · rw [if_pos flagged]
    have queued := (sound.flags entry text placed).mp flagged
    refine ⟨⟨sound.placed, sound.nodup, sound.flags, sound.missing,
      sound.missingNodup⟩, List.prefix_refl _, rfl,
      ⟨[], (List.append_nil _).symm, (List.append_nil _).symm⟩,
      fun _ met => .inl met, ?_⟩
    intro open_
    refine ⟨open_, ?_⟩
    rintro _ rfl
    exact .inl ⟨entry, queued, placed⟩
  · rw [if_neg flagged]
    have fresh : entry ∉ walk.queue.entries := fun member =>
      flagged ((sound.flags entry text placed).mpr member)
    refine ⟨⟨?_, ?_, ?_, sound.missing, sound.missingNodup⟩,
      List.prefix_append _ _, rfl,
      ⟨[], (List.append_nil _).symm, (List.append_nil _).symm⟩, ?_, ?_⟩
    · intro other member
      rcases List.mem_append.mp member with old | new
      · exact sound.placed other old
      · cases List.mem_singleton.mp new
        exact ⟨text, placed⟩
    · apply List.Nodup.append sound.nodup (List.nodup_singleton _)
      exact List.disjoint_singleton.mpr fresh
    · intro other second there
      show Function.update walk.queuedFlags (ordinalOf packs entry) true
        (ordinalOf packs other) = true ↔ other ∈ _ ++ [(entry.1, entry.2)]
      rw [List.mem_append, List.mem_singleton]
      by_cases same : ordinalOf packs other = ordinalOf packs entry
      · rw [same, Function.update_self]
        exact iff_of_true rfl (.inr (there.ordinal_inj placed same))
      · rw [Function.update_of_ne same, sound.flags other second there]
        constructor
        · exact .inl
        · rintro (old | new)
          · exact old
          · rw [new] at same
            exact absurd rfl same
    · rintro other (⟨queued, member, there⟩ | member)
      · rcases List.mem_append.mp member with old | new
        · exact .inl (.inl ⟨queued, old, there⟩)
        · cases List.mem_singleton.mp new
          exact .inr (there.text_unique placed)
      · exact .inl (.inr member)
    · intro open_
      refine ⟨open_, ?_⟩
      rintro _ rfl
      exact .inl
        ⟨entry, List.mem_append_right _ (List.mem_singleton.mpr rfl), placed⟩

theorem recordMissingOid_grows (sound : walk.Sound packs)
    (absent : ¬ InSnapshot packs text) {includeNeeded : Bool}
    (included : text ∉ walk.missingSeen → includeNeeded = true) :
    Grows packs (· = text) walk
      (walk.recordMissingOid text includeNeeded) := by
  unfold recordMissingOid
  by_cases known : text ∈ walk.missingSeen
  · rw [if_pos known]
    refine ⟨sound, List.prefix_refl _, rfl,
      ⟨[], (List.append_nil _).symm, (List.append_nil _).symm⟩,
      fun _ met => .inl met, ?_⟩
    intro open_
    refine ⟨open_, ?_⟩
    rintro _ rfl
    exact .inr known
  · rw [if_neg known]
    by_cases full : missingRefCap ≤ walk.missingSeen.length
    · rw [if_pos full]
      refine ⟨⟨sound.placed, sound.nodup, sound.flags, sound.missing,
        sound.missingNodup⟩, List.prefix_refl _, rfl,
        ⟨[], (List.append_nil _).symm, (List.append_nil _).symm⟩,
        fun _ met => .inl met, ?_⟩
      intro open_
      cases open_
    · rw [if_neg full, included known]
      refine ⟨⟨sound.placed, sound.nodup, sound.flags, ?_, ?_⟩,
        List.prefix_refl _, rfl, ⟨[text], rfl, rfl⟩, ?_, ?_⟩
      · intro other member
        rcases List.mem_append.mp member with old | new
        · exact sound.missing other old
        · cases List.mem_singleton.mp new
          exact absent
      · apply List.Nodup.append sound.missingNodup (List.nodup_singleton _)
        exact List.disjoint_singleton.mpr known
      · rintro other (queued | member)
        · exact .inl (.inl queued)
        · rcases List.mem_append.mp member with old | new
          · exact .inl (.inr old)
          · exact .inr (List.mem_singleton.mp new)
      · intro open_
        refine ⟨open_, ?_⟩
        rintro _ rfl
        exact .inr (List.mem_append_right _ (List.mem_singleton.mpr rfl))

/-- The ids that a walk has not recorded as missing would be included. -/
def Includes (includeNeeded : String → Bool) (walk : RefWalk) : Prop :=
  ∀ text, text ∉ walk.missingSeen → includeNeeded text = true

theorem Includes.mono (included : Includes includeNeeded walk)
    (grown : Grows packs targets walk next) : Includes includeNeeded next := by
  intro text unknown
  apply included
  intro member
  rcases grown.missing with ⟨more, seen, _⟩
  apply unknown
  rw [seen]
  exact List.mem_append_left _ member

theorem visitRawRef_grows (valid : ∀ pack ∈ packs, pack.Valid)
    (sound : walk.Sound packs) (included : Includes includeNeeded walk)
    {oidStart : Nat} (inside : oidStart + oidBytes ≤ rawRefs.length) :
    Grows packs (· = bytesToHex (slice rawRefs oidStart oidBytes)) walk
      (walk.visitRawRef packs includeNeeded rawRefs oidStart) := by
  have length : (slice rawRefs oidStart oidBytes).length = oidBytes := by
    unfold slice
    rw [List.length_take, List.length_drop]
    omega
  have located : locate packs rawRefs oidStart =
      locate packs (slice rawRefs oidStart oidBytes) 0 :=
    locateFrom_slice _ inside 0 packs
  unfold visitRawRef
  dsimp only
  by_cases exceeded : walk.budgetExceeded = true
  · rw [if_pos exceeded]
    apply Grows.of_counted (walk.edgeVisits + 1)
    refine ⟨sound.counted _, List.prefix_refl _, rfl,
      ⟨[], (List.append_nil _).symm, (List.append_nil _).symm⟩,
      fun _ met => .inl met, ?_⟩
    intro open_
    exact absurd (exceeded.symm.trans open_) (by decide)
  · rw [if_neg exceeded, located]
    apply Grows.of_counted (walk.edgeVisits + 1)
    rcases locate_text valid ⟨slice rawRefs oidStart oidBytes, length⟩ with
      ⟨entry, placed, found⟩ | ⟨missed, absent⟩
    · simp only at found
      rw [found]
      exact enqueueLocatedObject_grows (sound.counted _) placed
    · simp only at missed
      rw [missed]
      exact recordMissingOid_grows (sound.counted _) absent (included _)

theorem visitRawRefs_grows (valid : ∀ pack ∈ packs, pack.Valid)
    {starts : List Nat}
    (inside : ∀ oidStart ∈ starts, oidStart + oidBytes ≤ rawRefs.length)
    (sound : walk.Sound packs) (included : Includes includeNeeded walk) :
    Grows packs
      (· ∈ starts.map fun oidStart =>
        bytesToHex (slice rawRefs oidStart oidBytes)) walk
      (starts.foldl (visitRawRef packs includeNeeded rawRefs) walk) := by
  induction starts generalizing walk with
  | nil => exact Grows.refl sound fun _ => List.not_mem_nil
  | cons oidStart starts ih =>
    have here := visitRawRef_grows valid sound included
      (inside oidStart List.mem_cons_self)
    have rest := ih
      (fun other member => inside other (List.mem_cons_of_mem _ member))
      here.sound (included.mono here)
    rw [List.foldl_cons]
    apply (here.trans rest).congr
    intro text
    rw [List.map_cons, List.mem_cons]

/-- Visiting the row of an object meets its references. -/
theorem visitRefs_grows (valid : ∀ pack ∈ packs, pack.Valid)
    (sound : walk.Sound packs) (included : Includes includeNeeded walk)
    (placed : Placed packs entry text) :
    Grows packs (References packs text) walk
      (walk.visitRefs packs includeNeeded entry) := by
  rcases placed with ⟨oid, pack, first, rfl⟩
  have member := List.mem_of_getElem? first.placed
  unfold visitRefs
  rw [first.placed]
  apply (visitRawRefs_grows valid
    (fun _ visited => (valid pack member).visited first.inside visited)
    sound included).congr
  intro target
  rw [first.references, getPackRefRefsAt_eq]

end Growth

end RefWalk

end GitOnCloudflare.Fetch
