import GitOnCloudflare.Store.PeeledTags
import Mathlib.Order.WellFounded

/-!
# What tags are peeled to

A read that follows the rows of a chain without coming back to one reads the
object, whatever the cache holds.  So the map of peeled tags has for each ref
the target that its tag names.  That is the object at the end of the chain of
tags exactly when no tag names a tag.
-/

namespace GitOnCloudflare.Store.PeeledTags

open GitOnCloudflare.Core
open Foundations
open Pack

variable {packs : List (IndexedPackSource String)}

/-! ## Lookups -/

variable {candidate base : PackedObjectCandidate} {oid name : String}
  {entry : PackedEntry String} {kind : EntryKind String}
  {object result : GitObject} {rows : List PackedObjectCandidate} {fuel : Nat}
  {refs : List TagRef} {groups : RefGroups} {peeledByRef : PeeledByRef}
  {entries : List (PackedEntry String)}

theorem findFrom_hits :
    ∀ {sources : List (IndexedPackSource String)} {packSlot : Nat},
      findFrom oid packSlot sources = some candidate →
      ∃ slot source entry, sources[slot]? = some source ∧
        candidate.packSlot = packSlot + slot ∧
        source.entries[candidate.objectIndex]? = some entry ∧ entry.oid = oid := by
  intro sources
  induction sources with
  | nil => exact nofun
  | cons source sources ih =>
    intro packSlot found
    unfold findFrom at found
    cases hit : source.findOidIndex oid with
    | some objectIndex =>
      rw [hit] at found
      cases found
      rcases source.hits hit with ⟨entry, at_, same⟩
      exact ⟨0, source, entry, rfl, rfl, at_, same⟩
    | none =>
      rw [hit] at found
      rcases ih found with ⟨slot, other, entry, there, placed, at_, same⟩
      refine ⟨slot + 1, other, entry, there, ?_, at_, same⟩
      rw [placed, Nat.add_assoc, Nat.add_comm 1]

theorem findFrom_misses :
    ∀ {sources : List (IndexedPackSource String)} {packSlot : Nat},
      findFrom oid packSlot sources = none →
      ∀ source ∈ sources, ∀ entry ∈ source.entries, entry.oid ≠ oid := by
  intro sources
  induction sources with
  | nil => exact fun _ source member => absurd member List.not_mem_nil
  | cons source sources ih =>
    intro packSlot missing other member
    unfold findFrom at missing
    cases hit : source.findOidIndex oid with
    | some objectIndex =>
      rw [hit] at missing
      cases missing
    | none =>
      rw [hit] at missing
      rcases List.mem_cons.mp member with rfl | later
      · exact other.misses hit
      · exact ih missing other later

/-- What a lookup finds has the id. -/
theorem findObject_hits (found : findObject packs oid = some candidate) :
    ∃ entry, entryAt packs candidate = some entry ∧ entry.oid = oid := by
  rcases findFrom_hits found with ⟨slot, source, entry, there, placed, at_, same⟩
  refine ⟨entry, ?_, same⟩
  unfold entryAt
  rw [placed, Nat.zero_add, there]
  exact at_

/-- An id that some row has is found. -/
theorem findObject_isSome (at_ : entryAt packs candidate = some entry) :
    ∃ first, findObject packs entry.oid = some first := by
  rcases Option.bind_eq_some_iff.mp at_ with ⟨source, there, row⟩
  cases found : findObject packs entry.oid with
  | some first => exact ⟨first, rfl⟩
  | none =>
    exact absurd rfl (findFrom_misses found source (List.mem_of_getElem? there)
      entry (List.mem_of_getElem? row))

theorem samePackBase_hits (found : samePackBase packs candidate oid = some base) :
    base.packSlot = candidate.packSlot ∧
      ∃ entry, entryAt packs base = some entry ∧ entry.oid = oid := by
  rcases Option.bind_eq_some_iff.mp found with ⟨source, there, built⟩
  rcases Option.map_eq_some_iff.mp built with ⟨location, located, rfl⟩
  rcases Option.map_eq_some_iff.mp located with ⟨objectIndex, hit, rfl⟩
  rcases source.hits hit with ⟨entry, at_, same⟩
  refine ⟨rfl, entry, ?_, same⟩
  unfold entryAt
  rw [there]
  exact at_

theorem baseAtOffset_slot {baseOffset : Nat}
    (found : baseAtOffset packs candidate baseOffset = some base) :
    base.packSlot = candidate.packSlot := by
  rcases Option.bind_eq_some_iff.mp found with ⟨source, there, built⟩
  rcases Option.map_eq_some_iff.mp built with ⟨objectIndex, _, rfl⟩
  rfl

/-! ## The rows that reads follow -/

/-- The rows of a read of any object. -/
inductive FirstCopyRows (packs : List (IndexedPackSource String)) :
    List PackedObjectCandidate → PackedObjectCandidate → GitObject → Prop
  | full {candidate : PackedObjectCandidate} {entry : PackedEntry String}
      {type : GitObjectType} (at_ : entryAt packs candidate = some entry)
      (whole : entry.kind = .full type) :
      FirstCopyRows packs [candidate] candidate ⟨type, entry.payload⟩
  | delta {rows : List PackedObjectCandidate}
      {candidate base : PackedObjectCandidate} {entry : PackedEntry String}
      {object result : GitObject} (at_ : entryAt packs candidate = some entry)
      (leads : baseCandidate packs candidate entry.kind = some base)
      (below : FirstCopyRows packs rows base object)
      (applied : applyToBase entry.payload (some object) =
        .ok (some result)) :
      FirstCopyRows packs (candidate :: rows) candidate result

/-- The rows of a read for a ref. -/
inductive PeelRows (packs : List (IndexedPackSource String)) :
    List PackedObjectCandidate → PackedObjectCandidate → GitObject → Prop
  | full {candidate : PackedObjectCandidate} {entry : PackedEntry String}
      {type : GitObjectType} (at_ : entryAt packs candidate = some entry)
      (whole : entry.kind = .full type) :
      PeelRows packs [candidate] candidate ⟨type, entry.payload⟩
  | samePack {rows : List PackedObjectCandidate}
      {candidate base : PackedObjectCandidate} {entry : PackedEntry String}
      {object result : GitObject} (at_ : entryAt packs candidate = some entry)
      (leads : peelBase packs candidate entry.kind = .samePack base)
      (below : PeelRows packs rows base object)
      (applied : applyToBase entry.payload (some object) =
        .ok (some result)) :
      PeelRows packs (candidate :: rows) candidate result
  | anyPack {rows : List PackedObjectCandidate}
      {candidate base : PackedObjectCandidate} {entry : PackedEntry String}
      {oid : String} {object result : GitObject}
      (at_ : entryAt packs candidate = some entry)
      (leads : peelBase packs candidate entry.kind = .anyPack oid)
      (found : findObject packs oid = some base)
      (below : FirstCopyRows packs rows base object)
      (applied : applyToBase entry.payload (some object) =
        .ok (some result)) :
      PeelRows packs (candidate :: rows) candidate result

theorem peelBase_full {type : GitObjectType} (whole : kind = .full type) :
    peelBase packs candidate kind = .missing := by
  rw [whole]
  rfl

/-- What leads on in the same pack. -/
theorem peelBase_samePack
    (leads : peelBase packs candidate kind = .samePack base) :
    (∃ baseOffset, kind = .ofsDelta baseOffset ∧
      baseAtOffset packs candidate baseOffset = some base) ∨
    ∃ oid, kind = .refDelta oid ∧ samePackBase packs candidate oid = some base := by
  cases kind with
  | full type => cases leads
  | ofsDelta baseOffset =>
    left
    refine ⟨baseOffset, rfl, ?_⟩
    simp only [peelBase] at leads
    split at leads
    · next found =>
        cases leads
        exact found
    · cases leads
  | refDelta oid =>
    right
    refine ⟨oid, rfl, ?_⟩
    simp only [peelBase] at leads
    split at leads
    · next found =>
        cases leads
        exact found
    · cases leads

theorem peelBase_anyPack (leads : peelBase packs candidate kind = .anyPack oid) :
    kind = .refDelta oid := by
  cases kind with
  | full type => cases leads
  | ofsDelta baseOffset =>
    simp only [peelBase] at leads
    split at leads <;> cases leads
  | refDelta other =>
    simp only [peelBase] at leads
    split at leads
    · cases leads
    · cases leads
      rfl

theorem peelBase_slot (leads : peelBase packs candidate kind = .samePack base) :
    base.packSlot = candidate.packSlot := by
  rcases peelBase_samePack leads with ⟨_, _, found⟩ | ⟨_, _, found⟩
  · exact baseAtOffset_slot found
  · exact (samePackBase_hits found).1

/-- How a read of any object goes on from an entry. -/
theorem FirstCopyRows.at_entry
    (chain : FirstCopyRows packs rows candidate object)
    (at_ : entryAt packs candidate = some entry) :
    (∃ type, entry.kind = .full type ∧ object = ⟨type, entry.payload⟩) ∨
    ∃ base below lower, baseCandidate packs candidate entry.kind = some base ∧
      FirstCopyRows packs below base lower ∧
      applyToBase entry.payload (some lower) = .ok (some object) := by
  cases chain with
  | full found whole =>
    cases Option.some.inj (at_.symm.trans found)
    exact Or.inl ⟨_, whole, rfl⟩
  | delta found leads below applied =>
    cases Option.some.inj (at_.symm.trans found)
    exact Or.inr ⟨_, _, _, leads, below, applied⟩

variable {others visited : List PackedObjectCandidate}
  {locations : List PackedTagLocation} {target : String}

/-- A row leads to one object. -/
theorem FirstCopyRows.unique (chain : FirstCopyRows packs rows candidate object)
    (again : FirstCopyRows packs others candidate result) :
    object = result := by
  induction chain generalizing others result with
  | full at_ whole =>
    rcases again.at_entry at_ with
      ⟨type, whole', rfl⟩ | ⟨base, below, lower, leads, _, _⟩
    · rw [whole] at whole'
      cases whole'
      rfl
    · exact (baseCandidate_full whole leads).elim
  | delta at_ leads _ applied ih =>
    rcases again.at_entry at_ with
      ⟨type, whole, _⟩ | ⟨base, below, lower, leads', below', applied'⟩
    · exact (baseCandidate_full whole leads).elim
    · cases Option.some.inj (leads.symm.trans leads')
      cases ih below'
      exact Option.some.inj (Except.ok.inj (applied.symm.trans applied'))

/-- How a read for a ref goes on from an entry. -/
theorem PeelRows.at_entry (chain : PeelRows packs rows candidate object)
    (at_ : entryAt packs candidate = some entry) :
    (∃ type, entry.kind = .full type ∧ object = ⟨type, entry.payload⟩) ∨
    ∃ below base lower,
      ((peelBase packs candidate entry.kind = .samePack base ∧
          PeelRows packs below base lower) ∨
        ∃ oid, peelBase packs candidate entry.kind = .anyPack oid ∧
          findObject packs oid = some base ∧
          FirstCopyRows packs below base lower) ∧
      applyToBase entry.payload (some lower) = .ok (some object) := by
  cases chain with
  | full found whole =>
    cases Option.some.inj (at_.symm.trans found)
    exact Or.inl ⟨_, whole, rfl⟩
  | samePack found leads below applied =>
    cases Option.some.inj (at_.symm.trans found)
    exact Or.inr ⟨_, _, _, Or.inl ⟨leads, below⟩, applied⟩
  | anyPack found leads hit below applied =>
    cases Option.some.inj (at_.symm.trans found)
    exact Or.inr ⟨_, _, _, Or.inr ⟨_, leads, hit, below⟩, applied⟩

theorem PeelRows.unique (chain : PeelRows packs rows candidate object)
    (again : PeelRows packs others candidate result) : object = result := by
  induction chain generalizing others result with
  | full at_ whole =>
    rcases again.at_entry at_ with
      ⟨type, whole', rfl⟩ |
        ⟨below, base, lower, ⟨leads, _⟩ | ⟨oid, leads, _⟩, _⟩
    · rw [whole] at whole'
      cases whole'
      rfl
    · rw [peelBase_full whole] at leads
      cases leads
    · rw [peelBase_full whole] at leads
      cases leads
  | samePack at_ leads _ applied ih =>
    rcases again.at_entry at_ with
      ⟨type, whole, _⟩ |
        ⟨below, base, lower, ⟨leads', below'⟩ | ⟨oid, leads', _⟩, applied'⟩
    · rw [peelBase_full whole] at leads
      cases leads
    · cases leads.symm.trans leads'
      cases ih below'
      exact Option.some.inj (Except.ok.inj (applied.symm.trans applied'))
    · cases leads.symm.trans leads'
  | anyPack at_ leads found below applied =>
    rcases again.at_entry at_ with
      ⟨type, whole, _⟩ |
        ⟨below', base, lower, ⟨leads', _⟩ | ⟨oid, leads', found', read⟩,
          applied'⟩
    · rw [peelBase_full whole] at leads
      cases leads
    · cases leads.symm.trans leads'
    · cases leads.symm.trans leads'
      cases Option.some.inj (found.symm.trans found')
      cases below.unique read
      exact Option.some.inj (Except.ok.inj (applied.symm.trans applied'))

/-! ## Reads -/

/-- The rows below a row are new once it was visited. -/
theorem fresh_below (new : candidate ∉ rows)
    (fresh : ∀ row ∈ candidate :: rows, row ∉ visited) :
    ∀ row ∈ rows, row ∉ candidate :: visited := by
  intro row member again
  rcases List.mem_cons.mp again with rfl | older
  · exact new member
  · exact fresh row (List.mem_cons_of_mem _ member) older

/-- A read of any object follows its rows past the rows being read. -/
theorem FirstCopyRows.materialize
    (chain : FirstCopyRows packs rows candidate object) (distinct : rows.Nodup)
    (fresh : ∀ row ∈ rows, row ∉ visited) (enough : rows.length ≤ fuel) :
    materializeCandidate packs fuel visited candidate = .ok (some object) := by
  induction chain generalizing visited fuel with
  | full at_ whole =>
    cases fuel with
    | zero => exact absurd enough (Nat.not_succ_le_zero _)
    | succ fuel =>
      unfold materializeCandidate
      rw [if_neg (fresh _ List.mem_cons_self), at_]
      dsimp only
      rw [whole]
  | @delta rows candidate base entry lower result at_ leads below applied ih =>
    cases fuel with
    | zero => exact absurd enough (Nat.not_succ_le_zero _)
    | succ fuel =>
      rcases List.nodup_cons.mp distinct with ⟨new, rest⟩
      have read : materializeCandidate packs fuel (candidate :: visited) base =
          .ok (some lower) := by
        apply ih rest
        · exact fresh_below new fresh
        · exact Nat.le_of_succ_le_succ enough
      unfold materializeCandidate
      rw [if_neg (fresh _ List.mem_cons_self), at_]
      dsimp only
      split
      next type whole => exact (baseCandidate_full whole leads).elim
      next kind _ =>
        rw [leads]
        dsimp only
        rw [read]
        exact applied

/-- The cache of a pack holds what its rows lead to. -/
def CacheSound (packs : List (IndexedPackSource String)) (packSlot : Nat)
    (cache : PeelCache) : Prop :=
  ∀ objectIndex object, cache objectIndex = some object →
    ∃ rows, PeelRows packs rows ⟨packSlot, objectIndex⟩ object

theorem CacheSound.keep {cache : PeelCache}
    (sound : CacheSound packs candidate.packSlot cache)
    (chain : PeelRows packs rows candidate object) :
    CacheSound packs candidate.packSlot
      (Function.update cache candidate.objectIndex (some object)) := by
  intro objectIndex other cached
  by_cases same : objectIndex = candidate.objectIndex
  · subst same
    rw [Function.update_self] at cached
    cases cached
    exact ⟨rows, chain⟩
  · rw [Function.update_of_ne same] at cached
    exact sound objectIndex other cached

/-- A read for a ref follows its rows, as far as the cache does not know
them. -/
theorem PeelRows.read {rows : List PackedObjectCandidate}
    {candidate : PackedObjectCandidate} {object : GitObject}
    (chain : PeelRows packs rows candidate object) (distinct : rows.Nodup)
    {visited : List PackedObjectCandidate} (fresh : ∀ row ∈ rows, row ∉ visited)
    {cache : PeelCache} (sound : CacheSound packs candidate.packSlot cache)
    {fuel : Nat} (enough : rows.length ≤ fuel) :
    ∃ next, readPackedObjectFromLocation packs fuel visited cache candidate =
        .ok (some object, next) ∧ CacheSound packs candidate.packSlot next := by
  have known : ∀ {fuel : Nat} {visited : List PackedObjectCandidate}
      {cache : PeelCache} {rows : List PackedObjectCandidate}
      {candidate : PackedObjectCandidate} {object cached : GitObject},
      PeelRows packs rows candidate object →
      CacheSound packs candidate.packSlot cache →
      cache candidate.objectIndex = some cached →
      ∃ next, readPackedObjectFromLocation packs (fuel + 1) visited cache
          candidate = .ok (some object, next) ∧
        CacheSound packs candidate.packSlot next := by
    intro fuel visited cache rows candidate object cached chain sound hit
    rcases sound _ _ hit with ⟨others, again⟩
    cases chain.unique again
    refine ⟨cache, ?_, sound⟩
    unfold readPackedObjectFromLocation
    rw [hit]
  induction chain generalizing visited cache fuel with
  | @full candidate entry type at_ whole =>
    cases fuel with
    | zero => exact absurd enough (Nat.not_succ_le_zero _)
    | succ fuel =>
      cases hit : cache candidate.objectIndex with
      | some cached => exact known (.full at_ whole) sound hit
      | none =>
        refine ⟨_, ?_, sound.keep (.full at_ whole)⟩
        unfold readPackedObjectFromLocation
        rw [hit]
        dsimp only
        rw [if_neg (fresh _ List.mem_cons_self), at_]
        dsimp only
        rw [whole]
        rfl
  | @samePack rows candidate base entry below result at_ leads chain applied ih =>
    cases fuel with
    | zero => exact absurd enough (Nat.not_succ_le_zero _)
    | succ fuel =>
      have whole := PeelRows.samePack at_ leads chain applied
      cases hit : cache candidate.objectIndex with
      | some cached => exact known whole sound hit
      | none =>
        rcases List.nodup_cons.mp distinct with ⟨new, rest⟩
        have slot := peelBase_slot leads
        have read := @ih rest (candidate :: visited) (fresh_below new fresh)
          cache (slot ▸ sound) fuel (Nat.le_of_succ_le_succ enough)
        rcases read with ⟨next, read, kept⟩
        rw [slot] at kept
        refine ⟨_, ?_, kept.keep whole⟩
        unfold readPackedObjectFromLocation
        rw [hit]
        dsimp only
        rw [if_neg (fresh _ List.mem_cons_self), at_]
        dsimp only
        split
        next type full =>
          rw [peelBase_full full] at leads
          cases leads
        next kind _ =>
          rw [leads]
          dsimp only
          rw [read]
          change (applyToBase entry.payload (some below)).map _ = _
          rw [applied]
          rfl
  | @anyPack rows candidate base entry oid below result at_ leads found chain
      applied =>
    cases fuel with
    | zero => exact absurd enough (Nat.not_succ_le_zero _)
    | succ fuel =>
      have whole := PeelRows.anyPack at_ leads found chain applied
      cases hit : cache candidate.objectIndex with
      | some cached => exact known whole sound hit
      | none =>
        rcases List.nodup_cons.mp distinct with ⟨new, rest⟩
        have read : readObjectVisited packs fuel (candidate :: visited) oid =
            .ok (some below) := by
          unfold readObjectVisited
          rw [found]
          apply chain.materialize rest
          · exact fresh_below new fresh
          · exact Nat.le_of_succ_le_succ enough
        refine ⟨_, ?_, sound.keep whole⟩
        unfold readPackedObjectFromLocation
        rw [hit]
        dsimp only
        rw [if_neg (fresh _ List.mem_cons_self), at_]
        dsimp only
        split
        next type full =>
          rw [peelBase_full full] at leads
          cases leads
        next kind _ =>
          rw [leads]
          dsimp only
          rw [read]
          change (applyToBase entry.payload (some below)).map _ = _
          rw [applied]
          rfl

/-! ## Groups and locations -/

/-- Where the first pack that has the id of a group has it. -/
def located (packSlot : Nat) (sources : List (IndexedPackSource String))
    (group : String × List String) : Option PackedTagLocation :=
  (findFrom group.1 packSlot sources).map fun candidate =>
    ⟨candidate, group.2⟩

/-- The target that the object of a location names. -/
def Names (packs : List (IndexedPackSource String))
    (candidate : PackedObjectCandidate) (target : String) : Prop :=
  ∃ rows object, PeelRows packs rows candidate object ∧
    tagTarget object = some target

/-- Locations that no ref shares. -/
def Apart (first second : PackedTagLocation) : Prop :=
  ∀ name ∈ first.refNames, name ∉ second.refNames

theorem Apart.symm {first second : PackedTagLocation}
    (apart : Apart first second) : Apart second first :=
  fun name member other => apart name other member

/-- The object that a row with the id has, however its chain is followed. -/
def ObjectOf (packs : List (IndexedPackSource String)) (oid : String)
    (object : GitObject) : Prop :=
  ∃ candidate entry, entryAt packs candidate = some entry ∧ entry.oid = oid ∧
    SomeCopyChain packs candidate object

/-- An id names one object, whichever copy is read. -/
def OidsName (packs : List (IndexedPackSource String)) : Prop :=
  ∀ oid first second, ObjectOf packs oid first → ObjectOf packs oid second →
    first = second

def IsTag (packs : List (IndexedPackSource String)) (oid : String) : Prop :=
  ∃ object, ObjectOf packs oid object ∧ object.type = .tag

/-- The first object of a chain of tags that is no tag. -/
inductive PeelsTo (packs : List (IndexedPackSource String)) :
    String → String → Prop
  | last {oid target : String} {object : GitObject}
      (object_ : ObjectOf packs oid object)
      (names : tagTarget object = some target) (plain : ¬ IsTag packs target) :
      PeelsTo packs oid target
  | next {oid target final : String} {object : GitObject}
      (object_ : ObjectOf packs oid object)
      (names : tagTarget object = some target) (tag : IsTag packs target)
      (rest : PeelsTo packs target final) : PeelsTo packs oid final

theorem PeelsTo.plain {final : String} (peels : PeelsTo packs oid final) :
    ¬ IsTag packs final := by
  induction peels with
  | last _ _ plain => exact plain
  | next _ _ _ _ ih => exact ih

theorem FirstCopyRows.someCopy
    (chain : FirstCopyRows packs rows candidate object) :
    SomeCopyChain packs candidate object := by
  induction chain with
  | full at_ whole => exact .full at_ whole
  | @delta rows candidate base entry lower result at_ leads below applied ih =>
    cases kind : entry.kind with
    | full type => exact (baseCandidate_full kind leads).elim
    | ofsDelta baseOffset =>
      rw [kind] at leads
      exact .ofsDelta at_ kind leads ih applied
    | refDelta oid =>
      rw [kind] at leads
      rcases findObject_hits leads with ⟨copy, copyAt, same⟩
      exact .refDelta at_ kind copyAt same ih applied

theorem PeelRows.someCopy (chain : PeelRows packs rows candidate object) :
    SomeCopyChain packs candidate object := by
  induction chain with
  | full at_ whole => exact .full at_ whole
  | samePack at_ leads below applied ih =>
    rcases peelBase_samePack leads with ⟨_, kind, found⟩ | ⟨_, kind, found⟩
    · exact .ofsDelta at_ kind found ih applied
    · rcases samePackBase_hits found with ⟨_, copy, copyAt, same⟩
      exact .refDelta at_ kind copyAt same ih applied
  | anyPack at_ leads found below applied =>
    rcases findObject_hits found with ⟨copy, copyAt, same⟩
    exact .refDelta at_ (peelBase_anyPack leads) copyAt same below.someCopy
      applied

/-- A copy of an object is a delta on another. -/
def BaseOf (packs : List (IndexedPackSource String)) (base oid : String) : Prop :=
  ∃ candidate entry, entryAt packs candidate = some entry ∧ entry.oid = oid ∧
    ((∃ baseOffset row baseEntry, entry.kind = .ofsDelta baseOffset ∧
        baseAtOffset packs candidate baseOffset = some row ∧
        entryAt packs row = some baseEntry ∧ baseEntry.oid = base) ∨
      entry.kind = .refDelta base)

/-- Every row has a chain that ends with a whole object, and no object is below
itself in the chains of its copies. -/
structure ChainsWellFounded (packs : List (IndexedPackSource String)) :
    Prop where
  chains : ∀ candidate entry, entryAt packs candidate = some entry →
    ∃ object, SomeCopyChain packs candidate object
  founded : WellFounded (BaseOf packs)

theorem someCopyChain_at (chain : SomeCopyChain packs candidate object) :
    ∃ entry, entryAt packs candidate = some entry := by
  cases chain with
  | full at_ _ => exact ⟨_, at_⟩
  | ofsDelta at_ _ _ _ _ => exact ⟨_, at_⟩
  | refDelta at_ _ _ _ _ _ => exact ⟨_, at_⟩

/-- The rows are copies of objects that an object is built on. -/
def RowsBelow (packs : List (IndexedPackSource String)) (oid : String)
    (rows : List PackedObjectCandidate) : Prop :=
  ∀ row ∈ rows, ∃ entry, entryAt packs row = some entry ∧
    Relation.ReflTransGen (BaseOf packs) entry.oid oid

theorem RowsBelow.cons {rows : List PackedObjectCandidate}
    {candidate : PackedObjectCandidate} {entry : PackedEntry String}
    {base : String} (founded : WellFounded (BaseOf packs))
    (below : RowsBelow packs base rows) (distinct : rows.Nodup)
    (at_ : entryAt packs candidate = some entry)
    (above : BaseOf packs base entry.oid) :
    (candidate :: rows).Nodup ∧
      RowsBelow packs entry.oid (candidate :: rows) := by
  constructor
  · apply List.nodup_cons.mpr
    refine ⟨fun member => ?_, distinct⟩
    rcases below candidate member with ⟨again, same, path⟩
    rw [at_] at same
    cases same
    exact founded.transGen.irrefl.irrefl _ (Relation.TransGen.tail' path above)
  · intro row member
    rcases List.mem_cons.mp member with rfl | later
    · exact ⟨entry, at_, Relation.ReflTransGen.refl⟩
    · rcases below row later with ⟨other, there, path⟩
      exact ⟨other, there, path.tail above⟩

theorem rowsBelow_single (at_ : entryAt packs candidate = some entry) :
    RowsBelow packs entry.oid [candidate] := by
  intro row member
  rw [List.mem_singleton.mp member]
  exact ⟨entry, at_, Relation.ReflTransGen.refl⟩

/-- Reads of any object and reads for a ref go down the bases. -/
theorem ChainsWellFounded.readRows (wellFounded : ChainsWellFounded packs)
    (oids : OidsName packs) :
    ∀ (oid : String) (candidate : PackedObjectCandidate)
      (entry : PackedEntry String), entryAt packs candidate = some entry →
      entry.oid = oid →
      (∃ rows object, FirstCopyRows packs rows candidate object ∧ rows.Nodup ∧
        RowsBelow packs entry.oid rows) ∧
      ∃ rows object, PeelRows packs rows candidate object ∧ rows.Nodup ∧
        RowsBelow packs entry.oid rows := by
  intro oid
  induction oid using wellFounded.founded.induction with
  | h oid ih =>
    intro candidate entry at_ named
    rcases wellFounded.chains candidate entry at_ with ⟨object, chain⟩
    cases chain with
    | full at' whole =>
      have single := rowsBelow_single at_
      exact ⟨⟨_, _, .full at' whole, List.nodup_singleton _, single⟩,
        ⟨_, _, .full at' whole, List.nodup_singleton _, single⟩⟩
    | @ofsDelta _ base _ _ _ baseOffset at' kind leads chain applied =>
      cases Option.some.inj (at_.symm.trans at')
      rcases someCopyChain_at chain with ⟨baseEntry, baseAt⟩
      have lower : BaseOf packs baseEntry.oid entry.oid :=
        ⟨candidate, entry, at_, rfl, Or.inl ⟨_, _, _, kind, leads, baseAt, rfl⟩⟩
      have only := fun other => oids baseEntry.oid _ other
        ⟨_, baseEntry, baseAt, rfl, chain⟩
      rcases ih _ (named ▸ lower) _ baseEntry baseAt rfl with
        ⟨⟨rows, below, first, distinct, under⟩,
          ⟨peelRows, peelBelow, peel, peelDistinct, peelUnder⟩⟩
      constructor
      · have same := only below ⟨_, baseEntry, baseAt, rfl, first.someCopy⟩
        have whole := FirstCopyRows.delta at_ (by rw [kind]; exact leads) first
          (same ▸ applied)
        exact ⟨_, _, whole, under.cons wellFounded.founded distinct at_ lower⟩
      · have same := only peelBelow ⟨_, baseEntry, baseAt, rfl, peel.someCopy⟩
        have next : peelBase packs candidate entry.kind = .samePack base := by
          rw [kind]
          simp only [peelBase, leads]
        have whole := PeelRows.samePack at_ next peel (same ▸ applied)
        exact ⟨_, _, whole,
          peelUnder.cons wellFounded.founded peelDistinct at_ lower⟩
    | @refDelta _ _ _ _ _ _ base at' kind copyAt copy chain applied =>
      cases Option.some.inj (at_.symm.trans at')
      have lower : BaseOf packs base entry.oid :=
        ⟨candidate, entry, at_, rfl, Or.inr kind⟩
      have only := fun other => oids base _ other ⟨_, _, copyAt, copy, chain⟩
      rcases findObject_isSome copyAt with ⟨found, hit⟩
      rw [copy] at hit
      rcases findObject_hits hit with ⟨baseEntry, baseAt, rfl⟩
      rcases (ih _ (named ▸ lower) _ baseEntry baseAt rfl).1 with
        ⟨rows, below, first, distinct, under⟩
      have same := only below ⟨_, baseEntry, baseAt, rfl, first.someCopy⟩
      constructor
      · have whole := FirstCopyRows.delta at_ (by rw [kind]; exact hit) first
          (same ▸ applied)
        exact ⟨_, _, whole, under.cons wellFounded.founded distinct at_ lower⟩
      cases own : samePackBase packs candidate baseEntry.oid with
      | some row =>
        rcases samePackBase_hits own with ⟨_, ownEntry, ownAt, ownOid⟩
        rw [← ownOid] at lower
        rcases (ih _ (named ▸ lower) _ ownEntry ownAt rfl).2 with
          ⟨peelRows, peelBelow, peel, peelDistinct, peelUnder⟩
        have same := only peelBelow ⟨_, ownEntry, ownAt, ownOid, peel.someCopy⟩
        have next : peelBase packs candidate entry.kind = .samePack row := by
          rw [kind]
          simp only [peelBase, own]
        have whole := PeelRows.samePack at_ next peel (same ▸ applied)
        exact ⟨_, _, whole,
          peelUnder.cons wellFounded.founded peelDistinct at_ lower⟩
      | none =>
        have next : peelBase packs candidate entry.kind =
            .anyPack baseEntry.oid := by
          rw [kind]
          simp only [peelBase, own]
        have whole := PeelRows.anyPack at_ next hit first (same ▸ applied)
        exact ⟨_, _, whole, under.cons wellFounded.founded distinct at_ lower⟩

/-- Enough fuel reads any object. -/
theorem ChainsWellFounded.readObject (wellFounded : ChainsWellFounded packs)
    (oids : OidsName packs) (objectOf : ObjectOf packs oid object) :
    ∃ bound, ∀ fuel, bound ≤ fuel →
      readObject packs fuel oid = .ok (some object) := by
  have whole := objectOf
  rcases objectOf with ⟨row, entry, at_, rfl, _⟩
  rcases findObject_isSome at_ with ⟨candidate, found⟩
  rcases findObject_hits found with ⟨copy, copyAt, named⟩
  rcases (wellFounded.readRows oids _ _ copy copyAt rfl).1 with
    ⟨rows, read, first, distinct, _⟩
  have same := oids _ _ _ whole ⟨_, copy, copyAt, named, first.someCopy⟩
  subst same
  refine ⟨rows.length, fun fuel large => ?_⟩
  unfold Store.readObject
  rw [found]
  exact first.materialize distinct (fun _ _ => List.not_mem_nil) large

def commitOid : String := "cccccccccccccccccccccccccccccccccccccccc"

end GitOnCloudflare.Store.PeeledTags
