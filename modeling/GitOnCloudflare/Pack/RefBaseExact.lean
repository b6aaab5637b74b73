import GitOnCloudflare.Pack.OidLookupExact

/-!
# The table of reference bases

The table has the base of every reference delta of the pack and at most half of
its slots are used.  After any entries were noted, the base of a reference
delta is the entry noted last under the id that the delta names.
-/

namespace GitOnCloudflare.Pack.OidLookup

open Foundations
open Foundations.OpenAddressing

/-! ## Bases -/

/-- The id that a reference delta names. -/
def RefDeltaScan.baseOid (scan : RefDeltaScan) (i : Nat) : Option RawOid :=
  if scan.types[i]? = some 7 then
    some (.ofBytes (getRefBaseOidAt scan.refBaseOids i))
  else
    none

variable {i : Nat} {oid : RawOid} {slots : Slots}

/-- The reference deltas among the first entries. -/
def RefDeltaScan.deltasBelow (scan : RefDeltaScan) (bound : Nat) : Nat :=
  (scan.types.take bound).count 7

theorem RefDeltaScan.deltasBelow_le (scan : RefDeltaScan) (bound : Nat) :
    scan.deltasBelow bound ≤ scan.refDeltaCount := by
  rw [scan.counted]
  exact (List.take_sublist bound scan.types).count_le 7

/-! ## The invariant -/

namespace RefBaseLookup

def table (lookup : RefBaseLookup) : Table RawOid (Option Nat) :=
  lookup.slots.table lookup.resolvedEntries

/-- The table is in order, and the entries have the slots of their bases. -/
structure Sound (scan : RefDeltaScan) (lookup : RefBaseLookup) :
    Prop where
  wellFormed : lookup.slots.WellFormed
  placed : lookup.table.Placed home
  hasFree : lookup.table.HasFree
  entry : ∀ i oid, scan.baseOid i = some oid →
    ∃ slot < lookup.slots.slotCount,
      lookup.entrySlots i = some slot ∧
        lookup.table.keyAt slot = some oid
  other : ∀ i, scan.baseOid i = none → lookup.entrySlots i = none
  named : ∀ slot oid, lookup.table.keyAt slot = some oid →
    ∃ i, scan.baseOid i = some oid

end RefBaseLookup

open RefBaseLookup

variable {scan : RefDeltaScan} {bound : Nat} {lookup : RefBaseLookup}

/-- With a free slot the probe for an id ends where the table says. -/
theorem RefBaseLookup.probe_ends (wellFormed : lookup.slots.WellFormed)
    (free : lookup.table.HasFree) (oid : RawOid) :
    ∃ distance, lookup.table.Probes (home oid) oid distance ∧
      lookup.slots.probeFromHash oid.bytes 0 =
        .ok (lookup.table.walk (home oid) distance) := by
  rcases wellFormed.probeFromHash_ends lookup.resolvedEntries free
      (viewOf oid) with ⟨distance, probes, ended⟩
  rw [viewOf_oid] at probes ended
  exact ⟨distance, probes, ended⟩

/-- A lookup of an id ends, at its slot or with none. -/
theorem findExistingSlot_ends (sound : lookup.Sound scan) (oid : RawOid) :
    ∃ slot, findExistingSlot lookup oid.bytes = .ok slot ∧
      ∀ other, slot = some other ↔
        other < lookup.slots.slotCount ∧
          lookup.table.keyAt other = some oid := by
  rcases lookup.probe_ends sound.wellFormed sound.hasFree oid with
    ⟨distance, probes, ended⟩
  unfold findExistingSlot
  rw [ended]
  by_cases used : lookup.slots.used
      (lookup.table.walk (home oid) distance) = true
  · have held := (Slots.used_iff_of_stops probes.stops).mp used
    refine ⟨_, if_pos used, ?_⟩
    intro other
    constructor
    · rintro ⟨rfl⟩
      exact ⟨probes.slot_lt, held⟩
    · rintro ⟨within, has⟩
      exact congrArg some (probes.held sound.placed within has)
  · refine ⟨none, if_neg used, ?_⟩
    have free := Slots.oidAt_eq_none.mpr (Bool.eq_false_of_not_eq_true used)
    intro other
    constructor
    · intro impossible
      cases impossible
    · rintro ⟨within, has⟩
      exact absurd has (probes.absent sound.placed free within)

/-! ## Filling the table -/

/-- The table after the first entries, with how many slots are used. -/
structure Filled (scan : RefDeltaScan) (bound : Nat)
    (lookup : RefBaseLookup) : Prop where
  wellFormed : lookup.slots.WellFormed
  placed : lookup.table.Placed home
  large : scan.refDeltaCount < lookup.slots.slotCount
  counted : lookup.table.occupied lookup.slots.slotCount ≤
    scan.deltasBelow bound
  entry : ∀ i oid, i < bound → scan.baseOid i = some oid →
    ∃ slot < lookup.slots.slotCount,
      lookup.entrySlots i = some slot ∧
        lookup.table.keyAt slot = some oid
  other : ∀ i, bound ≤ i ∨ scan.baseOid i = none →
    lookup.entrySlots i = none
  unresolved : ∀ slot, lookup.resolvedEntries slot = none
  named : ∀ slot oid, lookup.table.keyAt slot = some oid →
    ∃ i, scan.baseOid i = some oid

theorem Filled.hasFree (filled : Filled scan bound lookup) :
    lookup.table.HasFree := by
  apply Table.hasFree_of_occupied_lt
  have size : lookup.table.size = lookup.slots.slotCount := rfl
  rw [size]
  exact Nat.lt_of_le_of_lt
    (filled.counted.trans (scan.deltasBelow_le bound)) filled.large

/-- New slots have no base yet. -/
theorem Filled.empty (wellFormed : slots.WellFormed)
    (large : scan.refDeltaCount < slots.slotCount)
    (unused : ∀ slot, slots.used slot = false) :
    Filled scan 0
      { slots := slots
        resolvedEntries := fun _ => none
        entrySlots := fun _ => none } := by
  have free : ∀ slot, slots.oidAt slot = none := by
    intro slot
    exact Slots.oidAt_eq_none.mpr (unused slot)
  constructor
  · exact wellFormed
  · exact Table.Placed.of_free free
  · exact large
  · exact Nat.le_of_eq (Table.occupied_of_free free _) |>.trans
      (Nat.zero_le _)
  · intro i oid impossible
    exact absurd impossible (Nat.not_lt_zero i)
  · intro i _
    rfl
  · intro slot
    rfl
  · intro slot oid held
    cases (free slot).symm.trans held

theorem RefDeltaScan.lt_of_baseOid (scan : RefDeltaScan)
    (based : scan.baseOid i = some oid) :
    i < scan.objectCount := by
  unfold baseOid at based
  split at based
  · next delta => exact (List.getElem?_eq_some_iff.mp delta).choose
  · cases based

theorem Filled.sound (filled : Filled scan scan.objectCount lookup) :
    lookup.Sound scan where
  wellFormed := filled.wellFormed
  placed := filled.placed
  hasFree := filled.hasFree
  entry := fun i oid based =>
    filled.entry i oid (scan.lt_of_baseOid based) based
  other := fun i none_ => filled.other i (.inr none_)
  named := filled.named

/-- A call on the table of reference bases. -/
inductive RefBaseCall where
  | note (oidBuffer : Bytes) (entryIndex : Nat)
      (fits : entryIndex * 20 + 20 ≤ oidBuffer.length)
  | resolved (entryIndex : Nat)

/-- The table after the calls, and the bases that were returned. -/
def refBaseCalls :
    RefBaseLookup → List RefBaseCall →
      Except LookupFailure (RefBaseLookup × List (Option Nat))
  | lookup, [] => .ok (lookup, [])
  | lookup, .note oidBuffer entryIndex _ :: calls => do
      let lookup ← noteResolvedEntry lookup oidBuffer entryIndex
      refBaseCalls lookup calls
  | lookup, .resolved entryIndex :: calls => do
      let (after, answers) ← refBaseCalls lookup calls
      .ok (after, getResolvedBaseEntry lookup entryIndex :: answers)

/-- The same calls on a dictionary, which a reference delta reads at the id
that it names. -/
def notedCalls (scan : RefDeltaScan) :
    (RawOid → Option Nat) → List RefBaseCall →
      (RawOid → Option Nat) × List (Option Nat)
  | noted, [] => (noted, [])
  | noted, .note oidBuffer entryIndex _ :: calls =>
    notedCalls scan
      (Function.update noted
        (.ofBytes (subarray oidBuffer (entryIndex * 20) 20))
        (some entryIndex))
      calls
  | noted, .resolved entryIndex :: calls =>
    let rest := notedCalls scan noted calls
    (rest.1, (scan.baseOid entryIndex).bind noted :: rest.2)

/-- The slots have the entries of the dictionary. -/
structure RefBaseMirrors (scan : RefDeltaScan) (lookup : RefBaseLookup)
    (noted : RawOid → Option Nat) : Prop where
  sound : lookup.Sound scan
  noted_eq : ∀ slot oid, slot < lookup.slots.slotCount →
    lookup.table.keyAt slot = some oid →
      lookup.resolvedEntries slot = noted oid

variable {noted : RawOid → Option Nat}

theorem RefBaseMirrors.getResolvedBaseEntry_eq
    (mirrors : RefBaseMirrors scan lookup noted) (entryIndex : Nat) :
    getResolvedBaseEntry lookup entryIndex =
      (scan.baseOid entryIndex).bind noted := by
  unfold getResolvedBaseEntry
  cases based : scan.baseOid entryIndex with
  | none =>
    rw [mirrors.sound.other entryIndex based]
    rfl
  | some oid =>
    rcases mirrors.sound.entry entryIndex oid based with
      ⟨slot, within, entry, held⟩
    rw [entry]
    exact mirrors.noted_eq slot oid within held

/-- Noting an entry ends, and changes the dictionary at its id. -/
theorem RefBaseMirrors.note (mirrors : RefBaseMirrors scan lookup noted)
    {oidBuffer : Bytes} {entryIndex : Nat}
    (fits : entryIndex * 20 + 20 ≤ oidBuffer.length) :
    ∃ after, noteResolvedEntry lookup oidBuffer entryIndex = .ok after ∧
      RefBaseMirrors scan after
        (Function.update noted
          (.ofBytes (subarray oidBuffer (entryIndex * 20) 20))
          (some entryIndex)) := by
  have length : (subarray oidBuffer (entryIndex * 20) 20).length = 20 := by
    unfold subarray
    rw [List.length_take, List.length_drop]
    omega
  have bytes := (ofBytes_eq_iff length _).mp rfl
  generalize RawOid.ofBytes (subarray oidBuffer (entryIndex * 20) 20) = oid
    at bytes ⊢
  rcases findExistingSlot_ends mirrors.sound oid with ⟨found, ended, spec⟩
  unfold noteResolvedEntry
  rw [bytes, ended]
  cases found with
  | none =>
    refine ⟨lookup, rfl, mirrors.sound, ?_⟩
    intro slot other within held
    have apart : other ≠ oid := by
      rintro rfl
      cases (spec slot).mpr ⟨within, held⟩
    rw [Function.update_of_ne apart]
    exact mirrors.noted_eq slot other within held
  | some place =>
    rcases (spec place).mp rfl with ⟨inside, here⟩
    have placed := mirrors.sound.placed
    refine ⟨_, rfl, ⟨mirrors.sound.wellFormed,
      ⟨placed.once, placed.reached⟩, mirrors.sound.hasFree,
      mirrors.sound.entry, mirrors.sound.other, mirrors.sound.named⟩, ?_⟩
    intro slot other within held
    dsimp only
    by_cases same : other = oid
    · subst same
      rw [placed.once slot place other within inside held here,
        Function.update_self, Function.update_self]
    · have apart : slot ≠ place := by
        rintro rfl
        exact same (Option.some.inj (held.symm.trans here))
      rw [Function.update_of_ne apart, Function.update_of_ne same]
      exact mirrors.noted_eq slot other within held

/-- The calls answer as those on the dictionary. -/
theorem RefBaseMirrors.calls (calls : List RefBaseCall)
    (mirrors : RefBaseMirrors scan lookup noted) :
    ∃ after,
      refBaseCalls lookup calls =
          .ok (after, (notedCalls scan noted calls).2) ∧
        RefBaseMirrors scan after (notedCalls scan noted calls).1 := by
  induction calls generalizing lookup noted with
  | nil => exact ⟨lookup, rfl, mirrors⟩
  | cons call calls ih =>
    cases call with
    | note oidBuffer entryIndex fits =>
      rcases mirrors.note fits with ⟨next, stored, rest⟩
      unfold refBaseCalls
      rw [stored]
      exact ih rest
    | resolved entryIndex =>
      rcases ih mirrors with ⟨after, ran, rest⟩
      refine ⟨after, ?_, rest⟩
      unfold refBaseCalls
      rw [ran, mirrors.getResolvedBaseEntry_eq]
      rfl

end GitOnCloudflare.Pack.OidLookup
