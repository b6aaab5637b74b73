import GitOnCloudflare.Foundations.CheckedFold
import GitOnCloudflare.Pack.OidLookupSlots

/-!
# The id tables are dictionaries

After any calls the owner table answers as a dictionary from ids to rows does,
also when it grew on the way, and the table of reference bases answers as a
dictionary from ids to resolved entries.  A free slot is left after every call.
-/

namespace GitOnCloudflare.Pack.OidLookup

open Foundations
open Foundations.OpenAddressing

/-! ## The owner table -/

namespace SelectedOidLookup

def table (lookup : SelectedOidLookup) : Table RawOid (Option Nat) :=
  lookup.slots.table lookup.owners

/-- The table is in order and below its load factor. -/
structure Sound (lookup : SelectedOidLookup) : Prop where
  wellFormed : lookup.slots.WellFormed
  placed : lookup.table.Placed home
  counted : lookup.count = lookup.table.occupied lookup.slots.slotCount
  load : lookup.count * 10 ≤ lookup.slots.slotCount * 7
  large : 16 ≤ lookup.slots.slotCount

variable {lookup : SelectedOidLookup}

theorem Sound.hasFree (sound : lookup.Sound) : lookup.table.HasFree := by
  apply Table.hasFree_of_occupied_lt
  have load := sound.load
  have large := sound.large
  have counted := sound.counted
  have size : lookup.table.size = lookup.slots.slotCount := rfl
  rw [size, ← counted]
  omega

/-- The next id fits under the load factor. -/
def HasRoom (lookup : SelectedOidLookup) : Prop :=
  (lookup.count + 1) * 10 ≤ lookup.slots.slotCount * 7

end SelectedOidLookup

open SelectedOidLookup

variable {lookup : SelectedOidLookup}

/-- A lookup ends, with the value of the id or with none. -/
theorem findSelectedOidOwner_ends (sound : lookup.Sound) (view : OidView) :
    ∃ owner, findSelectedOidOwner lookup view.rawBytes view.start =
        .ok owner ∧
      (∀ value, lookup.table.Holds view.oid value → owner = value) ∧
      ((∀ value, ¬ lookup.table.Holds view.oid value) → owner = none) := by
  rcases sound.wellFormed.probeFromHash_ends lookup.owners sound.hasFree
      view with ⟨distance, probes, ended⟩
  have found := @Table.Probes.found_iff _ _ home lookup.table view.oid
    distance
  unfold findSelectedOidOwner
  rw [ended]
  by_cases used : lookup.slots.used
      (lookup.table.walk (home view.oid) distance) = true
  · refine ⟨_, if_pos used, ?_, ?_⟩
    · intro value holds
      exact ((found probes sound.placed).mp holds).2
    · intro absent
      exact absurd
        ((found probes sound.placed).mpr
          ⟨(Slots.used_iff_of_stops probes.stops).mp used, rfl⟩) (absent _)
  · refine ⟨_, if_neg used, ?_, fun _ => rfl⟩
    intro value holds
    exact absurd
      ((Slots.used_iff_of_stops probes.stops).mpr
        ((found probes sound.placed).mp holds).1) used

/-- What a table with the values of another one, but one id, looks like. -/
structure Stored (before after : SelectedOidLookup) (oid : RawOid)
    (ownerSel : Option Nat) : Prop where
  sound : after.Sound
  slotCount_eq : after.slots.slotCount = before.slots.slotCount
  holds : ∀ other value, after.table.Holds other value ↔
    other = oid ∧ value = ownerSel ∨
      other ≠ oid ∧ before.table.Holds other value
  count_new : (∀ value, ¬ before.table.Holds oid value) →
    after.count = before.count + 1

variable {after : SelectedOidLookup} {runtime : ArrayRuntime}
  {owned : RawOid → Option Nat}
  {oid : RawOid} {ownerSel : Option Nat}
  {slot slotCount minimumEntries : Nat} {created : SelectedOidLookup}

/-- Writing where the probe stopped, with the count kept up. -/
theorem Stored.of_write {distance : Nat} (sound : lookup.Sound)
    (room : lookup.HasRoom)
    (probes : lookup.table.Probes (home oid) oid distance)
    (wellFormed : after.slots.WellFormed)
    (written : after.table =
      lookup.table.write (lookup.table.walk (home oid) distance) oid
        ownerSel)
    (count :
      lookup.table.keyAt (lookup.table.walk (home oid) distance) =
          some oid ∧ after.count = lookup.count ∨
        lookup.table.keyAt (lookup.table.walk (home oid) distance) = none ∧
          after.count = lookup.count + 1) :
    Stored lookup after oid ownerSel := by
  have size : after.slots.slotCount = lookup.slots.slotCount :=
    congrArg Table.size written
  unfold HasRoom at room
  constructor
  · constructor
    · exact wellFormed
    · rw [written]
      exact probes.placed_write sound.placed ownerSel
    · rw [written, size]
      rcases count with ⟨held, count⟩ | ⟨free, count⟩
      · rw [count, sound.counted]
        refine (Table.occupied_write_used ?_ oid ownerSel).symm
        rw [held]
        exact Option.some_ne_none oid
      · rw [count, sound.counted]
        exact (Table.occupied_write_free probes.slot_lt free oid
          ownerSel).symm
    · rw [size]
      rcases count with ⟨_, count⟩ | ⟨_, count⟩
      · omega
      · omega
    · rw [size]
      exact sound.large
  · exact size
  · intro other value
    rw [written]
    exact probes.holds_write sound.placed ownerSel other value
  · intro absent
    rcases count with ⟨held, _⟩ | ⟨_, count⟩
    · exact absurd
        ((probes.found_iff sound.placed).mpr ⟨held, rfl⟩) (absent _)
    · exact count

/-- With room for one more id, storing one ends. -/
theorem storeSelectedOidOwner_ends (sound : lookup.Sound)
    (room : lookup.HasRoom) (view : OidView) (ownerSel : Option Nat) :
    ∃ after, storeSelectedOidOwner lookup view.rawBytes view.start ownerSel =
        .ok after ∧ Stored lookup after view.oid ownerSel := by
  rcases sound.wellFormed.probeFromHash_ends lookup.owners sound.hasFree
      view with ⟨distance, probes, ended⟩
  unfold storeSelectedOidOwner
  rw [ended]
  by_cases used : lookup.slots.used
      (lookup.table.walk (home view.oid) distance) = true
  · have held : lookup.table.keyAt
        (lookup.table.walk (home view.oid) distance) = some view.oid :=
      (Slots.used_iff_of_stops probes.stops).mp used
    refine ⟨_, if_pos used, ?_⟩
    apply Stored.of_write sound room probes
    · exact sound.wellFormed
    · exact (Table.write_of_held held ownerSel).symm
    · exact .inl ⟨held, rfl⟩
  · rcases sound.wellFormed.take_ok view probes.slot_lt with
      ⟨taken, took, wellFormed, slotCount, oidAt⟩
    have free := Slots.oidAt_eq_none.mpr (Bool.eq_false_of_not_eq_true used)
    refine
      ⟨{ count := lookup.count + 1
         slots := taken
         owners := Function.update lookup.owners
          (lookup.table.walk (home view.oid) distance) ownerSel }, ?_, ?_⟩
    · refine (if_neg used).trans ?_
      exact CheckedFold.bind_eq_ok.mpr ⟨taken, took, rfl⟩
    apply Stored.of_write sound room probes
    · exact wellFormed
    · unfold SelectedOidLookup.table Slots.table Table.write
      dsimp only
      rw [slotCount, oidAt]
      rfl
    · exact .inr ⟨free, rfl⟩

/-! ## Growing -/

/-- A call that finds room does not rehash. -/
theorem setSelectedOidOwner_roomy (runtime : ArrayRuntime) (depth : Nat)
    (room : lookup.HasRoom) (rawBytes : Bytes) (start : Nat)
    (ownerSel : Option Nat) :
    setSelectedOidOwner runtime (depth + 1) lookup rawBytes start ownerSel =
      storeSelectedOidOwner lookup rawBytes start ownerSel := by
  have ensured : ensureSelectedOidLookupCapacity runtime
      (setSelectedOidOwner runtime depth) lookup = .ok lookup := if_pos room
  rw [setSelectedOidOwner, ensured]
  rfl

/-- The bytes of a slot. -/
def SelectedOidLookup.Sound.slotView (sound : lookup.Sound) {slot : Nat}
    (within : slot < lookup.slots.slotCount) : OidView where
  rawBytes := lookup.slots.keys
  start := slot * 20
  fits := by
    rw [sound.wellFormed.length_keys]
    omega

theorem SelectedOidLookup.Sound.keyAt_slotView (sound : lookup.Sound)
    (within : slot < lookup.slots.slotCount)
    (used : lookup.slots.used slot = true) :
    lookup.table.keyAt slot = some (sound.slotView within).oid := by
  have read : lookup.table.keyAt slot =
      some (.ofBytes (subarray lookup.slots.keys (slot * 20) 20)) :=
    if_pos used
  rw [read]
  exact congrArg some
    ((ofBytes_eq_iff (sound.wellFormed.length_key within) _).mpr rfl)

/-- A new table of a power of two of slots is in order and empty. -/
theorem emptySelectedOidLookup_sound
    (empty : emptySelectedOidLookup runtime slotCount = .ok created)
    (power : ∃ exponent, slotCount = 2 ^ exponent) (large : 16 ≤ slotCount) :
    created.Sound ∧ created.slots.slotCount = slotCount ∧
      created.count = 0 ∧
      ∀ oid value, ¬ created.table.Holds oid value := by
  unfold emptySelectedOidLookup at empty
  rcases CheckedFold.bind_eq_ok.mp empty with ⟨slots, allocated, rest⟩
  cases rest
  rcases allocateSlots_ok allocated power with ⟨wellFormed, size, unused⟩
  have free : ∀ slot, slots.oidAt slot = none := by
    intro slot
    exact Slots.oidAt_eq_none.mpr (unused slot)
  refine ⟨⟨wellFormed, Table.Placed.of_free free, ?_, ?_, ?_⟩, size, rfl,
    ?_⟩
  · exact (Table.occupied_of_free free _).symm
  · rw [Nat.zero_mul]
    exact Nat.zero_le _
  · exact size ▸ large
  · rintro oid value ⟨slot, _, held, _⟩
    cases (free slot).symm.trans held

theorem emptySelectedOidLookup_error {failure : LookupFailure}
    (refused : emptySelectedOidLookup runtime slotCount = .error failure) :
    failure = .rangeError := by
  unfold emptySelectedOidLookup at refused
  cases allocated : allocateSlots runtime slotCount with
  | error other =>
    rw [allocated] at refused
    cases refused
    exact allocateSlots_error allocated
  | ok slots =>
    rw [allocated] at refused
    cases refused

/-- What a grown table looks like. -/
structure Grown (before after : SelectedOidLookup) : Prop where
  sound : after.Sound
  slotCount_eq : after.slots.slotCount = before.slots.slotCount * 2
  count_eq : after.count = before.count
  holds : ∀ oid value,
    after.table.Holds oid value ↔ before.table.Holds oid value

/-- The new arrays after the first slots were moved. -/
structure Moved (before after : SelectedOidLookup) (bound : Nat) : Prop where
  sound : after.Sound
  slotCount_eq : after.slots.slotCount = before.slots.slotCount * 2
  count_eq : after.count = before.table.occupied bound
  holds : ∀ oid value,
    after.table.Holds oid value ↔ before.table.HoldsBelow bound oid value

theorem Moved.hasRoom {bound : Nat} (sound : lookup.Sound)
    (moved : Moved lookup after bound) (within : bound ≤ lookup.slots.slotCount) :
    after.HasRoom := by
  have fewer : lookup.table.occupied bound ≤
      lookup.table.occupied lookup.slots.slotCount :=
    Table.occupied_le_of_le within
  have counted := sound.counted
  have load := sound.load
  have large := sound.large
  unfold HasRoom
  rw [moved.slotCount_eq, moved.count_eq]
  omega

/-- Moving one slot ends. -/
theorem moveSlot_ends (runtime : ArrayRuntime) (depth : Nat)
    (sound : lookup.Sound) (within : slot < lookup.slots.slotCount)
    (moved : Moved lookup after slot) :
    ∃ next, moveSlot (setSelectedOidOwner runtime (depth + 1)) lookup after
        slot = .ok next ∧ Moved lookup next (slot + 1) := by
  unfold moveSlot
  by_cases used : lookup.slots.used slot = true
  · have key := sound.keyAt_slotView within used
    have room := moved.hasRoom sound (Nat.le_of_lt within)
    rcases storeSelectedOidOwner_ends moved.sound room
        (sound.slotView within) (lookup.owners slot) with
      ⟨next, stored, spec⟩
    refine ⟨next, ?_, spec.sound, ?_, ?_, ?_⟩
    · rw [if_pos used, setSelectedOidOwner_roomy runtime depth room]
      exact stored
    · rw [spec.slotCount_eq, moved.slotCount_eq]
    · rw [spec.count_new, moved.count_eq, Table.occupied_succ, key]
      · rfl
      · intro value holds
        exact sound.placed.not_holdsBelow within key value
          ((moved.holds _ _).mp holds)
    · intro oid value
      rw [spec.holds, moved.holds, Table.holdsBelow_succ, key]
      have owner : lookup.table.valueAt slot = lookup.owners slot := rfl
      rw [owner]
      constructor
      · rintro (⟨rfl, rfl⟩ | ⟨_, below⟩)
        · exact .inr ⟨rfl, rfl⟩
        · exact .inl below
      · rintro (below | ⟨same, rfl⟩)
        · refine .inr ⟨?_, below⟩
          rintro rfl
          exact sound.placed.not_holdsBelow within key value below
        · exact .inl ⟨(Option.some.inj same).symm, rfl⟩
  · have free : lookup.table.keyAt slot = none :=
      Slots.oidAt_eq_none.mpr (Bool.eq_false_of_not_eq_true used)
    refine ⟨after, if_neg used, moved.sound, moved.slotCount_eq, ?_, ?_⟩
    · rw [moved.count_eq, Table.occupied_succ, free]
      rfl
    · intro oid value
      rw [moved.holds, Table.holdsBelow_succ, free]
      constructor
      · exact .inl
      · rintro (below | ⟨same, _⟩)
        · exact below
        · cases same

/-- A rehash ends, or has no memory for the new arrays. -/
theorem rehashSelectedOidLookup_ends (runtime : ArrayRuntime) (depth : Nat)
    (sound : lookup.Sound) :
    rehashSelectedOidLookup runtime (setSelectedOidOwner runtime (depth + 1))
        lookup (lookup.slots.slotCount * 2) = .error .rangeError ∨
      ∃ next,
        rehashSelectedOidLookup runtime
            (setSelectedOidOwner runtime (depth + 1)) lookup
            (lookup.slots.slotCount * 2) = .ok next ∧
          Grown lookup next := by
  unfold rehashSelectedOidLookup
  cases empty : emptySelectedOidLookup runtime
      (lookup.slots.slotCount * 2) with
  | error failure =>
    rw [emptySelectedOidLookup_error empty]
    exact .inl rfl
  | ok created =>
    rcases sound.wellFormed.powerOfTwo with ⟨exponent, power⟩
    have large := sound.large
    rcases emptySelectedOidLookup_sound empty
        ⟨exponent + 1, by rw [power, Nat.pow_succ]⟩ (by omega) with
      ⟨fresh, size, count, none_⟩
    have start : Moved lookup created 0 := by
      refine ⟨fresh, size, count, ?_⟩
      intro oid value
      constructor
      · intro holds
        exact absurd holds (none_ oid value)
      · intro holds
        exact absurd holds (Table.holdsBelow_zero oid value)
    rcases CheckedFold.foldlM_range_total lookup.slots.slotCount
        (fun bound next => Moved lookup next bound) created start
        (fun slot after within moved =>
          moveSlot_ends runtime depth sound within moved) with
      ⟨next, folded, moved⟩
    refine .inr ⟨next, folded, moved.sound, moved.slotCount_eq, ?_,
      moved.holds⟩
    rw [moved.count_eq, sound.counted]

/-- A store with enough depth ends, or has no memory to grow. -/
theorem setSelectedOidOwner_ends (runtime : ArrayRuntime) (depth : Nat)
    (sound : lookup.Sound) (view : OidView) (ownerSel : Option Nat) :
    setSelectedOidOwner runtime (depth + 2) lookup view.rawBytes view.start
        ownerSel = .error .rangeError ∨
      ∃ after,
        setSelectedOidOwner runtime (depth + 2) lookup view.rawBytes
            view.start ownerSel = .ok after ∧
          after.Sound ∧
          ∀ other value, after.table.Holds other value ↔
            other = view.oid ∧ value = ownerSel ∨
              other ≠ view.oid ∧ lookup.table.Holds other value := by
  by_cases room : lookup.HasRoom
  · rcases storeSelectedOidOwner_ends sound room view ownerSel with
      ⟨after, stored, spec⟩
    refine .inr ⟨after, ?_, spec.sound, spec.holds⟩
    rw [setSelectedOidOwner_roomy runtime (depth + 1) room]
    exact stored
  · have ensured : ensureSelectedOidLookupCapacity runtime
          (setSelectedOidOwner runtime (depth + 1)) lookup =
        rehashSelectedOidLookup runtime
          (setSelectedOidOwner runtime (depth + 1)) lookup
          (lookup.slots.slotCount * 2) := if_neg room
    rw [setSelectedOidOwner, ensured]
    rcases rehashSelectedOidLookup_ends runtime depth sound with
      refused | ⟨next, rehashed, grown⟩
    · rw [refused]
      exact .inl rfl
    · have load := sound.load
      have large := sound.large
      have roomy : next.HasRoom := by
        unfold HasRoom
        rw [grown.slotCount_eq, grown.count_eq]
        omega
      rcases storeSelectedOidOwner_ends grown.sound roomy view ownerSel with
        ⟨after, stored, spec⟩
      refine .inr ⟨after, ?_, spec.sound, ?_⟩
      · rw [rehashed]
        exact stored
      · intro other value
        rw [spec.holds, grown.holds]

/-! ## Calls on the owner table -/

/-- A call on the owner table. -/
inductive OwnerCall where
  | find (oid : OidView)
  | set (oid : OidView) (ownerSel : Option Nat)

/-- The table after the calls, and what the lookups returned. -/
def ownerCalls (runtime : ArrayRuntime) (depth : Nat) :
    SelectedOidLookup → List OwnerCall →
      Except LookupFailure (SelectedOidLookup × List (Option Nat))
  | lookup, [] => .ok (lookup, [])
  | lookup, .find view :: calls => do
      let owner ← findSelectedOidOwner lookup view.rawBytes view.start
      let (lookup, answers) ← ownerCalls runtime depth lookup calls
      .ok (lookup, owner :: answers)
  | lookup, .set view ownerSel :: calls => do
      let lookup ←
        setSelectedOidOwner runtime depth lookup view.rawBytes view.start
          ownerSel
      ownerCalls runtime depth lookup calls

/-- The same calls on a dictionary. -/
def dictionaryCalls :
    (RawOid → Option Nat) → List OwnerCall →
      (RawOid → Option Nat) × List (Option Nat)
  | owned, [] => (owned, [])
  | owned, .find view :: calls =>
    let rest := dictionaryCalls owned calls
    (rest.1, owned view.oid :: rest.2)
  | owned, .set view ownerSel :: calls =>
    dictionaryCalls (Function.update owned view.oid ownerSel) calls

/-- The table has the values of the dictionary. -/
structure Mirrors (lookup : SelectedOidLookup)
    (owned : RawOid → Option Nat) : Prop where
  sound : lookup.Sound
  held : ∀ oid value, lookup.table.Holds oid value → owned oid = value
  absent : ∀ oid, (∀ value, ¬ lookup.table.Holds oid value) →
    owned oid = none

/-- A lookup returns what the dictionary has. -/
theorem Mirrors.find (mirrors : Mirrors lookup owned) (view : OidView) :
    findSelectedOidOwner lookup view.rawBytes view.start =
      .ok (owned view.oid) := by
  rcases findSelectedOidOwner_ends mirrors.sound view with
    ⟨owner, found, held, absent⟩
  rw [found]
  by_cases known : ∃ value, lookup.table.Holds view.oid value
  · rcases known with ⟨value, holds⟩
    rw [held value holds, mirrors.held view.oid value holds]
  · have none_ : ∀ value, ¬ lookup.table.Holds view.oid value :=
      fun value holds => known ⟨value, holds⟩
    rw [absent none_, mirrors.absent view.oid none_]

/-- A table with one more id mirrors the changed dictionary. -/
theorem Mirrors.update (mirrors : Mirrors lookup owned) (sound : after.Sound)
    (holds : ∀ other value, after.table.Holds other value ↔
      other = oid ∧ value = ownerSel ∨
        other ≠ oid ∧ lookup.table.Holds other value) :
    Mirrors after (Function.update owned oid ownerSel) := by
  constructor
  · exact sound
  · intro other value has
    rcases (holds other value).mp has with ⟨rfl, rfl⟩ | ⟨apart, had⟩
    · exact Function.update_self other value owned
    · rw [Function.update_of_ne apart]
      exact mirrors.held other value had
  · intro other none_
    have apart : other ≠ oid := by
      rintro rfl
      exact none_ ownerSel ((holds other ownerSel).mpr (.inl ⟨rfl, rfl⟩))
    rw [Function.update_of_ne apart]
    apply mirrors.absent
    intro value had
    exact none_ value ((holds other value).mpr (.inr ⟨apart, had⟩))

/-- The calls answer as those on the dictionary, unless there is no memory to
grow. -/
theorem Mirrors.calls (runtime : ArrayRuntime) (depth : Nat)
    (calls : List OwnerCall) (mirrors : Mirrors lookup owned) :
    ownerCalls runtime (depth + 2) lookup calls = .error .rangeError ∨
      ∃ after,
        ownerCalls runtime (depth + 2) lookup calls =
            .ok (after, (dictionaryCalls owned calls).2) ∧
          Mirrors after (dictionaryCalls owned calls).1 := by
  induction calls generalizing lookup owned with
  | nil => exact .inr ⟨lookup, rfl, mirrors⟩
  | cons call calls ih =>
    cases call with
    | find view =>
      unfold ownerCalls
      rw [mirrors.find view]
      rcases ih mirrors with refused | ⟨after, ran, rest⟩
      · refine .inl ?_
        rw [refused]
        rfl
      · refine .inr ⟨after, ?_, rest⟩
        rw [ran]
        rfl
    | set view ownerSel =>
      unfold ownerCalls
      rcases setSelectedOidOwner_ends runtime depth mirrors.sound view
          ownerSel with refused | ⟨next, stored, sound, holds⟩
      · refine .inl ?_
        rw [refused]
        rfl
      · rw [stored]
        exact ih (mirrors.update sound holds)

end GitOnCloudflare.Pack.OidLookup
