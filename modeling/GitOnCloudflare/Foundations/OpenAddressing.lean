import Mathlib.Data.Finset.Card
import Mathlib.Data.Finset.Range
import Mathlib.Data.Nat.Find
import Mathlib.Logic.Function.Basic

/-!
# Linear probing

A table of slots in which a key stands in the first slot, counted from its
hash around the end of the table, that was free when the key came.  A free slot
ends every probe, so a table that is never full finds each key it holds and no
other.
-/

namespace GitOnCloudflare.Foundations.OpenAddressing

universe u v

/-- The slots of a table; a slot without a key is free. -/
structure Table (Key : Type u) (Value : Type v) where
  size : Nat
  keyAt : Nat → Option Key
  valueAt : Nat → Value

namespace Table

variable {Key : Type u} {Value : Type v}

/-- The slot of a walk from a hash after a number of steps. -/
def walk (table : Table Key Value) (hash distance : Nat) : Nat :=
  (hash + distance) % table.size

/-- A slot at which a probe for the key stops. -/
def Stops (table : Table Key Value) (key : Key) (slot : Nat) : Prop :=
  table.keyAt slot = none ∨ table.keyAt slot = some key

/-- The walk passes only slots of other keys before it stops. -/
structure Probes (table : Table Key Value) (hash : Nat) (key : Key)
    (distance : Nat) : Prop where
  within : distance < table.size
  passes : ∀ earlier < distance, ¬ table.Stops key (table.walk hash earlier)
  stops : table.Stops key (table.walk hash distance)

/-- Every key stands where a walk from its hash comes to it before it comes to
a free slot, and stands in one slot only. -/
structure Placed (hash : Key → Nat) (table : Table Key Value) : Prop where
  once : ∀ first second key, first < table.size → second < table.size →
    table.keyAt first = some key → table.keyAt second = some key →
      first = second
  reached : ∀ slot key, slot < table.size → table.keyAt slot = some key →
    ∃ distance < table.size, table.walk (hash key) distance = slot ∧
      ∀ earlier < distance,
        table.keyAt (table.walk (hash key) earlier) ≠ none

/-- A slot below the bound has the key and the value. -/
def HoldsBelow (table : Table Key Value) (bound : Nat) (key : Key)
    (value : Value) : Prop :=
  ∃ slot < bound, table.keyAt slot = some key ∧ table.valueAt slot = value

/-- The table maps the key to the value. -/
def Holds (table : Table Key Value) (key : Key) (value : Value) : Prop :=
  table.HoldsBelow table.size key value

def HasFree (table : Table Key Value) : Prop :=
  ∃ slot < table.size, table.keyAt slot = none

/-- The number of slots below the bound that have a key. -/
def occupied (table : Table Key Value) (bound : Nat) : Nat :=
  ((Finset.range bound).filter fun slot =>
    (table.keyAt slot).isSome = true).card

/-- From a slot on, the first one that is free or has the key. -/
def probe [DecidableEq Key] (table : Table Key Value) (key : Key) :
    Nat → Nat → Option Nat
  | 0, _ => none
  | rounds + 1, slot =>
    match table.keyAt slot with
    | none => some slot
    | some held =>
      if held = key then
        some slot
      else
        probe table key rounds ((slot + 1) % table.size)

/-- Put a key and its value into a slot. -/
def write (table : Table Key Value) (slot : Nat) (key : Key)
    (value : Value) : Table Key Value :=
  { table with
    keyAt := Function.update table.keyAt slot (some key)
    valueAt := Function.update table.valueAt slot value }

variable {hash : Key → Nat} {table : Table Key Value} {key : Key}

/-! ## Where a probe stops -/

variable {distance start slot other : Nat} {value : Value}

theorem walk_lt (positive : 0 < table.size) :
    table.walk start distance < table.size :=
  Nat.mod_lt _ positive

/-- A walk comes to every slot. -/
theorem walk_surjective (start : Nat) (within : slot < table.size) :
    ∃ distance < table.size, table.walk start distance = slot := by
  have positive : 0 < table.size := Nat.lt_of_le_of_lt (Nat.zero_le _) within
  have home : start % table.size < table.size := Nat.mod_lt _ positive
  by_cases before : start % table.size ≤ slot
  · refine ⟨slot - start % table.size, by omega, ?_⟩
    unfold walk
    rw [← Nat.mod_add_mod, Nat.add_sub_cancel' before,
      Nat.mod_eq_of_lt within]
  · refine ⟨table.size + slot - start % table.size, by omega, ?_⟩
    unfold walk
    rw [← Nat.mod_add_mod, Nat.add_sub_cancel' (by omega),
      Nat.add_mod_left, Nat.mod_eq_of_lt within]

/-- A table with a free slot ends every probe. -/
theorem HasFree.probes (free : table.HasFree) (start : Nat) (key : Key) :
    ∃ distance, table.Probes start key distance := by
  classical
  rcases free with ⟨slot, within, empty⟩
  rcases walk_surjective start within with ⟨reach, near, arrives⟩
  have some_ : ∃ distance, table.Stops key (table.walk start distance) :=
    ⟨reach, .inl (by rw [arrives, empty])⟩
  refine ⟨Nat.find some_, ?_, fun earlier sooner => Nat.find_min some_ sooner,
    Nat.find_spec some_⟩
  have least : Nat.find some_ ≤ reach :=
    Nat.find_min' some_ (.inl (by rw [arrives, empty]))
  omega

theorem Probes.slot_lt (probes : table.Probes start key distance) :
    table.walk start distance < table.size :=
  walk_lt (Nat.lt_of_le_of_lt (Nat.zero_le _) probes.within)

/-- A probe for a key of the table stops where the key stands. -/
theorem Probes.held (probes : table.Probes (hash key) key distance)
    (placed : table.Placed hash) (within : slot < table.size)
    (holds : table.keyAt slot = some key) :
    table.walk (hash key) distance = slot := by
  rcases probes.stops with free | found
  · rcases placed.reached slot key within holds with
      ⟨reach, _, arrives, occupied⟩
    rcases Nat.lt_trichotomy distance reach with sooner | equal | later
    · exact absurd free (occupied distance sooner)
    · rw [equal, arrives]
    · refine absurd (.inr ?_) (probes.passes reach later)
      rw [arrives, holds]
  · exact placed.once _ _ key probes.slot_lt within found holds

/-- A probe stops at the key exactly when the table has it. -/
theorem Probes.found_iff {distance : Nat} {value : Value}
    (probes : table.Probes (hash key) key distance) (placed : table.Placed hash) :
    table.Holds key value ↔
      table.keyAt (table.walk (hash key) distance) = some key ∧
        table.valueAt (table.walk (hash key) distance) = value := by
  constructor
  · rintro ⟨slot, within, holds, valued⟩
    rw [probes.held placed within holds]
    exact ⟨holds, valued⟩
  · rintro ⟨holds, valued⟩
    exact ⟨_, probes.slot_lt, holds, valued⟩

/-- A probe that stops at a free slot shows that the key is nowhere. -/
theorem Probes.absent (probes : table.Probes (hash key) key distance)
    (placed : table.Placed hash)
    (free : table.keyAt (table.walk (hash key) distance) = none)
    (within : slot < table.size) : table.keyAt slot ≠ some key := by
  intro holds
  rw [probes.held placed within holds, holds] at free
  cases free

/-! ## Writing where a probe stops -/

theorem keyAt_write (slot other : Nat) (key : Key) (value : Value) :
    (table.write slot key value).keyAt other =
      if other = slot then some key else table.keyAt other := by
  exact Function.update_apply table.keyAt slot (some key) other

theorem valueAt_write (slot other : Nat) (key : Key) (value : Value) :
    (table.write slot key value).valueAt other =
      if other = slot then value else table.valueAt other := by
  exact Function.update_apply table.valueAt slot value other

/-- A slot that has the key gets the value only. -/
theorem write_of_held (held : table.keyAt slot = some key) (value : Value) :
    table.write slot key value =
      { table with valueAt := Function.update table.valueAt slot value } := by
  have same : Function.update table.keyAt slot (some key) = table.keyAt := by
    rw [← held]
    exact Function.update_eq_self slot table.keyAt
  unfold write
  rw [same]

/-- A slot with a key keeps one. -/
theorem keyAt_write_ne_none {key : Key} (occupied : table.keyAt other ≠ none) :
    (table.write slot key value).keyAt other ≠ none := by
  rw [keyAt_write]
  split
  · exact Option.some_ne_none key
  · exact occupied

/-- After a write only its slot has the key of the write. -/
theorem Probes.keyAt_write_iff (probes : table.Probes (hash key) key distance)
    (placed : table.Placed hash) (within : slot < table.size) :
    (table.write (table.walk (hash key) distance) key value).keyAt slot =
        some key ↔
      slot = table.walk (hash key) distance := by
  rw [keyAt_write]
  constructor
  · intro holds
    by_contra apart
    rw [if_neg apart] at holds
    exact apart (probes.held placed within holds).symm
  · intro same
    rw [if_pos same]

/-- A slot that has another key after the write had it before. -/
theorem Probes.keyAt_write_other (probes : table.Probes (hash key) key distance)
    {other : Key} (apart : other ≠ key) :
    (table.write (table.walk (hash key) distance) key value).keyAt slot =
        some other ↔
      table.keyAt slot = some other := by
  rw [keyAt_write]
  by_cases same : slot = table.walk (hash key) distance
  · rw [if_pos same, same]
    constructor
    · intro holds
      exact absurd (Option.some.inj holds).symm apart
    · intro holds
      rcases probes.stops with free | found
      · rw [free] at holds
        cases holds
      · exact absurd (Option.some.inj (holds.symm.trans found)) apart
  · rw [if_neg same]

/-- Writing where the probe stopped keeps the table in order. -/
theorem Probes.placed_write (probes : table.Probes (hash key) key distance)
    (placed : table.Placed hash) (value : Value) :
    (table.write (table.walk (hash key) distance) key value).Placed
      hash := by
  constructor
  · intro first second other firstWithin secondWithin holds holds'
    by_cases same : other = key
    · subst same
      rw [(probes.keyAt_write_iff placed firstWithin).mp holds,
        (probes.keyAt_write_iff placed secondWithin).mp holds']
    · exact placed.once first second other firstWithin secondWithin
        ((probes.keyAt_write_other same).mp holds)
        ((probes.keyAt_write_other same).mp holds')
  · intro slot other within holds
    by_cases same : other = key
    · subst same
      refine ⟨distance, probes.within,
        ((probes.keyAt_write_iff placed within).mp holds).symm, ?_⟩
      intro earlier sooner
      apply keyAt_write_ne_none
      intro free
      exact probes.passes earlier sooner (.inl free)
    · rcases placed.reached slot other within
        ((probes.keyAt_write_other same).mp holds) with
        ⟨reach, near, arrives, occupied⟩
      refine ⟨reach, near, arrives, ?_⟩
      intro earlier sooner
      exact keyAt_write_ne_none (occupied earlier sooner)

/-- After the write the key has the new value and the others keep theirs. -/
theorem Probes.holds_write (probes : table.Probes (hash key) key distance)
    (placed : table.Placed hash) (value : Value) (other : Key) (found : Value) :
    (table.write (table.walk (hash key) distance) key value).Holds other
        found ↔
      other = key ∧ found = value ∨
        other ≠ key ∧ table.Holds other found := by
  constructor
  · rintro ⟨slot, within, holds, valued⟩
    rw [valueAt_write] at valued
    by_cases same : other = key
    · subst same
      rw [if_pos ((probes.keyAt_write_iff placed within).mp holds)] at valued
      exact .inl ⟨rfl, valued.symm⟩
    · have before := (probes.keyAt_write_other same).mp holds
      have apart : slot ≠ table.walk (hash key) distance := by
        intro equal
        rw [equal, keyAt_write, if_pos rfl] at holds
        exact same (Option.some.inj holds).symm
      rw [if_neg apart] at valued
      exact .inr ⟨same, slot, within, before, valued⟩
  · rintro (⟨rfl, rfl⟩ | ⟨same, slot, within, holds, valued⟩)
    · refine ⟨_, probes.slot_lt, ?_, ?_⟩
      · rw [keyAt_write, if_pos rfl]
      · rw [valueAt_write, if_pos rfl]
    · refine ⟨slot, within, (probes.keyAt_write_other same).mpr holds, ?_⟩
      rw [valueAt_write]
      split
      · next equal =>
        subst equal
        rcases probes.stops with free | found
        · rw [free] at holds
          cases holds
        · exact absurd (Option.some.inj (holds.symm.trans found)) same
      · exact valued

/-! ## Counting the slots -/

/-- A table with fewer keys than slots has a free slot. -/
theorem hasFree_of_occupied_lt
    (fewer : table.occupied table.size < table.size) : table.HasFree := by
  by_contra full
  have all : ((Finset.range table.size).filter fun slot =>
      (table.keyAt slot).isSome = true) = Finset.range table.size := by
    apply Finset.filter_true_of_mem
    intro slot inside
    by_contra free
    exact full ⟨slot, Finset.mem_range.mp inside,
      Option.not_isSome_iff_eq_none.mp free⟩
  unfold occupied at fewer
  rw [all, Finset.card_range] at fewer
  exact Nat.lt_irrefl _ fewer

theorem occupied_succ (bound : Nat) :
    table.occupied (bound + 1) =
      if (table.keyAt bound).isSome = true then
        table.occupied bound + 1
      else
        table.occupied bound := by
  unfold occupied
  rw [Finset.range_add_one, Finset.filter_insert]
  split
  · apply Finset.card_insert_of_notMem
    intro inside
    exact absurd (Finset.mem_range.mp (Finset.mem_filter.mp inside).1)
      (Nat.lt_irrefl bound)
  · rfl

theorem occupied_le_of_le {bound : Nat} (below : bound ≤ other) :
    table.occupied bound ≤ table.occupied other := by
  apply Finset.card_le_card
  apply Finset.filter_subset_filter
  exact Finset.range_subset_range.mpr below

/-- A write to a free slot takes it. -/
theorem occupied_write_free (within : slot < table.size)
    (free : table.keyAt slot = none) (key : Key) (value : Value) :
    (table.write slot key value).occupied table.size =
      table.occupied table.size + 1 := by
  have taken : ((Finset.range table.size).filter fun other =>
      ((table.write slot key value).keyAt other).isSome = true) =
      insert slot ((Finset.range table.size).filter fun other =>
        (table.keyAt other).isSome = true) := by
    ext other
    rw [Finset.mem_insert, Finset.mem_filter, Finset.mem_filter, keyAt_write,
      Finset.mem_range]
    by_cases same : other = slot
    · rw [if_pos same, same]
      exact ⟨fun _ => .inl rfl, fun _ => ⟨within, rfl⟩⟩
    · rw [if_neg same]
      exact ⟨.inr, fun either => either.resolve_left same⟩
  unfold occupied
  rw [taken, Finset.card_insert_of_notMem]
  intro inside
  have used := (Finset.mem_filter.mp inside).2
  rw [free] at used
  cases used

/-- A write to a slot that has a key takes none. -/
theorem occupied_write_used (used : table.keyAt slot ≠ none) (key : Key)
    (value : Value) :
    (table.write slot key value).occupied table.size =
      table.occupied table.size := by
  unfold occupied
  congr 1
  apply Finset.filter_congr
  intro other _
  rw [keyAt_write]
  split
  · next same =>
    subst same
    exact ⟨fun _ => Option.isSome_iff_ne_none.mpr used, fun _ => rfl⟩
  · exact Iff.rfl

/-! ## Tables without keys -/

theorem Placed.of_free (free : ∀ slot, table.keyAt slot = none) :
    table.Placed hash := by
  constructor
  · intro first second key _ _ held
    cases (free first).symm.trans held
  · intro slot key _ held
    cases (free slot).symm.trans held

theorem occupied_of_free (free : ∀ slot, table.keyAt slot = none)
    (bound : Nat) : table.occupied bound = 0 := by
  apply Finset.card_eq_zero.mpr
  apply Finset.filter_false_of_mem
  intro slot _ used
  rw [free slot] at used
  cases used

/-! ## Walking the slots of a table -/

theorem holdsBelow_zero (key : Key) (value : Value) :
    ¬ table.HoldsBelow 0 key value := by
  rintro ⟨slot, within, _⟩
  exact absurd within (Nat.not_lt_zero slot)

theorem holdsBelow_succ (bound : Nat) (key : Key) (value : Value) :
    table.HoldsBelow (bound + 1) key value ↔
      table.HoldsBelow bound key value ∨
        table.keyAt bound = some key ∧ table.valueAt bound = value := by
  constructor
  · rintro ⟨slot, within, holds, valued⟩
    rcases Nat.lt_succ_iff_lt_or_eq.mp within with sooner | rfl
    · exact .inl ⟨slot, sooner, holds, valued⟩
    · exact .inr ⟨holds, valued⟩
  · rintro (⟨slot, within, held⟩ | held)
    · exact ⟨slot, Nat.lt_succ_of_lt within, held⟩
    · exact ⟨bound, Nat.lt_succ_self bound, held⟩

/-- The slots before one that has the key do not have it. -/
theorem Placed.not_holdsBelow (placed : table.Placed hash)
    (within : slot < table.size) (holds : table.keyAt slot = some key)
    (value : Value) : ¬ table.HoldsBelow slot key value := by
  rintro ⟨other, sooner, holds', _⟩
  have same := placed.once other slot key (Nat.lt_trans sooner within) within
    holds' holds
  exact absurd same (Nat.ne_of_lt sooner)

/-! ## The probe as a loop -/

section Loop

variable [DecidableEq Key]
  {rounds : Nat}

theorem probe_stops (stops : table.Stops key slot) :
    table.probe key (rounds + 1) slot = some slot := by
  rw [probe]
  rcases stops with free | found
  · rw [free]
  · rw [found]
    exact if_pos rfl

theorem probe_passes (passes : ¬ table.Stops key slot) :
    table.probe key (rounds + 1) slot =
      table.probe key rounds ((slot + 1) % table.size) := by
  rw [probe]
  cases held : table.keyAt slot with
  | none => exact absurd (.inl held) passes
  | some other =>
    apply if_neg
    intro same
    exact passes (.inr (by rw [held, same]))

/-- A loop of enough rounds from the hash ends where the probe stops. -/
theorem Probes.probe_eq (probes : table.Probes start key distance)
    (enough : distance < rounds) :
    table.probe key rounds (start % table.size) =
      some (table.walk start distance) := by
  have from_ : ∀ steps, steps ≤ distance →
      table.probe key (rounds - (distance - steps))
        (table.walk start (distance - steps)) =
          some (table.walk start distance) := by
    intro steps
    induction steps with
    | zero =>
      intro _
      obtain ⟨left, rest⟩ : ∃ left, rounds - (distance - 0) = left + 1 :=
        ⟨rounds - distance - 1, by omega⟩
      rw [rest]
      exact probe_stops probes.stops
    | succ steps ih =>
      intro near
      have before := ih (by omega)
      obtain ⟨left, rest⟩ :
          ∃ left, rounds - (distance - (steps + 1)) = left + 1 :=
        ⟨rounds - (distance - (steps + 1)) - 1, by omega⟩
      rw [rest, probe_passes (probes.passes _ (by omega))]
      unfold walk at before ⊢
      rw [Nat.mod_add_mod]
      convert before using 2
      · omega
      · congr 1
        omega
  have whole := from_ distance (Nat.le_refl _)
  rw [Nat.sub_self] at whole
  exact whole

end Loop

end Table

end GitOnCloudflare.Foundations.OpenAddressing
