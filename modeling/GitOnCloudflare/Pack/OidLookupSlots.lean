import GitOnCloudflare.Pack.OidLookup

/-!
# Packed slots as a probing table

The byte arrays of an id table read as a table of keys.  The loop over bytes is
the probe of that table, taking a slot writes its key, and a power of two as
the number of slots makes the mask the remainder.
-/

namespace GitOnCloudflare.Pack.OidLookup

open Foundations.OpenAddressing

/-! ## Ids in buffers -/

/-- Twenty bytes of a buffer. -/
structure OidView where
  rawBytes : Bytes
  start : Nat
  fits : start + 20 ≤ rawBytes.length

def OidView.oid (view : OidView) : RawOid where
  bytes := subarray view.rawBytes view.start 20
  length_eq := by
    have fits := view.fits
    unfold subarray
    rw [List.length_take, List.length_drop]
    omega

/-- Where the probe for an id begins, before the mask. -/
def home (oid : RawOid) : Nat := (hashOid oid.bytes).toNat

theorem getElem?_subarray {rawBytes : Bytes} {start i : Nat} (low : i < 20) :
    (subarray rawBytes start 20)[0 + i]? = rawBytes[start + i]? := by
  unfold subarray
  rw [Nat.zero_add, List.getElem?_take_of_lt low, List.getElem?_drop]

/-- The hash depends on the twenty bytes only. -/
theorem hashOidAt_eq (rawBytes : Bytes) (start : Nat) :
    hashOidAt rawBytes start = hashOid (subarray rawBytes start 20) := by
  unfold hashOid hashOidAt
  apply List.foldl_ext
  intro hash i inside
  have same : byteAt (subarray rawBytes start 20) (0 + i) =
      byteAt rawBytes (start + i) := by
    unfold byteAt
    rw [getElem?_subarray (List.mem_range.mp inside)]
  rw [same]

/-- The bytes of an id by themselves. -/
def viewOf (oid : RawOid) : OidView where
  rawBytes := oid.bytes
  start := 0
  fits := Nat.le_of_eq oid.length_eq.symm

theorem viewOf_oid (oid : RawOid) : (viewOf oid).oid = oid := by
  have kept : (viewOf oid).oid.bytes = oid.bytes :=
    List.take_of_length_le (Nat.le_of_eq oid.length_eq)
  cases oid
  exact RawOid.mk.injEq _ _ _ _ |>.mpr kept

theorem OidView.home_eq (view : OidView) :
    (hashOidAt view.rawBytes view.start).toNat = home view.oid := by
  rw [hashOidAt_eq]
  rfl

theorem slotKeyEquals_iff (keys : Bytes) (slot : Nat) (rawBytes : Bytes)
    (start : Nat) :
    slotKeyEquals keys slot rawBytes start = true ↔
      subarray keys (slot * 20) 20 = subarray rawBytes start 20 := by
  unfold slotKeyEquals
  rw [List.all_eq_true]
  constructor
  · intro same
    apply List.ext_getElem?
    intro i
    unfold subarray
    by_cases low : i < 20
    · rw [List.getElem?_take_of_lt low, List.getElem?_take_of_lt low,
        List.getElem?_drop, List.getElem?_drop]
      exact beq_iff_eq.mp (same i (List.mem_range.mpr low))
    · rw [List.getElem?_take_eq_none (Nat.le_of_not_lt low),
        List.getElem?_take_eq_none (Nat.le_of_not_lt low)]
  · intro same i inside
    have low := List.mem_range.mp inside
    have at_ := congrArg (fun bytes : Bytes => bytes[0 + i]?) same
    rw [getElem?_subarray low, getElem?_subarray low] at at_
    exact beq_iff_eq.mpr at_

/-! ## The number of slots -/

/-- The arrays have a power of two of slots, within the memory of the
isolate. -/
structure Slots.WellFormed (slots : Slots) : Prop where
  powerOfTwo : ∃ exponent, slots.slotCount = 2 ^ exponent
  mask_eq : slots.mask = slots.slotCount - 1
  length_keys : slots.keys.length = slots.slotCount * 20
  withinMemory : slots.slotCount * 20 ≤ isolateMemory

variable {slots : Slots} {slotCount slot : Nat} {Value : Type}

theorem Slots.WellFormed.positive (wellFormed : slots.WellFormed) :
    0 < slots.slotCount := by
  rcases wellFormed.powerOfTwo with ⟨exponent, count⟩
  rw [count]
  exact Nat.two_pow_pos exponent

theorem Slots.WellFormed.bitAnd_mask (wellFormed : slots.WellFormed)
    (value : Nat) : bitAnd value slots.mask = value % slots.slotCount := by
  have within := wellFormed.withinMemory
  unfold isolateMemory at within
  rcases wellFormed.powerOfTwo with ⟨exponent, count⟩
  have small : 2 ^ exponent < 2 ^ 32 := by
    rw [← count]
    omega
  have divides : 2 ^ exponent ∣ 2 ^ 32 :=
    Nat.pow_dvd_pow 2
      (Nat.le_of_lt ((Nat.pow_lt_pow_iff_right Nat.one_lt_two).mp small))
  unfold bitAnd
  rw [UInt32.toNat_and, UInt32.toNat_ofNat', UInt32.toNat_ofNat',
    wellFormed.mask_eq, count,
    Nat.mod_eq_of_lt (Nat.lt_of_le_of_lt (Nat.sub_le _ _) small),
    Nat.and_two_pow_sub_one_eq_mod, Nat.mod_mod_of_dvd _ divides]

variable {runtime : ArrayRuntime}

theorem allocateSlots_ok
    (allocated : allocateSlots runtime slotCount = .ok slots)
    (power : ∃ exponent, slotCount = 2 ^ exponent) :
    slots.WellFormed ∧ slots.slotCount = slotCount ∧
      ∀ slot, slots.used slot = false := by
  unfold allocateSlots at allocated
  split at allocated
  · next given =>
    cases allocated
    rw [Bool.and_eq_true, Bool.and_eq_true] at given
    refine ⟨⟨power, rfl, List.length_replicate, ?_⟩, rfl, fun _ => rfl⟩
    exact runtime.withinMemory _ given.1.2
  · cases allocated

theorem allocateSlots_error {failure : LookupFailure}
    (refused : allocateSlots runtime slotCount = .error failure) :
    failure = .rangeError := by
  unfold allocateSlots at refused
  split at refused
  · cases refused
  · cases refused
    rfl

/-! ## The keys of the slots -/

/-- The id of a used slot. -/
def Slots.oidAt (slots : Slots) (slot : Nat) : Option RawOid :=
  if slots.used slot then
    some (.ofBytes (subarray slots.keys (slot * 20) 20))
  else
    none

/-- The slots as a table, with a column of values. -/
def Slots.table {Value : Type} (slots : Slots) (values : Nat → Value) :
    Table RawOid Value where
  size := slots.slotCount
  keyAt := slots.oidAt
  valueAt := values

theorem ofBytes_eq_iff {bytes : Bytes} (length : bytes.length = 20)
    (oid : RawOid) : RawOid.ofBytes bytes = oid ↔ bytes = oid.bytes := by
  constructor
  · rintro rfl
    exact (List.take_left' length).symm
  · rintro rfl
    exact RawOid.ofBytes_bytes oid

theorem Slots.WellFormed.length_key (wellFormed : slots.WellFormed)
    (within : slot < slots.slotCount) :
    (subarray slots.keys (slot * 20) 20).length = 20 := by
  unfold subarray
  rw [List.length_take, List.length_drop, wellFormed.length_keys]
  omega

theorem Slots.oidAt_eq_none :
    slots.oidAt slot = none ↔ slots.used slot = false := by
  unfold oidAt
  cases slots.used slot with
  | false => exact ⟨fun _ => rfl, fun _ => if_neg Bool.false_ne_true⟩
  | true =>
    constructor
    · intro free
      rw [if_pos rfl] at free
      cases free
    · intro free
      cases free

/-- A slot at which a probe stops is used exactly when it has the id. -/
theorem Slots.used_iff_of_stops {values : Nat → Value} {oid : RawOid}
    (stops : (slots.table values).Stops oid slot) :
    slots.used slot = true ↔ slots.oidAt slot = some oid := by
  rcases stops with free | found
  · have unused := Slots.oidAt_eq_none.mp free
    rw [unused]
    constructor
    · intro impossible
      cases impossible
    · intro found
      exact absurd (found.symm.trans free) (Option.some_ne_none oid)
  · constructor
    · intro _
      exact found
    · intro _
      by_contra unused
      have free := Slots.oidAt_eq_none.mpr (Bool.eq_false_of_not_eq_true unused)
      exact Option.some_ne_none oid (found.symm.trans free)

/-- The loop over bytes is the probe of the table. -/
theorem Slots.WellFormed.probe_eq (wellFormed : slots.WellFormed)
    (values : Nat → Value) (view : OidView) (within : slot < slots.slotCount)
    (rounds : Nat) :
    slots.probe view.rawBytes view.start rounds slot =
      (slots.table values).probe view.oid rounds slot := by
  induction rounds generalizing slot with
  | zero => rfl
  | succ rounds ih =>
    unfold Slots.probe Table.probe
    have key : (slots.table values).keyAt slot = slots.oidAt slot := rfl
    rw [key]
    unfold Slots.oidAt
    cases used : slots.used slot with
    | false => rfl
    | true =>
      rw [if_pos rfl, if_pos rfl]
      dsimp only
      have equal : slotKeyEquals slots.keys slot view.rawBytes view.start =
            true ↔
          RawOid.ofBytes (subarray slots.keys (slot * 20) 20) =
            view.oid := by
        rw [slotKeyEquals_iff, ofBytes_eq_iff (wellFormed.length_key within)]
        rfl
      by_cases same :
          slotKeyEquals slots.keys slot view.rawBytes view.start = true
      · rw [if_pos same, if_pos (equal.mp same)]
      · rw [if_neg same, if_neg fun other => same (equal.mpr other),
          wellFormed.bitAnd_mask]
        exact ih (Nat.mod_lt _ wellFormed.positive)

/-- With a free slot the probe ends where the table says. -/
theorem Slots.WellFormed.probeFromHash_ends (wellFormed : slots.WellFormed)
    (values : Nat → Value) (free : (slots.table values).HasFree)
    (view : OidView) :
    ∃ distance,
      (slots.table values).Probes (home view.oid) view.oid distance ∧
        slots.probeFromHash view.rawBytes view.start =
          .ok ((slots.table values).walk (home view.oid) distance) := by
  rcases free.probes (home view.oid) view.oid with ⟨distance, probes⟩
  refine ⟨distance, probes, ?_⟩
  have ends := probes.probe_eq probes.within
  unfold Slots.probeFromHash
  rw [view.home_eq, wellFormed.bitAnd_mask,
    wellFormed.probe_eq values view (Nat.mod_lt _ wellFormed.positive)]
  have size : (slots.table values).size = slots.slotCount := rfl
  rw [size] at ends
  rw [ends]

/-- Taking a free slot writes the id there and nowhere else. -/
theorem Slots.WellFormed.take_ok (wellFormed : slots.WellFormed)
    (view : OidView) (within : slot < slots.slotCount) :
    ∃ taken, slots.take slot view.rawBytes view.start = .ok taken ∧
      taken.WellFormed ∧ taken.slotCount = slots.slotCount ∧
      taken.oidAt = Function.update slots.oidAt slot (some view.oid) := by
  have length : (subarray view.rawBytes view.start 20).length = 20 :=
    view.oid.length_eq
  have fits : slot * 20 + (subarray view.rawBytes view.start 20).length ≤
      slots.keys.length := by
    rw [length, wellFormed.length_keys]
    omega
  obtain ⟨keys, written⟩ : ∃ keys, setBytes slots.keys
      (subarray view.rawBytes view.start 20) (slot * 20) = .ok keys := by
    unfold setBytes
    rw [if_pos fits]
    exact ⟨_, rfl⟩
  refine
    ⟨{ slots with
        used := Function.update slots.used slot true
        keys := keys }, ?_, ⟨wellFormed.powerOfTwo, wellFormed.mask_eq, ?_,
      wellFormed.withinMemory⟩, rfl, ?_⟩
  · unfold Slots.take
    rw [written]
  · exact (length_setBytes written).trans wellFormed.length_keys
  · funext other
    rw [Function.update_apply]
    unfold Slots.oidAt
    by_cases same : other = slot
    · subst same
      have stored := subarray_setBytes_same written
      rw [length] at stored
      rw [if_pos (Function.update_self other true slots.used), if_pos rfl,
        stored]
      exact congrArg some (RawOid.ofBytes_bytes view.oid)
    · have kept : Function.update slots.used slot true other =
          slots.used other := Function.update_of_ne same true slots.used
      simp only [kept]
      rw [if_neg same,
        subarray_setBytes_other written (by rw [length]; omega)]

end GitOnCloudflare.Pack.OidLookup
