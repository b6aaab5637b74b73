import GitOnCloudflare.Pack.LayoutSound
import Mathlib.Algebra.Order.BigOperators.Group.List
import Mathlib.Order.Iterate

/-!
# Convergence of the header lengths

The length of a row depends on the rows between its base and itself, and more
bytes there never make its distance shorter.  So the rounds settle from every
seed as soon as those from the least and from the greatest distances have met.
-/

namespace GitOnCloudflare.Pack

namespace SelectionTable

variable {table : SelectionTable} {seeds : Nat → UInt16}

/-- The lengths and positions at the start of a round. -/
def layoutRound (table : SelectionTable) (seeds : Nat → UInt16) :
    Nat → (Nat → UInt16) × (Nat → Nat)
  | 0 => (seeds, table.outputOffsets)
  | iteration + 1 =>
    let round := table.layoutRound seeds iteration
    let placed := table.placeRows round.1 table.outputOrder 12 round.2
    (table.resizeHeaders placed.1 round.1, placed.1)

/-- The size that is laid out in a round. -/
def roundSize (table : SelectionTable) (seeds : Nat → UInt16)
    (iteration : Nat) : Nat :=
  (table.placeRows (table.layoutRound seeds iteration).1 table.outputOrder 12
    (table.layoutRound seeds iteration).2).2

/-! ## Rounds on the distances alone -/

/-- The bytes of a distance below 2 ^ 32. -/
def distanceBytes (distance : Nat) : Nat :=
  if distance < 128 then 1
  else if distance < 16512 then 2
  else if distance < 2113664 then 3
  else if distance < 270549120 then 4
  else 5

/-- The rows from the base of a row up to the row. -/
def rowsBetween (table : SelectionTable) (base sel : Nat) : List Nat :=
  (table.outputOrder.dropWhile fun row => decide (row ≠ base)).takeWhile
    fun row => decide (row ≠ sel)

/-- The lengths of rows whose distances have so many bytes. -/
def lengthsWith (table : SelectionTable) (bytes : Nat → Nat) (sel : Nat) :
    UInt16 :=
  if table.hasDistance sel then
    UInt16.ofNat ((table.sizeVarLens sel).toNat + bytes sel)
  else
    table.seedHeaderLens sel

def sizeWith (table : SelectionTable) (bytes : Nat → Nat) (sel : Nat) : Nat :=
  (if table.hasDistance sel then (table.sizeVarLens sel).toNat + bytes sel
    else (table.seedHeaderLens sel).toNat) + table.payloadLens sel

/-- The bytes of the distances between rows whose own distances have so many
bytes. -/
def remeasure (table : SelectionTable) (bytes : Nat → Nat) (sel : Nat) : Nat :=
  match table.baseSlots sel with
  | none => bytes sel
  | some base =>
    distanceBytes ((table.rowsBetween base sel).map (table.sizeWith bytes)).sum

/-- The bytes of the distances after some rounds from `bytes` bytes each. -/
def bytesAfter (table : SelectionTable) (bytes rounds : Nat) : Nat → Nat :=
  table.remeasure^[rounds] fun _ => bytes

/-- The rounds from the least and from the greatest distances meet within the
cap. -/
def Decided (table : SelectionTable) : Prop :=
  ∀ sel, table.hasDistance sel = true →
    table.bytesAfter 1 (headerStabilityCap - 1) sel =
      table.bytesAfter 5 (headerStabilityCap - 1) sel

theorem distanceBytes_mono : Monotone distanceBytes := by
  intro first second le
  unfold distanceBytes
  split_ifs <;> omega

theorem distanceBytes_bounds (distance : Nat) :
    1 ≤ distanceBytes distance ∧ distanceBytes distance ≤ 5 := by
  unfold distanceBytes
  split_ifs <;> omega

theorem ofsDeltaDistanceLength_eq {distance : Nat} (small : distance < 2 ^ 32) :
    ofsDeltaDistanceLength distance = distanceBytes distance := by
  unfold ofsDeltaDistanceLength toUint32 distanceBytes
  rw [Int.toNat_natCast, Nat.mod_eq_of_lt small]
  split
  · rw [if_pos (by omega)]
  · iterate 5 rw [countGroups]
    split_ifs <;> omega

theorem ofsDeltaDistanceLength_bounds (rel : Int) :
    1 ≤ ofsDeltaDistanceLength rel ∧ ofsDeltaDistanceLength rel ≤ 5 := by
  have wrapped : ofsDeltaDistanceLength rel =
      ofsDeltaDistanceLength (rel.toNat % 2 ^ 32 : Nat) ∨
        ofsDeltaDistanceLength rel = 1 := by
    unfold ofsDeltaDistanceLength toUint32
    split
    · exact .inr rfl
    · left
      split
      · have zero : rel.toNat % 2 ^ 32 = 0 := by omega
        rw [zero, countGroups, if_pos (Nat.zero_div _)]
      · rw [Int.toNat_natCast, Nat.mod_mod]
  rcases wrapped with same | one
  · rw [same, ofsDeltaDistanceLength_eq (Nat.mod_lt _ (by decide))]
    exact distanceBytes_bounds _
  · omega

variable {sel : Nat} {first second bytes : Nat → Nat}

theorem hasDistance_iff :
    table.hasDistance sel = true ↔
      sel ∈ table.outputOrder ∧ table.typeCodes sel = 6 ∧
        (table.baseSlots sel).isSome = true := by
  unfold hasDistance
  rw [Bool.and_eq_true, Bool.and_eq_true, decide_eq_true_iff,
    decide_eq_true_iff, and_assoc]

theorem sizeWith_le (le : table.hasDistance sel = true → first sel ≤ second sel) :
    table.sizeWith first sel ≤ table.sizeWith second sel := by
  unfold sizeWith
  split
  · next measured => exact Nat.add_le_add_right (Nat.add_le_add_left (le measured) _) _
  · exact le_refl _

theorem remeasure_mono (table : SelectionTable) : Monotone table.remeasure := by
  intro first second le sel
  unfold remeasure
  split
  · exact le sel
  · apply distanceBytes_mono
    apply List.sum_le_sum
    exact fun row _ => sizeWith_le fun _ => le row

variable {base rounds iteration count : Nat}

/-- The distance of a row counts only the distances of the rows that stand
before it. -/
theorem remeasure_congr (found : table.baseSlots sel = some base)
    (same : ∀ row ∈ table.rowsBetween base sel, table.hasDistance row = true →
      first row = second row) :
    table.remeasure first sel = table.remeasure second sel := by
  unfold remeasure
  rw [found]
  dsimp only
  congr 2
  apply List.map_congr_left
  intro row between
  exact le_antisymm (sizeWith_le fun measured => (same row between measured).le)
    (sizeWith_le fun measured => (same row between measured).ge)

section Bounds

variable (table)

theorem bytesAfter_least : Monotone (table.bytesAfter 1) := by
  apply (remeasure_mono table).monotone_iterate_of_le_map
  intro sel
  unfold remeasure
  split
  · exact le_refl _
  · exact (distanceBytes_bounds _).1

theorem bytesAfter_greatest : Antitone (table.bytesAfter 5) := by
  apply (remeasure_mono table).antitone_iterate_of_map_le
  intro sel
  unfold remeasure
  split
  · exact le_refl _
  · exact (distanceBytes_bounds _).2

/-- Rounds from any distances stay between those from the least and from the
greatest. -/
theorem bytesAfter_between (bounds : ∀ sel, 1 ≤ bytes sel ∧ bytes sel ≤ 5)
    (rounds : Nat) :
    table.bytesAfter 1 rounds ≤ table.remeasure^[rounds] bytes ∧
      table.remeasure^[rounds] bytes ≤ table.bytesAfter 5 rounds :=
  ⟨(remeasure_mono table).iterate rounds fun sel => (bounds sel).1,
    (remeasure_mono table).iterate rounds fun sel => (bounds sel).2⟩

end Bounds

theorem iterate_le_five {bytes : Nat → Nat} (few : ∀ sel, bytes sel ≤ 5)
    (rounds sel : Nat) : table.remeasure^[rounds] bytes sel ≤ 5 := by
  have le := (remeasure_mono table).iterate rounds (show bytes ≤ fun _ => 5 from few)
  exact (le sel).trans (table.bytesAfter_greatest (Nat.zero_le rounds) sel)

/-! ## The rows between a row and its base -/

/-- A row stands behind its base, and these rows stand between. -/
theorem exists_split_of_basesFirst (sorted : table.BasesFirst table.outputOrder)
    (distinct : table.outputOrder.Nodup) (member : sel ∈ table.outputOrder)
    (found : table.baseSlots sel = some base) :
    ∃ before after, table.outputOrder =
        before ++ table.rowsBetween base sel ++ sel :: after ∧
      (table.rowsBetween base sel).head? = some base := by
  rcases List.append_of_mem member with ⟨front, after, split⟩
  rcases List.append_of_mem (sorted front sel after split base found) with
    ⟨before, middle, rfl⟩
  have apart := split ▸ distinct
  have between : table.rowsBetween base sel = base :: middle := by
    have early : ∀ row ∈ before, row ≠ base := by
      rintro row member rfl
      simp only [List.append_assoc, List.cons_append, List.nodup_append,
        List.mem_cons] at apart
      exact apart.2.2 row member row (.inl rfl) rfl
    have later : ∀ row ∈ base :: middle, row ≠ sel := by
      rintro row inside rfl
      exact (List.nodup_append.mp apart).2.2 row
        (List.mem_append_right _ inside) row List.mem_cons_self rfl
    unfold rowsBetween
    rw [split, List.append_assoc, List.dropWhile_append_of_pos, List.cons_append,
      List.dropWhile_cons_of_neg, ← List.cons_append,
      List.takeWhile_append_of_pos, List.takeWhile_cons_of_neg, List.append_nil]
    · simp
    · exact fun row member => decide_eq_true (later row member)
    · simp
    · exact fun row member => decide_eq_true (early row member)
  rw [between]
  exact ⟨before, after, split, rfl⟩

/-- A distance is the size of the rows from the base on. -/
theorem placeRows_distance {before between sel after base}
    (split : table.outputOrder = before ++ between ++ sel :: after)
    (first : between.head? = some base) (distinct : table.outputOrder.Nodup)
    (lengths : Nat → UInt16) (previous : Nat → Nat) :
    (((table.placeRows lengths table.outputOrder 12 previous).1 sel : Nat) :
          Int) -
        (table.placeRows lengths table.outputOrder 12 previous).1 base =
      ((between.map (table.rowSize lengths)).sum : Nat) := by
  rcases List.head?_eq_some_iff.mp first with ⟨middle, rfl⟩
  have atRow : (table.placeRows lengths table.outputOrder 12 previous).1
      sel =
        12 + ((before ++ base :: middle).map (table.rowSize lengths)).sum := by
    rw [split] at distinct ⊢
    exact placeRows_position distinct 12 previous
  have atBase : (table.placeRows lengths table.outputOrder 12 previous).1
      base = 12 + (before.map (table.rowSize lengths)).sum := by
    rw [List.append_assoc, List.cons_append] at split
    rw [split] at distinct ⊢
    exact placeRows_position distinct 12 previous
  rw [atRow, atBase, List.map_append, List.sum_append]
  push_cast
  ring

theorem rowSize_lengthsWith (few : ∀ sel, bytes sel ≤ 5) (sel : Nat) :
    table.rowSize (table.lengthsWith bytes) sel = table.sizeWith bytes sel := by
  unfold rowSize lengthsWith sizeWith
  split
  · have varint := (table.sizeVarLens sel).toNat_lt
    have bound := few sel
    rw [UInt16.toNat_ofNat', Nat.mod_eq_of_lt (by omega)]
  · rfl

/-- The size of all rows whose distances have so many bytes. -/
def totalWith (table : SelectionTable) (bytes : Nat → Nat) : Nat :=
  12 + (table.outputOrder.map (table.sizeWith bytes)).sum

theorem placeRows_size (few : ∀ sel, bytes sel ≤ 5) (previous : Nat → Nat) :
    (table.placeRows (table.lengthsWith bytes) table.outputOrder 12
      previous).2 = table.totalWith bytes := by
  rw [placeRows_cursor]
  unfold totalWith
  congr 2
  exact List.map_congr_left fun sel _ => rowSize_lengthsWith few sel

/-- A round measures the distances between the rows. -/
theorem resizeHeaders_lengthsWith (sorted : table.BasesFirst table.outputOrder)
    (distinct : table.outputOrder.Nodup) (few : ∀ sel, bytes sel ≤ 5)
    (sized : table.totalWith bytes ≤ 0xffffffff) (previous : Nat → Nat) :
    table.resizeHeaders
        (table.placeRows (table.lengthsWith bytes) table.outputOrder 12
          previous).1 (table.lengthsWith bytes) =
      table.lengthsWith (table.remeasure bytes) := by
  funext sel
  unfold resizeHeaders
  split
  · next measured =>
    rcases hasDistance_iff.mp measured with ⟨member, offset, based⟩
    rcases Option.isSome_iff_exists.mp based with ⟨base, found⟩
    rcases exists_split_of_basesFirst sorted distinct member found with
      ⟨before, after, split, first⟩
    have sizes : (table.rowsBetween base sel).map
        (table.rowSize (table.lengthsWith bytes)) =
          (table.rowsBetween base sel).map (table.sizeWith bytes) :=
      List.map_congr_left fun row _ => rowSize_lengthsWith few row
    have small : ((table.rowsBetween base sel).map
        (table.sizeWith bytes)).sum < 2 ^ 32 := by
      unfold totalWith at sized
      rw [split, List.map_append, List.map_append, List.sum_append,
        List.sum_append] at sized
      omega
    unfold headerLenAt lengthsWith remeasure
    rw [if_pos offset, found, if_pos measured]
    dsimp only
    rw [placeRows_distance split first distinct]
    change UInt16.ofNat (_ + ofsDeltaDistanceLength (((table.rowsBetween base
      sel).map (table.rowSize (table.lengthsWith bytes))).sum : Nat)) = _
    rw [sizes, ofsDeltaDistanceLength_eq small]
  · next fixed =>
    unfold lengthsWith
    rw [if_neg fixed, if_neg fixed]

/-- Every round has the lengths of the rounds on the distances. -/
theorem layoutRound_lengths (sorted : table.BasesFirst table.outputOrder)
    (distinct : table.outputOrder.Nodup) (few : ∀ sel, bytes sel ≤ 5)
    (sized : ∀ iteration < rounds,
      table.roundSize (table.lengthsWith bytes) iteration ≤ 0xffffffff) :
    (table.layoutRound (table.lengthsWith bytes) rounds).1 =
      table.lengthsWith (table.remeasure^[rounds] bytes) := by
  induction rounds with
  | zero => rfl
  | succ rounds ih =>
    have before := ih fun iteration less => sized iteration (by omega)
    have still := @iterate_le_five table _ few rounds
    have fits := sized rounds (Nat.lt_succ_self rounds)
    unfold roundSize at fits
    rw [before, placeRows_size still] at fits
    rw [Function.iterate_succ_apply']
    unfold layoutRound
    dsimp only
    rw [before]
    exact resizeHeaders_lengthsWith sorted distinct still fits _

/-! ## Settled rounds -/

/-- Rounds agree where the distances they start from do. -/
theorem iterate_remeasure_congr
    (same : ∀ sel, table.hasDistance sel = true → first sel = second sel)
    (rounds : Nat) : ∀ sel, table.hasDistance sel = true →
      table.remeasure^[rounds] first sel = table.remeasure^[rounds] second sel := by
  induction rounds with
  | zero => exact same
  | succ rounds ih =>
    intro sel measured
    rcases Option.isSome_iff_exists.mp (hasDistance_iff.mp measured).2.2 with
      ⟨base, found⟩
    rw [Function.iterate_succ_apply', Function.iterate_succ_apply']
    exact remeasure_congr found fun row _ moving => ih row moving

theorem bytesAfter_add (table : SelectionTable) (bytes more rounds : Nat) :
    table.bytesAfter bytes (more + rounds) =
      table.remeasure^[more] (table.bytesAfter bytes rounds) :=
  Function.iterate_add_apply _ more rounds _

/-- The rows whose distances take more bytes one way than the other. -/
def differing (table : SelectionTable) (first second : Nat → Nat) : List Nat :=
  table.outputOrder.filter fun sel =>
    table.hasDistance sel && decide (first sel ≠ second sel)

theorem mem_differing (measured : table.hasDistance sel = true)
    (apart : first sel ≠ second sel) : sel ∈ table.differing first second := by
  refine List.mem_filter.mpr ⟨(hasDistance_iff.mp measured).1, ?_⟩
  rw [measured, Bool.true_and]
  exact decide_eq_true apart

/-- The first of them is measured alike: it counts only rows before it. -/
theorem remeasure_first {others : List Nat}
    (sorted : table.BasesFirst table.outputOrder)
    (distinct : table.outputOrder.Nodup)
    (differ : table.differing first second = sel :: others) :
    table.hasDistance sel = true ∧ first sel ≠ second sel ∧
      table.remeasure first sel = table.remeasure second sel := by
  rcases List.filter_eq_cons_iff.mp differ with
    ⟨front, back, split, alike, here, _⟩
  rw [Bool.and_eq_true, decide_eq_true_iff] at here
  rcases hasDistance_iff.mp here.1 with ⟨member, _, based⟩
  rcases Option.isSome_iff_exists.mp based with ⟨base, found⟩
  rcases exists_split_of_basesFirst sorted distinct member found with
    ⟨before, after, place, _⟩
  have fresh := List.nodup_append.mp (split ▸ distinct)
  rw [split, List.append_cons_inj_of_notMem
    (fun again => fresh.2.2 sel again sel List.mem_cons_self rfl)
    (List.nodup_cons.mp fresh.2.1).1] at place
  refine ⟨here.1, here.2, remeasure_congr found ?_⟩
  intro row between measured
  have same := alike row (place.1 ▸ List.mem_append_right _ between)
  rw [measured, Bool.true_and, decide_eq_true_iff, not_not] at same
  exact same

/-- Distances that a round leaves alone are the only ones. -/
theorem settled_unique (sorted : table.BasesFirst table.outputOrder)
    (distinct : table.outputOrder.Nodup)
    (settled : ∀ sel, table.hasDistance sel = true →
      table.remeasure first sel = first sel)
    (settledSecond : ∀ sel, table.hasDistance sel = true →
      table.remeasure second sel = second sel) :
    ∀ sel, table.hasDistance sel = true → first sel = second sel := by
  intro sel measured
  by_contra apart
  cases differ : table.differing first second with
  | nil => exact List.not_mem_nil (differ ▸ mem_differing measured apart)
  | cons sel others =>
    obtain ⟨measured, apart, same⟩ := remeasure_first sorted distinct differ
    rw [settled sel measured, settledSecond sel measured] at same
    exact apart same

/-- The rows that are open after some rounds. -/
def undecided (table : SelectionTable) (rounds : Nat) : List Nat :=
  table.differing (table.bytesAfter 1 rounds) (table.bytesAfter 5 rounds)

/-- A round decides the first open row and opens none. -/
theorem length_undecided_succ (sorted : table.BasesFirst table.outputOrder)
    (distinct : table.outputOrder.Nodup) (rounds : Nat) :
    (table.undecided (rounds + 1)).length ≤
      (table.undecided rounds).length - 1 := by
  have narrower : table.undecided (rounds + 1) =
      (table.undecided rounds).filter fun sel =>
        decide (table.bytesAfter 1 (rounds + 1) sel ≠
          table.bytesAfter 5 (rounds + 1) sel) := by
    unfold undecided differing
    rw [List.filter_filter]
    apply List.filter_congr
    intro sel _
    have least : table.bytesAfter 1 rounds sel ≤ table.bytesAfter 1 (rounds + 1) sel :=
      table.bytesAfter_least (Nat.le_add_right rounds 1) sel
    have greatest : table.bytesAfter 5 (rounds + 1) sel ≤
        table.bytesAfter 5 rounds sel :=
      table.bytesAfter_greatest (Nat.le_add_right rounds 1) sel
    have between : table.bytesAfter 1 (rounds + 1) sel ≤
        table.bytesAfter 5 (rounds + 1) sel :=
      (table.bytesAfter_between (fun _ => by decide) (rounds + 1)).2 sel
    grind
  rw [narrower]
  cases differ : table.undecided rounds with
  | nil => exact le_refl _
  | cons sel others =>
    have same : table.bytesAfter 1 (rounds + 1) sel =
        table.bytesAfter 5 (rounds + 1) sel := by
      unfold bytesAfter
      rw [Function.iterate_succ_apply', Function.iterate_succ_apply']
      exact (remeasure_first sorted distinct differ).2.2
    rw [List.filter_cons_of_neg (by simpa using same)]
    exact List.length_filter_le _ _

/-- Few open rows are decided within the cap. -/
theorem decided_of_few (sorted : table.BasesFirst table.outputOrder)
    (distinct : table.outputOrder.Nodup)
    (few : (table.undecided 1).length < headerStabilityCap - 1) :
    table.Decided := by
  have fewer : ∀ rounds, (table.undecided (1 + rounds)).length ≤
      (table.undecided 1).length - rounds := by
    intro rounds
    induction rounds with
    | zero => exact le_refl _
    | succ rounds ih =>
      have next := length_undecided_succ sorted distinct (1 + rounds)
      rw [Nat.add_assoc] at next
      omega
  intro sel measured
  by_contra apart
  have member : sel ∈ table.undecided (headerStabilityCap - 1) :=
    mem_differing measured apart
  have last : (table.undecided (headerStabilityCap - 1)).length ≤
      (table.undecided 1).length - (headerStabilityCap - 2) := fewer 14
  have some_ := List.length_pos_of_mem member
  omega

/-! ## The loop -/

theorem headerLenAt_small (positions : Nat → Nat) :
    table.headerLenAt positions sel < 2 ^ 16 := by
  have varint := (table.sizeVarLens sel).toNat_lt
  unfold headerLenAt
  dsimp only
  split
  · split
    · next base _ =>
      have few :=
        (ofsDeltaDistanceLength_bounds ((positions sel : Int) - positions base)).2
      omega
    · omega
  · split <;> omega

theorem stabilize_round (fuel iteration : Nat) :
    table.stabilize (fuel + 1) (table.layoutRound seeds iteration).1
        (table.layoutRound seeds iteration).2 =
      if table.lengthsChanged (table.layoutRound seeds (iteration + 1)).2
          (table.layoutRound seeds iteration).1 then
        table.stabilize fuel (table.layoutRound seeds (iteration + 1)).1
          (table.layoutRound seeds (iteration + 1)).2
      else if 0xffffffff < table.roundSize seeds iteration then
        none
      else
        some
          { table with
            outputOffsets := (table.layoutRound seeds (iteration + 1)).2
            outputHeaderLens := (table.layoutRound seeds iteration).1 } :=
  rfl

/-- The loop looks at one round after the other. -/
theorem stabilize_from {fuel iteration : Nat}
    (settled : ∃ more < fuel,
      (table.layoutRound seeds (iteration + more + 1)).1 =
        (table.layoutRound seeds (iteration + more)).1)
    (sized : ∀ more < fuel,
      table.roundSize seeds (iteration + more) ≤ 0xffffffff) :
    (table.stabilize fuel (table.layoutRound seeds iteration).1
      (table.layoutRound seeds iteration).2).isSome = true := by
  induction fuel generalizing iteration with
  | zero =>
    rcases settled with ⟨_, impossible, _⟩
    omega
  | succ fuel ih =>
    rw [stabilize_round]
    split
    · next changed =>
      apply ih
      · rcases settled with ⟨more, small, same⟩
        cases more with
        | zero =>
          exfalso
          unfold lengthsChanged at changed
          rcases List.any_eq_true.mp changed with ⟨sel, _, differs⟩
          rw [Bool.and_eq_true, decide_eq_true_iff] at differs
          apply differs.2
          have kept := congrFun same sel
          change table.resizeHeaders _ (table.layoutRound seeds iteration).1 sel =
            _ at kept
          unfold resizeHeaders at kept
          rw [if_pos differs.1] at kept
          have numbers := congrArg UInt16.toNat kept
          rw [UInt16.toNat_ofNat', Nat.mod_eq_of_lt (headerLenAt_small _)]
            at numbers
          exact numbers
        | succ more =>
          refine ⟨more, by omega, ?_⟩
          have shifted : iteration + 1 + more = iteration + (more + 1) := by
            omega
          rw [shifted]
          exact same
      · intro more small
        have shifted : iteration + 1 + more = iteration + (more + 1) := by
          omega
        rw [shifted]
        exact sized (more + 1) (by omega)
    · have small := sized 0 (Nat.succ_pos fuel)
      rw [Nat.add_zero] at small
      rw [if_neg (Nat.not_lt.mpr small)]
      rfl

theorem lengthsChanged_of_ne
    (differs : (table.layoutRound seeds (iteration + 1)).1 sel ≠
      (table.layoutRound seeds iteration).1 sel) :
    table.lengthsChanged (table.layoutRound seeds (iteration + 1)).2
      (table.layoutRound seeds iteration).1 = true := by
  change table.resizeHeaders (table.layoutRound seeds (iteration + 1)).2
    (table.layoutRound seeds iteration).1 sel ≠ _ at differs
  unfold resizeHeaders at differs
  split at differs
  · next measured =>
    unfold lengthsChanged
    apply List.any_eq_true.mpr
    refine ⟨sel, (hasDistance_iff.mp measured).1, ?_⟩
    rw [measured, Bool.true_and, decide_eq_true_iff]
    intro same
    apply differs
    rw [same, UInt16.ofNat_toNat]
  · exact absurd rfl differs

/-- A length that changes in every round keeps the loop going. -/
theorem stabilize_none {fuel iteration : Nat}
    (moving : ∀ more < fuel, ∃ sel,
      (table.layoutRound seeds (iteration + more + 1)).1 sel ≠
        (table.layoutRound seeds (iteration + more)).1 sel) :
    table.stabilize fuel (table.layoutRound seeds iteration).1
      (table.layoutRound seeds iteration).2 = none := by
  induction fuel generalizing iteration with
  | zero => rfl
  | succ fuel ih =>
    rcases moving 0 (Nat.succ_pos fuel) with ⟨sel, differs⟩
    rw [stabilize_round, if_pos (lengthsChanged_of_ne differs)]
    apply ih
    intro more small
    have shifted : iteration + 1 + more = iteration + (more + 1) := by
      omega
    rw [shifted]
    exact moving (more + 1) (by omega)

/-- The bytes of the distances in the source packs. -/
def seedBytes (table : SelectionTable) (sel : Nat) : Nat :=
  match table.baseSlots sel with
  | none => 1
  | some base =>
    ofsDeltaDistanceLength ((table.offsets sel : Int) - table.offsets base)

theorem seedBytes_bounds (table : SelectionTable) (sel : Nat) :
    1 ≤ table.seedBytes sel ∧ table.seedBytes sel ≤ 5 := by
  unfold seedBytes
  split
  · decide
  · exact ofsDeltaDistanceLength_bounds _

theorem seedHeaderLens_eq (table : SelectionTable) :
    table.seedHeaderLens = table.lengthsWith table.seedBytes := by
  funext sel
  unfold lengthsWith
  split
  · next measured =>
    rcases hasDistance_iff.mp measured with ⟨member, offset, based⟩
    rcases Option.isSome_iff_exists.mp based with ⟨base, found⟩
    unfold seedHeaderLens headerLenAt seedBytes
    rw [if_pos member, if_pos offset, found]
  · rfl

theorem lengthsWith_congr
    (same : ∀ sel, table.hasDistance sel = true → first sel = second sel) :
    table.lengthsWith first = table.lengthsWith second := by
  funext sel
  unfold lengthsWith
  split
  · next measured => rw [same sel measured]
  · rfl

theorem eq_of_lengthsWith (few : ∀ sel, first sel ≤ 5)
    (fewSecond : ∀ sel, second sel ≤ 5)
    (same : table.lengthsWith first = table.lengthsWith second)
    (measured : table.hasDistance sel = true) : first sel = second sel := by
  have sizes : table.sizeWith first sel = table.sizeWith second sel := by
    rw [← rowSize_lengthsWith few, ← rowSize_lengthsWith fewSecond, same]
  unfold sizeWith at sizes
  rw [if_pos measured, if_pos measured] at sizes
  omega

/-- Below the bound with the greatest distances, every round has the lengths of
the rounds on the distances. -/
theorem layoutRound_within (sorted : table.BasesFirst table.outputOrder)
    (distinct : table.outputOrder.Nodup) (few : ∀ sel, bytes sel ≤ 5)
    (sized : table.totalWith (fun _ => 5) ≤ 0xffffffff) (rounds : Nat) :
    (table.layoutRound (table.lengthsWith bytes) rounds).1 =
      table.lengthsWith (table.remeasure^[rounds] bytes) := by
  apply layoutRound_lengths sorted distinct few
  intro iteration _
  induction iteration using Nat.strong_induction_on with
  | h iteration ih =>
    have before := layoutRound_lengths sorted distinct few
      fun earlier less => ih earlier less (by omega)
    have still := @iterate_le_five table _ few iteration
    unfold roundSize
    rw [before, placeRows_size still]
    refine le_trans (Nat.add_le_add_left (List.sum_le_sum ?_) 12) sized
    exact fun row _ => sizeWith_le fun _ => still row

/-- Where the loop ends from distances of so many bytes, they have settled. -/
theorem settled_of_stabilize (sorted : table.BasesFirst table.outputOrder)
    (distinct : table.outputOrder.Nodup) {bytes : Nat} (few : bytes ≤ 5)
    (sized : table.totalWith (fun _ => 5) ≤ 0xffffffff)
    (stable : table.stabilize headerStabilityCap
      (table.lengthsWith fun _ => bytes) table.outputOffsets ≠ none) :
    ∀ sel, table.hasDistance sel = true →
      table.remeasure (table.bytesAfter bytes (headerStabilityCap - 1)) sel =
        table.bytesAfter bytes (headerStabilityCap - 1) sel := by
  have all := layoutRound_within sorted distinct (fun _ => few) sized
  by_contra moving
  apply stable
  refine @stabilize_none table (table.lengthsWith fun _ => bytes)
    headerStabilityCap 0 ?_
  intro more small
  rw [Nat.zero_add]
  by_contra changed
  apply moving
  have same : (table.layoutRound (table.lengthsWith fun _ => bytes)
        (more + 1)).1 =
      (table.layoutRound (table.lengthsWith fun _ => bytes) more).1 := by
    funext sel
    by_contra differs
    exact changed ⟨sel, differs⟩
  have rest := (all (more + 1)).symm.trans (same.trans (all more))
  have kept : ∀ sel, table.hasDistance sel = true →
      table.remeasure (table.bytesAfter bytes more) sel =
        table.bytesAfter bytes more sel := by
    intro sel measured
    have still := @iterate_le_five table _ (fun _ => few)
    have next := eq_of_lengthsWith (still (more + 1)) (still more) rest measured
    rw [Function.iterate_succ_apply'] at next
    exact next
  rcases Nat.exists_eq_add_of_le' (Nat.le_pred_of_lt small) with ⟨later, total⟩
  rw [Nat.pred_eq_sub_one] at total
  rw [total, bytesAfter_add]
  intro sel measured
  have once := iterate_remeasure_congr kept later sel measured
  rw [← Function.iterate_succ_apply, Function.iterate_succ_apply'] at once
  exact once

/-- Where the rounds from the least and from the greatest distances have met, the
lengths settle within the cap whatever the source packs say; where they have
not, the layout gives up from one of the two.  They have met where at most
fourteen distances take more or fewer bytes by what the others take. -/
theorem computeHeaderLengths_converges (distinct : table.outputOrder.Nodup)
    (sorted : table.BasesFirst table.outputOrder) :
    ((table.undecided 1).length < headerStabilityCap - 1 → table.Decided) ∧
    (table.Decided →
      (∀ iteration < headerStabilityCap,
        table.roundSize table.seedHeaderLens iteration ≤ 0xffffffff) →
      table.computeHeaderLengths.isSome = true) ∧
    (¬ table.Decided → table.totalWith (fun _ => 5) ≤ 0xffffffff →
      table.stabilize headerStabilityCap (table.lengthsWith fun _ => 1)
          table.outputOffsets = none ∨
        table.stabilize headerStabilityCap (table.lengthsWith fun _ => 5)
          table.outputOffsets = none) := by
  refine ⟨decided_of_few sorted distinct, ?_, ?_⟩
  · intro decided sized
    have few := fun sel => (table.seedBytes_bounds sel).2
    rw [seedHeaderLens_eq] at sized
    have lengths : ∀ rounds ≤ headerStabilityCap,
        (table.layoutRound (table.lengthsWith table.seedBytes) rounds).1 =
          table.lengthsWith (table.remeasure^[rounds] table.seedBytes) :=
      fun rounds le => layoutRound_lengths sorted distinct few
        fun iteration less => sized iteration (by omega)
    have settled : (table.layoutRound (table.lengthsWith table.seedBytes)
          headerStabilityCap).1 =
        (table.layoutRound (table.lengthsWith table.seedBytes)
          (headerStabilityCap - 1)).1 := by
      rw [lengths _ (le_refl _), lengths _ (Nat.sub_le _ _)]
      apply lengthsWith_congr
      intro sel measured
      have between : ∀ rounds, table.bytesAfter 1 rounds sel ≤
            table.remeasure^[rounds] table.seedBytes sel ∧
          table.remeasure^[rounds] table.seedBytes sel ≤
            table.bytesAfter 5 rounds sel := by
        intro rounds
        have bounds := table.bytesAfter_between table.seedBytes_bounds rounds
        exact ⟨bounds.1 sel, bounds.2 sel⟩
      have last := between headerStabilityCap
      have before := between (headerStabilityCap - 1)
      have least : table.bytesAfter 1 (headerStabilityCap - 1) sel ≤
          table.bytesAfter 1 headerStabilityCap sel :=
        table.bytesAfter_least (Nat.sub_le _ 1) sel
      have greatest : table.bytesAfter 5 headerStabilityCap sel ≤
          table.bytesAfter 5 (headerStabilityCap - 1) sel :=
        table.bytesAfter_greatest (Nat.sub_le _ 1) sel
      have met := decided sel measured
      omega
    unfold computeHeaderLengths
    rw [seedHeaderLens_eq]
    apply @stabilize_from table _ headerStabilityCap 0
    · exact ⟨headerStabilityCap - 1, by decide, settled⟩
    · intro more small
      rw [Nat.zero_add]
      exact sized more small
  · intro undecided sized
    by_contra both
    rw [not_or] at both
    apply undecided
    exact settled_unique sorted distinct
      (settled_of_stabilize sorted distinct (by decide) sized both.1)
      (settled_of_stabilize sorted distinct (le_refl 5) sized both.2)

/-! ## Rows in table order -/

theorem eq_range_of_split {before after : List Nat}
    (split : List.range count = before ++ sel :: after) :
    before = List.range sel := by
  have placed : before.length = sel := by
    have here : (List.range count)[before.length]? = some sel := by
      rw [split]
      simp
    rcases List.getElem?_eq_some_iff.mp here with ⟨inside, value⟩
    rw [List.getElem_range] at value
    exact value
  have taken : (List.range count).take sel = before := by
    rw [split, ← placed, List.take_left]
  have small : sel ≤ count := by
    have lengths := congrArg List.length split
    rw [List.length_range, List.length_append, List.length_cons] at lengths
    omega
  rw [← taken, List.take_range, Nat.min_eq_left small]

theorem basesFirst_range (ordered : table.outputOrder = List.range count)
    (earlier : ∀ {sel base}, table.baseSlots sel = some base → base < sel) :
    table.BasesFirst table.outputOrder := by
  intro before sel after split base found
  rw [ordered] at split
  rw [eq_range_of_split split, List.mem_range]
  exact earlier found

theorem roundSize_le (iteration : Nat) :
    table.roundSize seeds iteration ≤
      12 + (table.outputOrder.map fun sel =>
        2 ^ 16 + table.payloadLens sel).sum := by
  unfold roundSize
  rw [placeRows_cursor]
  apply Nat.add_le_add_left
  apply List.sum_le_sum
  intro sel _
  have small := ((table.layoutRound seeds iteration).1 sel).toNat_lt
  unfold rowSize
  omega

/-- Distances compared row by row. -/
theorem forall_measured {count : Nat}
    (ordered : table.outputOrder = List.range count) {first second : Nat → Nat}
    (checked : ((List.range count).all fun sel =>
      !table.hasDistance sel || first sel == second sel) = true) :
    ∀ sel, table.hasDistance sel = true → first sel = second sel := by
  intro sel measured
  have here := List.all_eq_true.mp checked sel
    (ordered ▸ (hasDistance_iff.mp measured).1)
  rw [measured] at here
  exact eq_of_beq here

/-- Fifty deltas of a hundred bytes, each against the row before it. -/
def deltaChain : SelectionTable :=
  { allocateSelectionTable 51 with
    count := 51
    offsets := fun sel => 12 + 104 * sel
    typeCodes := fun sel => if sel = 0 then 3 else 6
    payloadLens := fun _ => 100
    sizeVarLens := fun _ => 2
    baseSlots := fun sel => if sel = 0 then none else some (sel - 1)
    outputOrder := List.range 51 }

theorem computeHeaderLengths_converges_chain :
    deltaChain.computeHeaderLengths.isSome = true := by
  have sorted : deltaChain.BasesFirst deltaChain.outputOrder := by
    apply basesFirst_range rfl
    intro sel base found
    unfold deltaChain at found
    dsimp only at found
    split at found
    · cases found
    · cases found
      omega
  have converges := computeHeaderLengths_converges List.nodup_range sorted
  apply converges.2.1
  · -- every distance takes one byte or two whatever the others take
    apply converges.1
    decide +kernel
  · intro iteration _
    exact le_trans (roundSize_le iteration) (by decide)

/-! ## Rounds as many as the cap -/

/-- The selection of all but one object of a pack.  The deltas stand in even
rows, each 128 bytes behind its base in the source; the object left out stood
between the first delta and its base. -/
def shiftedDeltas : SelectionTable :=
  { allocateSelectionTable 33 with
    count := 33
    offsets := fun sel =>
      if sel = 0 then 12
      else if sel % 2 = 1 then 112 + 39 * (sel - 1)
      else 162 + 39 * (sel - 2)
    typeCodes := fun sel => if 0 < sel ∧ sel % 2 = 0 then 6 else 3
    payloadLens := fun sel => if 0 < sel ∧ sel % 2 = 0 then 25 else 49
    sizeVarLens := fun _ => 1
    baseSlots := fun sel =>
      if sel = 2 then some 0
      else if 2 < sel ∧ sel % 2 = 0 then some (sel - 3)
      else none
    outputOrder := List.range 33 }

theorem basesFirst_shiftedDeltas :
    shiftedDeltas.BasesFirst shiftedDeltas.outputOrder := by
  apply basesFirst_range rfl
  intro sel base found
  unfold shiftedDeltas at found
  dsimp only at found
  split at found
  · cases found
    omega
  · split at found
    · cases found
      omega
    · cases found

/-- In each round one more delta is a byte shorter. -/
def shiftedBytes (iteration sel : Nat) : Nat :=
  if sel < 2 * iteration + 2 then 1 else 2

theorem iterate_shiftedDeltas (small : iteration ≤ 16) :
    ∀ sel, shiftedDeltas.hasDistance sel = true →
      shiftedDeltas.remeasure^[iteration] shiftedDeltas.seedBytes sel =
        shiftedBytes iteration sel := by
  induction iteration with
  | zero =>
    apply @forall_measured shiftedDeltas 33 rfl
    decide +kernel
  | succ iteration ih =>
    have rounds : ((List.range 16).all fun iteration =>
        (List.range 33).all fun sel => !shiftedDeltas.hasDistance sel ||
          shiftedDeltas.remeasure (shiftedBytes iteration) sel ==
            shiftedBytes (iteration + 1) sel) = true := by
      decide +kernel
    have next := @forall_measured shiftedDeltas 33 rfl _ _
      (List.all_eq_true.mp rounds iteration (List.mem_range.mpr small))
    intro sel measured
    rw [Function.iterate_succ_apply', ← next sel measured]
    exact iterate_remeasure_congr (ih (by omega)) 1 sel measured

/-- Sixteen deltas shorten one after another, and the layout gives up. -/
theorem shiftedDeltas_not_converging :
    shiftedDeltas.outputOrder.Nodup ∧
      shiftedDeltas.BasesFirst shiftedDeltas.outputOrder ∧
      (∀ iteration < headerStabilityCap,
        shiftedDeltas.roundSize shiftedDeltas.seedHeaderLens iteration ≤
          0xffffffff) ∧
      shiftedDeltas.computeHeaderLengths = none := by
  have few := fun sel => (shiftedDeltas.seedBytes_bounds sel).2
  refine ⟨List.nodup_range, basesFirst_shiftedDeltas, ?_, ?_⟩
  · intro iteration _
    exact le_trans (roundSize_le iteration) (by decide)
  · unfold computeHeaderLengths
    rw [seedHeaderLens_eq]
    refine @stabilize_none shiftedDeltas
      (shiftedDeltas.lengthsWith shiftedDeltas.seedBytes) headerStabilityCap 0 ?_
    intro more small
    have bound : more < 16 := small
    have lengths := layoutRound_within basesFirst_shiftedDeltas
      List.nodup_range few (by decide)
    have measured : ((List.range 16).all fun more =>
        shiftedDeltas.hasDistance (2 * more + 2)) = true := by
      decide +kernel
    have here := List.all_eq_true.mp measured more (List.mem_range.mpr bound)
    refine ⟨2 * more + 2, ?_⟩
    rw [Nat.zero_add, lengths, lengths]
    unfold lengthsWith
    rw [if_pos here, if_pos here, iterate_shiftedDeltas bound _ here,
      iterate_shiftedDeltas (Nat.le_of_lt bound) _ here]
    unfold shiftedBytes
    have varint : shiftedDeltas.sizeVarLens (2 * more + 2) = 1 := rfl
    rw [if_pos (by omega), if_neg (by omega), varint]
    decide

end SelectionTable

end GitOnCloudflare.Pack
