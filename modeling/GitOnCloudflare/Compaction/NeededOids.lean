import GitOnCloudflare.Fetch.OidText
import GitOnCloudflare.Pack.HeapOrder
import GitOnCloudflare.Pack.IdxOrder

/-!
# The objects a compaction needs

The merge of the sorted names of the source packs over a heap with one entry
for each pack.  Every name that is still to come is at or after the one on top,
so comparing with the last name alone keeps each name once.
-/

namespace GitOnCloudflare.Compaction

open Pack Pack.BinaryHeap

structure CompactionHeapEntry where
  packSlot : Nat
  objectIndex : Nat

variable {heap rest : List CompactionHeapEntry} {current : CompactionHeapEntry}

section

variable (sourcePacks : List IdxView)

/-- The number of objects of the pack in a slot. -/
def countAt (packSlot : Nat) : Nat :=
  match sourcePacks[packSlot]? with
  | some idx => idx.count
  | none => 0

/-- The raw name an entry stands at, which `compareRawOid` and
`compareRawOidToBuffer` compare. -/
def rawOid (entry : CompactionHeapEntry) : Bytes :=
  match sourcePacks[entry.packSlot]? with
  | some idx => idx.nameAt entry.objectIndex
  | none => []

/-- The comparator of the heap. -/
def compareEntries (left right : CompactionHeapEntry) : Int :=
  let cmp := compareBytes (rawOid sourcePacks left) (rawOid sourcePacks right)
  if cmp ≠ 0 then
    cmp
  else if left.packSlot ≠ right.packSlot then
    (left.packSlot : Int) - right.packSlot
  else
    (left.objectIndex : Int) - right.objectIndex

def comesFirst (left right : CompactionHeapEntry) : Bool :=
  decide (compareEntries sourcePacks left right < 0)

/-- The first object of every pack that has one. -/
def initialHeap : List CompactionHeapEntry :=
  (List.range sourcePacks.length).foldl (fun heap packSlot =>
    if 0 < countAt sourcePacks packSlot then
      push (comesFirst sourcePacks) heap ⟨packSlot, 0⟩
    else
      heap) []

/-- Go on to the next object of the popped entry's pack. -/
def advance (heap : List CompactionHeapEntry) (current : CompactionHeapEntry) :
    List CompactionHeapEntry :=
  let nextObjectIndex := current.objectIndex + 1
  if nextObjectIndex < countAt sourcePacks current.packSlot then
    push (comesFirst sourcePacks) heap ⟨current.packSlot, nextObjectIndex⟩
  else
    heap

/-- One more than the objects that an entry has before it in its pack. -/
def entryWeight (entry : CompactionHeapEntry) : Nat :=
  countAt sourcePacks entry.packSlot - entry.objectIndex + 1

def heapWeight (heap : List CompactionHeapEntry) : Nat :=
  (heap.map (entryWeight sourcePacks)).sum

variable {sourcePacks}

theorem heapWeight_perm {left right : List CompactionHeapEntry}
    (perm : left.Perm right) :
    heapWeight sourcePacks left = heapWeight sourcePacks right :=
  (perm.map _).sum_nat

/-- Every round of the merge uses up weight. -/
theorem heapWeight_advance_lt
    (popped : pop (comesFirst sourcePacks) heap = some (current, rest)) :
    heapWeight sourcePacks (advance sourcePacks rest current) <
      heapWeight sourcePacks heap := by
  rw [heapWeight_perm (pop_perm popped)]
  unfold advance
  dsimp only
  split
  · next more =>
      rw [heapWeight_perm (push_perm _ _ _)]
      simp only [heapWeight, List.map_cons, List.sum_cons, entryWeight]
      omega
  · simp only [heapWeight, List.map_cons, List.sum_cons, entryWeight]
    omega

variable (sourcePacks)

/-- The loop, with the name it has emitted last. -/
def mergeLoop (heap : List CompactionHeapEntry) (previousOid : Option Bytes) :
    List String :=
  match _popped : pop (comesFirst sourcePacks) heap with
  | none => []
  | some (current, rest) =>
    let oidBytes := rawOid sourcePacks current
    if previousOid.all fun previous => compareBytes oidBytes previous ≠ 0 then
      bytesToHex oidBytes ::
        mergeLoop (advance sourcePacks rest current) (some oidBytes)
    else
      mergeLoop (advance sourcePacks rest current) previousOid
termination_by heapWeight sourcePacks heap
decreasing_by
  all_goals exact heapWeight_advance_lt _popped

def buildCompactionNeededOids : List String :=
  mergeLoop sourcePacks (initialHeap sourcePacks) none

end

/-! ## Sorted packs -/

/-- The names of a view are complete and sorted; one may stand in several
rows. -/
structure SortedNames (idx : IdxView) : Prop where
  complete : idx.count * 20 ≤ idx.rawNames.length
  sorted : ∀ first second, first ≤ second → second < idx.count →
    compareBytes (idx.nameAt first) (idx.nameAt second) ≤ 0

variable {sourcePacks : List IdxView}

/-- An entry stands at an object of its pack. -/
def Valid (sourcePacks : List IdxView) (entry : CompactionHeapEntry) : Prop :=
  entry.objectIndex < countAt sourcePacks entry.packSlot

theorem length_rawOid (sorted : ∀ idx ∈ sourcePacks, SortedNames idx)
    {entry : CompactionHeapEntry} (valid : Valid sourcePacks entry) :
    (rawOid sourcePacks entry).length = 20 := by
  unfold Valid countAt at valid
  unfold rawOid
  split at valid
  · next idx found =>
      have complete := (sorted idx (List.mem_of_getElem? found)).complete
      rw [IdxView.nameAt, Foundations.ByteTable.slice, List.length_take,
        List.length_drop]
      omega
  · exact absurd valid (Nat.not_lt_zero _)

/-- Names further on in a pack are at or after an entry's. -/
theorem rawOid_sorted (sorted : ∀ idx ∈ sourcePacks, SortedNames idx)
    {packSlot first second : Nat} (later : first ≤ second)
    (inside : second < countAt sourcePacks packSlot) :
    compareBytes (rawOid sourcePacks ⟨packSlot, first⟩)
      (rawOid sourcePacks ⟨packSlot, second⟩) ≤ 0 := by
  unfold countAt at inside
  unfold rawOid
  split at inside
  · next idx found =>
      dsimp only
      rw [found]
      exact (sorted idx (List.mem_of_getElem? found)).sorted first second later
        inside
  · exact absurd inside (Nat.not_lt_zero _)

theorem compareEntries_swap (left right : CompactionHeapEntry) :
    compareEntries sourcePacks right left =
      -compareEntries sourcePacks left right := by
  have back := compareBytes_swap (rawOid sourcePacks left)
    (rawOid sourcePacks right)
  unfold compareEntries
  dsimp only
  split_ifs <;> omega

/-- The comparator is an order on valid entries. -/
theorem compares (sorted : ∀ idx ∈ sourcePacks, SortedNames idx)
    (valid : ∀ entry ∈ heap, Valid sourcePacks entry) :
    Compares (comesFirst sourcePacks) heap := by
  constructor
  · intro first _ second _ comes
    have back := @compareEntries_swap sourcePacks first second
    simp only [comesFirst, decide_eq_true_eq, decide_eq_false_iff_not] at comes ⊢
    omega
  · intro first inFirst middle inMiddle last inLast comes
    simp only [comesFirst, decide_eq_true_eq] at comes ⊢
    by_contra neither
    rcases not_or.mp neither with ⟨early, late⟩
    have sizeFirst := length_rawOid sorted (valid first inFirst)
    have sizeMiddle := length_rawOid sorted (valid middle inMiddle)
    have sizeLast := length_rawOid sorted (valid last inLast)
    have swapEarly := compareBytes_swap (rawOid sourcePacks first)
      (rawOid sourcePacks middle)
    have swapLate := compareBytes_swap (rawOid sourcePacks middle)
      (rawOid sourcePacks last)
    have swapWhole := compareBytes_swap (rawOid sourcePacks first)
      (rawOid sourcePacks last)
    have backwards := @compareBytes_trans (rawOid sourcePacks last)
      (rawOid sourcePacks middle) (rawOid sourcePacks first) (by omega) (by omega)
    have equal : compareBytes (rawOid sourcePacks first)
        (rawOid sourcePacks last) = 0 →
          compareBytes (rawOid sourcePacks middle) (rawOid sourcePacks last) =
            -compareBytes (rawOid sourcePacks first)
              (rawOid sourcePacks middle) := by
      intro same
      rw [← (compareBytes_eq_zero (by omega)).mp same]
      exact swapEarly
    unfold compareEntries at comes early late
    dsimp only at comes early late
    split_ifs at comes early late <;> omega

/-- The entry does not come out first only when its name is not before. -/
theorem rawOid_le_of_not_first {entry top : CompactionHeapEntry}
    (last : comesFirst sourcePacks entry top = false) :
    compareBytes (rawOid sourcePacks top) (rawOid sourcePacks entry) ≤ 0 := by
  have back := compareBytes_swap (rawOid sourcePacks entry) (rawOid sourcePacks top)
  simp only [comesFirst, decide_eq_false_iff_not] at last
  unfold compareEntries at last
  dsimp only at last
  split_ifs at last <;> omega

/-! ## What is still to come -/

/-- A name that an entry of the heap stands at or has before it. -/
def Pending (sourcePacks : List IdxView) (heap : List CompactionHeapEntry)
    (name : Bytes) : Prop :=
  ∃ entry ∈ heap, ∃ row, entry.objectIndex ≤ row ∧
    row < countAt sourcePacks entry.packSlot ∧
    rawOid sourcePacks ⟨entry.packSlot, row⟩ = name

variable {name : Bytes} {previousOid : Option Bytes}

theorem Pending.length (sorted : ∀ idx ∈ sourcePacks, SortedNames idx)
    (pending : Pending sourcePacks heap name) :
    name.length = 20 := by
  rcases pending with ⟨entry, _, row, _, inside, rfl⟩
  exact @length_rawOid _ sorted ⟨entry.packSlot, row⟩ inside

/-- What is pending is the name on top or pending behind it. -/
theorem pending_pop_iff (valid : Valid sourcePacks current)
    (popped : pop (comesFirst sourcePacks) heap = some (current, rest))
    (name : Bytes) :
    Pending sourcePacks heap name ↔
      name = rawOid sourcePacks current ∨
        Pending sourcePacks (advance sourcePacks rest current) name := by
  have perm := pop_perm popped
  constructor
  · rintro ⟨entry, member, row, low, high, rfl⟩
    unfold advance
    dsimp only
    rcases List.mem_cons.mp (perm.mem_iff.mp member) with rfl | member
    · rcases Nat.eq_or_lt_of_le low with rfl | later
      · exact .inl rfl
      · right
        rw [if_pos (show entry.objectIndex + 1 <
          countAt sourcePacks entry.packSlot by omega)]
        exact ⟨⟨entry.packSlot, entry.objectIndex + 1⟩,
          (push_perm _ _ _).mem_iff.mpr List.mem_cons_self, row, later, high, rfl⟩
    · right
      refine ⟨entry, ?_, row, low, high, rfl⟩
      split
      · exact (push_perm _ _ _).mem_iff.mpr (List.mem_cons_of_mem _ member)
      · exact member
  · rintro (rfl | ⟨entry, member, row, low, high, rfl⟩)
    · exact ⟨current, perm.mem_iff.mpr List.mem_cons_self, current.objectIndex,
        le_rfl, valid, rfl⟩
    · have fromRest : entry ∈ rest → Pending sourcePacks heap
          (rawOid sourcePacks ⟨entry.packSlot, row⟩) := fun member =>
        ⟨entry, perm.mem_iff.mpr (List.mem_cons_of_mem _ member), row, low, high,
          rfl⟩
      unfold advance at member
      dsimp only at member
      split at member
      · rcases List.mem_cons.mp ((push_perm _ _ _).mem_iff.mp member) with
          rfl | member
        · exact ⟨current, perm.mem_iff.mpr List.mem_cons_self, row,
            Nat.le_of_succ_le low, high, rfl⟩
        · exact fromRest member
      · exact fromRest member

/-- The heap is ordered, and nothing pending is before the last name. -/
structure Merging (sourcePacks : List IdxView) (heap : List CompactionHeapEntry)
    (previousOid : Option Bytes) : Prop where
  ordered : Ordered (comesFirst sourcePacks) heap
  valid : ∀ entry ∈ heap, Valid sourcePacks entry
  length : ∀ previous ∈ previousOid, previous.length = 20
  behind : ∀ previous ∈ previousOid, ∀ name, Pending sourcePacks heap name →
    compareBytes previous name ≤ 0

/-- The popped entry stands at the least pending name. -/
theorem Merging.least (sorted : ∀ idx ∈ sourcePacks, SortedNames idx)
    (merging : Merging sourcePacks heap previousOid)
    (popped : pop (comesFirst sourcePacks) heap = some (current, rest))
    (pending : Pending sourcePacks heap name) :
    compareBytes (rawOid sourcePacks current) name ≤ 0 := by
  have perm := pop_perm popped
  have top := (pop_ordered (compares sorted merging.valid) merging.ordered popped).1
  have validTop := merging.valid current (perm.mem_iff.mpr List.mem_cons_self)
  rcases pending with ⟨entry, member, row, low, high, rfl⟩
  have size := length_rawOid sorted (merging.valid entry member)
  have first : compareBytes (rawOid sourcePacks current)
      (rawOid sourcePacks entry) ≤ 0 := by
    rcases List.mem_cons.mp (perm.mem_iff.mp member) with rfl | member
    · rw [compareBytes_self]
    · exact rawOid_le_of_not_first (top entry member)
  have later := rawOid_sorted sorted low high
  have sizeTop := length_rawOid sorted validTop
  have sizeRow := @length_rawOid _ sorted ⟨entry.packSlot, row⟩ high
  exact compareBytes_trans (by omega) (size.trans sizeRow.symm) first later

/-- One round of the merge. -/
theorem Merging.advance (sorted : ∀ idx ∈ sourcePacks, SortedNames idx)
    {heap rest : List CompactionHeapEntry} {previousOid : Option Bytes}
    {current : CompactionHeapEntry} (merging : Merging sourcePacks heap previousOid)
    (popped : pop (comesFirst sourcePacks) heap = some (current, rest)) :
    Merging sourcePacks (advance sourcePacks rest current)
      (some (rawOid sourcePacks current)) := by
  have perm := pop_perm popped
  have validTop := merging.valid current (perm.mem_iff.mpr List.mem_cons_self)
  have validRest : ∀ entry ∈ rest, Valid sourcePacks entry := fun entry member =>
    merging.valid entry (perm.mem_iff.mpr (List.mem_cons_of_mem _ member))
  have orderedRest :=
    (pop_ordered (compares sorted merging.valid) merging.ordered popped).2
  constructor
  · unfold Compaction.advance
    dsimp only
    split
    · next more =>
        apply push_ordered _ orderedRest
        apply compares sorted
        exact List.forall_mem_cons.mpr ⟨more, validRest⟩
    · exact orderedRest
  · unfold Compaction.advance
    dsimp only
    split
    · next more =>
        intro entry member
        rcases List.mem_cons.mp ((push_perm _ _ _).mem_iff.mp member) with
          rfl | member
        · exact more
        · exact validRest entry member
    · exact validRest
  · intro previous same
    cases same
    exact length_rawOid sorted validTop
  · intro previous same name pending
    cases same
    exact merging.least sorted popped
      ((pending_pop_iff validTop popped name).mpr (.inr pending))

theorem mergeLoop_none (popped : pop (comesFirst sourcePacks) heap = none)
    (previousOid : Option Bytes) :
    mergeLoop sourcePacks heap previousOid = [] := by
  rw [mergeLoop]
  split
  · rfl
  · next popped' => cases popped.symm.trans popped'

theorem mergeLoop_some
    (popped : pop (comesFirst sourcePacks) heap = some (current, rest))
    (previousOid : Option Bytes) :
    mergeLoop sourcePacks heap previousOid =
      if previousOid.all fun previous =>
          compareBytes (rawOid sourcePacks current) previous ≠ 0 then
        bytesToHex (rawOid sourcePacks current) ::
          mergeLoop sourcePacks (advance sourcePacks rest current)
            (some (rawOid sourcePacks current))
      else
        mergeLoop sourcePacks (advance sourcePacks rest current) previousOid := by
  rw [mergeLoop]
  split
  · next popped' => cases popped.symm.trans popped'
  · next popped' =>
      cases popped.symm.trans popped'
      rfl

/-- The names that the loop emits: increasing, behind the last one, and the
pending ones but for it. -/
structure Emits (sourcePacks : List IdxView) (heap : List CompactionHeapEntry)
    (previousOid : Option Bytes) (names : List Bytes) : Prop where
  emitted : mergeLoop sourcePacks heap previousOid = names.map bytesToHex
  increasing : names.Pairwise fun first second => compareBytes first second < 0
  exactly : ∀ name, name ∈ names ↔
    Pending sourcePacks heap name ∧ previousOid ≠ some name

theorem mergeLoop_emits (sorted : ∀ idx ∈ sourcePacks, SortedNames idx)
    (merging : Merging sourcePacks heap previousOid) :
    ∃ names, Emits sourcePacks heap previousOid names := by
  induction weight : heapWeight sourcePacks heap using Nat.strong_induction_on
    generalizing heap previousOid with
  | h weight ih =>
    subst weight
    cases popped : pop (comesFirst sourcePacks) heap with
    | none =>
      have empty := pop_eq_none_iff.mp popped
      refine ⟨[], mergeLoop_none popped previousOid, .nil, fun name => ?_⟩
      constructor
      · intro none
        cases none
      · rintro ⟨⟨entry, member, _⟩, _⟩
        rw [empty] at member
        cases member
    | some found =>
      rcases found with ⟨current, rest⟩
      have valid := merging.valid current
        ((pop_perm popped).mem_iff.mpr List.mem_cons_self)
      have size := length_rawOid sorted valid
      rcases ih _ (heapWeight_advance_lt popped)
          (merging.advance sorted popped) rfl with
        ⟨names, emitted, increasing, exactly⟩
      have pending := pending_pop_iff valid popped
      have topPending := (pending _).mpr (.inl rfl)
      by_cases fresh : previousOid = some (rawOid sourcePacks current)
      · refine ⟨names, ?_, increasing, fun name => ?_⟩
        · rw [mergeLoop_some popped, fresh, if_neg, emitted]
          rw [Option.all_some, compareBytes_self]
          decide
        · rw [exactly, pending, fresh]
          constructor
          · rintro ⟨later, apart⟩
            exact ⟨.inr later, apart⟩
          · rintro ⟨rfl | later, apart⟩
            · exact absurd rfl apart
            · exact ⟨later, apart⟩
      · refine ⟨rawOid sourcePacks current :: names, ?_, ?_, fun name => ?_⟩
        · rw [mergeLoop_some popped, if_pos, emitted, List.map_cons]
          rw [Option.all_eq_true]
          intro previous same
          apply decide_eq_true
          intro equal
          apply fresh
          rw [(compareBytes_eq_zero
            (size.trans (merging.length previous same).symm)).mp equal]
          exact same
        · refine List.pairwise_cons.mpr ⟨fun name member => ?_, increasing⟩
          rcases (exactly name).mp member with ⟨later, apart⟩
          have least := merging.least sorted popped
            ((pending name).mpr (.inr later))
          have differ : compareBytes (rawOid sourcePacks current) name ≠ 0 := by
            intro equal
            apply apart
            rw [(compareBytes_eq_zero
              (size.trans (later.length sorted).symm)).mp equal]
          omega
        · rw [List.mem_cons, exactly, pending]
          constructor
          · rintro (rfl | ⟨later, apart⟩)
            · exact ⟨.inl rfl, fresh⟩
            · refine ⟨.inr later, fun same => ?_⟩
              have before := merging.behind name same _ topPending
              have after := merging.least sorted popped
                ((pending name).mpr (.inr later))
              have back := compareBytes_swap (rawOid sourcePacks current) name
              apply apart
              rw [(compareBytes_eq_zero
                (size.trans (later.length sorted).symm)).mp (by omega)]
          · rintro ⟨same | later, apart⟩
            · exact .inl same
            · by_cases same : name = rawOid sourcePacks current
              · exact .inl same
              · refine .inr ⟨later, fun equal => same ?_⟩
                exact (Option.some.inj equal).symm

/-! ## The whole merge -/

/-- The packs of the first slots that have an object. -/
theorem initialHeap_upTo (sorted : ∀ idx ∈ sourcePacks, SortedNames idx)
    (slots : Nat) :
    let heap := (List.range slots).foldl (fun heap packSlot =>
      if 0 < countAt sourcePacks packSlot then
        push (comesFirst sourcePacks) heap ⟨packSlot, 0⟩
      else
        heap) []
    Ordered (comesFirst sourcePacks) heap ∧
      ∀ entry, entry ∈ heap ↔ entry.objectIndex = 0 ∧ entry.packSlot < slots ∧
        0 < countAt sourcePacks entry.packSlot := by
  induction slots with
  | zero =>
    refine ⟨fun _ _ => rfl, fun entry => ?_⟩
    constructor
    · intro none
      cases none
    · rintro ⟨_, none, _⟩
      exact absurd none (Nat.not_lt_zero _)
  | succ slots ih =>
    dsimp only at ih ⊢
    rw [List.range_succ, List.foldl_append]
    generalize (List.range slots).foldl (fun heap packSlot =>
      if 0 < countAt sourcePacks packSlot then
        push (comesFirst sourcePacks) heap ⟨packSlot, 0⟩
      else
        heap) [] = heap at ih ⊢
    rcases ih with ⟨ordered, entries⟩
    rw [List.foldl_cons, List.foldl_nil]
    by_cases some : 0 < countAt sourcePacks slots
    · rw [if_pos some]
      constructor
      · apply push_ordered _ ordered
        apply compares sorted
        refine List.forall_mem_cons.mpr ⟨some, fun entry member => ?_⟩
        rcases (entries entry).mp member with ⟨zero, _, positive⟩
        rw [Valid, zero]
        exact positive
      · intro entry
        rw [(push_perm _ _ _).mem_iff, List.mem_cons, entries]
        constructor
        · rintro (rfl | ⟨zero, inside, positive⟩)
          · exact ⟨rfl, Nat.lt_succ_self _, some⟩
          · exact ⟨zero, Nat.lt_succ_of_lt inside, positive⟩
        · rintro ⟨zero, inside, positive⟩
          rcases Nat.eq_or_lt_of_le (Nat.le_of_lt_succ inside) with same | earlier
          · left
            cases entry
            cases zero
            cases same
            rfl
          · exact .inr ⟨zero, earlier, positive⟩
    · rw [if_neg some]
      refine ⟨ordered, fun entry => ?_⟩
      rw [entries]
      constructor
      · rintro ⟨zero, inside, positive⟩
        exact ⟨zero, Nat.lt_succ_of_lt inside, positive⟩
      · rintro ⟨zero, inside, positive⟩
        refine ⟨zero, ?_, positive⟩
        rcases Nat.eq_or_lt_of_le (Nat.le_of_lt_succ inside) with same | earlier
        · rw [same] at positive
          exact absurd positive some
        · exact earlier

theorem initial_merging (sorted : ∀ idx ∈ sourcePacks, SortedNames idx) :
    Merging sourcePacks (initialHeap sourcePacks) none where
  ordered := (initialHeap_upTo sorted sourcePacks.length).1
  valid entry member := by
    rcases ((initialHeap_upTo sorted sourcePacks.length).2 entry).mp member with
      ⟨zero, _, positive⟩
    rw [Valid, zero]
    exact positive
  length _ none := by cases none
  behind _ none := by cases none

/-- At the start every name of every pack is pending. -/
theorem pending_initial_iff (sorted : ∀ idx ∈ sourcePacks, SortedNames idx)
    (name : Bytes) :
    Pending sourcePacks (initialHeap sourcePacks) name ↔
      ∃ idx ∈ sourcePacks, ∃ row < idx.count, idx.nameAt row = name := by
  have entries := (initialHeap_upTo sorted sourcePacks.length).2
  constructor
  · rintro ⟨entry, _, row, _, inside, rfl⟩
    unfold countAt at inside
    unfold rawOid
    dsimp only
    split at inside
    · next idx found =>
        exact ⟨idx, List.mem_of_getElem? found, row, inside, rfl⟩
    · exact absurd inside (Nat.not_lt_zero _)
  · rintro ⟨idx, member, row, inside, rfl⟩
    rcases List.getElem?_of_mem member with ⟨packSlot, found⟩
    have slot := (List.getElem?_eq_some_iff.mp found).1
    have count : countAt sourcePacks packSlot = idx.count := by
      rw [countAt, found]
    refine ⟨⟨packSlot, 0⟩, (entries _).mpr ⟨rfl, slot, by dsimp only; omega⟩, row,
      Nat.zero_le _, by dsimp only; omega, ?_⟩
    rw [rawOid, found]

/-- Text keeps the order of the bytes. -/
theorem bytesToHex_lt {left right : Bytes}
    (before : compareBytes left right < 0) : bytesToHex left < bytesToHex right := by
  rw [String.lt_iff, Fetch.toList_bytesToHex, Fetch.toList_bytesToHex]
  have digits : ∀ first second : Fin 16, first < second →
      Fetch.lowerDigits.getD first '0' < Fetch.lowerDigits.getD second '0' := by
    decide +kernel
  induction left generalizing right with
  | nil => cases right <;> exact absurd before (Int.lt_irrefl 0)
  | cons first lefts ih =>
    cases right with
    | nil => exact absurd before (Int.lt_irrefl 0)
    | cons second rights =>
      rw [List.flatMap_cons, List.flatMap_cons]
      rw [compareBytes] at before
      split at before
      · next same =>
          rw [same]
          exact List.append_left_lt (ih before)
      · have low := first.toNat_lt
        have low' := second.toNat_lt
        rw [Fetch.byteDigits, Fetch.byteDigits, List.cons_append,
          List.cons_append, List.cons_append, List.cons_append,
          List.cons_lt_cons_iff, List.cons_lt_cons_iff]
        rcases Nat.lt_or_ge (first.toNat / 16) (second.toNat / 16) with
          high | high
        · exact .inl (digits ⟨_, by omega⟩ ⟨_, by omega⟩ high)
        · have same : first.toNat / 16 = second.toNat / 16 := by omega
          rw [same]
          exact .inr ⟨rfl, .inl (digits ⟨first.toNat % 16, by omega⟩
            ⟨second.toNat % 16, by omega⟩
            (show first.toNat % 16 < second.toNat % 16 by omega))⟩

/-- The merge gives the ids of all packs in increasing order, each once. -/
theorem buildCompactionNeededOids_exact
    (sorted : ∀ idx ∈ sourcePacks, SortedNames idx) :
    (buildCompactionNeededOids sourcePacks).Pairwise (· < ·) ∧
      ∀ oid, oid ∈ buildCompactionNeededOids sourcePacks ↔
        ∃ idx ∈ sourcePacks, ∃ row < idx.count,
          bytesToHex (idx.nameAt row) = oid := by
  rcases mergeLoop_emits sorted (initial_merging sorted) with
    ⟨names, emitted, increasing, exactly⟩
  rw [buildCompactionNeededOids, emitted]
  constructor
  · exact List.pairwise_map.mpr (increasing.imp bytesToHex_lt)
  · intro oid
    rw [List.mem_map]
    constructor
    · rintro ⟨name, member, rfl⟩
      rcases (pending_initial_iff sorted name).mp ((exactly name).mp member).1 with
        ⟨idx, inside, row, bound, rfl⟩
      exact ⟨idx, inside, row, bound, rfl⟩
    · rintro ⟨idx, inside, row, bound, rfl⟩
      refine ⟨idx.nameAt row, (exactly _).mpr ⟨?_, fun none => by cases none⟩, rfl⟩
      exact (pending_initial_iff sorted _).mpr ⟨idx, inside, row, bound, rfl⟩

/-- A view with these names and nothing else. -/
def viewOfNames (names : List Bytes) : IdxView where
  packKey := ""
  count := names.length
  fanout := []
  rawNames := names.flatten
  offsets := []
  nextOffsetByIndex := []
  sortedOffsets := []
  sortedOffsetIndices := []
  packSize := 0
  packChecksum := []
  idxChecksum := []

/-- A name twice in one pack and again in another, beside an empty pack. -/
def sharedNames : List IdxView :=
  [viewOfNames [List.replicate 20 1, List.replicate 20 1, List.replicate 20 7],
    viewOfNames [], viewOfNames [List.replicate 20 1]]

theorem buildCompactionNeededOids_exact_shared :
    (buildCompactionNeededOids sharedNames).Pairwise (· < ·) ∧
      ∀ oid, oid ∈ buildCompactionNeededOids sharedNames ↔
        ∃ idx ∈ sharedNames, ∃ row < idx.count,
          bytesToHex (idx.nameAt row) = oid := by
  apply buildCompactionNeededOids_exact
  have complete : sharedNames.all (fun idx =>
      decide (idx.count * 20 ≤ idx.rawNames.length)) = true := by decide
  have sorted : sharedNames.all (fun idx => decide (∀ second < idx.count,
      ∀ first ≤ second,
        compareBytes (idx.nameAt first) (idx.nameAt second) ≤ 0)) = true := by
    decide +kernel
  intro idx member
  constructor
  · exact of_decide_eq_true (List.all_eq_true.mp complete idx member)
  · intro first second low high
    exact of_decide_eq_true (List.all_eq_true.mp sorted idx member) second high
      first low

end GitOnCloudflare.Compaction
