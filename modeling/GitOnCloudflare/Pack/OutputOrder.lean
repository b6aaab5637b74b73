import GitOnCloudflare.Pack.HeapOrder
import GitOnCloudflare.Pack.LayoutSound
import Mathlib.Data.Fintype.EquivFin

/-!
# The output order is complete

The heap holds every row whose base is emitted, so the rows that are left when
it is empty wait for one another.  The row on top is the smallest of those that
may be emitted.
-/

namespace GitOnCloudflare.Pack

namespace SelectionTable

variable {table : SelectionTable}

/-! ## The graph of the base slots -/

def BaseOf (table : SelectionTable) (base sel : Nat) : Prop :=
  table.baseSlots sel = some base

/-- The base slots lead from rows to rows, and from no row back to itself. -/
structure AcyclicBases (table : SelectionTable) : Prop where
  rows : ∀ sel < table.count, ∀ base, table.BaseOf base sel →
    base < table.count
  acyclic : ∀ sel < table.count, ¬ Relation.TransGen table.BaseOf sel sel

/-- At every position stands a row before which comes no other that has not
been emitted and whose base has. -/
def SmallestFirst (table : SelectionTable) (order : List Nat) : Prop :=
  ∀ before sel after, order = before ++ sel :: after →
    ∀ other < table.count, other ∉ before → table.Ready before other →
      table.comesBefore other sel = false

theorem comesBefore_iff {left right : Nat} :
    table.comesBefore left right = true ↔
      table.packSlots left < table.packSlots right ∨
        (table.packSlots left = table.packSlots right ∧
          table.offsets left < table.offsets right) := by
  unfold comesBefore
  rw [Bool.or_eq_true, Bool.and_eq_true, decide_eq_true_iff,
    decide_eq_true_iff, decide_eq_true_iff]

theorem comesBefore_irrefl (table : SelectionTable) (sel : Nat) :
    table.comesBefore sel sel = false := by
  apply Bool.eq_false_iff.mpr
  rw [Ne, comesBefore_iff]
  omega

theorem compares_comesBefore (table : SelectionTable) (items : List Nat) :
    BinaryHeap.Compares table.comesBefore items := by
  constructor
  · intro first _ second _ comes
    apply Bool.eq_false_iff.mpr
    rw [comesBefore_iff] at comes
    rw [Ne, comesBefore_iff]
    omega
  · intro first _ middle _ last _ comes
    rw [comesBefore_iff] at comes
    rw [comesBefore_iff, comesBefore_iff]
    omega

/-! ## What the heap holds -/

/-- The heap holds all rows that may be emitted, in its order. -/
structure Exhaustive (table : SelectionTable) (indegree : Nat → Nat)
    (heap order : List Nat) : Prop where
  draining : Draining table indegree heap order
  complete : ∀ sel < table.count, table.Ready order sel → sel ∈ order ++ heap
  heaped : BinaryHeap.Ordered table.comesBefore heap
  smallest : table.SmallestFirst order

variable {heap order : List Nat}

theorem releaseChildren_ordered (children : List Nat) (indegree : Nat → Nat)
    (heaped : BinaryHeap.Ordered table.comesBefore heap) :
    BinaryHeap.Ordered table.comesBefore
      (table.releaseChildren children indegree heap).2 := by
  induction children generalizing indegree heap with
  | nil => exact heaped
  | cons child rest ih =>
    unfold releaseChildren
    dsimp only
    apply ih
    split
    · exact BinaryHeap.push_ordered (table.compares_comesBefore _) heaped
    · exact heaped

variable {sel : Nat} {indegree : Nat → Nat}

theorem SmallestFirst.concat (smallest : table.SmallestFirst order)
    (top : ∀ other < table.count, other ∉ order → table.Ready order other →
      table.comesBefore other sel = false) :
    table.SmallestFirst (order ++ [sel]) := by
  intro before next after split
  rcases List.eq_nil_or_concat after with rfl | ⟨rest, last, rfl⟩
  · rcases List.append_inj' split rfl with ⟨rfl, same⟩
    cases same
    exact top
  · rw [List.concat_eq_append, ← List.cons_append, ← List.append_assoc]
      at split
    rcases List.append_inj' split rfl with ⟨rfl, _⟩
    exact smallest before next rest rfl

theorem Exhaustive.step {indegree : Nat → Nat} {heap rest order : List Nat}
    {sel : Nat} (exhaustive : Exhaustive table indegree heap order)
    (popped : BinaryHeap.pop table.comesBefore heap = some (sel, rest)) :
    let released := table.releaseChildren (table.children sel) indegree rest
    Exhaustive table released.1 released.2 (order ++ [sel]) := by
  have perm := BinaryHeap.pop_perm popped
  rcases BinaryHeap.pop_ordered (table.compares_comesBefore heap)
      exhaustive.heaped popped with ⟨least, heaped⟩
  rcases releaseChildren_spec rest (children_nodup table sel)
      exhaustive.draining.bounded with ⟨arranged, _⟩
  refine ⟨exhaustive.draining.step perm, ?_,
    releaseChildren_ordered _ indegree heaped, ?_⟩
  · intro other inside ready
    rw [List.append_assoc, List.mem_append, List.singleton_append,
      List.mem_cons, arranged.mem_iff, List.mem_append]
    by_cases waited : table.BaseOf sel other
    · exact .inr (.inr (.inl (mem_children.mpr ⟨inside, waited⟩)))
    · have before : table.Ready order other := by
        intro base found
        rcases List.mem_append.mp (ready base found) with old | new
        · exact old
        · rw [List.mem_singleton.mp new] at found
          exact absurd found waited
      rcases List.mem_append.mp (exhaustive.complete other inside before)
        with emitted | waiting
      · exact .inl emitted
      · rcases List.mem_cons.mp (perm.mem_iff.mp waiting) with rfl | left
        · exact .inr (.inl rfl)
        · exact .inr (.inr (.inr left))
  · apply exhaustive.smallest.concat
    intro other inside fresh ready
    have waiting := (List.mem_append.mp
      (exhaustive.complete other inside ready)).resolve_left fresh
    rcases List.mem_cons.mp (perm.mem_iff.mp waiting) with rfl | left
    · exact table.comesBefore_irrefl other
    · exact least other left

theorem exhaustive_start (table : SelectionTable) :
    Exhaustive table table.initialIndegree
      (BinaryHeap.heapify table.comesBefore
        ((List.range table.count).filter fun sel =>
          table.initialIndegree sel = 0))
      [] := by
  refine ⟨draining_start table, ?_,
    BinaryHeap.heapify_ordered (table.compares_comesBefore _), ?_⟩
  · intro sel inside ready
    rw [List.nil_append, (BinaryHeap.heapify_perm _ _).mem_iff]
    apply List.mem_filter.mpr
    refine ⟨List.mem_range.mpr inside, ?_⟩
    apply decide_eq_true
    unfold initialIndegree
    cases found : table.baseSlots sel with
    | none => rfl
    | some base => cases ready base found
  · intro before sel after split
    cases before <;> cases split

theorem pop_eq_none {before : Nat → Nat → Bool}
    (empty : BinaryHeap.pop before heap = none) : heap = [] := by
  cases heap with
  | nil => rfl
  | cons top rest => cases rest <;> cases empty

/-- The rows suffice for all rounds, and in the end the heap is empty. -/
theorem Exhaustive.drains {fuel : Nat}
    (exhaustive : Exhaustive table indegree heap order)
    (enough : table.count ≤ fuel + order.length) :
    ∃ result last,
      table.drainHeap fuel indegree heap order = some result ∧
        Exhaustive table last [] result := by
  induction fuel generalizing indegree heap order with
  | zero =>
    have few : (order ++ heap).length ≤ table.count := by
      rw [← List.length_range (n := table.count)]
      apply (List.subperm_of_subset exhaustive.draining.distinct _).length_le
      exact fun sel member =>
        List.mem_range.mpr (exhaustive.draining.rows sel member)
    rw [List.length_append] at few
    have empty : heap = [] := List.eq_nil_of_length_eq_zero (by omega)
    subst empty
    exact ⟨order, indegree, rfl, exhaustive⟩
  | succ fuel ih =>
    unfold drainHeap
    cases popped : BinaryHeap.pop table.comesBefore heap with
    | none =>
      rw [pop_eq_none popped] at exhaustive
      exact ⟨order, indegree, rfl, exhaustive⟩
    | some pair =>
      rcases pair with ⟨sel, rest⟩
      apply ih (exhaustive.step popped)
      rw [List.length_append, List.length_singleton]
      omega

/-! ## Cycles -/

theorem BasesFirst.idxOf_lt (sorted : table.BasesFirst order)
    (distinct : order.Nodup) {base : Nat}
    (path : Relation.TransGen table.BaseOf base sel) (member : sel ∈ order) :
    base ∈ order ∧ order.idxOf base < order.idxOf sel := by
  have edge : ∀ {base sel}, table.BaseOf base sel → sel ∈ order →
      base ∈ order ∧ order.idxOf base < order.idxOf sel := by
    intro base sel found member
    rcases List.append_of_mem member with ⟨before, after, split⟩
    have earlier := sorted before sel after split base found
    subst split
    have absent : sel ∉ before := by
      intro twice
      exact (List.nodup_append.mp distinct).2.2 sel twice sel
        List.mem_cons_self rfl
    refine ⟨List.mem_append_left _ earlier, ?_⟩
    rw [List.idxOf_append_of_mem earlier, List.idxOf_append_of_notMem absent,
      List.idxOf_cons_self]
    exact Nat.lt_add_right _ (List.idxOf_lt_length_of_mem earlier)
  induction path with
  | single found => exact edge found member
  | tail _ found ih =>
    rcases edge found member with ⟨middle, later⟩
    rcases ih middle with ⟨first, sooner⟩
    exact ⟨first, sooner.trans later⟩

/-- An order of all rows, bases first, leaves no cycle. -/
theorem BasesFirst.acyclicBases (sorted : table.BasesFirst order)
    (perm : order.Perm (List.range table.count)) : table.AcyclicBases := by
  have distinct := perm.nodup_iff.mpr List.nodup_range
  have listed : ∀ sel < table.count, sel ∈ order :=
    fun sel inside => perm.mem_iff.mpr (List.mem_range.mpr inside)
  constructor
  · intro sel inside base found
    have earlier :=
      (sorted.idxOf_lt distinct (.single found) (listed sel inside)).1
    exact List.mem_range.mp (perm.mem_iff.mp earlier)
  · intro sel inside cycle
    exact Nat.lt_irrefl _
      (sorted.idxOf_lt distinct cycle (listed sel inside)).2

/-- What holds of every row whose base has it holds of every row. -/
theorem AcyclicBases.induction (acyclic : table.AcyclicBases)
    {holds : Nat → Prop}
    (step : ∀ sel < table.count,
      (∀ base, table.BaseOf base sel → holds base) → holds sel) :
    ∀ sel < table.count, holds sel := by
  let path : Fin table.count → Fin table.count → Prop :=
    fun base sel => Relation.TransGen table.BaseOf base sel
  have trans : IsTrans (Fin table.count) path :=
    ⟨fun _ _ _ => Relation.TransGen.trans⟩
  have irrefl : Std.Irrefl path :=
    ⟨fun sel => acyclic.acyclic sel sel.isLt⟩
  have founded : WellFounded path := Finite.wellFounded_of_trans_of_irrefl path
  have all : ∀ sel : Fin table.count, holds sel := by
    intro sel
    induction sel using founded.induction with
    | h sel ih =>
      apply step sel sel.isLt
      intro base found
      exact ih ⟨base, acyclic.rows sel sel.isLt base found⟩ (.single found)
  exact fun sel inside => all ⟨sel, inside⟩

/-- With the heap empty, every row of an acyclic table is emitted. -/
theorem Exhaustive.length_eq (exhaustive : Exhaustive table indegree [] order)
    (acyclic : table.AcyclicBases) : order.length = table.count := by
  have all : ∀ sel < table.count, sel ∈ order := by
    apply @AcyclicBases.induction table acyclic (fun sel => sel ∈ order)
    intro sel inside emitted
    have listed := exhaustive.complete sel inside emitted
    rwa [List.append_nil] at listed
  have draining := exhaustive.draining
  have distinct := (List.nodup_append.mp draining.distinct).1
  have perm : order.Perm (List.range table.count) := by
    apply (List.perm_ext_iff_of_nodup distinct List.nodup_range).mpr
    intro sel
    rw [List.mem_range]
    exact ⟨fun member => draining.rows sel (List.mem_append_left _ member),
      all sel⟩
  rw [perm.length_eq, List.length_range]

/-- An order is built exactly where the base slots have no cycle.  It holds
every row once, bases first, and always the smallest row that may come. -/
theorem buildOutputOrder_exact (table : SelectionTable) :
    (table.buildOutputOrder.isSome = true ↔ table.AcyclicBases) ∧
      ∀ ordered, table.buildOutputOrder = some ordered →
        ordered = { table with outputOrder := ordered.outputOrder } ∧
          ordered.outputOrder.Perm (List.range table.count) ∧
          table.BasesFirst ordered.outputOrder ∧
          table.SmallestFirst ordered.outputOrder := by
  rcases table.exhaustive_start.drains (Nat.le_add_right _ _) with
    ⟨order, last, drained, exhaustive⟩
  have built : table.buildOutputOrder =
      if order.length = table.count then
        some { table with outputOrder := order }
      else none := by
    unfold buildOutputOrder
    dsimp only
    rw [drained]
  refine ⟨⟨?_, ?_⟩, ?_⟩
  · intro found
    rcases Option.isSome_iff_exists.mp found with ⟨ordered, found⟩
    rcases buildOutputOrder_sound found with ⟨_, perm, sorted⟩
    exact sorted.acyclicBases perm
  · intro acyclic
    rw [built, if_pos (exhaustive.length_eq acyclic)]
    rfl
  · intro ordered found
    rcases buildOutputOrder_sound found with ⟨same, perm, sorted⟩
    refine ⟨same, perm, sorted, ?_⟩
    rw [built] at found
    split at found
    · cases found
      exact exhaustive.smallest
    · cases found

end SelectionTable

end GitOnCloudflare.Pack
