import GitOnCloudflare.Pack.BinaryHeap
import Mathlib.Data.Nat.Basic
import Mathlib.Logic.Equiv.Basic

/-!
# The order of the heap

No item comes out before its parent.  Both sifts restore this order from a
start where it fails at one index only, so the item on top comes out before
none of the others.  Where an item stands is followed through the swaps as a
permutation of the indices.
-/

namespace GitOnCloudflare.Pack

variable {Item : Type}

namespace BinaryHeap

/-- The comparison is a strict weak order on the items. -/
structure Compares (before : Item → Item → Bool) (items : List Item) : Prop where
  asymm : ∀ first ∈ items, ∀ second ∈ items,
    before first second = true → before second first = false
  split : ∀ first ∈ items, ∀ middle ∈ items, ∀ last ∈ items,
    before first last = true →
      before first middle = true ∨ before middle last = true

variable {before : Item → Item → Bool} {items : List Item}
  {other : List Item} {first : Nat}

theorem Compares.subset (compares : Compares before items)
    (subset : other ⊆ items) : Compares before other where
  asymm first member second member' :=
    compares.asymm first (subset member) second (subset member')
  split first member middle member' last member'' :=
    compares.split first (subset member) middle (subset member') last
      (subset member'')

theorem Compares.perm (compares : Compares before items)
    (perm : other.Perm items) : Compares before other :=
  compares.subset perm.subset

variable {left right middle : Nat}

theorem precedes_eq_true_iff :
    precedes before items left right = true ↔
      ∃ first second, items[left]? = some first ∧ items[right]? = some second ∧
        before first second = true := by
  unfold precedes
  constructor
  · intro first
    split at first
    · next found found' => exact ⟨_, _, found, found', first⟩
    · cases first
  · rintro ⟨first, second, found, found', comes⟩
    rw [found, found']
    exact comes

theorem Compares.not_precedes (compares : Compares before items)
    (first : precedes before items left right = true) :
    precedes before items right left = false := by
  rcases precedes_eq_true_iff.mp first with ⟨one, two, found, found', comes⟩
  have back := compares.asymm one (List.mem_of_getElem? found) two
    (List.mem_of_getElem? found') comes
  rw [precedes, found, found']
  exact back

theorem Compares.precedes_split (compares : Compares before items)
    (inside : middle < items.length)
    (first : precedes before items left right = true) :
    precedes before items left middle = true ∨
      precedes before items middle right = true := by
  rcases precedes_eq_true_iff.mp first with ⟨one, two, found, found', comes⟩
  have between := List.getElem?_eq_getElem inside
  rcases compares.split one (List.mem_of_getElem? found) _
      (List.mem_of_getElem? between) two (List.mem_of_getElem? found') comes with
    early | late
  · exact .inl (precedes_eq_true_iff.mpr ⟨_, _, found, between, early⟩)
  · exact .inr (precedes_eq_true_iff.mpr ⟨_, _, between, found', late⟩)

theorem Compares.precedes_trans (compares : Compares before items)
    (early : precedes before items left middle = true)
    (late : precedes before items middle right = true) :
    precedes before items left right = true := by
  have inside : right < items.length := by
    rcases precedes_eq_true_iff.mp late with ⟨_, _, _, found, _⟩
    exact (List.getElem?_eq_some_iff.mp found).1
  rcases compares.precedes_split inside early with whole | back
  · exact whole
  · rw [compares.not_precedes late] at back
    cases back

/-- The way from a later item over one that does not come out before it. -/
theorem Compares.not_precedes_trans (compares : Compares before items)
    (inside : middle < items.length)
    (early : precedes before items left middle = false)
    (late : precedes before items middle right = false) :
    precedes before items left right = false := by
  by_contra first
  rcases compares.precedes_split inside (Bool.not_eq_false _ ▸ first) with
    early' | late'
  · rw [early] at early'
    cases early'
  · rw [late] at late'
    cases late'

theorem getElem?_swap (leftInside : left < items.length)
    (rightInside : right < items.length) (index : Nat) :
    (swap items left right)[index]? = items[Equiv.swap left right index]? := by
  unfold swap
  rw [List.getElem?_eq_getElem leftInside, List.getElem?_eq_getElem rightInside]
  dsimp only
  rw [List.getElem?_set, List.getElem?_set, List.length_set,
    Equiv.swap_apply_def]
  by_cases atRight : right = index
  · subst atRight
    rw [if_pos rfl, if_pos rightInside]
    by_cases same : right = left
    · subst same
      rw [if_pos rfl, List.getElem?_eq_getElem leftInside]
    · rw [if_neg same, if_pos rfl, List.getElem?_eq_getElem leftInside]
  · rw [if_neg atRight]
    by_cases atLeft : left = index
    · subst atLeft
      rw [if_pos rfl, if_pos leftInside, if_pos rfl,
        List.getElem?_eq_getElem rightInside]
    · rw [if_neg atLeft, if_neg (Ne.symm atLeft), if_neg (Ne.symm atRight)]

theorem precedes_swap {left right : Nat} (leftInside : left < items.length)
    (rightInside : right < items.length) (first second : Nat) :
    precedes before (swap items left right) first second =
      precedes before items (Equiv.swap left right first)
        (Equiv.swap left right second) := by
  rw [precedes, precedes, getElem?_swap leftInside rightInside,
    getElem?_swap leftInside rightInside]

/-! ## Ordered heaps -/

def parent (index : Nat) : Nat := (index - 1) / 2

/-- No item comes out before its parent. -/
def Ordered (before : Item → Item → Bool) (items : List Item) : Prop :=
  ∀ index, 0 < index → precedes before items index (parent index) = false

/-- The order holds but for the item at `hole` and its parent; what is below
does not come out before that parent. -/
structure UpOrdered (before : Item → Item → Bool) (items : List Item)
    (hole : Nat) : Prop where
  apart : ∀ index, 0 < index → index ≠ hole →
    precedes before items index (parent index) = false
  grand : ∀ index, 0 < index → parent index = hole → 0 < hole →
    precedes before items index (parent hole) = false

/-- The order holds but for the item at `hole` and its children; these do not
come out before its parent. -/
structure DownOrdered (before : Item → Item → Bool) (items : List Item)
    (hole : Nat) : Prop where
  apart : ∀ index, 0 < index → parent index ≠ hole →
    precedes before items index (parent index) = false
  grand : ∀ index, 0 < index → parent index = hole → 0 < hole →
    precedes before items index (parent hole) = false

theorem parent_lt {index : Nat} (positive : 0 < index) : parent index < index := by
  unfold parent
  omega

theorem inside_of_precedes (first : precedes before items left right = true) :
    right < items.length := by
  rcases precedes_eq_true_iff.mp first with ⟨_, _, _, found, _⟩
  exact (List.getElem?_eq_some_iff.mp found).1

/-- One step up. -/
theorem UpOrdered.step (compares : Compares before items) {hole : Nat}
    (positive : 0 < hole) (ordered : UpOrdered before items hole)
    (up : precedes before items hole (parent hole) = true) :
    UpOrdered before (swap items hole (parent hole)) (parent hole) := by
  have inside := lt_of_precedes up
  have inside' := inside_of_precedes up
  have below := parent_lt positive
  have moved := @precedes_swap Item before items hole (parent hole) inside inside'
  constructor
  · intro index large apart
    rw [moved]
    by_cases atHole : index = hole
    · rw [atHole, Equiv.swap_apply_left, Equiv.swap_apply_right]
      exact compares.not_precedes up
    · rw [Equiv.swap_apply_of_ne_of_ne atHole apart]
      by_cases sibling : parent index = parent hole
      · rw [sibling, Equiv.swap_apply_right]
        by_contra first
        have early := compares.precedes_trans (Bool.not_eq_false _ ▸ first) up
        rw [← sibling, ordered.apart index large atHole] at early
        cases early
      · by_cases child : parent index = hole
        · rw [child, Equiv.swap_apply_left]
          exact ordered.grand index large child positive
        · rw [Equiv.swap_apply_of_ne_of_ne child sibling]
          exact ordered.apart index large atHole
  · intro index large child high
    rw [moved]
    have lower := parent_lt high
    rw [Equiv.swap_apply_of_ne_of_ne (show parent (parent hole) ≠ hole by omega)
      (show parent (parent hole) ≠ parent hole by omega)]
    have upper := ordered.apart (parent hole) high (by omega)
    by_cases atHole : index = hole
    · rw [atHole, Equiv.swap_apply_left]
      exact upper
    · have other : index ≠ parent hole := by
        have := parent_lt large
        omega
      rw [Equiv.swap_apply_of_ne_of_ne atHole other]
      have early := ordered.apart index large atHole
      rw [child] at early
      exact compares.not_precedes_trans inside' early upper

theorem siftUp_ordered (items : List Item) (hole : Nat)
    (compares : Compares before items) (ordered : UpOrdered before items hole) :
    Ordered before (siftUp before items hole) := by
  induction items, hole using siftUp.induct before with
  | case1 items =>
    rw [siftUp, if_pos rfl]
    intro index large
    exact ordered.apart index large (Nat.pos_iff_ne_zero.mp large)
  | case2 items hole nonzero up ih =>
    rw [siftUp, if_neg nonzero, if_pos up]
    exact ih (compares.perm (swap_perm items hole _))
      (ordered.step compares (Nat.pos_of_ne_zero nonzero) up)
  | case3 items hole nonzero settled =>
    rw [siftUp, if_neg nonzero, if_neg settled]
    intro index large
    by_cases atHole : index = hole
    · rw [atHole]
      exact eq_false_of_ne_true settled
    · exact ordered.apart index large atHole

/-- The best child is a child that comes out before its parent and before
which no child comes out; there is none only when no child comes out before
the parent. -/
theorem bestChild_best (compares : Compares before items) (hole : Nat) :
    (bestChild before items hole ≠ hole →
      parent (bestChild before items hole) = hole ∧
        precedes before items (bestChild before items hole) hole = true) ∧
    ∀ index, 0 < index → parent index = hole →
      precedes before items index (bestChild before items hole) = false := by
  have child : ∀ index, 0 < index → parent index = hole →
      index = hole * 2 + 1 ∨ index = hole * 2 + 1 + 1 := by
    intro index large same
    unfold parent at same
    omega
  have parents : parent (hole * 2 + 1) = hole ∧ parent (hole * 2 + 1 + 1) = hole := by
    unfold parent
    omega
  have irrefl : ∀ index, precedes before items index index = false := by
    intro index
    by_contra first
    have first' := Bool.not_eq_false _ ▸ first
    rw [compares.not_precedes first'] at first'
    cases first'
  unfold bestChild
  dsimp only
  by_cases left : precedes before items (hole * 2 + 1) hole = true
  · rw [if_pos left]
    by_cases right : precedes before items (hole * 2 + 1 + 1) (hole * 2 + 1) = true
    · rw [if_pos right]
      refine ⟨fun _ => ⟨parents.2, compares.precedes_trans right left⟩, ?_⟩
      intro index large same
      rcases child index large same with rfl | rfl
      · exact compares.not_precedes right
      · exact irrefl _
    · rw [if_neg right]
      refine ⟨fun _ => ⟨parents.1, left⟩, ?_⟩
      intro index large same
      rcases child index large same with rfl | rfl
      · exact irrefl _
      · exact eq_false_of_ne_true right
  · rw [if_neg left]
    by_cases right : precedes before items (hole * 2 + 1 + 1) hole = true
    · rw [if_pos right]
      refine ⟨fun _ => ⟨parents.2, right⟩, ?_⟩
      intro index large same
      rcases child index large same with rfl | rfl
      · by_contra first
        exact left (compares.precedes_trans (Bool.not_eq_false _ ▸ first) right)
      · exact irrefl _
    · rw [if_neg right]
      refine ⟨fun moved => absurd rfl moved, ?_⟩
      intro index large same
      rcases child index large same with rfl | rfl
      · exact eq_false_of_ne_true left
      · exact eq_false_of_ne_true right

/-- The order of the items whose parents stand at `first` or behind. -/
def OrderedFrom (before : Item → Item → Bool) (items : List Item)
    (first : Nat) : Prop :=
  ∀ index, 0 < index → first ≤ parent index →
    precedes before items index (parent index) = false

/-- That order holds but for the items below `hole`; these do not come out
before the parent of the hole. -/
structure DownOrderedFrom (before : Item → Item → Bool) (items : List Item)
    (first hole : Nat) : Prop where
  apart : ∀ index, 0 < index → first ≤ parent index → parent index ≠ hole →
    precedes before items index (parent index) = false
  grand : ∀ index, 0 < index → parent index = hole → 0 < hole →
    first ≤ parent hole →
      precedes before items index (parent hole) = false

/-- One step down. -/
theorem DownOrderedFrom.step (compares : Compares before items)
    {first hole : Nat} (ordered : DownOrderedFrom before items first hole)
    (moved : bestChild before items hole ≠ hole) :
    DownOrderedFrom before (swap items hole (bestChild before items hole))
      first (bestChild before items hole) := by
  rcases bestChild_best compares hole with ⟨child, best⟩
  rcases child moved with ⟨parent_eq, down⟩
  have bounds := bestChild_bounds moved
  generalize bestChild before items hole = index' at *
  have swapped := @precedes_swap Item before items hole index'
    (inside_of_precedes down) bounds.2
  constructor
  · intro index large within apart
    rw [swapped]
    have lower := parent_lt large
    by_cases atBest : index = index'
    · rw [atBest, parent_eq, Equiv.swap_apply_left, Equiv.swap_apply_right]
      exact compares.not_precedes down
    · by_cases atHole : index = hole
      · rw [atHole] at large lower within apart ⊢
        rw [Equiv.swap_apply_left,
          Equiv.swap_apply_of_ne_of_ne (Nat.ne_of_lt lower) apart]
        exact ordered.grand index' (by omega) parent_eq large within
      · rw [Equiv.swap_apply_of_ne_of_ne atHole atBest]
        by_cases sibling : parent index = hole
        · rw [sibling, Equiv.swap_apply_left]
          exact best index large sibling
        · rw [Equiv.swap_apply_of_ne_of_ne sibling apart]
          exact ordered.apart index large within sibling
  · intro index large below _ within
    rw [parent_eq] at within
    rw [swapped, parent_eq, Equiv.swap_apply_left]
    have lower := parent_lt large
    rw [Equiv.swap_apply_of_ne_of_ne (show index ≠ hole by omega)
      (show index ≠ index' by omega), ← below]
    exact ordered.apart index large (by omega) (by omega)

theorem siftDown_orderedFrom (items : List Item) (hole : Nat)
    (compares : Compares before items)
    (ordered : DownOrderedFrom before items first hole) :
    OrderedFrom before (siftDown before items hole) first := by
  induction items, hole using siftDown.induct before with
  | case1 items hole settled =>
    rw [siftDown, if_pos settled]
    intro index large within
    by_cases child : parent index = hole
    · have best := (bestChild_best compares hole).2 index large child
      rwa [settled, ← child] at best
    · exact ordered.apart index large within child
  | case2 items hole moved ih =>
    rw [siftDown, if_neg moved]
    exact ih (compares.perm (swap_perm items hole _))
      (ordered.step compares moved)

theorem siftDown_ordered (items : List Item) (hole : Nat)
    (compares : Compares before items) (ordered : DownOrdered before items hole) :
    Ordered before (siftDown before items hole) := by
  have from_ : OrderedFrom before (siftDown before items hole) 0 := by
    apply siftDown_orderedFrom items hole compares
    constructor
    · exact fun index large _ apart => ordered.apart index large apart
    · exact fun index large below positive _ =>
        ordered.grand index large below positive
  exact fun index large => from_ index large (Nat.zero_le _)

/-! ## Building -/

/-- The parents in front are put in order one after another. -/
theorem foldl_siftDown_orderedFrom (compares : Compares before items)
    (ordered : OrderedFrom before items first) :
    OrderedFrom before
      ((List.range first).reverse.foldl (siftDown before) items) 0 := by
  induction first generalizing items with
  | zero => exact ordered
  | succ first ih =>
    rw [List.range_succ, List.reverse_append, List.reverse_singleton,
      List.singleton_append, List.foldl_cons]
    apply ih (compares.perm (siftDown_perm before items first))
    apply siftDown_orderedFrom items first compares
    constructor
    · exact fun index large within apart =>
        ordered index large (by omega)
    · intro index large below positive within
      have lower := parent_lt positive
      omega

theorem heapify_ordered (compares : Compares before items) :
    Ordered before (heapify before items) := by
  have leaves : OrderedFrom before items (items.length / 2) := by
    intro index large within
    unfold parent at within
    rw [precedes, List.getElem?_eq_none (show items.length ≤ index by omega)]
  have ordered := foldl_siftDown_orderedFrom compares leaves
  exact fun index large => ordered index large (Nat.zero_le _)

/-! ## Push and pop -/

theorem push_ordered {item : Item} (compares : Compares before (item :: items))
    (ordered : Ordered before items) :
    Ordered before (push before items item) := by
  have outside : ∀ index, items.length < index →
      (items ++ [item])[index]? = none := by
    intro index far
    rw [List.getElem?_eq_none]
    rw [List.length_append, List.length_singleton]
    omega
  apply siftUp_ordered
  · exact compares.perm (List.perm_append_singleton _ _)
  · constructor
    · intro index large apart
      have lower := parent_lt large
      by_cases inside : index < items.length
      · rw [precedes, List.getElem?_append_left inside,
          List.getElem?_append_left (Nat.lt_trans lower inside)]
        exact ordered index large
      · rw [precedes, outside index (by omega)]
    · intro index large child _
      have lower := parent_lt large
      rw [precedes, outside index (by omega)]

/-- The item on top comes out before none of the others. -/
theorem Ordered.top (compares : Compares before items)
    (ordered : Ordered before items) (index : Nat) :
    precedes before items index 0 = false := by
  by_contra first
  have inside := lt_of_precedes (Bool.not_eq_false _ ▸ first)
  apply first
  clear first
  induction index using Nat.strong_induction_on with
  | h index ih =>
    rcases Nat.eq_zero_or_pos index with rfl | large
    · by_contra first
      have first' := Bool.not_eq_false _ ▸ first
      rw [compares.not_precedes first'] at first'
      cases first'
    · have lower := parent_lt large
      exact compares.not_precedes_trans (Nat.lt_trans lower inside)
        (ordered index large) (ih _ lower (Nat.lt_trans lower inside))

/-- A popped item comes out before none of the others, and the order is
kept. -/
theorem pop_ordered {top : Item} {rest : List Item}
    (compares : Compares before items) (ordered : Ordered before items)
    (popped : pop before items = some (top, rest)) :
    (∀ item ∈ rest, before item top = false) ∧ Ordered before rest := by
  have perm := pop_perm popped
  constructor
  · intro item member
    have member' := perm.mem_iff.mpr (List.mem_cons_of_mem top member)
    rcases List.getElem?_of_mem member' with ⟨index, found⟩
    have first := ordered.top compares index
    have onTop : items[0]? = some top := by
      cases items with
      | nil => cases popped
      | cons head tail =>
        cases tail with
        | nil => cases popped; rfl
        | cons second tail => cases popped; rfl
    rw [precedes, found, onTop] at first
    exact first
  · unfold pop at popped
    split at popped
    · cases popped
    · cases popped
      intro index large
      rfl
    · next second tail =>
        cases popped
        have kept : ∀ index, 0 < index →
            ((second :: tail).getLast (List.cons_ne_nil _ _) ::
              (second :: tail).dropLast)[index]? =
              if index < (second :: tail).length then
                (top :: second :: tail)[index]?
              else none := by
          intro index large
          rcases Nat.exists_eq_succ_of_ne_zero (Nat.ne_of_gt large) with
            ⟨earlier, rfl⟩
          rw [List.getElem?_cons_succ, List.getElem?_dropLast,
            List.getElem?_cons_succ]
          rw [List.length_cons]
          by_cases inside : earlier < tail.length
          · rw [if_pos (by omega), if_pos (by omega)]
          · rw [if_neg (by omega), if_neg (by omega)]
        apply siftDown_ordered
        · apply compares.subset
          intro item member
          rcases List.mem_cons.mp member with rfl | member
          · exact List.mem_cons_of_mem _ (List.getLast_mem _)
          · exact List.mem_cons_of_mem _ (List.dropLast_subset _ member)
        · constructor
          · intro index large apart
            have lower := parent_lt large
            rw [precedes, kept index large,
              kept (parent index) (Nat.pos_of_ne_zero apart)]
            by_cases inside : index < (second :: tail).length
            · rw [if_pos inside, if_pos (Nat.lt_trans lower inside)]
              exact ordered index large
            · rw [if_neg inside]
          · intro index large child positive
            exact absurd positive (Nat.lt_irrefl 0)

end BinaryHeap

end GitOnCloudflare.Pack
