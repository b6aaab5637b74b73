import Mathlib.Data.List.Perm.Basic

/-!
# The binary heap

The array heap with a comparison.  What its users rely on here is that no
operation loses or duplicates an item.
-/

namespace GitOnCloudflare.Pack

variable {Item : Type}

namespace BinaryHeap

/-- Whether the item at `left` comes out before the item at `right`. -/
def precedes (before : Item → Item → Bool) (items : List Item)
    (left right : Nat) : Bool :=
  match items[left]?, items[right]? with
  | some first, some second => before first second
  | _, _ => false

def swap (items : List Item) (left right : Nat) : List Item :=
  match items[left]?, items[right]? with
  | some first, some second => (items.set left second).set right first
  | _, _ => items

@[simp]
theorem length_swap (items : List Item) (left right : Nat) :
    (swap items left right).length = items.length := by
  unfold swap
  split <;> simp

theorem swap_perm (items : List Item) (left right : Nat) :
    (swap items left right).Perm items := by
  unfold swap
  split
  · next first second foundFirst foundSecond =>
    obtain ⟨leftBound, rfl⟩ := List.getElem?_eq_some_iff.mp foundFirst
    obtain ⟨rightBound, rfl⟩ := List.getElem?_eq_some_iff.mp foundSecond
    exact List.set_set_perm leftBound rightBound
  · exact .refl items

/-- The child that comes out first, if it precedes its parent. -/
def bestChild (before : Item → Item → Bool) (items : List Item)
    (index : Nat) : Nat :=
  let left := index * 2 + 1
  let right := left + 1
  let best := if precedes before items left index then left else index
  if precedes before items right best then right else best

variable {before : Item → Item → Bool} {items : List Item}

theorem lt_of_precedes {left right : Nat}
    (first : precedes before items left right = true) :
    left < items.length := by
  unfold precedes at first
  split at first
  · next found _ => exact (List.getElem?_eq_some_iff.mp found).1
  · cases first

theorem bestChild_bounds {index : Nat}
    (moved : bestChild before items index ≠ index) :
    index < bestChild before items index ∧
      bestChild before items index < items.length := by
  unfold bestChild at moved ⊢
  dsimp only at moved ⊢
  by_cases left : precedes before items (index * 2 + 1) index = true
  · rw [if_pos left] at moved ⊢
    split at moved
    · next right =>
      rw [if_pos right]
      exact ⟨by omega, lt_of_precedes right⟩
    · next notRight =>
      rw [if_neg notRight]
      exact ⟨by omega, lt_of_precedes left⟩
  · rw [if_neg left] at moved ⊢
    split at moved
    · next right =>
      rw [if_pos right]
      exact ⟨by omega, lt_of_precedes right⟩
    · exact absurd rfl moved

def siftDown (before : Item → Item → Bool) (items : List Item)
    (index : Nat) : List Item :=
  if bestChild before items index = index then
    items
  else
    siftDown before (swap items index (bestChild before items index))
      (bestChild before items index)
termination_by items.length - index
decreasing_by
  rename_i moved
  have bounds := bestChild_bounds moved
  rw [length_swap]
  omega

def siftUp (before : Item → Item → Bool) (items : List Item)
    (index : Nat) : List Item :=
  if index = 0 then
    items
  else if precedes before items index ((index - 1) / 2) then
    siftUp before (swap items index ((index - 1) / 2)) ((index - 1) / 2)
  else
    items
termination_by index

/-- The constructor's `heapify`, from the last parent to the root. -/
def heapify (before : Item → Item → Bool) (items : List Item) : List Item :=
  ((List.range (items.length / 2)).reverse).foldl (siftDown before) items

def push (before : Item → Item → Bool) (items : List Item) (item : Item) :
    List Item :=
  siftUp before (items ++ [item]) items.length

def pop (before : Item → Item → Bool) : List Item →
    Option (Item × List Item)
  | [] => none
  | [top] => some (top, [])
  | top :: second :: rest =>
    some
      (top,
        siftDown before
          ((second :: rest).getLast (List.cons_ne_nil _ _) ::
            (second :: rest).dropLast)
          0)

theorem siftDown_perm (before : Item → Item → Bool) (items : List Item)
    (index : Nat) : (siftDown before items index).Perm items := by
  induction items, index using siftDown.induct before with
  | case1 items index settled =>
    rw [siftDown, if_pos settled]
  | case2 items index moved ih =>
    rw [siftDown, if_neg moved]
    exact ih.trans (swap_perm items index _)

theorem siftUp_perm (before : Item → Item → Bool) (items : List Item)
    (index : Nat) : (siftUp before items index).Perm items := by
  induction items, index using siftUp.induct before with
  | case1 items =>
    rw [siftUp, if_pos rfl]
  | case2 items index nonzero up ih =>
    rw [siftUp, if_neg nonzero, if_pos up]
    exact ih.trans (swap_perm items index _)
  | case3 items index nonzero settled =>
    rw [siftUp, if_neg nonzero, if_neg settled]

theorem heapify_perm (before : Item → Item → Bool) (items : List Item) :
    (heapify before items).Perm items := by
  unfold heapify
  generalize (List.range (items.length / 2)).reverse = indices
  induction indices generalizing items with
  | nil => exact .refl items
  | cons index indices ih =>
    exact (ih (siftDown before items index)).trans
      (siftDown_perm before items index)

theorem push_perm (before : Item → Item → Bool) (items : List Item)
    (item : Item) : (push before items item).Perm (item :: items) :=
  (siftUp_perm before _ _).trans (List.perm_append_singleton _ _)

theorem pop_perm {rest : List Item} {top : Item}
    (popped : pop before items = some (top, rest)) :
    items.Perm (top :: rest) := by
  unfold pop at popped
  split at popped
  · cases popped
  · cases popped
    exact .refl _
  · cases popped
    refine List.Perm.cons _ ?_
    refine List.Perm.trans ?_ (siftDown_perm before _ 0).symm
    conv_lhs => rw [← List.dropLast_append_getLast (List.cons_ne_nil _ _)]
    exact List.perm_append_singleton _ _

theorem pop_eq_none_iff :
    pop before items = none ↔ items = [] := by
  unfold pop
  split <;> simp

end BinaryHeap

end GitOnCloudflare.Pack
