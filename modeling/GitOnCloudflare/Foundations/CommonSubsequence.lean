import Mathlib.Data.List.Basic

/-!
# Longest common subsequences

The greatest length of a list that is a sublist of two others, and what it is
where an element is added to either or to both.
-/

namespace GitOnCloudflare.Foundations.CommonSubsequence

universe u

variable {Item : Type u} {left right : List Item} {first second : Item}
  {length : Nat}

/-- The length of a longest common subsequence. -/
structure Longest (left right : List Item) (length : Nat) : Prop where
  attained : ∃ common, List.Sublist common left ∧ List.Sublist common right ∧
    common.length = length
  greatest : ∀ common, List.Sublist common left → List.Sublist common right →
    common.length ≤ length

theorem Longest.unique {other : Nat} (longest : Longest left right length)
    (longest' : Longest left right other) : length = other := by
  rcases longest.attained with ⟨common, inLeft, inRight, rfl⟩
  rcases longest'.attained with ⟨common', inLeft', inRight', rfl⟩
  exact Nat.le_antisymm (longest'.greatest common inLeft inRight)
    (longest.greatest common' inLeft' inRight')

theorem Longest.nil_left (right : List Item) : Longest [] right 0 := by
  constructor
  · exact ⟨[], List.Sublist.refl [], List.nil_sublist right, rfl⟩
  · intro common inLeft _
    exact (List.sublist_nil.mp inLeft ▸ Nat.le_refl 0)

theorem Longest.nil_right (left : List Item) : Longest left [] 0 := by
  constructor
  · exact ⟨[], List.nil_sublist left, List.Sublist.refl [], rfl⟩
  · intro common _ inRight
    exact (List.sublist_nil.mp inRight ▸ Nat.le_refl 0)

theorem Longest.le_length (longest : Longest left right length) :
    length ≤ left.length := by
  rcases longest.attained with ⟨common, inLeft, _, rfl⟩
  exact inLeft.length_le

/-- A sublist of a list with one more element leaves it out or ends in it. -/
theorem sublist_concat {common : List Item}
    (inside : List.Sublist common (left ++ [first])) :
    List.Sublist common left ∨
      ∃ before, common = before ++ [first] ∧ List.Sublist before left := by
  rcases List.sublist_append_iff.mp inside with ⟨before, last, rfl, kept, end_⟩
  rcases List.sublist_cons_iff.mp end_ with none_ | ⟨rest, rfl, none_⟩
  · left
    rwa [List.sublist_nil.mp none_, List.append_nil]
  · right
    rw [List.sublist_nil.mp none_]
    exact ⟨before, rfl, kept⟩

/-- An element that ends both lists is common. -/
theorem Longest.concat_same (longest : Longest left right length) (first : Item) :
    Longest (left ++ [first]) (right ++ [first]) (length + 1) := by
  rcases longest.attained with ⟨common, inLeft, inRight, rfl⟩
  constructor
  · refine ⟨common ++ [first], ?_, ?_, ?_⟩
    · exact inLeft.append (List.Sublist.refl [first])
    · exact inRight.append (List.Sublist.refl [first])
    · rw [List.length_append, List.length_singleton]
  · intro other otherLeft otherRight
    rcases sublist_concat otherLeft with apart | ⟨before, rfl, kept⟩
    · rcases sublist_concat otherRight with apart' | ⟨before, rfl, kept⟩
      · exact Nat.le_succ_of_le (longest.greatest other apart apart')
      · rw [List.length_append, List.length_singleton]
        apply Nat.succ_le_succ
        exact longest.greatest before
          ((List.sublist_append_left before [first]).trans apart) kept
    · rw [List.length_append, List.length_singleton]
      apply Nat.succ_le_succ
      apply longest.greatest before kept
      rcases sublist_concat otherRight with apart' | ⟨before', same, kept'⟩
      · exact (List.sublist_append_left before [first]).trans apart'
      · rw [List.append_left_inj] at same
        rwa [same]

/-- Of two elements that differ, one is not common. -/
theorem Longest.concat_ne {above beside : Nat} (different : first ≠ second)
    (without : Longest left (right ++ [second]) above)
    (without' : Longest (left ++ [first]) right beside) :
    Longest (left ++ [first]) (right ++ [second]) (max above beside) := by
  constructor
  · rcases without.attained with ⟨common, inLeft, inRight, rfl⟩
    rcases without'.attained with ⟨common', inLeft', inRight', rfl⟩
    rcases Nat.le_total common.length common'.length with less | less
    · rw [Nat.max_eq_right less]
      exact ⟨common', inLeft',
        inRight'.trans (List.sublist_append_left right [second]), rfl⟩
    · rw [Nat.max_eq_left less]
      exact ⟨common, inLeft.trans (List.sublist_append_left left [first]),
        inRight, rfl⟩
  · intro common inLeft inRight
    rcases sublist_concat inLeft with apart | ⟨before, ends, _⟩
    · exact Nat.le_trans (without.greatest common apart inRight)
        (Nat.le_max_left ..)
    · refine Nat.le_trans (without'.greatest common inLeft ?_)
        (Nat.le_max_right ..)
      rcases sublist_concat inRight with apart | ⟨before', ends', _⟩
      · exact apart
      · have same := (List.append_inj' (ends.symm.trans ends') rfl).2
        exact absurd (List.cons.inj same).1 different

end GitOnCloudflare.Foundations.CommonSubsequence
