import Mathlib.Data.List.Nodup
import Mathlib.Logic.Function.Basic

/-!
# Doubly linked lists in arrays

The links of a list of indices are kept in two arrays with the ends beside
them.  Appending and detaching an index edit at most its two neighbours; the
links then list the same order with the index at the end, or without it.
-/

namespace GitOnCloudflare.Foundations

universe u

/-- Two arrays of links and the two ends; `none` ends the list. -/
structure Links (Index : Type u) where
  prev : Index → Option Index
  next : Index → Option Index
  head : Option Index
  tail : Option Index

namespace Links

variable {Index : Type u}

def empty : Links Index where
  prev := fun _ => none
  next := fun _ => none
  head := none
  tail := none

section Edits

variable [DecidableEq Index]

/-- Link an index behind the tail. -/
def append (links : Links Index) (index : Index) : Links Index :=
  let prev := Function.update links.prev index links.tail
  let next := Function.update links.next index none
  match links.tail with
  | none => { prev := prev, next := next, head := some index, tail := some index }
  | some last =>
    { prev := prev
      next := Function.update next last (some index)
      head := links.head
      tail := some index }

/-- Make what follows the index the successor of what precedes it. -/
def joinNext (links : Links Index) (before after : Option Index) :
    Links Index :=
  match before with
  | none => { links with head := after }
  | some index => { links with next := Function.update links.next index after }

def joinPrev (links : Links Index) (before after : Option Index) :
    Links Index :=
  match after with
  | none => { links with tail := before }
  | some index => { links with prev := Function.update links.prev index before }

/-- Take an index out and clear its links. -/
def detach (links : Links Index) (index : Index) : Links Index :=
  let before := links.prev index
  let after := links.next index
  let joined := (links.joinNext before after).joinPrev before after
  { joined with
    prev := Function.update joined.prev index none
    next := Function.update joined.next index none }

end Edits

/-- Walk from an index along the list to the first wanted one. -/
def search (links : Links Index) (wanted : Index → Bool) :
    Nat → Option Index → Option (Option Index)
  | 0, _ => none
  | _ + 1, none => some none
  | rounds + 1, some index =>
    if wanted index then
      some (some index)
    else
      search links wanted rounds (links.next index)

/-- The links list the indices in this order, each once, and no other index is
linked. -/
structure Lists (links : Links Index) (order : List Index) : Prop where
  nodup : order.Nodup
  head_eq : links.head = order.head?
  tail_eq : links.tail = order.getLast?
  linked : ∀ before index after, order = before ++ index :: after →
    links.prev index = before.getLast? ∧ links.next index = after.head?
  unlinked : ∀ index, index ∉ order →
    links.prev index = none ∧ links.next index = none

variable {links : Links Index} {order before after : List Index}
  {index : Index}

theorem lists_empty : (empty : Links Index).Lists [] := by
  constructor
  · exact List.nodup_nil
  · rfl
  · rfl
  · intro before index after split
    cases before with
    | nil => cases split
    | cons _ _ => cases split
  · intro index _
    exact ⟨rfl, rfl⟩

/-! ## Splitting a list at an index -/

theorem getLast?_middle (before : List Index) (index following : Index)
    (after : List Index) :
    (before ++ index :: following :: after).getLast? =
      (following :: after).getLast? := by
  rw [List.getLast?_append_of_ne_nil before (List.cons_ne_nil _ _)]
  exact List.getLast?_cons_cons

/-- An index is not listed again after itself. -/
theorem Lists.not_mem_after (lists : links.Lists order)
    (split : order = before ++ index :: after) : index ∉ after := by
  have nodup := lists.nodup
  rw [split] at nodup
  exact (List.nodup_cons.mp nodup.of_append_right).1

theorem Lists.not_mem_rest (lists : links.Lists (before ++ index :: after)) :
    index ∉ before ++ after :=
  (List.nodup_cons.mp (List.nodup_middle.mp lists.nodup)).1

/-- Where an index stands in a list that is joined out of two. -/
theorem append_eq_append_cons {front back : List Index}
    (split : before ++ after = front ++ index :: back) :
    (∃ between, front = before ++ between ∧
      after = between ++ index :: back) ∨
    ∃ between, before = front ++ index :: between ∧
      back = between ++ after := by
  rcases List.append_eq_append_iff.mp split with
    ⟨between, first, second⟩ | ⟨between, first, second⟩
  · exact .inl ⟨between, first, second⟩
  · cases between with
    | nil =>
      rw [List.append_nil] at first
      exact .inl ⟨[], by rw [List.append_nil, first], second.symm⟩
    | cons other between =>
      cases second
      exact .inr ⟨between, first, rfl⟩

/-! ## Searching -/

variable {rounds : Nat}

/-- From the middle of the list on, a search finds the first wanted index. -/
theorem Lists.search_from (lists : links.Lists order) (wanted : Index → Bool)
    (split : order = before ++ after) (enough : after.length < rounds) :
    links.search wanted rounds after.head? = some (after.find? wanted) := by
  induction after generalizing before rounds with
  | nil =>
    obtain ⟨rest, rfl⟩ : ∃ rest, rounds = rest + 1 :=
      ⟨rounds - 1, by rw [List.length_nil] at enough; omega⟩
    rfl
  | cons index after ih =>
    obtain ⟨rest, rfl⟩ : ∃ rest, rounds = rest + 1 :=
      ⟨rounds - 1, by rw [List.length_cons] at enough; omega⟩
    rw [List.head?_cons, search]
    by_cases found : wanted index = true
    · rw [if_pos found, List.find?_cons_of_pos found]
    · rw [if_neg found, List.find?_cons_of_neg found,
        (lists.linked before index after split).2]
      apply @ih (before ++ [index])
      · rw [split, List.append_assoc]
        rfl
      · rw [List.length_cons] at enough
        omega

theorem Lists.search_eq (lists : links.Lists order) (wanted : Index → Bool)
    (enough : order.length < rounds) :
    links.search wanted rounds links.head = some (order.find? wanted) := by
  rw [lists.head_eq]
  exact lists.search_from wanted (List.nil_append order).symm enough

/-! ## Appending -/

variable [DecidableEq Index]

theorem prev_append (links : Links Index) (index other : Index) :
    (links.append index).prev other =
      if other = index then links.tail else links.prev other := by
  unfold append
  cases links.tail with
  | none => exact Function.update_apply links.prev index none other
  | some last => exact Function.update_apply links.prev index (some last) other

theorem next_append (links : Links Index) (index other : Index) :
    (links.append index).next other =
      if links.tail = some other then some index
      else if other = index then none
      else links.next other := by
  unfold append
  cases links.tail with
  | none =>
    rw [if_neg (Option.some_ne_none other).symm]
    exact Function.update_apply links.next index none other
  | some last =>
    refine (Function.update_apply _ last (some index) other).trans ?_
    by_cases same : other = last
    · rw [if_pos same, if_pos (congrArg some same.symm)]
    · rw [if_neg same, if_neg fun equal => same (Option.some.inj equal).symm]
      exact Function.update_apply links.next index none other

theorem tail_append (links : Links Index) (index : Index) :
    (links.append index).tail = some index := by
  unfold append
  cases links.tail with
  | none => rfl
  | some last => rfl

theorem head_append (links : Links Index) (index : Index) :
    (links.append index).head =
      if links.tail = none then some index else links.head := by
  unfold append
  cases links.tail with
  | none => rfl
  | some last => rfl

/-- The index is listed behind the others. -/
theorem Lists.append (lists : links.Lists order) (fresh : index ∉ order) :
    (links.append index).Lists (order ++ [index]) := by
  constructor
  · exact lists.nodup.append (List.nodup_singleton index) (by
      intro other inside single
      rw [List.mem_singleton.mp single] at inside
      exact fresh inside)
  · rw [head_append, lists.tail_eq, lists.head_eq, List.head?_append]
    cases order with
    | nil => rfl
    | cons first rest =>
      rw [if_neg]
      · rfl
      · intro impossible
        exact List.cons_ne_nil first rest
          (List.getLast?_eq_none_iff.mp impossible)
  · rw [tail_append, List.getLast?_append]
    rfl
  · intro before other after split
    rw [prev_append, next_append]
    rcases List.eq_nil_or_concat after with rfl | ⟨middle, last, rfl⟩
    · obtain ⟨rfl, same⟩ := List.append_inj' split rfl
      obtain rfl : index = other := (List.cons.inj same).1
      rw [if_pos rfl, if_neg, if_pos rfl]
      · exact ⟨lists.tail_eq, rfl⟩
      · intro last
        rw [lists.tail_eq] at last
        exact fresh (List.mem_of_getLast? last)
    · rw [List.concat_eq_append] at split ⊢
      have split' : order ++ [index] =
          (before ++ other :: middle) ++ [last] := by
        rw [split, List.append_assoc]
        rfl
      obtain ⟨rfl, same⟩ := List.append_inj' split' rfl
      obtain rfl : index = last := (List.cons.inj same).1
      have apart : other ≠ index := by
        rintro rfl
        exact fresh (List.mem_append_right _ List.mem_cons_self)
      rcases lists.linked before other middle rfl with ⟨prev, next⟩
      rw [if_neg apart, if_neg apart, prev, next, lists.tail_eq]
      refine ⟨rfl, ?_⟩
      cases middle with
      | nil =>
        rw [if_pos]
        · rfl
        · exact List.getLast?_append_of_ne_nil before (List.cons_ne_nil _ _)
      | cons following rest =>
        rw [if_neg]
        · rfl
        · intro last
          rw [getLast?_middle] at last
          exact lists.not_mem_after rfl (List.mem_of_getLast? last)
  · intro other outside
    have apart : other ≠ index := by
      rintro rfl
      exact outside (List.mem_append_right _ List.mem_cons_self)
    have before : other ∉ order := fun inside =>
      outside (List.mem_append_left _ inside)
    rw [prev_append, next_append, if_neg apart, if_neg apart, if_neg]
    · exact lists.unlinked other before
    · intro last
      rw [lists.tail_eq] at last
      exact before (List.mem_of_getLast? last)

/-! ## Detaching -/

theorem prev_detach (links : Links Index) (index other : Index) :
    (links.detach index).prev other =
      if other = index then none
      else if links.next index = some other then links.prev index
      else links.prev other := by
  unfold detach
  refine (Function.update_apply _ index none other).trans ?_
  congr 1
  unfold joinPrev joinNext
  cases links.next index with
  | none =>
    rw [if_neg (Option.some_ne_none other).symm]
    cases links.prev index with
    | none => rfl
    | some before => rfl
  | some after =>
    have joined : (links.joinNext (links.prev index) (some after)).prev =
        links.prev := by
      unfold joinNext
      cases links.prev index with
      | none => rfl
      | some before => rfl
    refine (Function.update_apply _ after _ other).trans ?_
    by_cases same : other = after
    · rw [if_pos same, if_pos (congrArg some same.symm)]
    · rw [if_neg same, if_neg fun equal => same (Option.some.inj equal).symm]
      exact congrFun joined other

theorem next_detach (links : Links Index) (index other : Index) :
    (links.detach index).next other =
      if other = index then none
      else if links.prev index = some other then links.next index
      else links.next other := by
  unfold detach
  refine (Function.update_apply _ index none other).trans ?_
  congr 1
  have joined : ((links.joinNext (links.prev index)
      (links.next index)).joinPrev (links.prev index)
        (links.next index)).next =
      (links.joinNext (links.prev index) (links.next index)).next := by
    unfold joinPrev
    cases links.next index with
    | none => rfl
    | some after => rfl
  refine (congrFun joined other).trans ?_
  unfold joinNext
  cases links.prev index with
  | none => rw [if_neg (Option.some_ne_none other).symm]
  | some before =>
    refine (Function.update_apply _ before _ other).trans ?_
    by_cases same : other = before
    · rw [if_pos same, if_pos (congrArg some same.symm)]
    · rw [if_neg same, if_neg fun equal => same (Option.some.inj equal).symm]

theorem head_detach (links : Links Index) (index : Index) :
    (links.detach index).head =
      if links.prev index = none then links.next index else links.head := by
  unfold detach joinPrev joinNext
  cases links.prev index with
  | none =>
    cases links.next index with
    | none => rfl
    | some after => rfl
  | some before =>
    cases links.next index with
    | none => rfl
    | some after => rfl

theorem tail_detach (links : Links Index) (index : Index) :
    (links.detach index).tail =
      if links.next index = none then links.prev index else links.tail := by
  unfold detach joinPrev joinNext
  cases links.next index with
  | none =>
    cases links.prev index with
    | none => rfl
    | some before => rfl
  | some after =>
    cases links.prev index with
    | none => rfl
    | some before => rfl

/-- The others are listed in the same order. -/
theorem Lists.detach (lists : links.Lists (before ++ index :: after)) :
    (links.detach index).Lists (before ++ after) := by
  rcases lists.linked before index after rfl with ⟨prev, next⟩
  constructor
  · exact lists.nodup.sublist
      (List.Sublist.append_left (List.sublist_cons_self index after) before)
  · rw [head_detach, prev, next, lists.head_eq, List.head?_append,
      List.head?_append]
    cases before with
    | nil => rfl
    | cons first rest =>
      rw [if_neg]
      · rfl
      · intro impossible
        exact List.cons_ne_nil first rest
          (List.getLast?_eq_none_iff.mp impossible)
  · rw [tail_detach, prev, next, lists.tail_eq]
    cases after with
    | nil =>
      rw [List.append_nil]
      rfl
    | cons following rest =>
      rw [List.head?_cons, if_neg (Option.some_ne_none following),
        getLast?_middle]
      exact (List.getLast?_append_of_ne_nil before
        (List.cons_ne_nil following rest)).symm
  · intro front other back split
    have inside : other ∈ before ++ after := by
      rw [split]
      exact List.mem_append_right front List.mem_cons_self
    have apart : other ≠ index := by
      rintro rfl
      exact lists.not_mem_rest inside
    rw [prev_detach, next_detach, if_neg apart, if_neg apart, prev, next]
    rcases append_eq_append_cons split with
      ⟨between, rfl, rfl⟩ | ⟨between, rfl, rfl⟩
    · -- The other index stands behind the detached one.
      have split' : before ++ index :: (between ++ other :: back) =
          (before ++ index :: between) ++ other :: back := by
        rw [List.append_assoc]
        rfl
      rcases lists.linked _ other back split' with ⟨prev', next'⟩
      have early : before.getLast? ≠ some other := by
        intro last
        exact (List.nodup_append.mp lists.nodup).2.2 other
          (List.mem_of_getLast? last) other
          (List.mem_cons_of_mem index
            (List.mem_append_right between List.mem_cons_self)) rfl
      rw [if_neg early, prev', next']
      refine ⟨?_, rfl⟩
      cases between with
      | nil =>
        rw [List.append_nil]
        exact if_pos rfl
      | cons following rest =>
        rw [if_neg, getLast?_middle]
        · exact (List.getLast?_append_of_ne_nil before
            (List.cons_ne_nil following rest)).symm
        · intro first
          obtain rfl := Option.some.inj first
          have nodup := lists.nodup.of_append_right.of_cons
          exact (List.nodup_cons.mp nodup).1
            (List.mem_append_right rest List.mem_cons_self)
    · -- The other index stands before the detached one.
      have split' : front ++ other :: between ++ index :: after =
          front ++ other :: (between ++ index :: after) := by
        rw [List.append_assoc]
        rfl
      rcases lists.linked front other _ split' with ⟨prev', next'⟩
      have late : after.head? ≠ some other := by
        intro first
        exact (List.nodup_append.mp lists.nodup).2.2 other
          (List.mem_append_right front List.mem_cons_self) other
          (List.mem_cons_of_mem index (List.mem_of_head? first)) rfl
      rw [if_neg late, prev', next']
      refine ⟨rfl, ?_⟩
      cases between with
      | nil =>
        exact if_pos (List.getLast?_append_of_ne_nil front
          (List.cons_ne_nil other []))
      | cons following rest =>
        rw [if_neg]
        · rfl
        · intro last
          rw [getLast?_middle] at last
          have nodup := (List.nodup_append.mp lists.nodup).1.of_append_right
          exact (List.nodup_cons.mp nodup).1 (List.mem_of_getLast? last)
  · intro other outside
    rw [prev_detach, next_detach]
    by_cases same : other = index
    · rw [if_pos same, if_pos same]
      exact ⟨rfl, rfl⟩
    · have gone : other ∉ before ++ index :: after := by
        intro inside
        rcases List.mem_append.mp inside with early | late
        · exact outside (List.mem_append_left after early)
        · exact outside (List.mem_append_right before
            ((List.mem_cons.mp late).resolve_left same))
      rw [if_neg same, if_neg same, prev, next, if_neg, if_neg]
      · exact lists.unlinked other gone
      · intro last
        exact outside
          (List.mem_append_left after (List.mem_of_getLast? last))
      · intro first
        exact outside
          (List.mem_append_right before (List.mem_of_head? first))

end Links

end GitOnCloudflare.Foundations
