import Mathlib.Data.List.Nodup
import Mathlib.Data.List.Perm.Subperm

/-!
# Ordering items by what they depend on

Items that depend on one other item at most are served from a queue.  Those
that depend on none are ready first, and serving an item makes ready the items
that depend on it.  Whatever order the queue is kept in, no item is served
twice, so all items are served exactly when as many were.
-/

namespace GitOnCloudflare.Foundations.DependencyOrder

universe u v

variable {Item : Type u} {Key : Type v}

section Serve

variable [DecidableEq Key] (key : Item → Key) (base : Item → Option Key)
  (order : List Item → List Item) (items : List Item)

/-- The items that depend on the given one. -/
def dependents (item : Item) : List Item :=
  order (items.filter fun other => decide (base other = some (key item)))

def serve : Nat → List Item → List Item → List Item
  | 0, served, _ => served
  | _ + 1, served, [] => served
  | fuel + 1, served, item :: ready =>
    serve fuel (served ++ [item])
      (order (ready ++ dependents key base order items item))

/-- The items in the order they are served. -/
def serveAll : List Item :=
  serve key base order items items.length []
    (order (items.filter fun item => (base item).isNone))

/-- Every item is served or ready once, and only after its base was served. -/
structure Queued (served ready : List Item) : Prop where
  distinct : ((served ++ ready).map key).Nodup
  known : ∀ item ∈ served ++ ready, item ∈ items
  based : ∀ item ∈ served ++ ready, ∀ other, base item = some other →
    other ∈ served.map key

end Serve

variable {key : Item → Key} {base : Item → Option Key}
  {order : List Item → List Item} {items : List Item}

theorem queued_start (sorts : ∀ list, (order list).Perm list)
    (distinct : (items.map key).Nodup) :
    Queued key base items []
      (order (items.filter fun item => (base item).isNone)) := by
  have perm := sorts (items.filter fun item => (base item).isNone)
  constructor
  · rw [List.nil_append]
    apply (perm.map key).nodup_iff.mpr
    exact distinct.sublist (List.filter_sublist.map key)
  · intro item member
    rw [List.nil_append] at member
    exact List.mem_of_mem_filter (perm.mem_iff.mp member)
  · intro item member other based
    rw [List.nil_append] at member
    have free := (List.mem_filter.mp (perm.mem_iff.mp member)).2
    rw [based] at free
    cases free

variable [DecidableEq Key]
  {served ready : List Item}

theorem queued_serve (sorts : ∀ list, (order list).Perm list)
    (distinct : (items.map key).Nodup) {item : Item}
    (queued : Queued key base items served (item :: ready)) :
    Queued key base items (served ++ [item])
      (order (ready ++ dependents key base order items item)) := by
  have perm := sorts (ready ++ dependents key base order items item)
  have perm' := sorts
    (items.filter fun other => decide (base other = some (key item)))
  have split : ((served ++ [item]) ++
      order (ready ++ dependents key base order items item)).Perm
      ((served ++ item :: ready) ++
        items.filter fun other => decide (base other = some (key item))) := by
    have whole := (List.Perm.refl (served ++ [item])).append
      (perm.trans ((List.Perm.refl ready).append perm'))
    simpa only [List.append_assoc, List.singleton_append, List.cons_append,
      List.nil_append] using whole
  have cases : ∀ other ∈ (served ++ [item]) ++
      order (ready ++ dependents key base order items item),
      other ∈ served ++ item :: ready ∨
        other ∈ items ∧ base other = some (key item) := by
    intro other member
    rcases List.mem_append.mp (split.mem_iff.mp member) with old | new
    · exact Or.inl old
    · rcases List.mem_filter.mp new with ⟨inside, based⟩
      exact Or.inr ⟨inside, of_decide_eq_true based⟩
  constructor
  · apply (split.map key).nodup_iff.mpr
    rw [List.map_append, List.nodup_append]
    refine ⟨queued.distinct, distinct.sublist (List.filter_sublist.map key), ?_⟩
    rintro name old _ new rfl
    rcases List.mem_map.mp old with ⟨first, member, named⟩
    rcases List.mem_map.mp new with ⟨second, member', named'⟩
    rcases List.mem_filter.mp member' with ⟨inside, based⟩
    -- An item that is already queued has its base among the served ones.
    have same := List.inj_on_of_nodup_map distinct (queued.known first member)
      inside (named.trans named'.symm)
    have early := queued.based first member (key item)
      (by rw [same]; exact of_decide_eq_true based)
    have apart := queued.distinct
    rw [List.map_append, List.nodup_append] at apart
    exact apart.2.2 _ early _ (List.mem_cons_self) rfl
  · intro other member
    rcases cases other member with old | ⟨inside, _⟩
    · exact queued.known other old
    · exact inside
  · intro other member name based
    rw [List.map_append]
    apply List.mem_append.mpr
    rcases cases other member with old | ⟨_, based'⟩
    · exact Or.inl (queued.based other old name based)
    · cases based.symm.trans based'
      exact Or.inr (List.mem_singleton_self _)

/-- Nothing is served twice. -/
theorem serve_sound (sorts : ∀ list, (order list).Perm list)
    (distinct : (items.map key).Nodup) {fuel : Nat}
    (queued : Queued key base items served ready) :
    ((serve key base order items fuel served ready).map key).Nodup ∧
      ∀ item ∈ serve key base order items fuel served ready, item ∈ items := by
  have stop : (served.map key).Nodup ∧ ∀ item ∈ served, item ∈ items := by
    constructor
    · exact queued.distinct.sublist
        ((List.sublist_append_left served ready).map key)
    · intro item member
      exact queued.known item (List.mem_append_left _ member)
  induction fuel generalizing served ready with
  | zero => exact stop
  | succ fuel ih =>
    cases ready with
    | nil => exact stop
    | cons item ready =>
      have next := queued_serve sorts distinct queued
      apply ih next
      constructor
      · exact next.distinct.sublist
          ((List.sublist_append_left _ _).map key)
      · intro other member
        exact next.known other (List.mem_append_left _ member)

/-- When as many items were served as there are, each was served once. -/
theorem serveAll_perm (sorts : ∀ list, (order list).Perm list)
    (distinct : (items.map key).Nodup)
    (all : (serveAll key base order items).length = items.length) :
    (serveAll key base order items).Perm items := by
  rcases serve_sound sorts distinct (queued_start sorts distinct) with
    ⟨once, known⟩
  have subset : (serveAll key base order items).Subperm items :=
    List.subperm_of_subset (List.Nodup.of_map key once) known
  exact subset.perm_of_length_le (Nat.le_of_eq all.symm)

end GitOnCloudflare.Foundations.DependencyOrder
