import GitOnCloudflare.Foundations.CheckedFold
import GitOnCloudflare.Pack.PayloadCache
import Mathlib.Algebra.Order.BigOperators.Group.List
import Mathlib.Data.Fintype.Card

/-!
# The arrays keep a recency list

The arrays of the payload cache refine the list of cached payloads, oldest
first: every call ends and does to the list what the resolver's model of the
cache does.  So the links list the cached entries once each in the order of
their last use, the sizes add up and meet the budget, and a lookup has the
payload set last or none.
-/

namespace GitOnCloudflare.Pack.PayloadCache

open Foundations

variable {capacity : Nat}

/-- A cached payload and its entry. -/
abbrev Item (capacity : Nat) := Fin capacity × GitObject

/-! ## Lists of items -/

section Items

variable {items before after : List (Item capacity)} {item : Item capacity}
  {index : Fin capacity}

/-- The items of the other entries. -/
def others (items : List (Item capacity)) (index : Fin capacity) :
    List (Item capacity) :=
  items.filter fun item => decide (item.1 ≠ index)

theorem mem_others {other : Item capacity} :
    other ∈ others items index ↔ other ∈ items ∧ other.1 ≠ index := by
  unfold others
  rw [List.mem_filter, decide_eq_true_iff]

theorem others_of_absent (absent : index ∉ items.map Prod.fst) :
    others items index = items := by
  apply List.filter_eq_self.mpr
  intro item inside
  apply decide_eq_true
  rintro rfl
  exact absent (List.mem_map_of_mem inside)

/-- Without an item whose entry is listed once. -/
theorem others_split (nodup : ((before ++ item :: after).map Prod.fst).Nodup) :
    others (before ++ item :: after) item.1 = before ++ after := by
  rw [List.map_append, List.map_cons] at nodup
  have gone := (List.nodup_cons.mp (List.nodup_middle.mp nodup)).1
  rw [← List.map_append] at gone
  have apart := others_of_absent gone
  unfold others at apart ⊢
  rw [List.filter_append] at apart ⊢
  rw [List.filter_cons_of_neg]
  · exact apart
  · rw [decide_eq_true_iff]
    exact not_not_intro rfl

theorem split_of_mem (inside : index ∈ items.map Prod.fst) :
    ∃ before object after, items = before ++ (index, object) :: after := by
  rcases List.mem_map.mp inside with ⟨item, member, rfl⟩
  rcases List.append_of_mem member with ⟨before, after, split⟩
  exact ⟨before, item.2, after, split⟩

theorem totalBytes_split :
    Pack.PayloadLRU.totalBytes (before ++ item :: after) =
      Pack.PayloadLRU.totalBytes (before ++ after) +
        item.2.payload.length := by
  unfold Pack.PayloadLRU.totalBytes
  rw [List.map_append, List.map_append, List.map_cons, List.sum_append,
    List.sum_append, List.sum_cons]
  omega

theorem totalBytes_perm (same : before.Perm after) :
    Pack.PayloadLRU.totalBytes before = Pack.PayloadLRU.totalBytes after :=
  (same.map _).sum_nat

theorem totalBytes_sublist (sub : before.Sublist after) :
    Pack.PayloadLRU.totalBytes before ≤ Pack.PayloadLRU.totalBytes after :=
  (sub.map _).sum_le_sum fun _ _ => Nat.zero_le _

end Items

/-! ## What the arrays stand for -/

/-- The arrays hold the items, and the links list their entries. -/
structure Represents (lru : PayloadLRU capacity)
    (items : List (Item capacity)) : Prop where
  lists : lru.links.Lists (items.map Prod.fst)
  held : ∀ item ∈ items,
    lru.present item.1 = true ∧
      lru.payloads item.1 = some item.2.payload ∧
      lru.typeCodes item.1 = encodeType item.2.type
  absent : ∀ index, index ∉ items.map Prod.fst →
    lru.present index = false
  totalBytes_eq : lru.totalBytes = Pack.PayloadLRU.totalBytes items
  cachedEntries_eq : lru.cachedEntries = items.length

variable {lru : PayloadLRU capacity} {items : List (Item capacity)}
  {index : Fin capacity}

theorem represents_create (budget capacity : Nat) :
    Represents (PayloadLRU.create budget capacity) [] := by
  constructor
  · exact Links.lists_empty
  · intro item inside
    cases inside
  · intro index _
    rfl
  · rfl
  · rfl

theorem Represents.present_iff (represents : Represents lru items) :
    lru.present index = true ↔ index ∈ items.map Prod.fst := by
  constructor
  · intro present
    by_contra absent
    rw [represents.absent index absent] at present
    cases present
  · intro inside
    rcases List.mem_map.mp inside with ⟨item, member, rfl⟩
    exact (represents.held item member).1

/-- The list has at most as many items as the pack has entries. -/
theorem Represents.length_le (represents : Represents lru items) :
    items.length ≤ capacity := by
  have counted := represents.lists.nodup.length_le_card
  rw [List.length_map, Fintype.card_fin] at counted
  exact counted

theorem remove_of_present {payload : Bytes} (present : lru.present index = true)
    (stored : lru.payloads index = some payload) :
    lru.remove index =
      { lru with
        links := lru.links.detach index
        present := Function.update lru.present index false
        payloads := Function.update lru.payloads index none
        typeCodes := Function.update lru.typeCodes index 0
        cachedEntries := lru.cachedEntries - 1
        totalBytes := lru.totalBytes - payload.length } := by
  unfold PayloadLRU.remove
  rw [if_pos present, stored]
  rfl

theorem remove_of_absent (absent : lru.present index ≠ true) :
    lru.remove index = lru :=
  if_neg absent

/-- Removing an entry leaves the items of the others. -/
theorem Represents.remove (represents : Represents lru items)
    (index : Fin capacity) :
    Represents (lru.remove index) (others items index) := by
  by_cases present : lru.present index = true
  · rcases split_of_mem (represents.present_iff.mp present) with
      ⟨before, object, after, rfl⟩
    have lists := represents.lists
    rw [@others_split _ before after (index, object) lists.nodup]
    rw [List.map_append, List.map_cons] at lists
    have gone : index ∉ (before ++ after).map Prod.fst := by
      rw [List.map_append]
      exact lists.not_mem_rest
    have stays : ∀ item ∈ before ++ after, item.1 ≠ index := by
      rintro item inside rfl
      exact gone (List.mem_map_of_mem inside)
    rw [remove_of_present present
      (represents.held (index, object)
        (List.mem_append_right before List.mem_cons_self)).2.1]
    constructor
    · rw [List.map_append]
      exact lists.detach
    · intro item inside
      have apart := stays item inside
      have held := represents.held item
        ((List.sublist_cons_self (index, object) after).append_left before
          |>.subset inside)
      dsimp only
      rw [Function.update_of_ne apart, Function.update_of_ne apart,
        Function.update_of_ne apart]
      exact held
    · intro other outside
      dsimp only
      by_cases same : other = index
      · rw [same]
        exact Function.update_self index false lru.present
      · rw [Function.update_of_ne same]
        apply represents.absent
        intro inside
        rw [List.map_append, List.map_cons] at inside
        rw [List.map_append] at outside
        rcases List.mem_append.mp inside with early | late
        · exact outside (List.mem_append_left _ early)
        · exact outside (List.mem_append_right _
            ((List.mem_cons.mp late).resolve_left same))
    · dsimp only
      rw [represents.totalBytes_eq, totalBytes_split]
      dsimp only
      omega
    · dsimp only
      rw [represents.cachedEntries_eq, List.length_append,
        List.length_append, List.length_cons]
      omega
  · rw [remove_of_absent present, others_of_absent]
    · exact represents
    · intro inside
      exact present (represents.present_iff.mpr inside)

variable {object : GitObject}

/-- Touching an entry moves its item to the end. -/
theorem Represents.touch (represents : Represents lru items)
    (inside : (index, object) ∈ items) :
    Represents (lru.touch index)
      (others items index ++ [(index, object)]) := by
  rcases List.append_of_mem inside with ⟨before, after, rfl⟩
  have lists := represents.lists
  rw [@others_split _ before after (index, object) lists.nodup]
  rw [List.map_append, List.map_cons] at lists
  have gone := lists.not_mem_rest
  have moved : ((before ++ after) ++ [(index, object)]).Perm
      (before ++ (index, object) :: after) := by
    refine (List.perm_append_singleton _ _).trans ?_
    exact List.perm_middle.symm
  have sized := totalBytes_perm moved
  unfold PayloadLRU.touch
  by_cases newest : lru.links.tail = some index
  · rw [if_pos newest]
    have last : after = [] := by
      rw [lists.tail_eq] at newest
      cases after with
      | nil => rfl
      | cons following rest =>
        rw [List.map_cons, Links.getLast?_middle] at newest
        exact absurd (List.mem_of_getLast? newest)
          (lists.not_mem_after rfl)
    subst last
    rw [List.append_nil]
    exact represents
  · rw [if_neg newest]
    constructor
    · rw [List.map_append, List.map_append]
      exact lists.detach.append gone
    · intro item member
      exact represents.held item (moved.subset member)
    · intro other outside
      apply represents.absent
      intro member
      exact outside ((moved.map Prod.fst).symm.subset member)
    · rw [sized]
      exact represents.totalBytes_eq
    · rw [moved.length_eq]
      exact represents.cachedEntries_eq

/-- Linking a new entry behind the others adds its item. -/
theorem Represents.add (represents : Represents lru items)
    (fresh : index ∉ items.map Prod.fst) (entry : GitObject) :
    Represents (lru.add index entry) (items ++ [(index, entry)]) := by
  unfold PayloadLRU.add PayloadLRU.appendTail
  constructor
  · rw [List.map_append]
    exact represents.lists.append fresh
  · intro item inside
    dsimp only
    rcases List.mem_append.mp inside with member | new
    · have apart : item.1 ≠ index := by
        rintro rfl
        exact fresh (List.mem_map_of_mem member)
      rw [Function.update_of_ne apart, Function.update_of_ne apart,
        Function.update_of_ne apart]
      exact represents.held item member
    · cases List.mem_singleton.mp new
      exact ⟨Function.update_self .., Function.update_self ..,
        Function.update_self ..⟩
  · intro other outside
    dsimp only
    rw [List.map_append] at outside
    have apart : other ≠ index := by
      rintro rfl
      exact outside (List.mem_append_right _ List.mem_cons_self)
    rw [Function.update_of_ne apart]
    exact represents.absent other
      fun inside => outside (List.mem_append_left _ inside)
  · dsimp only
    rw [represents.totalBytes_eq, totalBytes_split, List.append_nil]
    exact (Int.natCast_add _ _).symm
  · dsimp only
    rw [represents.cachedEntries_eq, List.length_append]
    rfl

/-! ## Evicting -/

/-- The walk finds what the list has. -/
theorem Represents.findEvictionCandidate (represents : Represents lru items) :
    lru.findEvictionCandidate =
      .ok (Pack.PayloadLRU.findEvictionCandidate lru.deadline
        lru.currentOffset items) := by
  have enough : (items.map Prod.fst).length < capacity + 1 := by
    rw [List.length_map]
    exact Nat.lt_succ_of_le represents.length_le
  have walked := represents.lists.search_eq
    (fun candidate => decide (lru.deadline candidate ≤ lru.currentOffset))
    enough
  unfold PayloadLRU.findEvictionCandidate Pack.PayloadLRU.findEvictionCandidate
  have composed :
      ((fun candidate => decide (lru.deadline candidate ≤ lru.currentOffset)) ∘
          Prod.fst) =
        fun item : Item capacity =>
          decide (lru.deadline item.1 ≤ lru.currentOffset) := rfl
  rw [walked, List.find?_map, composed]
  cases items.find? fun item =>
      decide (lru.deadline item.1 ≤ lru.currentOffset) with
  | some item => rfl
  | none =>
    refine congrArg Except.ok ?_
    rw [represents.lists.head_eq]
    exact List.head?_map

/-- A candidate is the entry of an item. -/
theorem findEvictionCandidate_mem {deadlines : Fin capacity → Nat}
    {currentOffset : Nat} {candidate : Fin capacity}
    (found : Pack.PayloadLRU.findEvictionCandidate deadlines currentOffset
      items = some candidate) : candidate ∈ items.map Prod.fst := by
  unfold Pack.PayloadLRU.findEvictionCandidate at found
  split at found
  · next item first =>
    cases found
    exact List.mem_map_of_mem (List.mem_of_find?_eq_some first)
  · rcases Option.map_eq_some_iff.mp found with ⟨item, first, rfl⟩
    exact List.mem_map_of_mem (List.mem_of_head? first)

theorem length_others_lt (inside : index ∈ items.map Prod.fst) :
    (others items index).length < items.length := by
  rcases List.mem_map.mp inside with ⟨item, member, rfl⟩
  apply List.length_filter_lt_length_iff_exists.mpr
  refine ⟨item, member, ?_⟩
  rw [decide_eq_true_iff]
  exact not_not_intro rfl

/-- What the calls keep beside the items. -/
structure SameSettings (before after : PayloadLRU capacity) : Prop where
  budget_eq : after.budget = before.budget
  deadlinesArr_eq : after.deadlinesArr = before.deadlinesArr
  currentOffset_eq : after.currentOffset = before.currentOffset

theorem SameSettings.refl (lru : PayloadLRU capacity) : SameSettings lru lru :=
  ⟨rfl, rfl, rfl⟩

theorem SameSettings.trans {first second third : PayloadLRU capacity}
    (early : SameSettings first second) (late : SameSettings second third) :
    SameSettings first third where
  budget_eq := late.budget_eq.trans early.budget_eq
  deadlinesArr_eq := late.deadlinesArr_eq.trans early.deadlinesArr_eq
  currentOffset_eq := late.currentOffset_eq.trans early.currentOffset_eq

theorem SameSettings.deadline_eq {before after : PayloadLRU capacity}
    (same : SameSettings before after) : after.deadline = before.deadline := by
  funext candidate
  unfold PayloadLRU.deadline
  rw [same.deadlinesArr_eq]

theorem sameSettings_remove (lru : PayloadLRU capacity)
    (index : Fin capacity) : SameSettings lru (lru.remove index) := by
  unfold PayloadLRU.remove
  split
  · cases lru.payloads index with
    | none => exact ⟨rfl, rfl, rfl⟩
    | some payload => exact ⟨rfl, rfl, rfl⟩
  · exact .refl lru

/-- The guard of the loop, on the items. -/
theorem Represents.guard_iff (represents : Represents lru items) :
    (lru.budget : Int) < lru.totalBytes ∧ 1 < lru.cachedEntries ↔
      lru.budget < Pack.PayloadLRU.totalBytes items ∧ 1 < items.length := by
  rw [represents.totalBytes_eq, represents.cachedEntries_eq]
  omega

variable {fuel : Nat}

/-- Evicting ends, with the items that the list keeps. -/
theorem Represents.evict (represents : Represents lru items)
    (enough : items.length ≤ fuel) {rounds : Nat} (more : items.length < rounds) :
    ∃ after, lru.evict rounds = .ok after ∧ SameSettings lru after ∧
      Represents after
        (Pack.PayloadLRU.evict lru.deadline lru.budget lru.currentOffset fuel
          items) := by
  induction fuel generalizing lru items rounds with
  | zero =>
    obtain ⟨rest, rfl⟩ : ∃ rest, rounds = rest + 1 := ⟨rounds - 1, by omega⟩
    refine ⟨lru, ?_, .refl lru, represents⟩
    refine if_neg ?_
    rw [represents.guard_iff]
    omega
  | succ fuel ih =>
    obtain ⟨rest, rfl⟩ : ∃ rest, rounds = rest + 1 := ⟨rounds - 1, by omega⟩
    unfold PayloadLRU.evict Pack.PayloadLRU.evict
    by_cases guard : lru.budget < Pack.PayloadLRU.totalBytes items ∧
        1 < items.length
    · rw [if_pos (represents.guard_iff.mpr guard), if_pos guard,
        represents.findEvictionCandidate]
      cases found : Pack.PayloadLRU.findEvictionCandidate lru.deadline
          lru.currentOffset items with
      | none => exact ⟨lru, rfl, .refl lru, represents⟩
      | some candidate =>
        have fewer := length_others_lt (findEvictionCandidate_mem found)
        have same := sameSettings_remove lru candidate
        rcases @ih (lru.remove candidate) (others items candidate)
            (represents.remove candidate) (by omega) rest (by omega) with
          ⟨after, evicted, settings, rest⟩
        rw [same.deadline_eq, same.budget_eq, same.currentOffset_eq] at rest
        exact ⟨after, evicted, same.trans settings, rest⟩
    · rw [if_neg fun concrete => guard (represents.guard_iff.mp concrete),
        if_neg guard]
      exact ⟨lru, rfl, .refl lru, represents⟩

/-! ## Calls -/

/-- The arrays refine a list of cached payloads with its settings. -/
structure Refines (lru : PayloadLRU capacity)
    (list : Pack.PayloadLRU capacity) : Prop where
  represents : Represents lru list.items
  budget_eq : lru.budget = list.budget
  currentOffset_eq : lru.currentOffset = list.currentOffset

variable {list : Pack.PayloadLRU capacity}

/-- An entry that the cache has is removed before it is set. -/
theorem set_eq (lru : PayloadLRU capacity) (index : Fin capacity)
    (entry : GitObject) :
    lru.set index entry =
      if (lru.remove index).budget < entry.payload.length then
        .ok (lru.remove index)
      else
        ((lru.remove index).add index entry).evict (capacity + 1) := by
  unfold PayloadLRU.set
  by_cases present : lru.present index = true
  · rw [if_pos present]
  · rw [if_neg present, remove_of_absent present]

theorem listSet_eq (list : Pack.PayloadLRU capacity)
    (deadlines : Fin capacity → Nat) (index : Fin capacity) (entry : GitObject) :
    list.set deadlines index entry =
      if list.budget < entry.payload.length then
        { list with items := others list.items index }
      else
        { list with
          items :=
            Pack.PayloadLRU.evict deadlines list.budget list.currentOffset
              ((others list.items index).length + 1)
              (others list.items index ++ [(index, entry)]) } :=
  rfl

/-- Setting an entry ends, and sets it in the list. -/
theorem Refines.set (refines : Refines lru list) (index : Fin capacity)
    (entry : GitObject) :
    ∃ after, lru.set index entry = .ok after ∧
      after.deadlinesArr = lru.deadlinesArr ∧
      Refines after (list.set lru.deadline index entry) := by
  have removed := refines.represents.remove index
  have same := sameSettings_remove lru index
  rw [set_eq, listSet_eq, same.budget_eq, refines.budget_eq]
  by_cases large : list.budget < entry.payload.length
  · rw [if_pos large, if_pos large]
    exact ⟨lru.remove index, rfl, same.deadlinesArr_eq, removed,
      same.budget_eq.trans refines.budget_eq,
      same.currentOffset_eq.trans refines.currentOffset_eq⟩
  · rw [if_neg large, if_neg large]
    have fresh : index ∉ (others list.items index).map Prod.fst := by
      intro inside
      rcases List.mem_map.mp inside with ⟨item, member, rfl⟩
      exact (mem_others.mp member).2 rfl
    have added := removed.add fresh entry
    have settings : SameSettings lru ((lru.remove index).add index entry) :=
      same.trans ⟨rfl, rfl, rfl⟩
    rcases added.evict
        (Nat.le_of_eq List.length_append)
        (Nat.lt_succ_of_le added.length_le) with
      ⟨after, evicted, kept, rest⟩
    rw [settings.deadline_eq, settings.budget_eq, settings.currentOffset_eq,
      refines.budget_eq, refines.currentOffset_eq] at rest
    have whole := settings.trans kept
    exact ⟨after, evicted, whole.deadlinesArr_eq, rest,
      whole.budget_eq.trans refines.budget_eq,
      whole.currentOffset_eq.trans refines.currentOffset_eq⟩

theorem decodeType_encodeType (type : GitObjectType) :
    decodeType (encodeType type) = .ok type := by
  cases type with
  | commit => rfl
  | tree => rfl
  | blob => rfl
  | tag => rfl

theorem sameSettings_touch (lru : PayloadLRU capacity)
    (index : Fin capacity) : SameSettings lru (lru.touch index) := by
  unfold PayloadLRU.touch
  split
  · exact .refl lru
  · exact ⟨rfl, rfl, rfl⟩

/-- A lookup of an entry that the list does not have changes nothing. -/
theorem Refines.get_absent (refines : Refines lru list)
    (absent : index ∉ list.items.map Prod.fst) :
    lru.get index = .ok (none, lru) := by
  unfold PayloadLRU.get
  rw [refines.represents.absent index absent]
  rfl

/-- A lookup of an entry that the list has returns its object and makes it the
newest. -/
theorem Refines.get_held (refines : Refines lru list)
    (inside : (index, object) ∈ list.items) :
    lru.get index = .ok (some object, lru.touch index) ∧
      Refines (lru.touch index)
        { list with
          items := others list.items index ++ [(index, object)] } := by
  rcases refines.represents.held _ inside with ⟨present, stored, typed⟩
  have same := sameSettings_touch lru index
  constructor
  · unfold PayloadLRU.get
    have kept : (lru.touch index).typeCodes index = encodeType object.type := by
      rw [← typed]
      unfold PayloadLRU.touch
      split
      · rfl
      · rfl
    rw [if_pos present, stored]
    dsimp only
    rw [kept, decodeType_encodeType]
    rfl
  · exact ⟨refines.represents.touch inside,
      same.budget_eq.trans refines.budget_eq,
      same.currentOffset_eq.trans refines.currentOffset_eq⟩

/-! ## The budget of the list -/

theorem sublist_evict (deadlines : Fin capacity → Nat)
    (budget currentOffset fuel : Nat) (items : List (Item capacity)) :
    (Pack.PayloadLRU.evict deadlines budget currentOffset fuel
      items).Sublist items := by
  induction fuel generalizing items with
  | zero => exact List.Sublist.refl items
  | succ fuel ih =>
    unfold Pack.PayloadLRU.evict
    split
    · split
      · exact List.Sublist.refl items
      · exact (ih _).trans List.filter_sublist
    · exact List.Sublist.refl items

/-- One item within the budget stays; more are evicted down to the budget. -/
theorem totalBytes_evict (deadlines : Fin capacity → Nat) {budget : Nat}
    (currentOffset : Nat) {items : List (Item capacity)}
    (enough : items.length ≤ fuel)
    (small : ∀ item ∈ items, item.2.payload.length ≤ budget) :
    Pack.PayloadLRU.totalBytes
      (Pack.PayloadLRU.evict deadlines budget currentOffset fuel items) ≤
        budget := by
  induction fuel generalizing items with
  | zero =>
    obtain rfl := List.length_eq_zero_iff.mp (Nat.le_zero.mp enough)
    exact Nat.zero_le budget
  | succ fuel ih =>
    unfold Pack.PayloadLRU.evict
    by_cases guard : budget < Pack.PayloadLRU.totalBytes items ∧
        1 < items.length
    · rw [if_pos guard]
      cases found : Pack.PayloadLRU.findEvictionCandidate deadlines
          currentOffset items with
      | none =>
        unfold Pack.PayloadLRU.findEvictionCandidate at found
        split at found
        · cases found
        · have empty := List.head?_eq_none_iff.mp
            (Option.map_eq_none_iff.mp found)
          rw [empty] at guard
          exact absurd guard.2 (Nat.not_lt_zero 1)
      | some candidate =>
        have fewer := length_others_lt (findEvictionCandidate_mem found)
        apply ih
        · exact Nat.le_of_lt_succ (Nat.lt_of_lt_of_le fewer enough)
        · intro item member
          exact small item (List.mem_of_mem_filter member)
    · rw [if_neg guard]
      by_cases within : budget < Pack.PayloadLRU.totalBytes items
      · have few : ¬ 1 < items.length := fun many => guard ⟨within, many⟩
        cases items with
        | nil => exact Nat.zero_le budget
        | cons item rest =>
          cases rest with
          | nil => exact small item List.mem_cons_self
          | cons _ _ => exact absurd (Nat.succ_lt_succ (Nat.succ_pos _)) few
      · exact Nat.le_of_not_lt within

/-! ## Runs of calls -/

/-- A call on the cache; the deadlines may be other ones at any time. -/
inductive CacheCall (capacity : Nat) where
  | get (index : Fin capacity)
  | set (index : Fin capacity) (entry : GitObject)
  | setDeadlines (deadlines : Fin capacity → UInt32)
  | setCurrentOffset (offset : Nat)

namespace CacheCall

/-- The cache after a call. -/
def run (lru : PayloadLRU capacity) :
    CacheCall capacity → Except CacheFailure (PayloadLRU capacity)
  | .get index => do
      let (_, lru) ← lru.get index
      .ok lru
  | .set index entry => lru.set index entry
  | .setDeadlines deadlines => .ok (lru.setDeadlines deadlines)
  | .setCurrentOffset offset => .ok (lru.setCurrentOffset offset)

/-- The entries in the order of their last use. -/
def used (order : List (Fin capacity)) :
    CacheCall capacity → List (Fin capacity)
  | .get index => (order.filter fun other => decide (other ≠ index)) ++ [index]
  | .set index _ =>
    (order.filter fun other => decide (other ≠ index)) ++ [index]
  | _ => order

/-- The objects that were set last. -/
def stored (last : Fin capacity → Option GitObject) :
    CacheCall capacity → Fin capacity → Option GitObject
  | .set index entry => Function.update last index (some entry)
  | _ => last

end CacheCall

def recency (calls : List (CacheCall capacity)) : List (Fin capacity) :=
  calls.foldl CacheCall.used []

def lastSet (calls : List (CacheCall capacity)) :
    Fin capacity → Option GitObject :=
  calls.foldl CacheCall.stored fun _ => none

/-- A list of cached payloads after calls with an order of uses and the
objects set last. -/
structure Keeps (list : Pack.PayloadLRU capacity) (budget : Nat)
    (order : List (Fin capacity)) (last : Fin capacity → Option GitObject) :
    Prop where
  budget_eq : list.budget = budget
  recent : (list.items.map Prod.fst).Sublist order
  stored : ∀ item ∈ list.items, last item.1 = some item.2
  small : ∀ item ∈ list.items, item.2.payload.length ≤ budget
  within : Pack.PayloadLRU.totalBytes list.items ≤ budget

variable {budget : Nat} {order : List (Fin capacity)}
  {last : Fin capacity → Option GitObject}

theorem map_others (items : List (Item capacity)) (index : Fin capacity) :
    (others items index).map Prod.fst =
      (items.map Prod.fst).filter fun other => decide (other ≠ index) := by
  unfold others
  rw [List.filter_map]
  rfl

/-- An entry that is used last stands behind the others. -/
theorem Keeps.recent_used (keeps : Keeps list budget order last)
    (object : GitObject) :
    ((others list.items index ++ [(index, object)]).map Prod.fst).Sublist
      ((order.filter fun other => decide (other ≠ index)) ++ [index]) := by
  rw [List.map_append, map_others]
  exact (keeps.recent.filter _).append (List.Sublist.refl [index])

/-- A use of an entry that is not cached leaves the cached ones in order. -/
theorem Keeps.recent_missed (keeps : Keeps list budget order last)
    (absent : index ∉ list.items.map Prod.fst) :
    (list.items.map Prod.fst).Sublist
      ((order.filter fun other => decide (other ≠ index)) ++ [index]) := by
  have kept := keeps.recent.filter fun other => decide (other ≠ index)
  rw [← map_others, others_of_absent absent] at kept
  exact kept.trans (List.sublist_append_left _ _)

/-- Setting an entry keeps the facts of the list. -/
theorem Keeps.set (keeps : Keeps list budget order last)
    (deadlines : Fin capacity → Nat) (index : Fin capacity) (entry : GitObject) :
    Keeps (list.set deadlines index entry) budget
      ((order.filter fun other => decide (other ≠ index)) ++ [index])
      (Function.update last index (some entry)) := by
  have kept : ∀ item ∈ others list.items index,
      Function.update last index (some entry) item.1 = some item.2 ∧
        item.2.payload.length ≤ budget := by
    intro item member
    rcases mem_others.mp member with ⟨inside, apart⟩
    rw [Function.update_of_ne apart]
    exact ⟨keeps.stored item inside, keeps.small item inside⟩
  have sub : ((others list.items index).map Prod.fst).Sublist
      ((order.filter fun other => decide (other ≠ index)) ++ [index]) := by
    rw [map_others]
    exact (keeps.recent.filter _).trans (List.sublist_append_left _ _)
  rw [listSet_eq]
  by_cases large : list.budget < entry.payload.length
  · rw [if_pos large]
    refine ⟨keeps.budget_eq, sub, fun item member => (kept item member).1,
      fun item member => (kept item member).2, ?_⟩
    exact (totalBytes_sublist List.filter_sublist).trans keeps.within
  · rw [if_neg large]
    have added : ∀ item ∈ others list.items index ++ [(index, entry)],
        Function.update last index (some entry) item.1 = some item.2 ∧
          item.2.payload.length ≤ budget := by
      intro item member
      rcases List.mem_append.mp member with old | new
      · exact kept item old
      · cases List.mem_singleton.mp new
        refine ⟨Function.update_self .., ?_⟩
        rw [← keeps.budget_eq]
        exact Nat.le_of_not_lt large
    have rest := sublist_evict deadlines list.budget list.currentOffset
      ((others list.items index).length + 1)
      (others list.items index ++ [(index, entry)])
    constructor
    · exact keeps.budget_eq
    · exact (rest.map Prod.fst).trans (keeps.recent_used entry)
    · intro item member
      exact (added item (rest.subset member)).1
    · intro item member
      exact (added item (rest.subset member)).2
    · dsimp only
      rw [keeps.budget_eq]
      apply totalBytes_evict
      · exact Nat.le_of_eq List.length_append
      · intro item member
        exact (added item member).2

/-- Making an entry the newest keeps the facts of the list. -/
theorem Keeps.touch (keeps : Keeps list budget order last)
    (nodup : (list.items.map Prod.fst).Nodup)
    (inside : (index, object) ∈ list.items) :
    Keeps
      { list with items := others list.items index ++ [(index, object)] }
      budget ((order.filter fun other => decide (other ≠ index)) ++ [index])
      last := by
  have moved : (others list.items index ++ [(index, object)]).Perm
      list.items := by
    rcases List.append_of_mem inside with ⟨before, after, split⟩
    rw [split] at nodup ⊢
    rw [@others_split _ before after (index, object) nodup]
    exact (List.perm_append_singleton _ _).trans List.perm_middle.symm
  constructor
  · exact keeps.budget_eq
  · exact keeps.recent_used object
  · intro item member
    exact keeps.stored item (moved.subset member)
  · intro item member
    exact keeps.small item (moved.subset member)
  · exact (totalBytes_perm moved).trans_le keeps.within

/-- A call on the cache ends, and keeps the facts. -/
theorem run_ends (call : CacheCall capacity) (refines : Refines lru list)
    (keeps : Keeps list budget order last) :
    ∃ after other, call.run lru = .ok after ∧ Refines after other ∧
      Keeps other budget (CacheCall.used order call)
        (CacheCall.stored last call) := by
  cases call with
  | get index =>
    by_cases inside : index ∈ list.items.map Prod.fst
    · rcases List.mem_map.mp inside with ⟨item, member, rfl⟩
      rcases refines.get_held member with ⟨read, touched⟩
      refine ⟨_, _, ?_, touched,
        keeps.touch refines.represents.lists.nodup member⟩
      rw [CacheCall.run, read]
      rfl
    · refine ⟨lru, list, ?_, refines, keeps.budget_eq,
        keeps.recent_missed inside, keeps.stored, keeps.small, keeps.within⟩
      rw [CacheCall.run, refines.get_absent inside]
      rfl
  | set index entry =>
    rcases refines.set index entry with ⟨after, ended, _, rest⟩
    exact ⟨after, _, ended, rest, keeps.set _ index entry⟩
  | setDeadlines deadlines =>
    have represents := refines.represents
    exact ⟨_, list, rfl, ⟨⟨represents.lists, represents.held,
      represents.absent, represents.totalBytes_eq,
      represents.cachedEntries_eq⟩, refines.budget_eq,
      refines.currentOffset_eq⟩, keeps⟩
  | setCurrentOffset offset =>
    have represents := refines.represents
    exact ⟨_, { list with currentOffset := offset }, rfl,
      ⟨⟨represents.lists, represents.held, represents.absent,
      represents.totalBytes_eq, represents.cachedEntries_eq⟩,
      refines.budget_eq, rfl⟩, keeps.budget_eq, keeps.recent, keeps.stored,
      keeps.small, keeps.within⟩

/-- Every run of calls ends, and keeps the facts. -/
theorem runs_end (calls : List (CacheCall capacity))
    (refines : Refines lru list) (keeps : Keeps list budget order last) :
    ∃ after other, calls.foldlM CacheCall.run lru = .ok after ∧
      Refines after other ∧
      Keeps other budget (calls.foldl CacheCall.used order)
        (calls.foldl CacheCall.stored last) := by
  induction calls generalizing lru list order last with
  | nil => exact ⟨lru, list, rfl, refines, keeps⟩
  | cons call calls ih =>
    rcases run_ends call refines keeps with
      ⟨next, middle, ran, refined, kept⟩
    rcases ih refined kept with ⟨after, other, folded, rest⟩
    refine ⟨after, other, ?_, rest⟩
    exact (CheckedFold.foldlM_cons_eq_ok _ _ _ _ _).mpr ⟨next, ran, folded⟩

/-- The size of what the arrays have for an entry. -/
def payloadLength (lru : PayloadLRU capacity) (index : Fin capacity) : Nat :=
  match lru.payloads index with
  | none => 0
  | some payload => payload.length

theorem Represents.sum_payloadLength (represents : Represents lru items) :
    ((items.map Prod.fst).map (payloadLength lru)).sum =
      Pack.PayloadLRU.totalBytes items := by
  unfold Pack.PayloadLRU.totalBytes
  rw [List.map_map]
  congr 1
  apply List.map_congr_left
  intro item inside
  rw [Function.comp_apply, payloadLength,
    (represents.held item inside).2.1]

/-- After any calls the links list the cached entries once each in the order of
their last use, the sizes add up to the total, which meets the budget, and a
lookup of an entry has none or the payload set for it last. -/
theorem payloadLRU_keeps (budget capacity : Nat)
    (calls : List (CacheCall capacity)) :
    ∃ after,
      calls.foldlM CacheCall.run (PayloadLRU.create budget capacity) =
        .ok after ∧
      (∃ order : List (Fin capacity),
        after.links.Lists order ∧
        (∀ index, index ∈ order ↔ after.present index = true) ∧
        order.Sublist (recency calls) ∧
        after.cachedEntries = order.length ∧
        after.totalBytes =
          ((order.map (payloadLength after)).sum : Nat)) ∧
      after.totalBytes ≤ budget ∧
      ∀ index, ∃ found touched,
        after.get index = .ok (found, touched) ∧
        (found.isSome = true ↔ after.present index = true) ∧
        ∀ object, found = some object →
          lastSet calls index = some object := by
  have empty : Refines (PayloadLRU.create budget capacity)
      { budget := budget, items := [], currentOffset := 0 } :=
    ⟨represents_create budget capacity, rfl, rfl⟩
  have nothing : Keeps
      ({ budget := budget, items := [], currentOffset := 0 } :
        Pack.PayloadLRU capacity) budget [] fun _ => none := by
    refine ⟨rfl, List.Sublist.refl [], ?_, ?_, Nat.zero_le budget⟩
    · intro item impossible
      cases impossible
    · intro item impossible
      cases impossible
  rcases runs_end calls empty nothing with
    ⟨after, list, ran, refines, keeps⟩
  have represents := refines.represents
  refine ⟨after, ran, ⟨list.items.map Prod.fst, represents.lists, ?_,
    keeps.recent, ?_, ?_⟩, ?_, ?_⟩
  · intro index
    exact represents.present_iff.symm
  · rw [represents.cachedEntries_eq, List.length_map]
  · rw [represents.totalBytes_eq, represents.sum_payloadLength]
  · rw [represents.totalBytes_eq]
    exact Int.ofNat_le.mpr keeps.within
  · intro index
    by_cases inside : index ∈ list.items.map Prod.fst
    · rcases List.mem_map.mp inside with ⟨item, member, rfl⟩
      refine ⟨some item.2, _, (refines.get_held member).1, ?_, ?_⟩
      · exact ⟨fun _ => represents.present_iff.mpr inside, fun _ => rfl⟩
      · rintro object ⟨rfl⟩
        exact keeps.stored item member
    · refine ⟨none, after, refines.get_absent inside, ?_, ?_⟩
      · constructor
        · intro impossible
          cases impossible
        · intro present
          exact absurd (represents.present_iff.mp present) inside
      · intro object impossible
        cases impossible

end GitOnCloudflare.Pack.PayloadCache
