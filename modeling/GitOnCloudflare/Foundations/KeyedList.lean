import Mathlib.Data.List.Nodup
import Mathlib.Data.List.Perm.Basic

/-!
# Insertion-ordered collections with distinct keys

A `KeyedList` keeps its items in insertion order and never holds two items
with one key.  Writing an item replaces the item of the same key in place and
otherwise appends, and erasing a key closes the gap: the order a hash map
with insertion order and a table with a primary key share.
-/

namespace GitOnCloudflare.Foundations

variable {Item Key : Type}

/-- Items in insertion order, at most one for each key. -/
@[ext]
structure KeyedList (key : Item → Key) where
  items : List Item
  distinct : (items.map key).Nodup

namespace KeyedList

variable [DecidableEq Key]

/-- Replace the item with this key in place, or append it. -/
def upsertItem (key : Item → Key) (item : Item) : List Item → List Item
  | [] => [item]
  | head :: rest =>
    if key head = key item then
      item :: rest
    else
      head :: upsertItem key item rest

/-- The first item with a key. -/
def findItem (key : Item → Key) (wanted : Key) (items : List Item) :
    Option Item :=
  items.find? fun item => key item = wanted

variable {items : List Item}
  {wanted : Key} {other : Item}

section Lists

variable {key : Item → Key}
  {item : Item}

theorem map_key_upsertItem_of_mem (present : key item ∈ items.map key) :
    (upsertItem key item items).map key = items.map key := by
  induction items with
  | nil => simp at present
  | cons head rest ih =>
    by_cases same : key head = key item
    · simp [upsertItem, same]
    · have later : key item ∈ rest.map key := by
        rw [List.map_cons] at present
        exact (List.mem_cons.mp present).resolve_left (Ne.symm same)
      simp [upsertItem, same, ih later]

theorem upsertItem_of_not_mem (absent : key item ∉ items.map key) :
    upsertItem key item items = items ++ [item] := by
  induction items with
  | nil => rfl
  | cons head rest ih =>
    rw [List.map_cons, List.mem_cons, not_or] at absent
    simp [upsertItem, Ne.symm absent.1, ih absent.2]

theorem nodup_map_key_upsertItem (distinct : (items.map key).Nodup)
    (item : Item) : ((upsertItem key item items).map key).Nodup := by
  by_cases present : key item ∈ items.map key
  · rwa [map_key_upsertItem_of_mem present]
  · rw [upsertItem_of_not_mem present, List.map_append]
    exact distinct.append (List.nodup_singleton _)
      (by simpa using present)

theorem mem_upsertItem (distinct : (items.map key).Nodup) :
    other ∈ upsertItem key item items ↔
      other = item ∨ (other ∈ items ∧ key other ≠ key item) := by
  induction items with
  | nil => simp [upsertItem]
  | cons head rest ih =>
    rw [List.map_cons, List.nodup_cons] at distinct
    by_cases same : key head = key item
    · have separate :
          ∀ next ∈ rest, key next ≠ key item := by
        intro next member equal
        apply distinct.1
        rw [same, ← equal]
        exact List.mem_map_of_mem member
      simp only [upsertItem, same, if_true, List.mem_cons]
      constructor
      · rintro (rfl | member)
        · exact Or.inl rfl
        · exact Or.inr ⟨Or.inr member, separate other member⟩
      · rintro (rfl | ⟨rfl | member, different⟩)
        · exact Or.inl rfl
        · exact absurd same different
        · exact Or.inr member
    · simp only [upsertItem, same, if_false, List.mem_cons, ih distinct.2]
      constructor
      · rintro (rfl | rfl | ⟨member, different⟩)
        · exact Or.inr ⟨Or.inl rfl, same⟩
        · exact Or.inl rfl
        · exact Or.inr ⟨Or.inr member, different⟩
      · rintro (rfl | ⟨rfl | member, different⟩)
        · exact Or.inr (Or.inl rfl)
        · exact Or.inl rfl
        · exact Or.inr (Or.inr ⟨member, different⟩)

/-- With distinct keys, writing a present key maps over the items. -/
theorem upsertItem_of_mem (distinct : (items.map key).Nodup)
    (present : key item ∈ items.map key) :
    upsertItem key item items =
      items.map fun other =>
        if key other = key item then item else other := by
  induction items with
  | nil => simp at present
  | cons head rest ih =>
    rw [List.map_cons, List.nodup_cons] at distinct
    by_cases same : key head = key item
    · have untouched :
          (rest.map fun other =>
            if key other = key item then item else other) = rest := by
        have unchanged :
            ∀ other ∈ rest,
              (if key other = key item then item else other) = other := by
          intro other member
          refine if_neg fun equal => distinct.1 ?_
          rw [same, ← equal]
          exact List.mem_map_of_mem member
        rw [List.map_congr_left unchanged, List.map_id']
      simp [upsertItem, same, untouched]
    · have later : key item ∈ rest.map key := by
        rw [List.map_cons] at present
        exact (List.mem_cons.mp present).resolve_left (Ne.symm same)
      simp [upsertItem, same, ih distinct.2 later]

theorem findItem_upsertItem (item : Item) (items : List Item) (wanted : Key) :
    findItem key wanted (upsertItem key item items) =
      if key item = wanted then some item
      else findItem key wanted items := by
  induction items with
  | nil =>
    by_cases same : key item = wanted <;>
      simp [upsertItem, findItem, same]
  | cons head rest ih =>
    unfold findItem at ih ⊢
    by_cases equal : key head = key item
    · by_cases same : key item = wanted
      · simp [upsertItem, equal, same]
      · simp [upsertItem, equal, same]
    · by_cases same : key head = wanted
      · subst same
        simp [upsertItem, equal, Ne.symm equal]
      · simp [upsertItem, equal, same, ih]

variable {Image : Type}

theorem map_upsertItem {imageKey : Image → Key} {change : Item → Image}
    (sameKey : ∀ item, imageKey (change item) = key item) (item : Item)
    (items : List Item) :
    (upsertItem key item items).map change =
      upsertItem imageKey (change item) (items.map change) := by
  induction items with
  | nil => rfl
  | cons head rest ih =>
    by_cases same : key head = key item
    · simp [upsertItem, sameKey, same]
    · simp [upsertItem, sameKey, same, ih]

theorem findItem_map {imageKey : Image → Key} {change : Item → Image}
    (sameKey : ∀ item, imageKey (change item) = key item) (wanted : Key)
    (items : List Item) :
    findItem imageKey wanted (items.map change) =
      (findItem key wanted items).map change := by
  unfold findItem
  rw [List.find?_map]
  congr 2
  funext item
  simp [sameKey]

theorem findItem_filter_ne (items : List Item) (erased wanted : Key) :
    findItem key wanted (items.filter fun item => key item ≠ erased) =
      if erased = wanted then none else findItem key wanted items := by
  unfold findItem
  rw [List.find?_filter]
  by_cases same : erased = wanted
  · subst same
    simp
  · rw [if_neg same]
    congr 1
    funext item
    by_cases found : key item = wanted
    · simp [found, Ne.symm same]
    · simp [found]

theorem findItem_eq_some_iff (distinct : (items.map key).Nodup) :
    findItem key wanted items = some item ↔
      item ∈ items ∧ key item = wanted := by
  induction items with
  | nil => simp [findItem]
  | cons head rest ih =>
    unfold findItem at ih ⊢
    rw [List.map_cons, List.nodup_cons] at distinct
    by_cases same : key head = wanted
    · simp only [same, decide_true, List.find?_cons_of_pos,
        Option.some.injEq, List.mem_cons]
      constructor
      · rintro rfl
        exact ⟨Or.inl rfl, same⟩
      · rintro ⟨rfl | member, found⟩
        · rfl
        · refine absurd ?_ distinct.1
          rw [same, ← found]
          exact List.mem_map_of_mem member
    · simp only [same, decide_false, Bool.false_eq_true,
        not_false_eq_true, List.find?_cons_of_neg, List.mem_cons,
        ih distinct.2]
      constructor
      · rintro ⟨member, found⟩
        exact ⟨Or.inr member, found⟩
      · rintro ⟨rfl | member, found⟩
        · exact absurd found same
        · exact ⟨member, found⟩

theorem findItem_eq_none_iff :
    findItem key wanted items = none ↔ wanted ∉ items.map key := by
  unfold findItem
  rw [List.find?_eq_none, List.mem_map]
  constructor
  · rintro absent ⟨item, member, found⟩
    exact absent item member (by simpa using found)
  · intro absent item member found
    exact absent ⟨item, member, by simpa using found⟩

end Lists

variable {key : Item → Key}

/-- The collection without items. -/
def empty : KeyedList key := ⟨[], List.nodup_nil⟩

/-- Write one item under its key. -/
def upsert (list : KeyedList key) (item : Item) : KeyedList key :=
  ⟨upsertItem key item list.items,
    nodup_map_key_upsertItem list.distinct item⟩

/-- Remove the item of a key. -/
def erase (list : KeyedList key) (erased : Key) : KeyedList key :=
  ⟨list.items.filter fun item => key item ≠ erased,
    list.distinct.sublist (List.filter_sublist.map key)⟩

/-- The item of a key. -/
def find? (list : KeyedList key) (wanted : Key) : Option Item :=
  findItem key wanted list.items

/-- Change the items without changing their keys. -/
def mapItems (list : KeyedList key) (change : Item → Item)
    (sameKey : ∀ item, key (change item) = key item) : KeyedList key :=
  ⟨list.items.map change, by
    have keys : key ∘ change = key := funext sameKey
    rw [List.map_map, keys]
    exact list.distinct⟩

/-- Write the items of a list one after another. -/
def ofList (items : List Item) : KeyedList key :=
  items.foldl upsert empty

@[simp]
theorem find?_upsert (list : KeyedList key) (item : Item) (wanted : Key) :
    (list.upsert item).find? wanted =
      if key item = wanted then some item else list.find? wanted :=
  findItem_upsertItem item list.items wanted

@[simp]
theorem find?_erase (list : KeyedList key) (erased wanted : Key) :
    (list.erase erased).find? wanted =
      if erased = wanted then none else list.find? wanted :=
  findItem_filter_ne list.items erased wanted

variable {list : KeyedList key}

omit [DecidableEq Key] in
theorem mem_mapItems {change : Item → Item}
    {sameKey : ∀ item, key (change item) = key item} :
    other ∈ (list.mapItems change sameKey).items ↔
      ∃ item ∈ list.items, change item = other :=
  List.mem_map

@[simp]
theorem find?_mapItems (list : KeyedList key) (change : Item → Item)
    (sameKey : ∀ item, key (change item) = key item) (wanted : Key) :
    (list.mapItems change sameKey).find? wanted =
      (list.find? wanted).map change := by
  exact findItem_map sameKey wanted list.items

variable {item : Item}

theorem find?_eq_some_iff :
    list.find? wanted = some item ↔
      item ∈ list.items ∧ key item = wanted :=
  findItem_eq_some_iff list.distinct

theorem find?_eq_none_iff :
    list.find? wanted = none ↔ wanted ∉ list.items.map key :=
  findItem_eq_none_iff

theorem mem_upsert :
    other ∈ (list.upsert item).items ↔
      other = item ∨ (other ∈ list.items ∧ key other ≠ key item) :=
  mem_upsertItem list.distinct

/-- Writing items with pairwise distinct new keys appends them in order. -/
theorem items_foldl_upsert {items : List Item}
    (distinct : ((list.items ++ items).map key).Nodup) :
    (items.foldl upsert list).items = list.items ++ items := by
  induction items generalizing list with
  | nil => simp
  | cons item items ih =>
    have absent : key item ∉ list.items.map key := by
      rw [List.map_append, List.map_cons] at distinct
      intro present
      exact (List.nodup_append.mp distinct).2.2 _ present _
        List.mem_cons_self rfl
    have appended : (list.upsert item).items = list.items ++ [item] :=
      upsertItem_of_not_mem absent
    rw [List.foldl_cons, ih (by simpa [appended] using distinct), appended]
    simp

/-- A list that already has distinct keys is written unchanged. -/
theorem items_ofList (distinct : (items.map key).Nodup) :
    (ofList items : KeyedList key).items = items := by
  have appended :
      (items.foldl upsert (empty : KeyedList key)).items = [] ++ items :=
    items_foldl_upsert (by simpa [empty] using distinct)
  simpa [ofList] using appended

end KeyedList

end GitOnCloudflare.Foundations
