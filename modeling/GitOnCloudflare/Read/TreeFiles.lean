import GitOnCloudflare.Read.CommitDiff

/-!
# Files of a tree and what the walks list

The files of a tree are the entries that are no subtrees, by their path.  A
walk lists changes behind those already listed, and all it is to list unless
the diff is truncated.
-/

namespace GitOnCloudflare.Read

/-! ## Files -/

section Files

variable (trees : String → Option (List TreeEntry))

/-- The entries of a tree; the absent tree has none. -/
def treeAt (oid : String) : Option (List TreeEntry) :=
  if oid = "" then some [] else trees oid

/-- A mode and an id by the names that lead to them. -/
abbrev Files := List String → String × String → Prop

/-- The files of a tree. -/
def FileAt : List String → String → String × String → Prop
  | [], _, _ => False
  | name :: rest, oid, file =>
    ∃ treeEntries, treeAt trees oid = some treeEntries ∧
      ∃ entry ∈ treeEntries, entry.name = name ∧
        if entry.mode = "40000" then FileAt rest entry.oid file
        else rest = [] ∧ file = (entry.mode, entry.oid)

/-- The files of an entry, with its name in front. -/
def FileBelow (entry : TreeEntry) : Files := fun path file =>
  ∃ rest, path = entry.name :: rest ∧
    if entry.mode = "40000" then FileAt trees rest entry.oid file
    else rest = [] ∧ file = (entry.mode, entry.oid)

def FileOf (entry : Option TreeEntry) : Files := fun path file =>
  ∃ present, entry = some present ∧ FileBelow trees present path file

/-- A name of one path component. -/
structure ProperName (name : String) : Prop where
  nonempty : name ≠ ""
  unsplit : '/' ∉ name.toList

/-- A tree of at most this depth whose names are proper and distinct and whose
modes tell the subtrees. -/
def SoundTree : Nat → String → Prop
  | 0, _ => False
  | depth + 1, oid =>
    ∀ treeEntries, treeAt trees oid = some treeEntries →
      (treeEntries.map TreeEntry.name).Nodup ∧
        ∀ entry ∈ treeEntries, ProperName entry.name ∧
          (isTreeMode entry.mode = true → entry.mode = "40000") ∧
          (entry.mode = "40000" → SoundTree depth entry.oid)

/-- An entry of a tree that is one deeper. -/
structure SoundEntry (depth : Nat) (entry : TreeEntry) : Prop where
  proper : ProperName entry.name
  told : isTreeMode entry.mode = true → entry.mode = "40000"
  below : entry.mode = "40000" → SoundTree trees depth entry.oid

end Files

variable {trees : String → Option (List TreeEntry)} {depth : Nat}
  {entry : TreeEntry} {oid : String} {path : List String}
  {file other : String × String}
  {treeEntries : List TreeEntry} {name : String}

theorem SoundTree.entries (sound : SoundTree trees (depth + 1) oid)
    (found : treeAt trees oid = some treeEntries) :
    (treeEntries.map TreeEntry.name).Nodup ∧
      ∀ entry ∈ treeEntries, SoundEntry trees depth entry := by
  rcases sound treeEntries found with ⟨distinct, entries⟩
  refine ⟨distinct, ?_⟩
  intro entry member
  rcases entries entry member with ⟨proper, told, below⟩
  exact ⟨proper, told, below⟩

theorem SoundTree.pos (sound : SoundTree trees depth oid) :
    ∃ shallower, depth = shallower + 1 := by
  cases depth with
  | zero => exact sound.elim
  | succ depth => exact ⟨depth, rfl⟩

theorem SoundEntry.isTreeMode (sound : SoundEntry trees depth entry) :
    isTreeMode entry.mode = decide (entry.mode = "40000") := by
  by_cases tree : entry.mode = "40000"
  · rw [decide_eq_true tree, tree]
    decide
  · rw [decide_eq_false tree]
    exact Bool.eq_false_iff.mpr (mt sound.told tree)

theorem fileAt_iff :
    FileAt trees path oid file ↔
      ∃ treeEntries, treeAt trees oid = some treeEntries ∧
        ∃ entry ∈ treeEntries, FileBelow trees entry path file := by
  cases path with
  | nil =>
    constructor
    · exact False.elim
    · rintro ⟨_, _, entry, _, rest, same, _⟩
      cases same
  | cons name rest =>
    constructor
    · rintro ⟨treeEntries, found, entry, member, rfl, below⟩
      exact ⟨treeEntries, found, entry, member, rest, rfl, below⟩
    · rintro ⟨treeEntries, found, entry, member, _, same, below⟩
      rcases List.cons.inj same with ⟨rfl, rfl⟩
      exact ⟨treeEntries, found, entry, member, rfl, below⟩

theorem eq_of_name_eq {other : TreeEntry}
    (distinct : (treeEntries.map TreeEntry.name).Nodup)
    (member : entry ∈ treeEntries) (member' : other ∈ treeEntries)
    (same : entry.name = other.name) : entry = other :=
  List.inj_on_of_nodup_map distinct member member' same

theorem entryByName_eq_some (distinct : (treeEntries.map TreeEntry.name).Nodup) :
    entryByName treeEntries name = some entry ↔
      entry ∈ treeEntries ∧ entry.name = name := by
  unfold entryByName
  constructor
  · intro found
    have named := List.find?_some found
    exact ⟨List.mem_reverse.mp (List.mem_of_find?_eq_some found),
      decide_eq_true_iff.mp named⟩
  · rintro ⟨member, rfl⟩
    cases found : treeEntries.reverse.find? fun other =>
        other.name = entry.name with
    | none =>
      have none_ := List.find?_eq_none.mp found entry
        (List.mem_reverse.mpr member)
      simp at none_
    | some other =>
      have named := List.find?_some found
      congr 1
      exact eq_of_name_eq distinct
        (List.mem_reverse.mp (List.mem_of_find?_eq_some found)) member
        (decide_eq_true_iff.mp named)

/-- There is one file at a path. -/
theorem SoundTree.fileAt_unique (sound : SoundTree trees depth oid)
    (found : FileAt trees path oid file)
    (found' : FileAt trees path oid other) : file = other := by
  induction path generalizing depth oid with
  | nil => exact found.elim
  | cons name rest ih =>
    rcases sound.pos with ⟨depth, rfl⟩
    rcases found with ⟨treeEntries, read, entry, member, rfl, below⟩
    rcases found' with ⟨_, read', entry', member', same, below'⟩
    cases read.symm.trans read'
    rcases sound.entries read with ⟨distinct, entries⟩
    rw [eq_of_name_eq distinct member' member same] at below'
    by_cases tree : entry.mode = "40000"
    · rw [if_pos tree] at below below'
      exact ih ((entries entry member).below tree) below below'
    · rw [if_neg tree] at below below'
      exact below.2.trans below'.2.symm

theorem SoundTree.proper (sound : SoundTree trees depth oid)
    (found : FileAt trees path oid file) : ∀ name ∈ path, ProperName name := by
  induction path generalizing depth oid with
  | nil => nofun
  | cons name rest ih =>
    rcases sound.pos with ⟨depth, rfl⟩
    rcases found with ⟨treeEntries, read, entry, member, rfl, below⟩
    have sound := (sound.entries read).2 entry member
    intro name member
    rcases List.mem_cons.mp member with rfl | later
    · exact sound.proper
    · by_cases tree : entry.mode = "40000"
      · rw [if_pos tree] at below
        exact ih (sound.below tree) below name later
      · rw [if_neg tree] at below
        rw [below.1] at later
        cases later

/-! ## Paths -/

/-- The path that the walks build of the names. -/
def pathText (names : List String) : String := names.foldl joinTreePath ""

theorem pathText_concat (names : List String) (name : String) :
    pathText (names ++ [name]) = joinTreePath (pathText names) name :=
  List.foldl_concat ..

def slashed (names : List String) : List Char :=
  names.flatMap fun name => '/' :: name.toList

theorem toList_foldl_joinTreePath {start : String} (nonempty : start ≠ "")
    (names : List String) :
    (names.foldl joinTreePath start).toList = start.toList ++ slashed names := by
  induction names generalizing start with
  | nil => exact (List.append_nil _).symm
  | cons name names ih =>
    have joined : joinTreePath start name = start ++ "/" ++ name := if_neg nonempty
    have longer : start ++ "/" ++ name ≠ "" := by
      intro empty
      have chars := congrArg String.toList empty
      rw [String.toList_append, String.toList_append] at chars
      simp at chars
    rw [List.foldl_cons, joined, ih longer, String.toList_append,
      String.toList_append, List.append_assoc, List.append_assoc]
    rfl

theorem toList_pathText (nonempty : name ≠ "") (names : List String) :
    (pathText (name :: names)).toList = name.toList ++ slashed names :=
  toList_foldl_joinTreePath nonempty names

theorem takeWhile_slashed (proper : ProperName name) (names : List String) :
    (name.toList ++ slashed names).takeWhile (fun char => char ≠ '/') =
      name.toList := by
  have all : ∀ char ∈ name.toList, decide (char ≠ '/') = true := by
    rintro char member
    apply decide_eq_true
    rintro rfl
    exact proper.unsplit member
  rw [List.takeWhile_append_of_pos all]
  cases names with
  | nil => exact List.append_nil _
  | cons first names => exact List.append_nil _

variable {names names' : List String}

theorem slashed_inj (proper : ∀ name ∈ names, ProperName name)
    (proper' : ∀ name ∈ names', ProperName name)
    (same : slashed names = slashed names') : names = names' := by
  induction names generalizing names' with
  | nil =>
    cases names' with
    | nil => rfl
    | cons name' names' => cases same
  | cons name names ih =>
    cases names' with
    | nil => cases same
    | cons name' names' =>
      have here := proper name List.mem_cons_self
      have here' := proper' name' List.mem_cons_self
      have chars : name.toList ++ slashed names =
          name'.toList ++ slashed names' := (List.cons.inj same).2
      have first := congrArg
        (List.takeWhile fun char => decide (char ≠ '/')) chars
      rw [takeWhile_slashed here, takeWhile_slashed here'] at first
      rw [first] at chars
      rw [String.toList_inj.mp first,
        ih (fun name member => proper name (List.mem_cons_of_mem _ member))
          (fun name member => proper' name (List.mem_cons_of_mem _ member))
          (List.append_cancel_left chars)]

/-- Paths of proper names tell the names. -/
theorem pathText_inj (proper : ∀ name ∈ names, ProperName name)
    (proper' : ∀ name ∈ names', ProperName name)
    (same : pathText names = pathText names') : names = names' := by
  cases names with
  | nil =>
    cases names' with
    | nil => rfl
    | cons name' names' =>
      have here' := (proper' name' List.mem_cons_self).nonempty
      have chars := congrArg String.toList same
      rw [toList_pathText here'] at chars
      have empty := (List.append_eq_nil_iff.mp chars.symm).1
      exact absurd (String.toList_eq_nil_iff.mp empty) here'
  | cons name names =>
    have here := (proper name List.mem_cons_self).nonempty
    cases names' with
    | nil =>
      have chars := congrArg String.toList same
      rw [toList_pathText here] at chars
      have empty := (List.append_eq_nil_iff.mp chars).1
      exact absurd (String.toList_eq_nil_iff.mp empty) here
    | cons name' names' =>
      have here' := (proper' name' List.mem_cons_self).nonempty
      have chars := congrArg String.toList same
      rw [toList_pathText here, toList_pathText here'] at chars
      exact slashed_inj proper proper' (congrArg (List.cons '/') chars)

end GitOnCloudflare.Read
