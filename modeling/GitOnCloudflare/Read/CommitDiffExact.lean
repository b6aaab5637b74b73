import GitOnCloudflare.Read.ListedChanges

/-!
# Commit diffs are exact

The walks list the files of a subtree, and the pairs of trees the difference of
their files.  What is listed is the difference of the two commits, all of it
unless the diff is truncated.
-/

namespace GitOnCloudflare.Read

variable {trees : String → Option (List TreeEntry)}
  {environment : DiffEnvironment} {state : DiffState} {depth : Nat}
  {base : List String}

/-! ## Loops -/

section Loops

variable {Item : Type} {step : Item → DiffStep} {expected : Item → Changes}

/-- The first item lists what it does, and the others what they do. -/
theorem Emits.followed {before middle : DiffState} {item : Item}
    {items : List Item} {result : Except DiffFailure DiffState}
    (here : Emits trees (expected item) before middle)
    (rest : Outcome trees environment
      (fun change => ∃ item ∈ items, expected item change) middle result)
    (first : ∀ other ∈ items, Apart (expected item) (expected other)) :
    Outcome trees environment
      (fun change => ∃ other ∈ item :: items, expected other change) before
      result := by
  have others : Apart (expected item)
      (fun change => ∃ item ∈ items, expected item change) := by
    rintro change change' holds ⟨other, member, holds'⟩
    exact first other member change change' holds holds'
  have both : ∀ change,
      (expected item change ∨ ∃ item ∈ items, expected item change) ↔
        ∃ other ∈ item :: items, expected other change := by
    intro change
    simp only [List.mem_cons, exists_eq_or_imp]
  cases result with
  | error failure => exact rest
  | ok last => exact (here.trans rest others).congr both

theorem forEachUntilStopped_outcome (items : List Item)
    (steps : ∀ item ∈ items, ∀ state, DiffInvariant trees state →
      Outcome trees environment (expected item) state (step item state))
    (apart : items.Pairwise fun item item' =>
      Apart (expected item) (expected item'))
    (invariant : DiffInvariant trees state) :
    Outcome trees environment
      (fun change => ∃ item ∈ items, expected item change) state
      (forEachUntilStopped environment step items state) := by
  induction items generalizing state with
  | nil => exact (Quiet.refl state).emits_none nofun
  | cons item items ih =>
    rcases List.pairwise_cons.mp apart with ⟨first, apart⟩
    have stepped := steps item List.mem_cons_self state invariant
    unfold forEachUntilStopped
    generalize step item state = result at stepped ⊢
    cases result with
    | error failure => exact stepped
    | ok after =>
      have stepped : Emits trees (expected item) state after := stepped
      rcases @shouldStop_quiet trees environment after with
        ⟨stopped, looked, look, quiet, stops⟩
      dsimp only
      rw [look]
      dsimp only
      have here := stepped.quiet quiet
      apply here.followed _ first
      split
      · next stopped =>
          exact (Quiet.refl looked).emits_truncated (stops stopped) _
      · exact ih
          (fun other member => steps other (List.mem_cons_of_mem _ member))
          apart (here.invariant invariant)

theorem diffNames_outcome {step : String → DiffStep} {expected : String → Changes}
    (names : List String)
    (steps : ∀ name ∈ names, ∀ state, DiffInvariant trees state →
      Outcome trees environment (expected name) state (step name state))
    (apart : names.Pairwise fun name name' =>
      Apart (expected name) (expected name'))
    (invariant : DiffInvariant trees state) :
    Outcome trees environment
      (fun change => ∃ name ∈ names, expected name change) state
      (diffNames environment step names state) := by
  induction names generalizing state with
  | nil => exact (Quiet.refl state).emits_none nofun
  | cons name names ih =>
    rcases List.pairwise_cons.mp apart with ⟨first, apart⟩
    rcases @shouldStop_quiet trees environment state with
      ⟨stopped, looked, look, quiet, stops⟩
    unfold diffNames
    rw [look]
    dsimp only
    split
    · next stopped => exact quiet.emits_truncated (stops stopped) _
    · have stepped := steps name List.mem_cons_self looked
        (quiet.invariant invariant)
      generalize step name looked = result at stepped ⊢
      cases result with
      | error failure => exact stepped
      | ok after =>
        have stepped : Emits trees (expected name) looked after := stepped
        have here := quiet.emits stepped
        apply here.followed _ first
        exact ih
          (fun other member => steps other (List.mem_cons_of_mem _ member))
          apart (here.invariant invariant)

end Loops

theorem forEachTreeEntry_outcome (honest : Honest environment trees)
    {step : TreeEntry → DiffStep} {expected : TreeEntry → Changes}
    {treeOid : String}
    (steps : ∀ treeEntries, treeAt trees treeOid = some treeEntries →
      (treeEntries.map TreeEntry.name).Nodup ∧
        ∀ entry ∈ treeEntries, ∀ state, DiffInvariant trees state →
          Outcome trees environment (expected entry) state (step entry state))
    (apart : ∀ entry entry' : TreeEntry, entry.name ≠ entry'.name →
      Apart (expected entry) (expected entry'))
    (invariant : DiffInvariant trees state) :
    Outcome trees environment
      (fun change => ∃ treeEntries, treeAt trees treeOid = some treeEntries ∧
        ∃ entry ∈ treeEntries, expected entry change) state
      (forEachTreeEntry environment step treeOid state) := by
  unfold forEachTreeEntry
  have read := readTreeEntriesMemoized_spec honest treeOid invariant
  generalize readTreeEntriesMemoized environment treeOid state = result at read ⊢
  rcases result with failure | ⟨treeEntries, ended⟩
  · exact read
  have quiet : Quiet trees state ended := read.1
  have answers : Answers trees treeOid ended treeEntries := read.2
  rcases treeEntries with _ | treeEntries
  · exact quiet.emits_truncated answers _
  have found : treeAt trees treeOid = some treeEntries := answers
  dsimp only
  rcases @shouldStop_quiet trees environment ended with
    ⟨stopped, looked, look, quiet', stops⟩
  rw [look]
  dsimp only
  have quiet := quiet.trans quiet'
  split
  · next stopped => exact quiet.emits_truncated (stops stopped) _
  · rcases steps treeEntries found with ⟨distinct, steps⟩
    have perm : (sortEntries environment treeEntries).Perm treeEntries :=
      List.perm_insertionSort _ _
    have sorted : (sortEntries environment treeEntries).Pairwise
        fun entry entry' => Apart (expected entry) (expected entry') := by
      have names := (perm.map TreeEntry.name).nodup_iff.mpr distinct
      rw [List.Nodup, List.pairwise_map] at names
      exact names.imp fun different => apart _ _ different
    have listed := @forEachUntilStopped_outcome trees environment looked
      TreeEntry step expected (sortEntries environment treeEntries)
      (fun entry member => steps entry (perm.mem_iff.mp member)) sorted
      (quiet.invariant invariant)
    apply (quiet.outcome listed).congr
    intro change
    constructor
    · rintro ⟨entry, member, holds⟩
      exact ⟨treeEntries, found, entry, perm.mem_iff.mp member, holds⟩
    · rintro ⟨_, found', entry, member, holds⟩
      cases found.symm.trans found'
      exact ⟨entry, perm.mem_iff.mpr member, holds⟩

/-! ## Changes below a directory -/

variable {changes changes' : Changes} {changeType : ChangeType} {files : Files}
  {change : Change} {entry : TreeEntry} {oid : String} {found : String × String}

/-- The paths of the changes begin with these names. -/
theorem under_fileBelow_apart {name name' : String}
    (below : ∀ change, changes change → ∃ rest, change.path = name :: rest)
    (below' : ∀ change, changes' change → ∃ rest, change.path = name' :: rest)
    (different : name ≠ name') :
    Apart (Under base changes) (Under base changes') := by
  rintro change change' ⟨path, here, holds⟩ ⟨path', here', holds'⟩ same
  rcases below _ holds with ⟨rest, named⟩
  rcases below' _ holds' with ⟨rest', named'⟩
  have paths : change.path = change'.path := congrArg Prod.fst same
  rw [here, here', List.append_cancel_left_eq] at paths
  dsimp only at named named'
  rw [named, named'] at paths
  exact different (List.cons.inj paths).1

theorem under_append (names : List String) (changes : Changes) (change : Change) :
    Under (base ++ names) changes change ↔
      Under base (Under names changes) change := by
  constructor
  · rintro ⟨path, here, holds⟩
    exact ⟨names ++ path, by rw [here, List.append_assoc], path, rfl, holds⟩
  · rintro ⟨path, here, path', here', holds⟩
    dsimp only at here'
    exact ⟨path', by rw [here, here', List.append_assoc], holds⟩

theorem under_congr (same : ∀ change, changes change ↔ changes' change)
    (change : Change) :
    Under base changes change ↔ Under base changes' change := by
  constructor
  · rintro ⟨path, here, holds⟩
    exact ⟨path, here, (same _).mp holds⟩
  · rintro ⟨path, here, holds⟩
    exact ⟨path, here, (same _).mpr holds⟩

/-- All files of one side, as changes. -/
inductive OneSided : ChangeType → Files → Changes where
  | added {files : Files} {path : List String} {file : String × String}
      (found : files path file) :
      OneSided .added files ⟨.added, path, none, some file⟩
  | deleted {files : Files} {path : List String} {file : String × String}
      (found : files path file) :
      OneSided .deleted files ⟨.deleted, path, some file, none⟩

theorem OneSided.path (oneSided : OneSided changeType files change) :
    ∃ file, files change.path file := by
  cases oneSided with
  | added found => exact ⟨_, found⟩
  | deleted found => exact ⟨_, found⟩

variable {changeType : ChangeType} {entry : TreeEntry} {path : List String}

theorem OneSided.changeType_eq (oneSided : OneSided changeType files change) :
    change.changeType = changeType := by
  cases oneSided <;> rfl

theorem fileBelow_path {file : String × String}
    (found : FileBelow trees entry path file) :
    ∃ rest, path = entry.name :: rest := by
  rcases found with ⟨rest, same, _⟩
  exact ⟨rest, same⟩

theorem oneSided_fileBelow_apart (changeType changeType' : ChangeType)
    {entry' : TreeEntry} (different : entry.name ≠ entry'.name) :
    Apart (Under base (OneSided changeType (FileBelow trees entry)))
      (Under base (OneSided changeType' (FileBelow trees entry'))) := by
  apply under_fileBelow_apart _ _ different
  · intro change holds
    rcases holds.path with ⟨_, found⟩
    exact fileBelow_path found
  · intro change holds
    rcases holds.path with ⟨_, found⟩
    exact fileBelow_path found

/-- The files of a tree are those of its entries. -/
theorem oneSided_tree (change : Change) :
    (∃ treeEntries, treeAt trees oid = some treeEntries ∧
      ∃ child ∈ treeEntries,
        Under base (OneSided changeType (FileBelow trees child)) change) ↔
      Under base (OneSided changeType fun path => FileAt trees path oid)
        change := by
  rcases change with ⟨type, full, old, new⟩
  constructor
  · rintro ⟨treeEntries, found, child, member, path, here, holds⟩
    refine ⟨path, here, ?_⟩
    dsimp only at holds ⊢
    cases holds with
    | added below =>
      exact .added (fileAt_iff.mpr ⟨treeEntries, found, child, member, below⟩)
    | deleted below =>
      exact .deleted
        (fileAt_iff.mpr ⟨treeEntries, found, child, member, below⟩)
  · rintro ⟨path, here, holds⟩
    dsimp only at here holds
    cases holds with
    | added below =>
      rcases fileAt_iff.mp below with ⟨treeEntries, found, child, member, at_⟩
      exact ⟨treeEntries, found, child, member, path, here, .added at_⟩
    | deleted below =>
      rcases fileAt_iff.mp below with ⟨treeEntries, found, child, member, at_⟩
      exact ⟨treeEntries, found, child, member, path, here, .deleted at_⟩

theorem fileBelow_tree (tree : entry.mode = "40000") :
    FileBelow trees entry (entry.name :: path) found ↔
      FileAt trees path entry.oid found := by
  constructor
  · rintro ⟨rest, same, below⟩
    rw [if_pos tree, ← (List.cons.inj same).2] at below
    exact below
  · intro found
    exact ⟨path, rfl, (if_pos tree).mpr found⟩

theorem fileBelow_file (file : entry.mode ≠ "40000") :
    FileBelow trees entry path found ↔
      path = [entry.name] ∧ found = (entry.mode, entry.oid) := by
  constructor
  · rintro ⟨rest, rfl, below⟩
    rw [if_neg file] at below
    rw [below.1]
    exact ⟨rfl, below.2⟩
  · rintro ⟨rfl, rfl⟩
    exact ⟨[], rfl, (if_neg file).mpr ⟨rfl, rfl⟩⟩

/-- The files below a subtree, one name further down. -/
theorem oneSided_subtree (tree : entry.mode = "40000") (change : Change) :
    Under (base ++ [entry.name])
        (OneSided changeType fun path => FileAt trees path entry.oid) change ↔
      Under base (OneSided changeType (FileBelow trees entry)) change := by
  rw [under_append]
  apply under_congr
  rintro ⟨type, full, old, new⟩
  constructor
  · rintro ⟨path, here, holds⟩
    dsimp only at here holds
    subst here
    cases holds with
    | added found => exact .added ((fileBelow_tree tree).mpr found)
    | deleted found => exact .deleted ((fileBelow_tree tree).mpr found)
  · intro holds
    rcases holds.path with ⟨_, placed⟩
    rcases fileBelow_path placed with ⟨rest, named⟩
    dsimp only at named
    subst named
    refine ⟨rest, rfl, ?_⟩
    dsimp only
    cases holds with
    | added found => exact .added ((fileBelow_tree tree).mp found)
    | deleted found => exact .deleted ((fileBelow_tree tree).mp found)

/-! ## One-sided walks -/

/-- The deletion or the addition of a file. -/
theorem addEntry_oneSided {changeType : ChangeType}
    (oneSided : changeType ≠ .modified) {entry : TreeEntry}
    (file : entry.mode ≠ "40000") (base : List String) (state : DiffState) :
    Emits trees (Under base (OneSided changeType (FileBelow trees entry))) state
      (addOneSided environment changeType
        (joinTreePath (pathText base) entry.name) entry state) := by
  unfold addOneSided
  rw [← pathText_concat]
  apply (addEntry_emits state rfl).congr
  rintro ⟨type, full, old, new⟩
  constructor
  · intro same
    refine ⟨[entry.name], ?_, ?_⟩
    · cases same
      rfl
    · cases changeType with
      | modified => exact absurd rfl oneSided
      | added =>
        cases same
        exact .added ((fileBelow_file file).mpr ⟨rfl, rfl⟩)
      | deleted =>
        cases same
        exact .deleted ((fileBelow_file file).mpr ⟨rfl, rfl⟩)
  · rintro ⟨path, here, holds⟩
    dsimp only at here holds
    cases holds with
    | added found =>
      rcases (fileBelow_file file).mp found with ⟨rfl, rfl⟩
      rw [here]
      rfl
    | deleted found =>
      rcases (fileBelow_file file).mp found with ⟨rfl, rfl⟩
      rw [here]
      rfl

/-- What a walk of an entry is to list, on one side. -/
def WalkOutcome (trees : String → Option (List TreeEntry))
    (environment : DiffEnvironment) (depth : Nat) (changeType : ChangeType)
    (base : List String) (walk : TreeEntry → DiffStep) : Prop :=
  ∀ entry state, SoundEntry trees depth entry → DiffInvariant trees state →
    Outcome trees environment
      (Under base (OneSided changeType (FileBelow trees entry))) state (walk entry state)

/-- A tree lists its files when the walk of an entry does. -/
theorem forEachTreeEntry_oneSided (honest : Honest environment trees)
    {walk : TreeEntry → DiffStep}
    (walks : WalkOutcome trees environment depth changeType base walk)
    (sound : SoundTree trees (depth + 1) oid)
    (invariant : DiffInvariant trees state) :
    Outcome trees environment
      (Under base (OneSided changeType fun path => FileAt trees path oid)) state
      (forEachTreeEntry environment walk oid state) := by
  have walked := @forEachTreeEntry_outcome trees environment state honest walk
    (fun child => Under base (OneSided changeType (FileBelow trees child))) oid
    (by
      intro treeEntries found
      rcases sound.entries found with ⟨distinct, children⟩
      refine ⟨distinct, ?_⟩
      intro child member state
      exact walks child state (children child member))
    (fun _ _ different => oneSided_fileBelow_apart _ _ different) invariant
  exact walked.congr oneSided_tree

theorem walk_outcome (honest : Honest environment trees)
    {changeType : ChangeType} (oneSided : changeType ≠ .modified)
    (depth : Nat) (base : List String) :
    WalkOutcome trees environment depth changeType base
      (walkAddedOrDeletedSubtree environment changeType (depth + 1)
        (pathText base)) := by
  induction depth using Nat.strong_induction_on generalizing base with
  | h depth ih =>
    intro entry state sound invariant
    unfold walkAddedOrDeletedSubtree
    rcases @shouldStop_quiet trees environment state with
      ⟨stopped, looked, look, quiet, stops⟩
    rw [look]
    dsimp only
    split
    · next stopped => exact quiet.emits_truncated (stops stopped) _
    rw [sound.isTreeMode]
    by_cases tree : entry.mode = "40000"
    · rw [decide_eq_true tree, if_neg Bool.true_eq_false_eq_False,
        ← pathText_concat]
      apply quiet.outcome
      have below := sound.below tree
      rcases below.pos with ⟨depth, rfl⟩
      have walked := forEachTreeEntry_oneSided honest
        (ih depth (Nat.lt_succ_self depth) (base ++ [entry.name])) below
        (quiet.invariant invariant)
      exact walked.congr (oneSided_subtree tree)
    · rw [decide_eq_false tree, if_pos rfl]
      exact quiet.emits (addEntry_oneSided oneSided tree base looked)

/-- The files of a subtree that stands where the other side has a file. -/
theorem subtree_outcome (honest : Honest environment trees)
    {changeType : ChangeType} (oneSided : changeType ≠ .modified)
    {entry : TreeEntry} (sound : SoundEntry trees depth entry)
    (tree : entry.mode = "40000") (base : List String)
    (invariant : DiffInvariant trees state) :
    Outcome trees environment
      (Under base (OneSided changeType (FileBelow trees entry))) state
      (forEachTreeEntry environment
        (walkAddedOrDeletedSubtree environment changeType depth
          (joinTreePath (pathText base) entry.name)) entry.oid state) := by
  have below := sound.below tree
  rcases below.pos with ⟨depth, rfl⟩
  rw [← pathText_concat]
  have walked := forEachTreeEntry_oneSided honest
    (walk_outcome honest oneSided depth (base ++ [entry.name])) below invariant
  exact walked.congr (oneSided_subtree tree)

end GitOnCloudflare.Read
