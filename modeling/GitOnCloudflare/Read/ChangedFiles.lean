import GitOnCloudflare.Read.CommitDifference
import Mathlib.Data.List.Dedup

/-!
# The changed files are the difference

The walk of two trees lists the difference of their files.  The commit and its
first parent name the trees, and the result holds what the walk has listed.
-/

namespace GitOnCloudflare.Read

variable {trees : String → Option (List TreeEntry)}
  {environment : DiffEnvironment} {state : DiffState} {depth : Nat}
  {base : List String}

/-! ## One name of two trees -/

variable {name oid : String} {oldEntries newEntries : List TreeEntry}

theorem FileOf.path {entry : Option TreeEntry}
    (named : ∀ present, entry = some present → present.name = name)
    {path : List String} {file : String × String}
    (found : FileOf trees entry path file) : ∃ rest, path = name :: rest := by
  rcases found with ⟨present, here, below⟩
  rw [← named present here]
  exact fileBelow_path below

variable {pair : String → String → String → DiffStep}
  {oldOid newOid oldTree newTree : String}

theorem diffName_outcome (honest : Honest environment trees)
    (pairs : PairOutcome trees environment depth pair)
    {oldEntry newEntry : Option TreeEntry}
    (same : ∀ oldPresent newPresent, oldEntry = some oldPresent →
      newEntry = some newPresent → oldPresent.name = newPresent.name)
    (oldSound : ∀ present, oldEntry = some present →
      SoundEntry trees depth present)
    (newSound : ∀ present, newEntry = some present →
      SoundEntry trees depth present) (base : List String)
    (invariant : DiffInvariant trees state) :
    Outcome trees environment
      (Under base (Difference (FileOf trees oldEntry) (FileOf trees newEntry)))
      state
      (diffName environment depth pair (pathText base) oldEntry newEntry
        state) := by
  have some_ : ∀ present path file, FileOf trees (some present) path file ↔
      FileBelow trees present path file := by
    intro present path file
    constructor
    · rintro ⟨_, here, below⟩
      cases here
      exact below
    · exact fun below => ⟨present, rfl, below⟩
  have none_ : FileOf trees none = fun _ _ => False := by
    funext path file
    apply propext
    constructor
    · rintro ⟨_, here, _⟩
      cases here
    · exact False.elim
  have below : ∀ present, FileOf trees (some present) = FileBelow trees present := by
    intro present
    funext path file
    exact propext (some_ present path file)
  cases oldEntry with
  | none =>
    rw [none_]
    cases newEntry with
    | none =>
      rw [none_]
      apply (Quiet.refl state).emits_none
      rintro change ⟨path, _, holds⟩
      exact not_difference_self (fun _ _ _ held => held.elim) holds
    | some newPresent =>
      rw [below]
      have walked := @walk_outcome trees environment honest .added nofun
        depth base newPresent state (newSound newPresent rfl) invariant
      apply walked.congr
      exact under_congr fun change => (difference_none_old change).symm
  | some oldPresent =>
    rw [below]
    cases newEntry with
    | none =>
      rw [none_]
      have walked := @walk_outcome trees environment honest .deleted nofun
        depth base oldPresent state (oldSound oldPresent rfl) invariant
      apply walked.congr
      exact under_congr fun change => (difference_none_new change).symm
    | some newPresent =>
      rw [below]
      exact diffEntries_outcome honest pairs
        (same oldPresent newPresent rfl rfl) (oldSound oldPresent rfl)
        (newSound newPresent rfl) base invariant

/-- The entries of a name have the files of the tree whose paths begin with
it. -/
theorem fileOf_entryByName {treeEntries : List TreeEntry}
    (found : treeAt trees oid = some treeEntries)
    (distinct : (treeEntries.map TreeEntry.name).Nodup) (name : String)
    (rest : List String) (file : String × String) :
    FileOf trees (entryByName treeEntries name) (name :: rest) file ↔
      FileAt trees (name :: rest) oid file := by
  rw [fileAt_iff]
  constructor
  · rintro ⟨present, here, below⟩
    exact ⟨treeEntries, found, present,
      ((entryByName_eq_some distinct).mp here).1, below⟩
  · rintro ⟨_, found', entry, member, below⟩
    cases found.symm.trans found'
    rcases fileBelow_path below with ⟨_, same⟩
    rw [List.cons.injEq] at same
    exact ⟨entry, (entryByName_eq_some distinct).mpr ⟨member, same.1.symm⟩,
      below⟩

theorem mem_sortedNames :
    name ∈ sortedNames environment oldEntries newEntries ↔
      name ∈ (oldEntries ++ newEntries).map TreeEntry.name := by
  unfold sortedNames
  rw [(List.perm_insertionSort _ _).mem_iff, List.mem_reverse, List.mem_dedup,
    List.mem_reverse]

theorem nodup_sortedNames (oldEntries newEntries : List TreeEntry) :
    (sortedNames environment oldEntries newEntries).Nodup := by
  unfold sortedNames
  rw [(List.perm_insertionSort _ _).nodup_iff, List.nodup_reverse]
  exact List.nodup_dedup _

/-! ## Two trees -/

/-- The changes of every name are the changes of the trees. -/
theorem difference_names (oldFound : treeAt trees oldOid = some oldEntries)
    (newFound : treeAt trees newOid = some newEntries)
    (oldDistinct : (oldEntries.map TreeEntry.name).Nodup)
    (newDistinct : (newEntries.map TreeEntry.name).Nodup) (change : Change) :
    (∃ name ∈ sortedNames environment oldEntries newEntries,
      Under base
        (Difference (FileOf trees (entryByName oldEntries name))
          (FileOf trees (entryByName newEntries name))) change) ↔
      Under base
        (Difference (fun path => FileAt trees path oldOid)
          fun path => FileAt trees path newOid) change := by
  have oldName := fun name => fileOf_entryByName oldFound oldDistinct name
  have newName := fun name => fileOf_entryByName newFound newDistinct name
  constructor
  · rintro ⟨name, _, path, here, holds⟩
    refine ⟨path, here, ?_⟩
    have placed : ∃ rest, path = name :: rest := by
      rcases holds.path with ⟨_, found⟩ | ⟨_, found⟩
      · apply FileOf.path _ found
        exact fun present at_ => ((entryByName_eq_some oldDistinct).mp at_).2
      · apply FileOf.path _ found
        exact fun present at_ => ((entryByName_eq_some newDistinct).mp at_).2
    rcases placed with ⟨rest, rfl⟩
    exact (difference_congr (oldName name rest) (newName name rest)).mp holds
  · rintro ⟨path, here, holds⟩
    have named : ∃ name ∈ (oldEntries ++ newEntries).map TreeEntry.name,
        ∃ rest, path = name :: rest := by
      rcases holds.path with ⟨_, found⟩ | ⟨_, found⟩
      · rcases fileAt_iff.mp found with ⟨_, found', entry, member, below⟩
        cases oldFound.symm.trans found'
        exact ⟨entry.name,
          List.mem_map_of_mem (List.mem_append_left _ member),
          fileBelow_path below⟩
      · rcases fileAt_iff.mp found with ⟨_, found', entry, member, below⟩
        cases newFound.symm.trans found'
        exact ⟨entry.name,
          List.mem_map_of_mem (List.mem_append_right _ member),
          fileBelow_path below⟩
    rcases named with ⟨name, member, rest, rfl⟩
    exact ⟨name, mem_sortedNames.mpr member, name :: rest, here,
      (difference_congr (oldName name rest) (newName name rest)).mpr holds⟩

theorem fileOf_apart (oldDistinct : (oldEntries.map TreeEntry.name).Nodup)
    (newDistinct : (newEntries.map TreeEntry.name).Nodup) {name' : String}
    (different : name ≠ name') :
    Apart
      (Under base (Difference (FileOf trees (entryByName oldEntries name))
        (FileOf trees (entryByName newEntries name))))
      (Under base (Difference (FileOf trees (entryByName oldEntries name'))
        (FileOf trees (entryByName newEntries name')))) := by
  have placed : ∀ name change,
      Difference (FileOf trees (entryByName oldEntries name))
        (FileOf trees (entryByName newEntries name)) change →
        ∃ rest, change.path = name :: rest := by
    intro name change holds
    rcases holds.path with ⟨_, found⟩ | ⟨_, found⟩
    · apply FileOf.path _ found
      exact fun present at_ => ((entryByName_eq_some oldDistinct).mp at_).2
    · apply FileOf.path _ found
      exact fun present at_ => ((entryByName_eq_some newDistinct).mp at_).2
  exact under_fileBelow_apart (placed name) (placed name') different

theorem not_fileAt_absent (path : List String) (file : String × String) :
    ¬ FileAt trees path "" file := by
  intro found
  rcases fileAt_iff.mp found with ⟨treeEntries, read, entry, member, _⟩
  have empty : treeAt trees "" = some [] := if_pos rfl
  cases read.symm.trans empty
  cases member

/-- The names of two trees that are read. -/
theorem names_outcome (honest : Honest environment trees)
    (pairs : PairOutcome trees environment depth pair)
    (oldFound : treeAt trees oldOid = some oldEntries)
    (newFound : treeAt trees newOid = some newEntries)
    (oldSound : SoundTree trees (depth + 1) oldOid)
    (newSound : SoundTree trees (depth + 1) newOid) (base : List String)
    (invariant : DiffInvariant trees state) :
    Outcome trees environment
      (Under base
        (Difference (fun path => FileAt trees path oldOid)
          fun path => FileAt trees path newOid)) state
      (diffNames environment
        (fun name =>
          diffName environment depth pair (pathText base)
            (entryByName oldEntries name) (entryByName newEntries name))
        (sortedNames environment oldEntries newEntries) state) := by
  rcases oldSound.entries oldFound with ⟨oldDistinct, oldEach⟩
  rcases newSound.entries newFound with ⟨newDistinct, newEach⟩
  have listed := @diffNames_outcome trees environment state
    (fun name =>
      diffName environment depth pair (pathText base)
        (entryByName oldEntries name) (entryByName newEntries name))
    (fun name => Under base
      (Difference (FileOf trees (entryByName oldEntries name))
        (FileOf trees (entryByName newEntries name))))
    (sortedNames environment oldEntries newEntries)
    (by
      intro name member state invariant
      apply diffName_outcome honest pairs _ _ _ base invariant
      · intro oldPresent newPresent oldAt newAt
        rw [((entryByName_eq_some oldDistinct).mp oldAt).2,
          ((entryByName_eq_some newDistinct).mp newAt).2]
      · intro present at_
        exact oldEach present ((entryByName_eq_some oldDistinct).mp at_).1
      · intro present at_
        exact newEach present ((entryByName_eq_some newDistinct).mp at_).1)
    ((nodup_sortedNames oldEntries newEntries).imp
      (fileOf_apart oldDistinct newDistinct))
    invariant
  exact listed.congr (difference_names oldFound newFound oldDistinct newDistinct)

theorem diffTreePair_outcome (honest : Honest environment trees) (depth : Nat) :
    PairOutcome trees environment depth (diffTreePair environment depth) := by
  induction depth with
  | zero =>
    intro oldOid newOid base state oldSound
    exact oldSound.elim
  | succ depth ih =>
    intro oldOid newOid base state oldSound newSound invariant
    unfold diffTreePair
    rcases @shouldStop_quiet trees environment state with
      ⟨stopped, looked, look, quiet, stops⟩
    rw [look]
    dsimp only
    have invariant := quiet.invariant invariant
    split
    · next stopped => exact quiet.emits_truncated (stops stopped) _
    split
    · -- a tree is not different from itself
      next same =>
        subst same
        have unique : ∀ path file other, FileAt trees path oldOid file →
            FileAt trees path oldOid other → file = other :=
          fun _ _ _ => oldSound.fileAt_unique
        apply quiet.emits_none
        rintro change ⟨path, _, holds⟩
        exact not_difference_self unique holds
    split
    · next absent =>
        subst absent
        apply quiet.outcome
        have walked := forEachTreeEntry_oneSided honest
          (@walk_outcome trees environment honest .added nofun depth base)
          newSound invariant
        apply walked.congr
        apply under_congr
        intro change
        rw [← difference_none_old]
        apply difference_congr
        · exact fun file => ⟨False.elim, not_fileAt_absent _ _⟩
        · exact fun _ => Iff.rfl
    split
    · next absent =>
        subst absent
        apply quiet.outcome
        have walked := forEachTreeEntry_oneSided honest
          (@walk_outcome trees environment honest .deleted nofun depth base)
          oldSound invariant
        apply walked.congr
        apply under_congr
        intro change
        rw [← difference_none_new]
        apply difference_congr
        · exact fun _ => Iff.rfl
        · exact fun file => ⟨False.elim, not_fileAt_absent _ _⟩
    split
    · rcases @setTruncated_quiet trees .maxTreePairs looked with
        ⟨quiet', truncated⟩
      exact (quiet.trans quiet').emits_truncated truncated _
    have counted : Quiet trees looked
        { looked with treePairs := looked.treePairs + 1 } :=
      ⟨rfl, id, fun invariant =>
        ⟨invariant.memo, invariant.added, invariant.modified,
          invariant.deleted⟩⟩
    have quiet := quiet.trans counted
    have both := readBothTrees_spec honest oldOid newOid
      (counted.invariant invariant)
    generalize readBothTrees environment oldOid newOid
      { looked with treePairs := looked.treePairs + 1 } = result at both ⊢
    rcases result with failure | ⟨⟨oldEntries, newEntries⟩, read⟩
    · exact both
    rcases both with ⟨reading, oldAnswers, newAnswers⟩
    have quiet := quiet.trans reading
    cases oldEntries with
    | none => exact quiet.emits_truncated oldAnswers _
    | some oldEntries =>
      cases newEntries with
      | none => exact quiet.emits_truncated newAnswers _
      | some newEntries =>
        dsimp only
        rcases @shouldStop_quiet trees environment read with
          ⟨stopped, looked, look, last, stops⟩
        rw [look]
        dsimp only
        have quiet := quiet.trans last
        split
        · next stopped => exact quiet.emits_truncated (stops stopped) _
        · apply quiet.outcome
          apply names_outcome honest ih oldAnswers newAnswers oldSound
            newSound base
          exact last.invariant
            (reading.invariant (counted.invariant invariant))

/-! ## The result -/

/-- The result lists the difference of two trees. -/
structure ListsDifference (trees : String → Option (List TreeEntry))
    (oldTree newTree : String) (diff : CommitDiffResult) : Prop where
  listed : ∀ entry ∈ diff.entries, ∃ change : Change,
    Difference (fun path => FileAt trees path oldTree)
      (fun path => FileAt trees path newTree) change ∧ change.entry = entry
  once : (diff.entries.map fun entry => (entry.path, entry.changeType)).Nodup
  added : diff.added =
    diff.entries.countP fun entry => entry.changeType = .added
  modified : diff.modified =
    diff.entries.countP fun entry => entry.changeType = .modified
  deleted : diff.deleted =
    diff.entries.countP fun entry => entry.changeType = .deleted
  total : diff.total = diff.entries.length
  whole : diff.truncated = false → ∀ change : Change,
    Difference (fun path => FileAt trees path oldTree)
      (fun path => FileAt trees path newTree) change →
        change.entry ∈ diff.entries

theorem SoundTree.succ (sound : SoundTree trees depth oid) :
    SoundTree trees (depth + 1) oid := by
  induction depth generalizing oid with
  | zero => exact sound.elim
  | succ depth ih =>
    intro treeEntries found
    rcases sound treeEntries found with ⟨distinct, entries⟩
    refine ⟨distinct, ?_⟩
    intro entry member
    rcases entries entry member with ⟨proper, told, below⟩
    exact ⟨proper, told, fun tree => ih (below tree)⟩

theorem SoundTree.mono {deeper : Nat} (sound : SoundTree trees depth oid)
    (enough : depth ≤ deeper) : SoundTree trees deeper oid := by
  induction enough with
  | refl => exact sound
  | step _ ih => exact ih.succ

/-- Nothing was listed before. -/
theorem initial_invariant : DiffInvariant trees {} :=
  ⟨nofun, rfl, rfl, rfl⟩

theorem Difference.proper {change : Change}
    (oldSound : SoundTree trees depth oldTree)
    (newSound : SoundTree trees depth newTree)
    (difference : Difference (fun path => FileAt trees path oldTree)
      (fun path => FileAt trees path newTree) change) :
    ∀ name ∈ change.path, ProperName name := by
  rcases difference.path with ⟨_, found⟩ | ⟨_, found⟩
  · exact oldSound.proper found
  · exact newSound.proper found

/-- What has been listed behind nothing, in the order of the result. -/
theorem Emits.listsDifference {begun : DiffState}
    (oldSound : SoundTree trees depth oldTree)
    (newSound : SoundTree trees depth newTree)
    (emits : Emits trees
      (Difference (fun path => FileAt trees path oldTree)
        fun path => FileAt trees path newTree) begun state)
    (nothing : begun.entries = []) (invariant : DiffInvariant trees begun)
    {entries : List CommitDiffEntry} (perm : entries.Perm state.entries)
    (baseCommitOid : Option String) :
    ListsDifference trees oldTree newTree
      (DiffState.result { state with entries := entries } baseCommitOid) := by
  rcases emits.listed with ⟨changes, same, distinct, sound, complete⟩
  rw [nothing, List.nil_append] at same
  have kept := emits.invariant invariant
  constructor
  · intro entry member
    have member := perm.mem_iff.mp member
    rw [same] at member
    rcases List.mem_map.mp member with ⟨change, listed, rfl⟩
    exact ⟨change, sound change listed, rfl⟩
  · have keys : (state.entries.map fun entry =>
        (entry.path, entry.changeType)).Nodup := by
      rw [same, List.map_map]
      apply List.Nodup.map_on _ (List.Nodup.of_map _ distinct)
      intro change listed change' listed' texts
      apply List.inj_on_of_nodup_map distinct listed listed'
      have paths := pathText_inj ((sound change listed).proper oldSound newSound)
        ((sound change' listed').proper oldSound newSound)
        (congrArg Prod.fst texts)
      have types : change.changeType = change'.changeType :=
        congrArg Prod.snd texts
      exact Prod.ext paths types
    exact (perm.map _).nodup_iff.mpr keys
  · exact kept.added.trans (perm.countP_eq _).symm
  · exact kept.modified.trans (perm.countP_eq _).symm
  · exact kept.deleted.trans (perm.countP_eq _).symm
  · rfl
  · intro whole change difference
    apply perm.mem_iff.mpr
    rw [same]
    exact List.mem_map_of_mem (complete whole change difference)

/-- Whatever the budgets and whenever they run out, only changes are listed,
each once, and all of them where the diff is not truncated. -/
theorem listCommitChangedFiles_exact (honest : Honest environment trees)
    {oid : String} {commit : CommitInfo}
    (found : environment.readCommitInfo oid = .ok commit) {oldTree : String}
    (based : baseTree environment commit.parents.head? = .ok oldTree)
    (oldSound : SoundTree trees depth oldTree)
    (newSound : SoundTree trees depth commit.tree) {fuel : Nat}
    (enough : depth ≤ fuel) :
    match listCommitChangedFiles environment fuel oid with
    | .error failure => Thrown environment failure
    | .ok diff => ListsDifference trees oldTree commit.tree diff := by
  unfold listCommitChangedFiles
  rcases @shouldStop_quiet trees environment {} with
    ⟨stopped, begun, look, quiet, stops⟩
  rw [look]
  dsimp only
  by_cases stop : stopped = true
  · rw [if_pos stop]
    exact (quiet.emits_truncated (stops stop) _).listsDifference oldSound
      newSound rfl initial_invariant (List.Perm.refl _) none
  rw [if_neg stop, found]
  dsimp only
  rcases @shouldStop_quiet trees environment begun with
    ⟨stopped, looked, look, quiet', stops⟩
  rw [look]
  dsimp only
  have quiet := quiet.trans quiet'
  by_cases stop : stopped = true
  · rw [if_pos stop]
    exact (quiet.emits_truncated (stops stop) _).listsDifference oldSound
      newSound rfl initial_invariant (List.Perm.refl _) _
  rw [if_neg stop, based]
  dsimp only
  have walked := diffTreePair_outcome honest fuel oldTree commit.tree [] looked
    (oldSound.mono enough) (newSound.mono enough)
    (quiet.invariant initial_invariant)
  have here : pathText [] = "" := rfl
  rw [here] at walked
  generalize diffTreePair environment fuel oldTree commit.tree "" looked = result
    at walked ⊢
  cases result with
  | error failure => exact walked
  | ok last =>
    have listed : Emits trees
        (Difference (fun path => FileAt trees path oldTree)
          fun path => FileAt trees path commit.tree) {} last := by
      apply (quiet.emits walked).congr
      rintro ⟨type, full, old, new⟩
      constructor
      · rintro ⟨path, rfl, holds⟩
        exact holds
      · exact fun holds => ⟨full, rfl, holds⟩
    exact listed.listsDifference oldSound newSound rfl initial_invariant
      (List.perm_insertionSort _ _) _

/-- Reads of these trees and commits within all budgets. -/
def unhurried (trees : String → Option (List TreeEntry))
    (commits : String → Option CommitInfo) : DiffEnvironment where
  maxFiles := 300
  maxTreePairs := 2000
  maxTreeReads := 2000
  look := fun _ => ⟨false, false⟩
  readTree := fun _ oid => (trees oid).elim (.error "Not a tree") .ok
  readCommitInfo := fun oid => (commits oid).elim (.error "Not a commit") .ok
  localeLe := fun left right => decide (left ≤ right)
  newFirst := fun _ => false

theorem unhurried_honest (trees : String → Option (List TreeEntry))
    (commits : String → Option CommitInfo) :
    Honest (unhurried trees commits) trees := by
  intro attempt oid treeEntries read
  have read : (trees oid).elim (.error "Not a tree") .ok =
      (.ok treeEntries : Except String (List TreeEntry)) := read
  cases found : trees oid with
  | none =>
    rw [found] at read
    cases read
  | some treeEntries =>
    rw [found] at read
    cases read
    rfl

/-- A directory takes the place of a file. -/
def replacedTrees (oid : String) : Option (List TreeEntry) :=
  if oid = "before" then some [⟨"100644", "a", "first"⟩]
  else if oid = "after" then some [⟨"40000", "a", "directory"⟩]
  else if oid = "directory" then some [⟨"100755", "b", "second"⟩]
  else none

def replacedCommits (oid : String) : Option CommitInfo :=
  if oid = "tip" then some ⟨"after", ["base"]⟩
  else if oid = "base" then some ⟨"before", []⟩
  else none

theorem replacedTrees_sound :
    SoundTree replacedTrees 2 "before" ∧ SoundTree replacedTrees 2 "after" := by
  have proper : ProperName "a" ∧ ProperName "b" :=
    ⟨⟨by decide, by decide⟩, ⟨by decide, by decide⟩⟩
  constructor
  · intro treeEntries found
    have entries : [⟨"100644", "a", "first"⟩] = treeEntries :=
      Option.some.inj found
    subst entries
    refine ⟨List.nodup_singleton _, ?_⟩
    intro entry member
    cases List.mem_singleton.mp member
    exact ⟨proper.1, by decide, fun tree => absurd tree (by decide)⟩
  · intro treeEntries found
    have entries : [⟨"40000", "a", "directory"⟩] = treeEntries :=
      Option.some.inj found
    subst entries
    refine ⟨List.nodup_singleton _, ?_⟩
    intro entry member
    cases List.mem_singleton.mp member
    refine ⟨proper.1, fun _ => rfl, fun _ => ?_⟩
    intro treeEntries found
    have entries : [⟨"100755", "b", "second"⟩] = treeEntries :=
      Option.some.inj found
    subst entries
    refine ⟨List.nodup_singleton _, ?_⟩
    intro entry member
    cases List.mem_singleton.mp member
    exact ⟨proper.2, by decide, fun tree => absurd tree (by decide)⟩

theorem listCommitChangedFiles_exact_replaced :
    match listCommitChangedFiles (unhurried replacedTrees replacedCommits) 2
        "tip" with
    | .error failure =>
      Thrown (unhurried replacedTrees replacedCommits) failure
    | .ok diff => ListsDifference replacedTrees "before" "after" diff :=
  @listCommitChangedFiles_exact replacedTrees
    (unhurried replacedTrees replacedCommits) 2 (unhurried_honest _ _) "tip"
    ⟨"after", ["base"]⟩ rfl "before" rfl replacedTrees_sound.1
    replacedTrees_sound.2 2 (Nat.le_refl 2)

/-! ## Names with separators -/

/-- A tree as the walks need it, but for what its names are. -/
def DistinctTree (trees : String → Option (List TreeEntry)) :
    Nat → String → Prop
  | 0, _ => False
  | depth + 1, oid =>
    ∀ treeEntries, treeAt trees oid = some treeEntries →
      (treeEntries.map TreeEntry.name).Nodup ∧
        ∀ entry ∈ treeEntries,
          (isTreeMode entry.mode = true → entry.mode = "40000") ∧
            (entry.mode = "40000" → DistinctTree trees depth entry.oid)

/-- A file with a separator in its name beside a directory. -/
def slashedTrees (oid : String) : Option (List TreeEntry) :=
  if oid = "root" then
    some [⟨"40000", "a", "directory"⟩, ⟨"100644", "a/b", "second"⟩]
  else if oid = "directory" then
    some [⟨"100644", "b", "first"⟩]
  else
    none

def slashedCommits (_ : String) : Option CommitInfo := some ⟨"root", []⟩

/-- Two files are listed under one path. -/
theorem listCommitChangedFiles_slashed :
    Honest (unhurried slashedTrees slashedCommits) slashedTrees ∧
      DistinctTree slashedTrees 2 "root" ∧
      ∃ diff, listCommitChangedFiles (unhurried slashedTrees slashedCommits) 2
          "tip" = .ok diff ∧
        ¬ (diff.entries.map fun entry =>
          (entry.path, entry.changeType)).Nodup := by
  refine ⟨unhurried_honest _ _, ?_, ?_⟩
  · intro treeEntries found
    have entries : [⟨"40000", "a", "directory"⟩, ⟨"100644", "a/b", "second"⟩] =
        treeEntries := Option.some.inj found
    subst entries
    refine ⟨by decide, ?_⟩
    intro entry member
    rcases List.mem_pair.mp member with rfl | rfl
    · refine ⟨fun _ => rfl, fun _ => ?_⟩
      intro treeEntries found
      have entries : [⟨"100644", "b", "first"⟩] = treeEntries :=
        Option.some.inj found
      subst entries
      refine ⟨List.nodup_singleton _, ?_⟩
      intro entry member
      cases List.mem_singleton.mp member
      exact ⟨by decide, fun tree => absurd tree (by decide)⟩
    · exact ⟨by decide, fun tree => absurd tree (by decide)⟩
  · refine ⟨_, rfl, ?_⟩
    decide +kernel

end GitOnCloudflare.Read
