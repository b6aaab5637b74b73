import GitOnCloudflare.Read.CommitDiffExact

/-!
# The difference of two commits

Pairs of entries of one name list the difference of their files, and pairs of
trees that of all names.
-/

namespace GitOnCloudflare.Read

variable {trees : String → Option (List TreeEntry)}
  {environment : DiffEnvironment} {state : DiffState} {depth : Nat}
  {base : List String} {oldFiles newFiles : Files}

/-! ## Differences -/

variable {change : Change}

theorem Difference.path (difference : Difference oldFiles newFiles change) :
    (∃ file, oldFiles change.path file) ∨ ∃ file, newFiles change.path file := by
  cases difference with
  | added found => exact .inr ⟨_, found⟩
  | deleted found => exact .inl ⟨_, found⟩
  | modified before after => exact .inl ⟨_, before⟩

theorem difference_congr {oldFiles' newFiles' : Files}
    (old : ∀ file, oldFiles change.path file ↔ oldFiles' change.path file)
    (new : ∀ file, newFiles change.path file ↔ newFiles' change.path file) :
    Difference oldFiles newFiles change ↔
      Difference oldFiles' newFiles' change := by
  have one : ∀ {oldFiles newFiles oldFiles' newFiles' : Files} {change : Change},
      (∀ file, oldFiles change.path file ↔ oldFiles' change.path file) →
        (∀ file, newFiles change.path file ↔ newFiles' change.path file) →
          Difference oldFiles newFiles change →
            Difference oldFiles' newFiles' change := by
    intro oldFiles newFiles oldFiles' newFiles' change old new difference
    cases difference with
    | added found absent =>
      exact .added ((new _).mp found) fun other held =>
        absent other ((old other).mpr held)
    | deleted found absent =>
      exact .deleted ((old _).mp found) fun other held =>
        absent other ((new other).mpr held)
    | modified before after different =>
      exact .modified ((old _).mp before) ((new _).mp after) different
  exact ⟨one old new, one (fun file => (old file).symm) fun file => (new file).symm⟩

/-- Nothing is different where the files are the same and unique. -/
theorem not_difference_self {files : Files}
    (unique : ∀ path file other, files path file → files path other →
      file = other) : ¬ Difference files files change := by
  intro difference
  cases difference with
  | added found absent => exact absent _ found
  | deleted found absent => exact absent _ found
  | modified before after different => exact different (unique _ _ _ before after)

theorem difference_none_old (change : Change) :
    Difference (fun _ _ => False) newFiles change ↔
      OneSided .added newFiles change := by
  constructor
  · intro difference
    cases difference with
    | added found _ => exact .added found
    | deleted found _ => exact found.elim
    | modified before _ _ => exact before.elim
  · intro oneSided
    cases oneSided with
    | added found => exact .added found fun _ => id

theorem difference_none_new (change : Change) :
    Difference oldFiles (fun _ _ => False) change ↔
      OneSided .deleted oldFiles change := by
  constructor
  · intro difference
    cases difference with
    | added found _ => exact found.elim
    | deleted found _ => exact .deleted found
    | modified _ after _ => exact after.elim
  · intro oneSided
    cases oneSided with
    | deleted found => exact .deleted found fun _ => id

/-- Files at no path in common. -/
theorem difference_apart
    (apart : ∀ path file other, oldFiles path file → ¬ newFiles path other)
    (change : Change) :
    Difference oldFiles newFiles change ↔
      OneSided .deleted oldFiles change ∨ OneSided .added newFiles change := by
  constructor
  · intro difference
    cases difference with
    | added found _ => exact .inr (.added found)
    | deleted found _ => exact .inl (.deleted found)
    | modified before after _ => exact absurd after (apart _ _ _ before)
  · rintro (oneSided | oneSided)
    · cases oneSided with
      | deleted found => exact .deleted found (apart _ _ · found)
    · cases oneSided with
      | added found => exact .added found fun other held => apart _ _ _ held found

theorem under_or {changes changes' : Changes} (change : Change) :
    Under base (fun change => changes change ∨ changes' change) change ↔
      Under base changes change ∨ Under base changes' change := by
  constructor
  · rintro ⟨path, here, holds | holds⟩
    · exact .inl ⟨path, here, holds⟩
    · exact .inr ⟨path, here, holds⟩
  · rintro (⟨path, here, holds⟩ | ⟨path, here, holds⟩)
    · exact ⟨path, here, .inl holds⟩
    · exact ⟨path, here, .inr holds⟩

/-- Deletions and additions have different keys. -/
theorem oneSided_apart (files files' : Files) :
    Apart (Under base (OneSided .deleted files))
      (Under base (OneSided .added files')) := by
  rintro change change' ⟨path, _, holds⟩ ⟨path', _, holds'⟩ same
  have types : change.changeType = change'.changeType := congrArg Prod.snd same
  have deleted : change.changeType = .deleted := holds.changeType_eq
  have added : change'.changeType = .added := holds'.changeType_eq
  rw [deleted, added] at types
  cases types

/-! ## Entries of one name -/

/-- A file and a subtree of one name have no path in common. -/
theorem file_tree_apart {entry entry' : TreeEntry} (file : entry.mode ≠ "40000")
    (tree : entry'.mode = "40000") (same : entry.name = entry'.name)
    {path : List String} {found other : String × String}
    (below : FileBelow trees entry path found) :
    ¬ FileBelow trees entry' path other := by
  rcases (fileBelow_file file).mp below with ⟨rfl, _⟩
  rw [same]
  exact fun below' => (fileBelow_tree tree).mp below'

/-- What the walk of a pair of subtrees is to list. -/
def PairOutcome (trees : String → Option (List TreeEntry))
    (environment : DiffEnvironment) (depth : Nat)
    (pair : String → String → String → DiffStep) : Prop :=
  ∀ oldOid newOid base state, SoundTree trees depth oldOid →
    SoundTree trees depth newOid → DiffInvariant trees state →
      Outcome trees environment
        (Under base
          (Difference (fun path => FileAt trees path oldOid)
            fun path => FileAt trees path newOid)) state
        (pair oldOid newOid (pathText base) state)

/-- Two entries of one name. -/
theorem diffEntries_outcome (honest : Honest environment trees)
    {pair : String → String → String → DiffStep}
    (pairs : PairOutcome trees environment depth pair) {oldEntry newEntry : TreeEntry}
    (same : oldEntry.name = newEntry.name)
    (oldSound : SoundEntry trees depth oldEntry)
    (newSound : SoundEntry trees depth newEntry) (base : List String)
    (invariant : DiffInvariant trees state) :
    Outcome trees environment
      (Under base
        (Difference (FileBelow trees oldEntry) (FileBelow trees newEntry))) state
      (diffName environment depth pair (pathText base) (some oldEntry)
        (some newEntry) state) := by
  unfold diffName
  dsimp only
  rw [oldSound.isTreeMode, newSound.isTreeMode]
  by_cases oldTree : oldEntry.mode = "40000"
  · rw [decide_eq_true oldTree]
    by_cases newTree : newEntry.mode = "40000"
    · rw [decide_eq_true newTree]
      dsimp only
      rw [← pathText_concat]
      apply (pairs oldEntry.oid newEntry.oid (base ++ [newEntry.name]) state
        (oldSound.below oldTree) (newSound.below newTree) invariant).congr
      intro change
      rw [under_append]
      apply under_congr
      rintro ⟨type, full, old, new⟩
      constructor
      · rintro ⟨path, here, holds⟩
        dsimp only at here holds
        subst here
        cases holds with
        | added found absent =>
          apply Difference.added ((fileBelow_tree newTree).mpr found)
          intro other held
          apply absent other
          rw [← same] at held
          exact (fileBelow_tree oldTree).mp held
        | deleted found absent =>
          apply Difference.deleted
          · rw [← same]
            exact (fileBelow_tree oldTree).mpr found
          · intro other held
            exact absent other ((fileBelow_tree newTree).mp held)
        | modified before after different =>
          apply Difference.modified _ ((fileBelow_tree newTree).mpr after)
            different
          rw [← same]
          exact (fileBelow_tree oldTree).mpr before
      · intro holds
        have placed : ∃ rest, full = newEntry.name :: rest := by
          rcases holds.path with ⟨_, found⟩ | ⟨_, found⟩
          · rcases fileBelow_path found with ⟨rest, named⟩
            exact ⟨rest, same ▸ named⟩
          · exact fileBelow_path found
        rcases placed with ⟨rest, rfl⟩
        refine ⟨rest, rfl, ?_⟩
        have oldAt : ∀ file,
            FileBelow trees oldEntry (newEntry.name :: rest) file ↔
              FileAt trees rest oldEntry.oid file := by
          intro file
          rw [← same]
          exact fileBelow_tree oldTree
        dsimp only
        cases holds with
        | added found absent =>
          exact .added ((fileBelow_tree newTree).mp found) fun other held =>
            absent other ((oldAt other).mpr held)
        | deleted found absent =>
          exact .deleted ((oldAt _).mp found) fun other held =>
            absent other ((fileBelow_tree newTree).mpr held)
        | modified before after different =>
          exact .modified ((oldAt _).mp before)
            ((fileBelow_tree newTree).mp after) different
    · rw [decide_eq_false newTree]
      dsimp only
      have walked := @subtree_outcome trees environment state depth
        honest .deleted nofun oldEntry oldSound oldTree base invariant
      rw [same] at walked
      cases result : forEachTreeEntry environment
          (walkAddedOrDeletedSubtree environment .deleted depth
            (joinTreePath (pathText base) newEntry.name)) oldEntry.oid state with
      | error failure =>
        rw [result] at walked
        exact walked
      | ok last =>
        rw [result] at walked
        have walked : Emits trees
          (Under base (OneSided .deleted (FileBelow trees oldEntry))) state
            last := walked
        have added := @addEntry_oneSided trees environment .added nofun
          newEntry newTree base last
        apply (walked.trans added (oneSided_apart _ _)).congr
        intro change
        rw [← under_or]
        apply under_congr
        intro change
        apply (difference_apart _ change).symm
        intro path file other below below'
        exact file_tree_apart newTree oldTree same.symm below' below
  · rw [decide_eq_false oldTree]
    by_cases newTree : newEntry.mode = "40000"
    · rw [decide_eq_true newTree]
      dsimp only
      have deleted := @addEntry_oneSided trees environment .deleted nofun
        oldEntry oldTree base state
      rw [same] at deleted
      have walked := @subtree_outcome trees environment _ depth
        honest .added nofun newEntry newSound newTree base
        (deleted.invariant invariant)
      generalize removed : addOneSided environment .deleted
        (joinTreePath (pathText base) newEntry.name) oldEntry state = last
        at deleted walked
      have removed : addEntry environment .deleted
        (joinTreePath (pathText base) newEntry.name) (some oldEntry) none
          state = last := removed
      rw [removed]
      have both : ∀ change,
          (Under base (OneSided .deleted (FileBelow trees oldEntry)) change ∨
            Under base (OneSided .added (FileBelow trees newEntry)) change) ↔
              Under base (Difference (FileBelow trees oldEntry)
                (FileBelow trees newEntry)) change := by
        intro change
        rw [← under_or]
        apply under_congr
        intro change
        apply (difference_apart _ change).symm
        intro path file other below
        exact file_tree_apart oldTree newTree same below
      generalize forEachTreeEntry environment
        (walkAddedOrDeletedSubtree environment .added depth
          (joinTreePath (pathText base) newEntry.name)) newEntry.oid last =
            result at walked ⊢
      cases result with
      | error failure => exact walked
      | ok walkedState =>
        exact (deleted.trans walked (oneSided_apart _ _)).congr both
    · rw [decide_eq_false newTree]
      dsimp only
      have differs : ∀ change,
          Difference (FileBelow trees oldEntry) (FileBelow trees newEntry)
              change ↔
            (oldEntry.oid ≠ newEntry.oid ∨ oldEntry.mode ≠ newEntry.mode) ∧
              change = ⟨.modified, [newEntry.name],
                some (oldEntry.mode, oldEntry.oid),
                some (newEntry.mode, newEntry.oid)⟩ := by
        intro change
        constructor
        · intro holds
          cases holds with
          | added found absent =>
            rcases (fileBelow_file newTree).mp found with ⟨rfl, _⟩
            exact absurd ((fileBelow_file oldTree).mpr ⟨by rw [same], rfl⟩)
              (absent _)
          | deleted found absent =>
            rcases (fileBelow_file oldTree).mp found with ⟨rfl, _⟩
            exact absurd ((fileBelow_file newTree).mpr ⟨by rw [same], rfl⟩)
              (absent _)
          | modified before after different =>
            rcases (fileBelow_file oldTree).mp before with ⟨_, rfl⟩
            rcases (fileBelow_file newTree).mp after with ⟨rfl, rfl⟩
            refine ⟨?_, rfl⟩
            by_contra equal
            rw [not_or, not_not, not_not] at equal
            apply different
            rw [equal.1, equal.2]
        · rintro ⟨different, rfl⟩
          apply Difference.modified
          · exact (fileBelow_file oldTree).mpr ⟨by rw [same], rfl⟩
          · exact (fileBelow_file newTree).mpr ⟨rfl, rfl⟩
          · intro equal
            rcases different with other | other
            · exact other (congrArg Prod.snd equal)
            · exact other (congrArg Prod.fst equal)
      split
      · next different =>
          rw [← pathText_concat]
          apply (addEntry_emits state rfl).congr
          rintro ⟨type, full, old, new⟩
          constructor
          · intro equal
            cases equal
            exact ⟨[newEntry.name], rfl, (differs _).mpr ⟨different, rfl⟩⟩
          · rintro ⟨path, here, holds⟩
            dsimp only at here
            have equal := ((differs _).mp holds).2
            cases equal
            rw [here]
            rfl
      · next equal =>
          apply (Quiet.refl state).emits_none
          rintro change ⟨path, _, holds⟩
          exact equal ((differs _).mp holds).1

end GitOnCloudflare.Read
