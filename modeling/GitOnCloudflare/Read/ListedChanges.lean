import GitOnCloudflare.Read.TreeFiles

/-!
# What a step of a diff lists

A step lists changes that it is expected to list, each once, and all of them
unless the diff is truncated.  Steps one after the other list what each of
them does.
-/

namespace GitOnCloudflare.Read

/-! ## Changes -/

structure Change where
  changeType : ChangeType
  path : List String
  old : Option (String × String)
  new : Option (String × String)

abbrev Changes := Change → Prop

def Change.key (change : Change) : List String × ChangeType :=
  (change.path, change.changeType)

def Change.entry (change : Change) : CommitDiffEntry where
  path := pathText change.path
  changeType := change.changeType
  oldOid := change.old.map Prod.snd
  newOid := change.new.map Prod.snd
  oldMode := change.old.map Prod.fst
  newMode := change.new.map Prod.fst

/-- The difference of two sets of files. -/
inductive Difference (oldFiles newFiles : Files) : Changes where
  | added {path : List String} {file : String × String}
      (found : newFiles path file) (absent : ∀ other, ¬ oldFiles path other) :
      Difference oldFiles newFiles ⟨.added, path, none, some file⟩
  | deleted {path : List String} {file : String × String}
      (found : oldFiles path file) (absent : ∀ other, ¬ newFiles path other) :
      Difference oldFiles newFiles ⟨.deleted, path, some file, none⟩
  | modified {path : List String} {oldFile newFile : String × String}
      (before : oldFiles path oldFile) (after : newFiles path newFile)
      (different : oldFile ≠ newFile) :
      Difference oldFiles newFiles
        ⟨.modified, path, some oldFile, some newFile⟩

/-- Changes with the names of a directory in front of their paths. -/
def Under (base : List String) (changes : Changes) : Changes := fun change =>
  ∃ path, change.path = base ++ path ∧ changes { change with path := path }

/-- No change of the one has the key of a change of the other. -/
def Apart (changes changes' : Changes) : Prop :=
  ∀ change change', changes change → changes' change' →
    change.key ≠ change'.key

/-! ## What a step keeps -/

section Steps

variable (trees : String → Option (List TreeEntry))

/-- The memo holds trees as they are, and the numbers are those of the
entries. -/
structure DiffInvariant (state : DiffState) : Prop where
  memo : ∀ oid treeEntries, state.treeMemo oid = some treeEntries →
    trees oid = some treeEntries
  added : state.added =
    state.entries.countP fun entry => entry.changeType = .added
  modified : state.modified =
    state.entries.countP fun entry => entry.changeType = .modified
  deleted : state.deleted =
    state.entries.countP fun entry => entry.changeType = .deleted

/-- A step that lists nothing. -/
structure Quiet (before after : DiffState) : Prop where
  entries : after.entries = before.entries
  stays : before.truncated = true → after.truncated = true
  invariant : DiffInvariant trees before → DiffInvariant trees after

/-- A step that lists expected changes. -/
structure Emits (expected : Changes) (before after : DiffState) : Prop where
  listed : ∃ changes : List Change,
    after.entries = before.entries ++ changes.map Change.entry ∧
      (changes.map Change.key).Nodup ∧ (∀ change ∈ changes, expected change) ∧
      (after.truncated = false → ∀ change, expected change → change ∈ changes)
  stays : before.truncated = true → after.truncated = true
  invariant : DiffInvariant trees before → DiffInvariant trees after

/-- The failure is that of a tree's read. -/
def Thrown (environment : DiffEnvironment) (failure : DiffFailure) : Prop :=
  ∃ attempt treeOid message,
    environment.readTree attempt treeOid = .error message ∧
      failure = .thrown message

/-- A step that does not fail with a read lists expected changes. -/
def Outcome (environment : DiffEnvironment) (expected : Changes)
    (before : DiffState) : Except DiffFailure DiffState → Prop
  | .error failure => Thrown environment failure
  | .ok after => Emits trees expected before after

end Steps

variable {trees : String → Option (List TreeEntry)}
  {before middle after : DiffState} {expected expected' : Changes}

theorem Quiet.refl (state : DiffState) : Quiet trees state state :=
  ⟨rfl, id, id⟩

theorem Quiet.trans (first : Quiet trees before middle)
    (second : Quiet trees middle after) : Quiet trees before after where
  entries := second.entries.trans first.entries
  stays := second.stays ∘ first.stays
  invariant := second.invariant ∘ first.invariant

/-- A truncated diff need not list anything more. -/
theorem Quiet.emits_truncated (quiet : Quiet trees before after)
    (truncated : after.truncated = true) (expected : Changes) :
    Emits trees expected before after where
  listed := by
    refine ⟨[], ?_, List.nodup_nil, nofun, ?_⟩
    · rw [quiet.entries]
      exact (List.append_nil _).symm
    · intro whole
      cases truncated.symm.trans whole
  stays := quiet.stays
  invariant := quiet.invariant

theorem Quiet.emits_none (quiet : Quiet trees before after)
    (none_ : ∀ change, ¬ expected change) :
    Emits trees expected before after where
  listed := by
    refine ⟨[], ?_, List.nodup_nil, nofun, ?_⟩
    · rw [quiet.entries]
      exact (List.append_nil _).symm
    · exact fun _ change holds => absurd holds (none_ change)
  stays := quiet.stays
  invariant := quiet.invariant

theorem Emits.congr (emits : Emits trees expected before after)
    (same : ∀ change, expected change ↔ expected' change) :
    Emits trees expected' before after := by
  have equal : expected = expected' := funext fun change => propext (same change)
  rwa [← equal]

theorem Emits.trans (first : Emits trees expected before middle)
    (second : Emits trees expected' middle after)
    (apart : Apart expected expected') :
    Emits trees (fun change => expected change ∨ expected' change) before
      after where
  listed := by
    rcases first.listed with ⟨changes, entries, distinct, sound, complete⟩
    rcases second.listed with ⟨changes', entries', distinct', sound', complete'⟩
    refine ⟨changes ++ changes', ?_, ?_, ?_, ?_⟩
    · rw [entries', entries, List.map_append, List.append_assoc]
    · rw [List.map_append]
      apply List.nodup_append.mpr
      refine ⟨distinct, distinct', ?_⟩
      intro key member key' member'
      rcases List.mem_map.mp member with ⟨change, listed, rfl⟩
      rcases List.mem_map.mp member' with ⟨change', listed', rfl⟩
      exact apart change change' (sound change listed) (sound' change' listed')
    · intro change member
      rcases List.mem_append.mp member with early | late
      · exact .inl (sound change early)
      · exact .inr (sound' change late)
    · intro whole change holds
      rcases holds with early | late
      · apply List.mem_append_left
        apply complete _ change early
        by_contra truncated
        rw [second.stays (Bool.not_eq_false _ ▸ truncated)] at whole
        cases whole
      · exact List.mem_append_right _ (complete' whole change late)
  stays := second.stays ∘ first.stays
  invariant := second.invariant ∘ first.invariant

theorem Quiet.emits (quiet : Quiet trees before middle)
    (emits : Emits trees expected middle after) :
    Emits trees expected before after := by
  have none_ : Emits trees (fun _ => False) before middle :=
    quiet.emits_none fun _ => id
  apply (none_.trans emits fun _ _ => False.elim).congr
  exact fun change => or_iff_right id

theorem Emits.quiet (emits : Emits trees expected before middle)
    (quiet : Quiet trees middle after) : Emits trees expected before after := by
  have none_ : Emits trees (fun _ => False) middle after :=
    quiet.emits_none fun _ => id
  apply (emits.trans none_ fun _ _ _ => False.elim).congr
  exact fun change => or_iff_left id

variable {environment : DiffEnvironment} {result : Except DiffFailure DiffState}

theorem Quiet.outcome (quiet : Quiet trees before middle)
    (outcome : Outcome trees environment expected middle result) :
    Outcome trees environment expected before result := by
  cases result with
  | error failure => exact outcome
  | ok last => exact quiet.emits outcome

theorem Outcome.congr
    (outcome : Outcome trees environment expected before result)
    (same : ∀ change, expected change ↔ expected' change) :
    Outcome trees environment expected' before result := by
  cases result with
  | error failure => exact outcome
  | ok last => exact Emits.congr outcome same

/-! ## Looking and reading -/

section Reading

variable {environment : DiffEnvironment}

/-- Every read that succeeds gives the tree. -/
def Honest (environment : DiffEnvironment)
    (trees : String → Option (List TreeEntry)) : Prop :=
  ∀ attempt oid treeEntries,
    environment.readTree attempt oid = .ok treeEntries →
      trees oid = some treeEntries

theorem setTruncated_quiet (reason : TruncateReason) (state : DiffState) :
    Quiet trees state (setTruncated reason state) ∧
      (setTruncated reason state).truncated = true := by
  unfold setTruncated
  split
  · next truncated => exact ⟨.refl state, truncated⟩
  · refine ⟨⟨rfl, fun _ => rfl, ?_⟩, rfl⟩
    exact fun invariant =>
      ⟨invariant.memo, invariant.added, invariant.modified, invariant.deleted⟩

theorem lookAtBudgets_quiet (state : DiffState) :
    Quiet trees state (lookAtBudgets environment state).2 ∧
      ((lookAtBudgets environment state).1 = true →
        (lookAtBudgets environment state).2.truncated = true) := by
  have looked : Quiet trees state { state with looks := state.looks + 1 } :=
    ⟨rfl, id, fun invariant =>
      ⟨invariant.memo, invariant.added, invariant.modified,
        invariant.deleted⟩⟩
  unfold lookAtBudgets
  dsimp only
  split
  · rcases @setTruncated_quiet trees .timeBudget
      { state with looks := state.looks + 1 } with ⟨quiet, truncated⟩
    exact ⟨looked.trans quiet, fun _ => truncated⟩
  split
  · rcases @setTruncated_quiet trees .softBudget
      { state with looks := state.looks + 1 } with ⟨quiet, truncated⟩
    exact ⟨looked.trans quiet, fun _ => truncated⟩
  · exact ⟨looked, nofun⟩

theorem shouldStop_quiet (state : DiffState) :
    ∃ stopped looked, shouldStop environment state = (stopped, looked) ∧
      Quiet trees state looked ∧
      (stopped = true → looked.truncated = true) := by
  unfold shouldStop
  split
  · next truncated =>
      exact ⟨_, _, rfl, .refl state, fun _ => truncated⟩
  · exact ⟨_, _, rfl, lookAtBudgets_quiet state⟩

/-- What a read has to give: the tree, or the diff is truncated. -/
def Answers (trees : String → Option (List TreeEntry)) (treeOid : String)
    (state : DiffState) : Option (List TreeEntry) → Prop
  | some treeEntries => treeAt trees treeOid = some treeEntries
  | none => state.truncated = true

def ReadAnswers (trees : String → Option (List TreeEntry)) (treeOid : String)
    (state : DiffState) : TreeRead → Prop
  | .answered treeEntries => Answers trees treeOid state treeEntries
  | .reading _ => treeOid ≠ ""

variable {treeOid : String} {state : DiffState}

theorem Answers.quiet {treeEntries : Option (List TreeEntry)}
    (answers : Answers trees treeOid before treeEntries)
    (quiet : Quiet trees before after) :
    Answers trees treeOid after treeEntries := by
  cases treeEntries with
  | none => exact quiet.stays answers
  | some treeEntries => exact answers

variable {read : TreeRead}

theorem ReadAnswers.quiet (answers : ReadAnswers trees treeOid before read)
    (quiet : Quiet trees before after) :
    ReadAnswers trees treeOid after read := by
  cases read with
  | answered treeEntries => exact Answers.quiet answers quiet
  | reading attempt => exact answers

theorem beginTreeRead_spec (treeOid : String) {state : DiffState}
    (invariant : DiffInvariant trees state) :
    Quiet trees state (beginTreeRead environment treeOid state).2 ∧
      ReadAnswers trees treeOid (beginTreeRead environment treeOid state).2
        (beginTreeRead environment treeOid state).1 := by
  unfold beginTreeRead
  split
  · next absent => exact ⟨.refl state, if_pos absent⟩
  next present =>
    cases found : state.treeMemo treeOid with
    | some cached =>
      exact ⟨.refl state, (if_neg present).trans (invariant.memo _ _ found)⟩
    | none =>
      dsimp only
      rcases @shouldStop_quiet trees environment state with
        ⟨stopped, looked, look, quiet, stops⟩
      rw [look]
      dsimp only
      split
      · next stopped => exact ⟨quiet, stops stopped⟩
      split
      · rcases @setTruncated_quiet trees .maxTreeReads looked with
          ⟨quiet', truncated⟩
        exact ⟨quiet.trans quiet', truncated⟩
      · refine ⟨quiet.trans ⟨rfl, id, ?_⟩, present⟩
        exact fun invariant =>
          ⟨invariant.memo, invariant.added, invariant.modified,
            invariant.deleted⟩

theorem finishTreeRead_spec (honest : Honest environment trees)
    (answers : ReadAnswers trees treeOid state read) :
    match finishTreeRead environment treeOid read state with
    | .error failure => Thrown environment failure
    | .ok (treeEntries, ended) =>
      Quiet trees state ended ∧ Answers trees treeOid ended treeEntries := by
  unfold finishTreeRead
  cases read with
  | answered treeEntries => exact ⟨.refl state, answers⟩
  | reading attempt =>
    dsimp only
    cases found : environment.readTree attempt treeOid with
    | ok treeEntries =>
      have stored := honest attempt treeOid treeEntries found
      refine ⟨⟨rfl, id, ?_⟩, (if_neg answers).trans stored⟩
      intro invariant
      refine ⟨?_, invariant.added, invariant.modified, invariant.deleted⟩
      intro oid held memo
      by_cases same : oid = treeOid
      · subst same
        have memo : Function.update state.treeMemo oid (some treeEntries)
          oid = some held := memo
        rw [Function.update_self] at memo
        cases memo
        exact stored
      · have memo : Function.update state.treeMemo treeOid
          (some treeEntries) oid = some held := memo
        rw [Function.update_of_ne same] at memo
        exact invariant.memo oid held memo
    | error message =>
      dsimp only
      rcases @lookAtBudgets_quiet trees environment state with
        ⟨quiet, stops⟩
      generalize lookAtBudgets environment state = looked at quiet stops ⊢
      rcases looked with ⟨stopped, looked⟩
      dsimp only at quiet stops ⊢
      cases stopped with
      | true => exact ⟨quiet, stops rfl⟩
      | false => exact ⟨attempt, treeOid, message, found, rfl⟩

theorem readTreeEntriesMemoized_spec (honest : Honest environment trees)
    (treeOid : String) (invariant : DiffInvariant trees state) :
    match readTreeEntriesMemoized environment treeOid state with
    | .error failure => Thrown environment failure
    | .ok (treeEntries, ended) =>
      Quiet trees state ended ∧ Answers trees treeOid ended treeEntries := by
  unfold readTreeEntriesMemoized
  rcases @beginTreeRead_spec trees environment treeOid state invariant with
    ⟨quiet, answers⟩
  generalize beginTreeRead environment treeOid state = begun at quiet answers ⊢
  rcases begun with ⟨read, begun⟩
  dsimp only at quiet answers ⊢
  have finished := finishTreeRead_spec honest answers
  generalize finishTreeRead environment treeOid read begun = result
    at finished ⊢
  rcases result with failure | ⟨treeEntries, ended⟩
  · exact finished
  · exact ⟨quiet.trans finished.1, finished.2⟩

theorem readBothTrees_spec (honest : Honest environment trees)
    (oldTreeOid newTreeOid : String) (invariant : DiffInvariant trees state) :
    match readBothTrees environment oldTreeOid newTreeOid state with
    | .error failure => Thrown environment failure
    | .ok ((oldEntries, newEntries), ended) =>
      Quiet trees state ended ∧ Answers trees oldTreeOid ended oldEntries ∧
        Answers trees newTreeOid ended newEntries := by
  unfold readBothTrees
  rcases @beginTreeRead_spec trees environment oldTreeOid state invariant with
    ⟨oldQuiet, oldAnswers⟩
  generalize beginTreeRead environment oldTreeOid state = oldBegun
    at oldQuiet oldAnswers ⊢
  rcases oldBegun with ⟨oldRead, oldBegun⟩
  dsimp only at oldQuiet oldAnswers ⊢
  rcases @beginTreeRead_spec trees environment newTreeOid oldBegun
    (oldQuiet.invariant invariant) with ⟨newQuiet, newAnswers⟩
  generalize beginTreeRead environment newTreeOid oldBegun = begun
    at newQuiet newAnswers ⊢
  rcases begun with ⟨newRead, begun⟩
  dsimp only at newQuiet newAnswers ⊢
  have oldAnswers := oldAnswers.quiet newQuiet
  have quiet := oldQuiet.trans newQuiet
  by_cases ends : environment.newFirst begun.treePairs = true
  · rw [if_pos ends]
    have first := finishTreeRead_spec honest newAnswers
    generalize finishTreeRead environment newTreeOid newRead begun = result
      at first ⊢
    rcases result with failure | ⟨newEntries, ended⟩
    · exact first
    · have second := finishTreeRead_spec honest (oldAnswers.quiet first.1)
      dsimp only
      generalize finishTreeRead environment oldTreeOid oldRead ended = result
        at second ⊢
      rcases result with failure | ⟨oldEntries, read⟩
      · exact second
      · exact ⟨(quiet.trans first.1).trans second.1, second.2,
          first.2.quiet second.1⟩
  · rw [if_neg ends]
    have first := finishTreeRead_spec honest oldAnswers
    generalize finishTreeRead environment oldTreeOid oldRead begun = result
      at first ⊢
    rcases result with failure | ⟨oldEntries, ended⟩
    · exact first
    · have second := finishTreeRead_spec honest (newAnswers.quiet first.1)
      dsimp only
      generalize finishTreeRead environment newTreeOid newRead ended = result
        at second ⊢
      rcases result with failure | ⟨newEntries, read⟩
      · exact second
      · exact ⟨(quiet.trans first.1).trans second.1, first.2.quiet second.1,
          second.2⟩

/-! ## One entry -/

theorem addEntry_emits {changeType : ChangeType} {path : List String}
    {oldEntry newEntry : Option TreeEntry} {text : String} (state : DiffState)
    (named : text = pathText path) :
    Emits trees
      (· = ⟨changeType, path,
        oldEntry.map fun entry => (entry.mode, entry.oid),
        newEntry.map fun entry => (entry.mode, entry.oid)⟩) state
      (addEntry environment changeType text oldEntry newEntry state) := by
  unfold addEntry
  rcases @shouldStop_quiet trees environment state with
    ⟨stopped, looked, look, quiet, stops⟩
  rw [look]
  dsimp only
  split
  · next stopped => exact quiet.emits_truncated (stops stopped) _
  split
  · rcases @setTruncated_quiet trees .maxFiles looked with ⟨quiet', truncated⟩
    exact (quiet.trans quiet').emits_truncated truncated _
  · apply quiet.emits
    subst named
    constructor
    · refine ⟨[⟨changeType, path,
        oldEntry.map fun entry => (entry.mode, entry.oid),
        newEntry.map fun entry => (entry.mode, entry.oid)⟩], ?_, ?_, ?_, ?_⟩
      · cases changeType <;> cases oldEntry <;> cases newEntry <;> rfl
      · exact List.nodup_singleton _
      · intro change member
        exact List.mem_singleton.mp member
      · rintro _ change rfl
        exact List.mem_singleton_self _
    · cases changeType <;> exact id
    · intro invariant
      have added := invariant.added
      have modified := invariant.modified
      have deleted := invariant.deleted
      cases changeType
      all_goals
        constructor
        · exact invariant.memo
        all_goals
          dsimp only [countChange]
          rw [List.countP_append, List.countP_singleton]
          simp [added, modified, deleted]

end Reading

end GitOnCloudflare.Read
