import GitOnCloudflare.Read.UnifiedPatch

/-!
# The changed files of a commit

Two trees are walked side by side, subtrees that are in one of them alone, and
the walks stop wherever a budget runs out.  The state is what the walks share.
-/

namespace GitOnCloudflare.Read

/-! ## Trees -/

structure TreeEntry where
  mode : String
  name : String
  oid : String

def isTreeMode (mode : String) : Bool :=
  "40000".toList.isPrefixOf mode.toList

def joinTreePath (basePath name : String) : String :=
  if basePath = "" then name else basePath ++ "/" ++ name

/-! ## The state of a diff -/

inductive TruncateReason where
  | timeBudget
  | softBudget
  | maxTreeReads
  | maxTreePairs
  | maxFiles
deriving DecidableEq

structure CommitDiffEntry where
  path : String
  changeType : ChangeType
  oldOid : Option String
  newOid : Option String
  oldMode : Option String
  newMode : Option String

structure DiffState where
  entries : List CommitDiffEntry := []
  added : Nat := 0
  modified : Nat := 0
  deleted : Nat := 0
  treePairs : Nat := 0
  treeReads : Nat := 0
  truncated : Bool := false
  truncateReason : Option TruncateReason := none
  treeMemo : String → Option (List TreeEntry) := fun _ => none
  looks : Nat := 0

/-- What a look at the clock and at the subrequests that are left shows. -/
structure BudgetLook where
  timeOver : Bool
  softOver : Bool

structure CommitInfo where
  tree : String
  parents : List String

/-- The limits, what every look shows, what every read gives, the order of the
runtime's collation, and which of two reads ends first. -/
structure DiffEnvironment where
  maxFiles : Nat
  maxTreePairs : Nat
  maxTreeReads : Nat
  look : Nat → BudgetLook
  readTree : Nat → String → Except String (List TreeEntry)
  readCommitInfo : String → Except String CommitInfo
  localeLe : String → String → Bool
  newFirst : Nat → Bool

inductive DiffFailure where
  | thrown (message : String)
  | tooDeep
deriving DecidableEq

abbrev DiffStep := DiffState → Except DiffFailure DiffState

variable (environment : DiffEnvironment)

def setTruncated (reason : TruncateReason) (state : DiffState) : DiffState :=
  if state.truncated then
    state
  else
    { state with truncated := true, truncateReason := some reason }

/-- One look at the budgets. -/
def lookAtBudgets (state : DiffState) : Bool × DiffState :=
  let shown := environment.look state.looks
  let looked := { state with looks := state.looks + 1 }
  if shown.timeOver then
    (true, setTruncated .timeBudget looked)
  else if shown.softOver then
    (true, setTruncated .softBudget looked)
  else
    (false, looked)

def shouldStop (state : DiffState) : Bool × DiffState :=
  if state.truncated then (true, state) else lookAtBudgets environment state

/-- A read that is answered from the memo or not begun, or one under way. -/
inductive TreeRead where
  | answered (treeEntries : Option (List TreeEntry))
  | reading (attempt : Nat)

/-- An absent tree is the one without an id. -/
def beginTreeRead (treeOid : String) (state : DiffState) :
    TreeRead × DiffState :=
  if treeOid = "" then
    (.answered (some []), state)
  else
    match state.treeMemo treeOid with
    | some cached => (.answered (some cached), state)
    | none =>
      let (stopped, looked) := shouldStop environment state
      if stopped then
        (.answered none, looked)
      else if environment.maxTreeReads ≤ looked.treeReads then
        (.answered none, setTruncated .maxTreeReads looked)
      else
        (.reading looked.treeReads,
          { looked with treeReads := looked.treeReads + 1 })

def finishTreeRead (treeOid : String) (read : TreeRead) (state : DiffState) :
    Except DiffFailure (Option (List TreeEntry) × DiffState) :=
  match read with
  | .answered treeEntries => .ok (treeEntries, state)
  | .reading attempt =>
    match environment.readTree attempt treeOid with
    | .ok treeEntries =>
      .ok (some treeEntries,
        { state with
          treeMemo :=
            Function.update state.treeMemo treeOid (some treeEntries) })
    | .error message =>
      let (stopped, looked) := lookAtBudgets environment state
      if stopped then .ok (none, looked) else .error (.thrown message)

def readTreeEntriesMemoized (treeOid : String) (state : DiffState) :
    Except DiffFailure (Option (List TreeEntry) × DiffState) :=
  let (read, begun) := beginTreeRead environment treeOid state
  finishTreeRead environment treeOid read begun

/-- Both reads are under way before either of them ends. -/
def readBothTrees (oldTreeOid newTreeOid : String) (state : DiffState) :
    Except DiffFailure
      ((Option (List TreeEntry) × Option (List TreeEntry)) × DiffState) :=
  let (oldRead, oldBegun) := beginTreeRead environment oldTreeOid state
  let (newRead, begun) := beginTreeRead environment newTreeOid oldBegun
  if environment.newFirst begun.treePairs then
    match finishTreeRead environment newTreeOid newRead begun with
    | .error failure => .error failure
    | .ok (newEntries, ended) =>
      match finishTreeRead environment oldTreeOid oldRead ended with
      | .error failure => .error failure
      | .ok (oldEntries, read) => .ok ((oldEntries, newEntries), read)
  else
    match finishTreeRead environment oldTreeOid oldRead begun with
    | .error failure => .error failure
    | .ok (oldEntries, ended) =>
      match finishTreeRead environment newTreeOid newRead ended with
      | .error failure => .error failure
      | .ok (newEntries, read) => .ok ((oldEntries, newEntries), read)

def countChange (changeType : ChangeType) (state : DiffState) : DiffState :=
  match changeType with
  | .added => { state with added := state.added + 1 }
  | .modified => { state with modified := state.modified + 1 }
  | .deleted => { state with deleted := state.deleted + 1 }

def addEntry (changeType : ChangeType) (path : String)
    (oldEntry newEntry : Option TreeEntry) (state : DiffState) : DiffState :=
  let (stopped, looked) := shouldStop environment state
  if stopped then
    looked
  else if environment.maxFiles ≤ looked.entries.length then
    setTruncated .maxFiles looked
  else
    countChange changeType
      { looked with
        entries := looked.entries ++
          [⟨path, changeType, oldEntry.map TreeEntry.oid,
            newEntry.map TreeEntry.oid, oldEntry.map TreeEntry.mode,
            newEntry.map TreeEntry.mode⟩] }

/-- By name, and by id where names are the same. -/
def sortEntries (entries : List TreeEntry) : List TreeEntry :=
  entries.insertionSort fun left right =>
    if left.name = right.name then environment.localeLe left.oid right.oid
    else environment.localeLe left.name right.name

/-! ## The walks -/

/-- Take a step for every item, unless the walk is to stop behind one. -/
def forEachUntilStopped {Item : Type} (step : Item → DiffStep) :
    List Item → DiffStep
  | [], state => .ok state
  | item :: items, state =>
    match step item state with
    | .error failure => .error failure
    | .ok stepped =>
      let (stopped, looked) := shouldStop environment stepped
      if stopped then .ok looked
      else forEachUntilStopped step items looked

/-- Read a tree and take a step for each of its entries in order. -/
def forEachTreeEntry (step : TreeEntry → DiffStep) (treeOid : String) :
    DiffStep := fun state =>
  match readTreeEntriesMemoized environment treeOid state with
  | .error failure => .error failure
  | .ok (none, read) => .ok read
  | .ok (some treeEntries, read) =>
    let (stopped, looked) := shouldStop environment read
    if stopped then .ok looked
    else forEachUntilStopped environment step
      (sortEntries environment treeEntries) looked

/-- The entry of a change on the side it has one. -/
def addOneSided (changeType : ChangeType) (path : String) (entry : TreeEntry)
    (state : DiffState) : DiffState :=
  addEntry environment changeType path
    (if changeType = .deleted then some entry else none)
    (if changeType = .added then some entry else none) state

def walkAddedOrDeletedSubtree (changeType : ChangeType) :
    Nat → String → TreeEntry → DiffStep
  | 0, _, _, _ => .error .tooDeep
  | depth + 1, basePath, entry, state =>
    let (stopped, looked) := shouldStop environment state
    if stopped then
      .ok looked
    else
      let path := joinTreePath basePath entry.name
      if isTreeMode entry.mode = false then
        .ok (addOneSided environment changeType path entry looked)
      else
        forEachTreeEntry environment
          (walkAddedOrDeletedSubtree changeType depth path) entry.oid looked

/-- The last entry of a name, as in a map that was filled in order. -/
def entryByName (treeEntries : List TreeEntry) (name : String) :
    Option TreeEntry :=
  treeEntries.reverse.find? fun entry => entry.name = name

/-- Every name once, where it is first. -/
def sortedNames (oldEntries newEntries : List TreeEntry) : List String :=
  List.insertionSort (environment.localeLe · ·)
    ((oldEntries ++ newEntries).map TreeEntry.name).reverse.dedup.reverse

/-- One entry that is in both trees, or in one of them. -/
def diffName (depth : Nat) (pair : String → String → String → DiffStep)
    (basePath : String) (oldEntry newEntry : Option TreeEntry) : DiffStep :=
  fun state =>
    match oldEntry, newEntry with
    | none, none => .ok state
    | none, some newEntry =>
      walkAddedOrDeletedSubtree environment .added (depth + 1) basePath
        newEntry state
    | some oldEntry, none =>
      walkAddedOrDeletedSubtree environment .deleted (depth + 1) basePath
        oldEntry state
    | some oldEntry, some newEntry =>
      let path := joinTreePath basePath newEntry.name
      match isTreeMode oldEntry.mode, isTreeMode newEntry.mode with
      | true, true => pair oldEntry.oid newEntry.oid path state
      | false, false =>
        if oldEntry.oid ≠ newEntry.oid ∨ oldEntry.mode ≠ newEntry.mode then
          .ok (addEntry environment .modified path (some oldEntry)
            (some newEntry) state)
        else
          .ok state
      | false, true =>
        forEachTreeEntry environment
          (walkAddedOrDeletedSubtree environment .added depth path)
          newEntry.oid (addEntry environment .deleted path (some oldEntry)
            none state)
      | true, false =>
        match forEachTreeEntry environment
            (walkAddedOrDeletedSubtree environment .deleted depth path)
            oldEntry.oid state with
        | .error failure => .error failure
        | .ok walked =>
          .ok (addEntry environment .added path none (some newEntry)
            walked)

/-- Take a step for every name, unless the walk is to stop before one. -/
def diffNames (step : String → DiffStep) : List String → DiffStep
  | [], state => .ok state
  | name :: names, state =>
    let (stopped, looked) := shouldStop environment state
    if stopped then
      .ok looked
    else
      match step name looked with
      | .error failure => .error failure
      | .ok stepped => diffNames step names stepped

def diffTreePair : Nat → String → String → String → DiffStep
  | 0, _, _, _, _ => .error .tooDeep
  | depth + 1, oldTreeOid, newTreeOid, basePath, state =>
    let (stopped, looked) := shouldStop environment state
    if stopped then
      .ok looked
    else if oldTreeOid = newTreeOid then
      .ok looked
    else if oldTreeOid = "" then
      forEachTreeEntry environment
        (walkAddedOrDeletedSubtree environment .added (depth + 1) basePath)
        newTreeOid looked
    else if newTreeOid = "" then
      forEachTreeEntry environment
        (walkAddedOrDeletedSubtree environment .deleted (depth + 1) basePath)
        oldTreeOid looked
    else if environment.maxTreePairs ≤ looked.treePairs then
      .ok (setTruncated .maxTreePairs looked)
    else
      match readBothTrees environment oldTreeOid newTreeOid
          { looked with treePairs := looked.treePairs + 1 } with
      | .error failure => .error failure
      | .ok ((some oldEntries, some newEntries), read) =>
        let (stopped, looked) := shouldStop environment read
        if stopped then
          .ok looked
        else
          diffNames environment
            (fun name =>
              diffName environment depth (diffTreePair depth) basePath
                (entryByName oldEntries name) (entryByName newEntries name))
            (sortedNames environment oldEntries newEntries) looked
      | .ok (_, read) => .ok read

/-! ## The result -/

structure CommitDiffResult where
  baseCommitOid : Option String
  entries : List CommitDiffEntry
  added : Nat
  modified : Nat
  deleted : Nat
  total : Nat
  truncated : Bool
  truncateReason : Option TruncateReason

def ChangeType.text : ChangeType → String
  | .added => "A"
  | .modified => "M"
  | .deleted => "D"

def sortDiffEntries (entries : List CommitDiffEntry) : List CommitDiffEntry :=
  entries.insertionSort fun left right =>
    if left.path = right.path then
      environment.localeLe left.changeType.text right.changeType.text
    else
      environment.localeLe left.path right.path

def DiffState.result (state : DiffState) (baseCommitOid : Option String) :
    CommitDiffResult where
  baseCommitOid := baseCommitOid
  entries := state.entries
  added := state.added
  modified := state.modified
  deleted := state.deleted
  total := state.entries.length
  truncated := state.truncated
  truncateReason := state.truncateReason

/-- The tree of a commit that may be absent. -/
def baseTree (baseCommitOid : Option String) : Except DiffFailure String :=
  match baseCommitOid with
  | none => .ok ""
  | some baseCommitOid =>
    match environment.readCommitInfo baseCommitOid with
    | .error message => .error (.thrown message)
    | .ok baseCommit => .ok baseCommit.tree

def listCommitChangedFiles (depth : Nat) (oid : String) :
    Except DiffFailure CommitDiffResult :=
  let (stopped, begun) := shouldStop environment {}
  if stopped then
    .ok (begun.result none)
  else
    match environment.readCommitInfo oid with
    | .error message => .error (.thrown message)
    | .ok commit =>
      let baseCommitOid := commit.parents.head?
      let (stopped, looked) := shouldStop environment begun
      if stopped then
        .ok (looked.result baseCommitOid)
      else
        match baseTree environment baseCommitOid with
        | .error failure => .error failure
        | .ok oldTree =>
          match diffTreePair environment depth oldTree commit.tree ""
              looked with
          | .error failure => .error failure
          | .ok walked =>
            .ok (DiffState.result
              { walked with
                entries := sortDiffEntries environment walked.entries }
              baseCommitOid)

end GitOnCloudflare.Read
