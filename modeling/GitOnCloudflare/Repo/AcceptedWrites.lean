import GitOnCloudflare.Repo.PackCatalog

/-!
# Accepted writes and snapshot pins

The facts a push publishes about its refs, their record beside the ref update
and the snapshot pins that keep a served commit reachable.
-/

namespace GitOnCloudflare.Repo

open Foundations
open Receive

/-! ## Facts of a command list -/

def AcceptedWriteContext.fact (context : AcceptedWriteContext)
    (ref beforeSha afterSha : String) : AcceptedWriteFact :=
  { repositoryId := context.repositoryId
    ref := ref
    beforeSha := beforeSha
    afterSha := afterSha
    actor := context.actor
    sourceSurface := context.sourceSurface
    idempotencyKey := context.idempotencyKey }

/-- The first command of a ref fixes its base, the last its outcome. -/
def noteAcceptedWrite (context : AcceptedWriteContext)
    (factsByRef : KeyedList AcceptedWriteFact.ref) (command : ReceiveCommand) :
    KeyedList AcceptedWriteFact.ref :=
  match factsByRef.find? command.ref with
  | some existing =>
    factsByRef.upsert { existing with afterSha := command.newOid }
  | none =>
    factsByRef.upsert
      (context.fact command.ref command.oldOid command.newOid)

def acceptedWriteFactsForCommands (context : AcceptedWriteContext)
    (commands : List ReceiveCommand) : List AcceptedWriteFact :=
  (commands.foldl (noteAcceptedWrite context) KeyedList.empty).items.filter
    fun fact => fact.beforeSha ≠ fact.afterSha

/-- The transition one ref takes over a command list. -/
structure RefTransition where
  ref : String
  beforeSha : String
  afterSha : String

def noteTransition (transitions : KeyedList RefTransition.ref)
    (command : ReceiveCommand) : KeyedList RefTransition.ref :=
  match transitions.find? command.ref with
  | some existing =>
    transitions.upsert { existing with afterSha := command.newOid }
  | none => transitions.upsert ⟨command.ref, command.oldOid, command.newOid⟩

def acceptedWritesMatchCommands (commands : List ReceiveCommand)
    (facts : List AcceptedWriteFact) : Bool :=
  let transitions := commands.foldl noteTransition KeyedList.empty
  let changed :=
    transitions.items.filter fun transition =>
      transition.beforeSha ≠ transition.afterSha
  changed.length = facts.length &&
    decide (facts.map AcceptedWriteFact.ref).Nodup &&
    facts.all fun fact =>
      match transitions.find? fact.ref with
      | some transition =>
        transition.beforeSha = fact.beforeSha &&
          transition.afterSha = fact.afterSha
      | none => false

/-- The one context all facts of a receive share. -/
def acceptedWriteContextForFacts (facts : Option (List AcceptedWriteFact)) :
    Except RepoFailure (Option AcceptedWriteContext) :=
  match facts with
  | none => .ok none
  | some [] => .ok none
  | some (first :: rest) =>
    let context : AcceptedWriteContext :=
      { repositoryId := first.repositoryId
        actor := first.actor
        sourceSurface := first.sourceSurface
        idempotencyKey := first.idempotencyKey }
    if (first :: rest).all fun fact =>
        fact.repositoryId = context.repositoryId &&
          fact.actor = context.actor &&
          fact.sourceSurface = context.sourceSurface &&
          fact.idempotencyKey = context.idempotencyKey
    then
      .ok (some context)
    else
      .error .acceptedWriteContextMixed

def acceptedWriteFactsForIntent (intent : ReceiveFinalizeIntent) :
    Option (List AcceptedWriteFact) :=
  intent.acceptedWriteContext.map fun context =>
    acceptedWriteFactsForCommands context intent.commands

/-! ## Snapshot pins -/

structure SnapshotPinInput where
  commitSha : String
  treeSha : String
  materializedAt : Nat
  advanceCurrent : Bool
  qualificationOwned : Bool

structure SnapshotPinFact where
  ref : String
  beforeSha : String
  commitSha : String
  actor : String
  sourceSurface : SnapshotPinSource
  idempotencyKey : Option String

def AcceptedWriteFact.pinFact (fact : AcceptedWriteFact) : SnapshotPinFact :=
  { ref := fact.ref
    beforeSha := fact.beforeSha
    commitSha := fact.afterSha
    actor := fact.actor
    sourceSurface := .accepted fact.sourceSurface
    idempotencyKey := fact.idempotencyKey }

def isLowerHex (char : Char) : Bool :=
  ('0' ≤ char && char ≤ '9') || ('a' ≤ char && char ≤ 'f')

def isValidPinnedObjectSha (sha : String) : Bool :=
  Text.matchesClass isLowerHex 40 40 sha && sha ≠ zeroOid

/-- Install the pin of a commit unless it is already there. -/
def installPin (repo : RepoState) (sequence : Nat) (fact : SnapshotPinFact)
    (input : SnapshotPinInput) : RepoState :=
  match repo.snapshotPins.find? fact.commitSha with
  | some _ => repo
  | none =>
    { repo with
      snapshotPins :=
        repo.snapshotPins.upsert
          { commitSha := fact.commitSha
            treeSha := input.treeSha
            ref := fact.ref
            beforeSha := fact.beforeSha
            firstSequence := sequence
            acceptedAt := input.materializedAt
            actor := fact.actor
            sourceSurface := fact.sourceSurface
            idempotencyKey := fact.idempotencyKey
            qualificationOwned := input.qualificationOwned }
      snapshotPinVersion := repo.snapshotPinVersion + 1 }

/-- Clear an earlier release and record the first materialization. -/
def recordMaterialization (repo : RepoState) (sequence : Nat)
    (fact : SnapshotPinFact) (input : SnapshotPinInput) : RepoState :=
  { repo with
    releasedSnapshot :=
      Function.update repo.releasedSnapshot fact.commitSha none
    materializedSnapshot :=
      match repo.materializedSnapshot fact.commitSha with
      | some _ => repo.materializedSnapshot
      | none =>
        Function.update repo.materializedSnapshot fact.commitSha
          (some ⟨fact.commitSha, sequence, input.materializedAt⟩) }

/-- Move the current pointer of a ref forward, never to another commit of the
same sequence number. -/
def advanceSnapshotCurrent (repo : RepoState) (ref commitSha : String)
    (sequence updatedAt : Nat) : Except RepoFailure (Bool × RepoState) :=
  let advanced :=
    { repo with
      snapshotCurrent :=
        Function.update repo.snapshotCurrent ref
          (some ⟨ref, commitSha, sequence, updatedAt⟩) }
  match repo.snapshotCurrent ref with
  | none => .ok (true, advanced)
  | some current =>
    if current.sequence < sequence then
      .ok (true, advanced)
    else if sequence = current.sequence ∧ current.commitSha ≠ commitSha then
      .error .snapshotCurrentConflict
    else
      .ok (false, repo)

def retainSnapshotPin (repo : RepoState) (sequence : Nat)
    (fact : SnapshotPinFact) (input : SnapshotPinInput) :
    Except RepoFailure (Bool × RepoState) :=
  if fact.commitSha ≠ input.commitSha ||
      !isValidPinnedObjectSha input.treeSha then
    .ok (false, repo)
  else if (repo.snapshotPins.find? fact.commitSha).any fun existing =>
      existing.treeSha ≠ input.treeSha ||
        existing.commitSha ≠ fact.commitSha then
    .ok (false, repo)
  else
    let installed := installPin repo sequence fact input
    let materialized := recordMaterialization installed sequence fact input
    if input.advanceCurrent then
      match advanceSnapshotCurrent materialized fact.ref fact.commitSha
          sequence input.materializedAt with
      | .ok (_, advanced) => .ok (true, advanced)
      | .error failure => .error failure
    else
      .ok (true, materialized)

/-! ## The record of a ref update -/

def putAcceptedWriteHead (repo : RepoState) (sequence : Nat)
    (fact : AcceptedWriteFact) : RepoState :=
  { repo with
    acceptedWriteHead :=
      Function.update repo.acceptedWriteHead fact.ref
        (some ⟨fact.ref, fact.beforeSha, fact.afterSha, sequence⟩) }

/-- Keep an existing journal entry of the same transition, else write it. -/
def journalAcceptedWrite (repo : RepoState) (sequence acceptedAt : Nat)
    (fact : AcceptedWriteFact) : Except RepoFailure RepoState :=
  match repo.acceptedWriteJournal ⟨sequence, fact.ref⟩ with
  | some existing =>
    if existing.sequence ≠ sequence || existing.fact.ref ≠ fact.ref ||
        existing.fact.beforeSha ≠ fact.beforeSha ||
        existing.fact.afterSha ≠ fact.afterSha then
      .error .journalIdentityConflict
    else
      .ok repo
  | none =>
    .ok
      { repo with
        acceptedWriteJournal :=
          Function.update repo.acceptedWriteJournal ⟨sequence, fact.ref⟩
            (some ⟨sequence, fact, acceptedAt, none⟩) }

/-- Retain the pin of a push whose fact publishes the pinned commit. -/
def pinAcceptedWrite (repo : RepoState) (sequence : Nat)
    (snapshotPin : Option SnapshotPinInput) (fact : AcceptedWriteFact) :
    Except RepoFailure (Bool × RepoState) :=
  match snapshotPin with
  | some input =>
    if fact.afterSha = input.commitSha then
      retainSnapshotPin repo sequence fact.pinFact input
    else
      .ok (true, repo)
  | none => .ok (true, repo)

def recordAcceptedWrite (repo : RepoState) (sequence acceptedAt : Nat)
    (journal : Bool) (snapshotPin : Option SnapshotPinInput)
    (fact : AcceptedWriteFact) : Except RepoFailure (Bool × RepoState) :=
  match pinAcceptedWrite (putAcceptedWriteHead repo sequence fact) sequence
      snapshotPin fact with
  | .error failure => .error failure
  | .ok (retained, pinned) =>
    if journal then
      match journalAcceptedWrite pinned sequence acceptedAt fact with
      | .error failure => .error failure
      | .ok journaled => .ok (retained, journaled)
    else
      .ok (retained, pinned)

def recordAcceptedWriteFacts (sequence acceptedAt : Nat) (journal : Bool)
    (snapshotPin : Option SnapshotPinInput) :
    List AcceptedWriteFact → RepoState →
      Except RepoFailure (Bool × RepoState)
  | [], repo => .ok (true, repo)
  | fact :: facts, repo =>
    match recordAcceptedWrite repo sequence acceptedAt journal snapshotPin
        fact with
    | .error failure => .error failure
    | .ok (retained, recorded) =>
      match recordAcceptedWriteFacts sequence acceptedAt journal
          snapshotPin facts recorded with
      | .error failure => .error failure
      | .ok (rest, last) => .ok (retained && rest, last)

def recordAcceptedWrites (repo : RepoState) (sequence : Nat)
    (facts : List AcceptedWriteFact) (acceptedAt : Nat) (journal : Bool)
    (snapshotPin : Option SnapshotPinInput) :
    Except RepoFailure (Bool × RepoState) :=
  if facts = [] then
    .ok (true, repo)
  else if snapshotPin.any fun input =>
      !isValidPinnedObjectSha input.commitSha ||
        !isValidPinnedObjectSha input.treeSha ||
        !facts.any fun fact => fact.afterSha = input.commitSha then
    .error .snapshotPinMismatch
  else
    recordAcceptedWriteFacts sequence acceptedAt journal snapshotPin facts repo

end GitOnCloudflare.Repo
