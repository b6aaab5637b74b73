import GitOnCloudflare.Pack.EntryHeader
import GitOnCloudflare.Repo.Shared

/-!
# Publication of a plan

Attempts to plan one receive put their artifacts under keys that the input
request determines.  A put finds the object of another attempt or creates its
own; an attempt that fails deletes the keys it has created.
-/

namespace GitOnCloudflare.Planner

open Foundations
open Pack
open Repo (packIndexKey packRefsKey)

/-! ## Keys -/

structure PlanKeys where
  temporaryPackKey : String
  prerequisitePackKey : String
  closureManifestKey : String
deriving DecidableEq

def stockReceivePlanKeys (inputRequestKey inputSha256 : String) :
    Except String PlanKeys :=
  if Text.endsWith inputRequestKey ".request" then
    let stem := String.ofList
      (inputRequestKey.toList.take (inputRequestKey.toList.length - 8))
    .ok
      { temporaryPackKey := stem ++ "-" ++ inputSha256 ++ ".planning.pack"
        prerequisitePackKey :=
          stem ++ "-" ++ inputSha256 ++ ".prerequisite.pack"
        closureManifestKey := stem ++ "-" ++ inputSha256 ++ ".closure.json" }
  else
    .error "stock-plan:input-key-shape"

structure Artifact where
  key : String
  bytes : Bytes
deriving DecidableEq

/-- An object with the digest in its custom metadata. -/
structure BucketObject where
  bytes : Bytes
  sha256 : String

/-- The receive that all attempts plan. -/
structure PublicationTarget where
  inputRequestKey : String
  inputRequestSha256 : String
  outputPackKey : String
  outputIdxKey : String
  outputRefsKey : String
  directPackRequested : Bool
  digest : Bytes → String
  keys : PlanKeys
  derived : stockReceivePlanKeys inputRequestKey inputRequestSha256 =
    .ok keys

namespace PublicationTarget

def temporaryKeys (target : PublicationTarget) : List String :=
  if target.directPackRequested then []
  else
    [target.keys.temporaryPackKey,
      packIndexKey target.keys.temporaryPackKey,
      packRefsKey target.keys.temporaryPackKey]

/-- What a failed attempt deletes. -/
def cleanupKeys (target : PublicationTarget)
    (ownedImmutableKeys : List String) : List String :=
  target.temporaryKeys ++ ownedImmutableKeys.filter fun key =>
    decide (key ≠ target.keys.temporaryPackKey)

def stored (target : PublicationTarget) (artifact : Artifact) : BucketObject :=
  ⟨artifact.bytes, target.digest artifact.bytes⟩

/-- The check of an object that was there already. -/
def accepts (target : PublicationTarget) (object : BucketObject)
    (artifact : Artifact) : Bool :=
  decide (object.bytes.length = artifact.bytes.length) &&
    decide (object.sha256 = target.digest artifact.bytes) &&
    decide (target.digest object.bytes = target.digest artifact.bytes)

/-- The puts of an attempt: those of one list run together, one list after
the other. -/
inductive Plans (target : PublicationTarget) : List (List Artifact) → Prop
    where
  | direct (manifest pack idx refs : Bytes)
      (requested : target.directPackRequested = true) :
      Plans target
        [[⟨target.keys.closureManifestKey, manifest⟩,
          ⟨target.outputPackKey, pack⟩, ⟨target.outputIdxKey, idx⟩,
          ⟨target.outputRefsKey, refs⟩]]
  | container (prerequisite manifest : Bytes) :
      Plans target
        [[⟨target.keys.prerequisitePackKey, prerequisite⟩],
          [⟨target.keys.closureManifestKey, manifest⟩]]

end PublicationTarget

/-! ## Attempts -/

/-- How far `putImmutableBytes` has come. -/
inductive PutState where
  | pending
  | present
  | created
  | adopted
  | rejected
deriving DecidableEq

def PutState.settled : PutState → Bool
  | .pending | .present => false
  | .created | .adopted | .rejected => true

def PutState.fulfilled : PutState → Bool
  | .created | .adopted => true
  | .pending | .present | .rejected => false

structure Put where
  artifact : Artifact
  state : PutState

inductive AttemptPhase where
  | publishing
  | cleaning (keys : List String)
  | returned
  | failed
deriving DecidableEq

structure PlanAttempt where
  batches : List (List Artifact)
  puts : List Put
  ownedImmutableKeys : List String
  published : List Artifact
  phase : AttemptPhase

namespace PlanAttempt

def start (batches : List (List Artifact)) : PlanAttempt :=
  ⟨batches, [], [], [], .publishing⟩

def begin (attempt : PlanAttempt) (batch : List Artifact)
    (rest : List (List Artifact)) : PlanAttempt :=
  { attempt with
    batches := rest
    puts := batch.map fun artifact => ⟨artifact, .pending⟩ }

def setPut (attempt : PlanAttempt) (slot : Nat) (put : Put) : PlanAttempt :=
  { attempt with puts := attempt.puts.set slot put }

def createdKeys (attempt : PlanAttempt) : List String :=
  (attempt.puts.filter fun put => decide (put.state = .created)).map fun put =>
    put.artifact.key

def clean (attempt : PlanAttempt) (keys : List String) : PlanAttempt :=
  { attempt with phase := .cleaning keys }

/-- All puts of the batch have been fulfilled or rejected. -/
def settle (attempt : PlanAttempt) (target : PublicationTarget) : PlanAttempt :=
  let owned := attempt.ownedImmutableKeys ++ attempt.createdKeys
  if attempt.puts.any fun put => decide (put.state = .rejected) then
    { attempt with puts := [], ownedImmutableKeys := owned }.clean
      (target.cleanupKeys owned)
  else
    { attempt with
      puts := []
      ownedImmutableKeys := owned
      published := attempt.published ++ attempt.puts.map Put.artifact }

end PlanAttempt

/-! ## Steps -/

structure PlannerWorld where
  bucket : String → Option BucketObject
  attempts : Nat → Option PlanAttempt

namespace PlannerWorld

def setAttempt (world : PlannerWorld) (id : Nat) (attempt : PlanAttempt) :
    PlannerWorld :=
  { world with attempts := Function.update world.attempts id (some attempt) }

def setObject (world : PlannerWorld) (key : String)
    (object : Option BucketObject) : PlannerWorld :=
  { world with bucket := Function.update world.bucket key object }

end PlannerWorld

inductive PlannerEvent where
  | removed (id : Nat) (key : String)
  | other

/-- One step of one attempt: between two awaits nothing else runs. -/
inductive PlannerStep (target : PublicationTarget) (world : PlannerWorld) :
    PlannerEvent → PlannerWorld → Prop where
  | entered {id : Nat} {batches : List (List Artifact)}
      (fresh : world.attempts id = none) (plans : target.Plans batches) :
      PlannerStep target world .other
        (world.setAttempt id (.start batches))
  | began {id : Nat} {attempt : PlanAttempt} {batch : List Artifact}
      {rest : List (List Artifact)}
      (found : world.attempts id = some attempt)
      (publishing : attempt.phase = .publishing) (idle : attempt.puts = [])
      (next : attempt.batches = batch :: rest) :
      PlannerStep target world .other
        (world.setAttempt id (attempt.begin batch rest))
  | created {id slot : Nat} {attempt : PlanAttempt} {artifact : Artifact}
      (found : world.attempts id = some attempt)
      (publishing : attempt.phase = .publishing)
      (running : attempt.puts[slot]? = some ⟨artifact, .pending⟩)
      (absent : world.bucket artifact.key = none) :
      PlannerStep target world .other
        ((world.setObject artifact.key
          (some (target.stored artifact))).setAttempt id
            (attempt.setPut slot ⟨artifact, .created⟩))
  -- the object is stored, and the answer of the bucket is lost
  | lost {id slot : Nat} {attempt : PlanAttempt} {artifact : Artifact}
      (found : world.attempts id = some attempt)
      (publishing : attempt.phase = .publishing)
      (running : attempt.puts[slot]? = some ⟨artifact, .pending⟩)
      (absent : world.bucket artifact.key = none) :
      PlannerStep target world .other
        ((world.setObject artifact.key
          (some (target.stored artifact))).setAttempt id
            (attempt.setPut slot ⟨artifact, .rejected⟩))
  | met {id slot : Nat} {attempt : PlanAttempt} {artifact : Artifact}
      (found : world.attempts id = some attempt)
      (publishing : attempt.phase = .publishing)
      (running : attempt.puts[slot]? = some ⟨artifact, .pending⟩)
      (held : world.bucket artifact.key ≠ none) :
      PlannerStep target world .other
        (world.setAttempt id (attempt.setPut slot ⟨artifact, .present⟩))
  | adopted {id slot : Nat} {attempt : PlanAttempt} {artifact : Artifact}
      {object : BucketObject}
      (found : world.attempts id = some attempt)
      (publishing : attempt.phase = .publishing)
      (running : attempt.puts[slot]? = some ⟨artifact, .present⟩)
      (held : world.bucket artifact.key = some object)
      (accepted : target.accepts object artifact = true) :
      PlannerStep target world .other
        (world.setAttempt id (attempt.setPut slot ⟨artifact, .adopted⟩))
  -- a conflict, or a request that fails
  | rejected {id slot : Nat} {attempt : PlanAttempt} {put : Put}
      (found : world.attempts id = some attempt)
      (publishing : attempt.phase = .publishing)
      (running : attempt.puts[slot]? = some put)
      (open_ : put.state.settled = false) :
      PlannerStep target world .other
        (world.setAttempt id
          (attempt.setPut slot ⟨put.artifact, .rejected⟩))
  | settled {id : Nat} {attempt : PlanAttempt}
      (found : world.attempts id = some attempt)
      (publishing : attempt.phase = .publishing) (ran : attempt.puts ≠ [])
      (all : ∀ put ∈ attempt.puts, put.state.settled = true) :
      PlannerStep target world .other
        (world.setAttempt id (attempt.settle target))
  -- any other failure; a direct plan is returned right after its puts
  | threw {id : Nat} {attempt : PlanAttempt}
      (found : world.attempts id = some attempt)
      (publishing : attempt.phase = .publishing) (idle : attempt.puts = [])
      (early : attempt.batches ≠ [] ∨ target.directPackRequested = false) :
      PlannerStep target world .other
        (world.setAttempt id
          (attempt.clean (target.cleanupKeys attempt.ownedImmutableKeys)))
  | returned {id : Nat} {attempt : PlanAttempt}
      (found : world.attempts id = some attempt)
      (publishing : attempt.phase = .publishing) (idle : attempt.puts = [])
      (last : attempt.batches = []) :
      PlannerStep target world .other
        (world.setAttempt id { attempt with phase := .returned })
  | removed {id : Nat} {attempt : PlanAttempt} {keys : List String}
      {key : String}
      (found : world.attempts id = some attempt)
      (cleaning : attempt.phase = .cleaning keys) (listed : key ∈ keys) :
      PlannerStep target world (.removed id key)
        ((world.setObject key none).setAttempt id
          (attempt.clean (keys.filter fun other => decide (other ≠ key))))
  | kept {id : Nat} {attempt : PlanAttempt} {keys : List String}
      {key : String}
      (found : world.attempts id = some attempt)
      (cleaning : attempt.phase = .cleaning keys) (listed : key ∈ keys) :
      PlannerStep target world .other
        (world.setAttempt id
          (attempt.clean (keys.filter fun other => decide (other ≠ key))))
  | stopped {id : Nat} {attempt : PlanAttempt}
      (found : world.attempts id = some attempt)
      (running : attempt.phase ≠ .returned) :
      PlannerStep target world .other
        (world.setAttempt id { attempt with phase := .failed })
  -- the planning pack and its sidecars come and go
  | staged {key : String} (temporary : key ∈ target.temporaryKeys)
      (object : Option BucketObject) :
      PlannerStep target world .other (world.setObject key object)

/-! ## What is promised -/

namespace PlanAttempt

/-- The artifacts whose puts have been fulfilled. -/
def fulfilled (attempt : PlanAttempt) : List Artifact :=
  attempt.published ++
    (attempt.puts.filter fun put => put.state.fulfilled).map Put.artifact

/-- The attempt has not created the object under this key, but found it. -/
def Adopted (attempt : PlanAttempt) (key : String) : Prop :=
  key ∈ attempt.fulfilled.map Artifact.key ∧
    key ∉ attempt.ownedImmutableKeys ++ attempt.createdKeys

/-- The attempt has returned its plan or may still do so. -/
def Live (attempt : PlanAttempt) : Prop :=
  attempt.phase = .publishing ∨ attempt.phase = .returned

end PlanAttempt

/-- The object that a plan names is there with the size and the digest that it
records. -/
def PublicationTarget.Holds (target : PublicationTarget)
    (world : PlannerWorld) (artifact : Artifact) : Prop :=
  ∃ object, world.bucket artifact.key = some object ∧
    object.bytes.length = artifact.bytes.length ∧
    target.digest object.bytes = target.digest artifact.bytes

def PlansKept (target : PublicationTarget) (world : PlannerWorld) : Prop :=
  ∀ id attempt, world.attempts id = some attempt →
    attempt.phase = .returned →
      ∀ artifact ∈ attempt.published, target.Holds world artifact

/-- A cleanup spares what another attempt has found and still counts on. -/
def Spares (world : PlannerWorld) : PlannerEvent → Prop
  | .removed id key => ∀ other attempt, other ≠ id →
      world.attempts other = some attempt → attempt.Live →
        ¬ attempt.Adopted key
  | .other => True

/-- Worlds that attempts reach by steps of this kind. -/
def PlannerReaches (target : PublicationTarget)
    (allowed : PlannerWorld → PlannerEvent → Prop)
    (before after : PlannerWorld) : Prop :=
  Relation.ReflTransGen
    (fun world next => ∃ event, allowed world event ∧
      PlannerStep target world event next) before after

end GitOnCloudflare.Planner
