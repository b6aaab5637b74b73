import GitOnCloudflare.Store.PackedRead
import Mathlib.Logic.Relation

/-!
# Reads that share a memo

Reads of one request keep finished objects and the promises of unfinished
reads in a memo.  A read that needs an object takes it from there, waits for
its promise, or starts a promise of its own.  The reads go on in any order.
-/

namespace GitOnCloudflare.Store

open Pack

/-! ## Promises -/

/-- A delta whose base is being read. -/
structure Frame where
  candidate : PackedObjectCandidate
  delta : Bytes

inductive Phase where
  | finding
  | entering (candidate : PackedObjectCandidate)
  | awaiting (promise : Nat)
  | settled (result : ReadResult)

/-- A promise: the rows read above it, its own rows, the innermost first, and
where it stands. -/
structure PendingRead (Oid : Type) where
  oid : Oid
  visited : List PackedObjectCandidate
  frames : List Frame
  phase : Phase

/-- All rows being read, from the innermost on. -/
def PendingRead.rows {Oid : Type} (read : PendingRead Oid) :
    List PackedObjectCandidate :=
  read.frames.map Frame.candidate ++ read.visited

/-- The result of a base goes up through the deltas. -/
def unwind (frames : List Frame) (result : ReadResult) : ReadResult :=
  frames.foldl (fun base frame => base.bind (applyToBase frame.delta)) result

/-- The memo of a request, with every promise that was started. -/
structure Memo (Oid : Type) where
  packedObjects : Oid → Option (Option GitObject)
  packedObjectPromises : Oid → Option Nat
  reads : List (PendingRead Oid)

/-- What a call comes back with. -/
inductive Called where
  | value (object : Option GitObject)
  | promise (id : Nat)

namespace Memo

variable {Oid : Type}

def empty : Memo Oid := ⟨fun _ => none, fun _ => none, []⟩

def oidOf (memo : Memo Oid) (id : Nat) : Option Oid :=
  (memo.reads[id]?).map PendingRead.oid

def setRead (memo : Memo Oid) (id : Nat) (read : PendingRead Oid) : Memo Oid :=
  { memo with reads := memo.reads.set id read }

def settle (memo : Memo Oid) (id : Nat) (read : PendingRead Oid)
    (frames : List Frame) (result : ReadResult) : Memo Oid :=
  memo.setRead id
    { read with phase := .settled (unwind frames result), frames := frames }

variable [DecidableEq Oid]

/-- `readObject` up to its first wait. -/
def call (memo : Memo Oid) (oid : Oid)
    (visited : List PackedObjectCandidate) : Memo Oid × Called :=
  match memo.packedObjects oid with
  | some object => (memo, .value object)
  | none =>
    match memo.packedObjectPromises oid with
    | some id => (memo, .promise id)
    | none =>
      ({ memo with
          packedObjectPromises :=
            Function.update memo.packedObjectPromises oid
              (some memo.reads.length)
          reads := memo.reads ++ [⟨oid, visited, [], .finding⟩] },
        .promise memo.reads.length)

section Advance

variable (packs : List (IndexedPackSource Oid))

/-- A promise reads the row it has come to. -/
def enter (memo : Memo Oid) (id : Nat) (read : PendingRead Oid)
    (candidate : PackedObjectCandidate) : Memo Oid :=
  if candidate ∈ read.rows then
    memo.settle id read read.frames (.error recursionCycle)
  else
    match entryAt packs candidate with
    | none => memo.settle id read read.frames (.ok none)
    | some entry =>
      let frames := ⟨candidate, entry.payload⟩ :: read.frames
      match entry.kind with
      | .full type =>
        memo.settle id read read.frames
          (.ok (some ⟨type, entry.payload⟩))
      | .ofsDelta baseOffset =>
        match baseAtOffset packs candidate baseOffset with
        | none => memo.settle id read read.frames (.ok none)
        | some base =>
          memo.setRead id
            { read with frames := frames, phase := .entering base }
      | .refDelta baseOid =>
        match memo.call baseOid (candidate :: read.rows) with
        | (called, .value object) =>
          called.settle id read frames (.ok object)
        | (called, .promise base) =>
          called.setRead id
            { read with frames := frames, phase := .awaiting base }

/-- The next step of a promise, unless it has to wait or is settled. -/
def advance (memo : Memo Oid) (id : Nat) : Option (Memo Oid) :=
  match memo.reads[id]? with
  | none => none
  | some read =>
    match read.phase with
    | .finding =>
      match findObject packs read.oid with
      | none => some (memo.settle id read read.frames (.ok none))
      | some candidate =>
        some
          (memo.setRead id { read with phase := .entering candidate })
    | .entering candidate => some (memo.enter packs id read candidate)
    | .awaiting base =>
      match memo.reads[base]? with
      | none => none
      | some other =>
        match other.phase with
        | .settled result =>
          some (memo.settle id read read.frames result)
        | _ => none
    | .settled _ => none

end Advance

/-- The caller that started a promise stores its result and removes it; a
failure is not stored. -/
def publish (memo : Memo Oid) (oid : Oid) (result : ReadResult) : Memo Oid :=
  { memo with
    packedObjects :=
      match result with
      | .ok object => Function.update memo.packedObjects oid (some object)
      | .error _ => memo.packedObjects
    packedObjectPromises :=
      Function.update memo.packedObjectPromises oid none }

end Memo

/-! ## Runs -/

section Runs

variable {Oid : Type} [DecidableEq Oid]
  (packs : List (IndexedPackSource Oid))

/-- A step is labelled with the promise that goes on. -/
inductive MemoStep : Memo Oid → Option Nat → Memo Oid → Prop
  | request {memo : Memo Oid} (oid : Oid) :
      MemoStep memo none (memo.call oid []).1
  | advance {memo next : Memo Oid} {id : Nat}
      (ran : memo.advance packs id = some next) :
      MemoStep memo (some id) next
  | publish {memo : Memo Oid} {id : Nat} {read : PendingRead Oid}
      {result : ReadResult} (at_ : memo.reads[id]? = some read)
      (settled : read.phase = .settled result)
      (own : memo.packedObjectPromises read.oid = some id) :
      MemoStep memo none (memo.publish read.oid result)

inductive MemoRun : Memo Oid → List (Option Nat) → Memo Oid → Prop
  | refl (memo : Memo Oid) : MemoRun memo [] memo
  | step {memo middle next : Memo Oid} {label : Option Nat}
      {labels : List (Option Nat)} (first : MemoStep packs memo label middle)
      (rest : MemoRun middle labels next) :
      MemoRun memo (label :: labels) next

/-- The memos of a request, whatever was read and in which order. -/
def Reachable (memo : Memo Oid) : Prop :=
  ∃ labels, MemoRun packs .empty labels memo

end Runs

/-- One promise waits for another. -/
def Memo.Waits {Oid : Type} (memo : Memo Oid) (id base : Nat) : Prop :=
  ∃ read, memo.reads[id]? = some read ∧ read.phase = .awaiting base

end GitOnCloudflare.Store
