import GitOnCloudflare.Pack.RereadAccepts

/-!
# The range reader of the resolver

The reader asks the bucket for exact ranges, three times at most, and keeps the
chunk that it read last.  The bucket may be out of an object, fail or send a
short body, and the caller may abort at any look at the signal; the reader is
used again after a request that failed.
-/

namespace GitOnCloudflare.Pack.RangeReader

open Foundations.ByteTable
open Indexer (SequentialReader)

/-! ## What a request meets -/

/-- What a ranged `get` and the reading of its body come to. -/
inductive RangeAnswer where
  | missing
  | failed (message : String)
  | body (bytes : Bytes)

/-- A body has the bytes of the range from its start on, perhaps not all. -/
def RangeAnswer.Of (pack : Bytes) (offset length : Nat) :
    RangeAnswer → Prop
  | .missing => True
  | .failed _ => True
  | .body bytes => bytes <+: slice pack offset length

/-- A request loads for the chunk, or for itself. -/
inductive Load where
  | chunk
  | range
deriving DecidableEq

/-- Where the abort signal is looked at. -/
inductive Look where
  | request
  | preload
  | load (load : Load)
  | attempt (load : Load) (number : Nat)
  | failure (load : Load) (number : Nat)
  | missed (load : Load)
deriving DecidableEq

/-- What one request meets: the answers of the bucket that stores the pack, by
load and attempt, and the looks at which the signal is aborted. -/
structure Conditions (pack : Bytes) where
  answer : Load → Nat → Nat → Nat → RangeAnswer
  answers : ∀ load attempt offset length,
    (answer load attempt offset length).Of pack offset length
  aborted : Look → Bool

inductive ReadFailure where
  | aborted (stage : String)
  | thrown (message : String)
deriving DecidableEq

/-- The parameters of a reader. -/
structure ReaderOptions where
  chunkSize : Nat
  inMemory : Bool

section Requests

variable (opts : ReaderOptions) {pack : Bytes} (conditions : Conditions pack)

/-! ## Loading -/

def rangeReadAttempts : Nat := 3

/-- The loop over the attempts, with the number of attempts left. -/
def readExactPackRangeWithRetry (load : Load) (offset length : Nat) :
    Nat → Except ReadFailure (Option Bytes)
  | 0 => .ok none
  | left + 1 =>
    let attempt := rangeReadAttempts - left
    if conditions.aborted (.attempt load attempt) then
      .ok none
    else
      let failing (message : String) : Except ReadFailure (Option Bytes) :=
        if conditions.aborted (.failure load attempt) then
          .ok none
        else if attempt = rangeReadAttempts then
          .error (.thrown message)
        else
          readExactPackRangeWithRetry load offset length left
      match conditions.answer load attempt offset length with
      | .missing => .ok none
      | .failed message => failing message
      | .body bytes =>
        if bytes.length = length then
          .ok (some bytes)
        else
          failing s!"R2 range returned {bytes.length} of {length} bytes"

/-- `readPackRange` with `exactLength`. -/
def readPackRange (load : Load) (offset length : Nat) :
    Except ReadFailure (Option Bytes) :=
  if conditions.aborted (.load load) then
    .ok none
  else
    readExactPackRangeWithRetry conditions load offset length
      rangeReadAttempts

/-- A subarray of the pack in memory, or a read of the bucket. -/
def load (load : Load) (offset length : Nat) :
    Except ReadFailure (Option Bytes) :=
  if opts.inMemory then
    let bytes := slice pack offset length
    .ok (if bytes.length = length then some bytes else none)
  else
    readPackRange conditions load offset length

/-- What is thrown when a load had no bytes. -/
def missed (which : Load) (stage inMemory fromBucket : String) : ReadFailure :=
  if conditions.aborted (.missed which) then
    .aborted stage
  else
    .thrown (if opts.inMemory then inMemory else fromBucket)

def loadOrThrow (stage : String) (offset length : Nat) :
    Except ReadFailure Bytes := do
  match ← load opts conditions .range offset length with
  | none =>
    .error
      (missed opts conditions .range stage
        "resolve: in-memory pack read failure" "resolve: R2 read failure")
  | some data => .ok data

/-! ## Requests -/

def preload (reader : SequentialReader) (offset : Nat) :
    Except ReadFailure SequentialReader :=
  if conditions.aborted .preload then
    .error (.aborted "reader:preload")
  else if pack.length ≤ offset then
    .ok reader
  else do
    match ←
      load opts conditions .chunk offset
        (min opts.chunkSize (pack.length - offset)) with
    | none =>
      .error
        (missed opts conditions .chunk "reader:preload"
          "resolve: in-memory pack preload failure"
          "resolve: R2 preload failure")
    | some chunk => .ok ⟨chunk, offset⟩

/-- The outcome of a request, and the reader that the next one finds. -/
def readRange (reader : SequentialReader) (offset length : Nat) :
    Except ReadFailure Bytes × SequentialReader :=
  if conditions.aborted .request then
    (.error (.aborted "reader:read-range"), reader)
  else if reader.bufAbsStart ≤ offset ∧ offset + length ≤ reader.bufEnd then
    (.ok (slice reader.buf (offset - reader.bufAbsStart) length), reader)
  else if opts.chunkSize < length then
    (loadOrThrow opts conditions "reader:read-range" offset length, reader)
  else
    match preload opts conditions reader offset with
    | .error failure => (.error failure, reader)
    | .ok reader =>
      if offset + length ≤ reader.bufEnd then
        (.ok (slice reader.buf (offset - reader.bufAbsStart) length), reader)
      else
        (loadOrThrow opts conditions "reader:read-range" offset length,
          reader)

/-- A chunk that has the offset, when there is one. -/
def buffered (reader : SequentialReader) (offset : Nat) :
    Except ReadFailure SequentialReader :=
  if reader.bufAbsStart ≤ offset ∧ offset < reader.bufEnd then
    .ok reader
  else
    preload opts conditions reader offset

def readWindow (reader : SequentialReader) (offset maxLength : Nat) :
    Except ReadFailure Bytes × SequentialReader :=
  if conditions.aborted .request then
    (.error (.aborted "reader:read-window"), reader)
  else if maxLength = 0 ∨ pack.length ≤ offset then
    (.ok [], reader)
  else
    match buffered opts conditions reader offset with
    | .error failure => (.error failure, reader)
    | .ok reader =>
      if offset < reader.bufAbsStart ∨ reader.bufEnd ≤ offset then
        (loadOrThrow opts conditions "reader:read-window" offset
          (min maxLength 1), reader)
      else
        (.ok
          (slice reader.buf (offset - reader.bufAbsStart)
            (min maxLength (reader.bufEnd - offset))), reader)

end Requests

/-! ## Sequences of requests -/

inductive Request where
  | range (offset length : Nat)
  | window (offset maxLength : Nat)
  | preload (offset : Nat)

/-- The outcome of a request, and the reader after it. -/
def serve (opts : ReaderOptions) {pack : Bytes}
    (conditions : Conditions pack) (reader : SequentialReader) :
    Request → Except ReadFailure Bytes × SequentialReader
  | .range offset length => readRange opts conditions reader offset length
  | .window offset maxLength =>
    readWindow opts conditions reader offset maxLength
  | .preload offset =>
    match preload opts conditions reader offset with
    | .error failure => (.error failure, reader)
    | .ok reader => (.ok [], reader)

/-- The reader that is left after requests, each under its conditions. -/
def serveAll (opts : ReaderOptions) {pack : Bytes}
    (requests : List (Request × Conditions pack)) : SequentialReader :=
  requests.foldl
    (fun reader request => (serve opts request.2 reader request.1).2)
    SequentialReader.empty

end GitOnCloudflare.Pack.RangeReader
