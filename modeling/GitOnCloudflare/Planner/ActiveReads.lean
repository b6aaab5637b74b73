import GitOnCloudflare.Foundations.DependencyOrder
import GitOnCloudflare.Foundations.EventRun
import Mathlib.Algebra.GroupWithZero.Nat
import Mathlib.Data.List.Sort
import Mathlib.Data.Prod.Lex
import Mathlib.Data.String.Basic

/-!
# Reads of active packs

The planner reads a trailer of every active pack and each entry that a root
needs, from the pack itself or from a copy of the whole pack.  Every request is
noted before it is answered, and the notes are reconciled with the plan at the
end.  Packs with one checksum have one content.
-/

namespace GitOnCloudflare.Planner.ActiveReads

open Foundations

/-! ## Active packs -/

/-- How the bytes of an entry name what they are a delta of. -/
inductive EntryBase where
  | full
  | ofsDelta (baseOffset : Nat)
  | refDelta (baseOid : String)
deriving DecidableEq

/-- An entry of an active pack. -/
structure PackEntry where
  oid : String
  offset : Nat
  nextOffset : Nat
  base : EntryBase
deriving DecidableEq

/-- An active pack of the plan. -/
structure BoundActivePack where
  packKey : String
  packBytes : Nat
  packChecksum : String
  entries : List PackEntry
deriving DecidableEq

/-- Packs with distinct keys and contents. -/
structure ActivePacks where
  packs : List BoundActivePack
  keys : (packs.map BoundActivePack.packKey).Nodup
  content : ∀ pack ∈ packs, ∀ other ∈ packs,
    pack.packChecksum = other.packChecksum →
      pack.packBytes = other.packBytes ∧ pack.entries = other.entries
  sized : ∀ pack ∈ packs, 20 ≤ pack.packBytes
  inside : ∀ pack ∈ packs, ∀ entry ∈ pack.entries,
    entry.offset < entry.nextOffset ∧ entry.nextOffset + 20 ≤ pack.packBytes

def findKey (packs : List BoundActivePack) (packKey : String) :
    Option BoundActivePack :=
  packs.find? fun pack => decide (pack.packKey = packKey)

/-! ## Whole packs -/

def wholeActivePackMaxBytes : Nat := 8 * 1024 * 1024

def wholeActivePackTotalBudget : Nat := 16 * 1024 * 1024

/-- A pack that may be read as a whole. -/
def wholeActivePackFits (packBytes reservedBytes : Nat) : Bool :=
  decide (packBytes ≤ wholeActivePackMaxBytes) &&
    decide (reservedBytes + packBytes ≤ wholeActivePackTotalBudget)

/-- Packs are ordered by checksum, then by key: here by code point, in the
source by `localeCompare`. -/
def packOrder (pack : BoundActivePack) : Lex (String × String) :=
  toLex (pack.packChecksum, pack.packKey)

/-- The packs that are read as a whole. -/
def selectWholeActivePackKeys (packs : List BoundActivePack) : List String :=
  ((packs.insertionSort fun left right => packOrder left ≤ packOrder right).foldl
    (fun (selected : List String × Nat) pack =>
      if wholeActivePackFits pack.packBytes selected.2 then
        (selected.1 ++ [pack.packKey], selected.2 + pack.packBytes)
      else
        selected) ([], 0)).1

/-! ## Observation -/

/-- What a read of a pack is for. -/
inductive RuntimeActivePackReadKind where
  | trailer
  | bodyRange
  | whole
  | unattributed
deriving DecidableEq

/-- A read as it was noted. -/
structure RuntimeActivePackRead where
  packKey : String
  start : Option Nat := none
  stop : Option Nat := none
  returnedBytes : Nat := 0
  consumed : Bool := false
  kind : RuntimeActivePackReadKind

/-- The note that `get` makes of a request before it is answered. -/
def observeGet (pack : BoundActivePack) (range : Option (Nat × Nat)) :
    RuntimeActivePackRead :=
  match range with
  | none => { packKey := pack.packKey, kind := .whole }
  | some (offset, length) =>
    if length = 0 then
      { packKey := pack.packKey, kind := .unattributed }
    else
      { packKey := pack.packKey
        start := some offset
        stop := some (offset + length)
        kind :=
          if offset + 20 = pack.packBytes ∧ length = 20 then .trailer
          else if offset + length + 20 ≤ pack.packBytes then .bodyRange
          else .unattributed }

/-- The bytes that a read has to return. -/
def expectedLength (pack : BoundActivePack) (read : RuntimeActivePackRead) :
    Option Nat :=
  match read.kind, read.start, read.stop with
  | .whole, _, _ => some pack.packBytes
  | _, some start, some stop => some (stop - start)
  | _, _, _ => none

/-- What becomes of the note when the body was read: it is dropped unless the
length is the expected one. -/
def recordBody (pack : BoundActivePack) (read : RuntimeActivePackRead)
    (returnedBytes : Nat) : Option RuntimeActivePackRead :=
  if (expectedLength pack read).any (fun expected => expected ≠ returnedBytes) then
    none
  else
    some { read with consumed := true, returnedBytes }

/-! ## The planner -/

/-- A copy of an object: a pack and an entry of it. -/
structure PackedObjectCandidate where
  pack : BoundActivePack
  entry : PackEntry
deriving DecidableEq

/-- `packChecksum:offset:nextOffset` -/
def internalPhysicalNodeId (candidate : PackedObjectCandidate) :
    String × Nat × Nat :=
  (candidate.pack.packChecksum, candidate.entry.offset, candidate.entry.nextOffset)

/-- Every copy, also those that one pack has of an object. -/
def collectPackedObjectCandidates (packs : List BoundActivePack) (oid : String) :
    List PackedObjectCandidate :=
  packs.flatMap fun pack =>
    (pack.entries.filter fun entry => decide (entry.oid = oid)).map
      fun entry => { pack, entry }

/-- The order of `compareCandidates`. -/
def candidateOrder (candidate : PackedObjectCandidate) :
    Lex (Lex (String × String) × Lex (Nat × Nat)) :=
  toLex (packOrder candidate.pack,
    toLex (candidate.entry.offset, candidate.entry.nextOffset))

/-- The copy of an object that is read. -/
def selectCandidate (packs : List BoundActivePack) (oid : String) :
    Option PackedObjectCandidate :=
  ((collectPackedObjectCandidates packs oid).insertionSort
    fun left right => candidateOrder left ≤ candidateOrder right).head?

/-- The entry that starts at an offset. -/
def makeOffsetCandidate (pack : BoundActivePack) (offset : Nat) :
    Option PackedObjectCandidate :=
  (pack.entries.find? fun entry => decide (entry.offset = offset)).map
    fun entry => { pack, entry }

/-- What is requested from the bucket: a trailer, an entry, or a whole pack. -/
inductive ReadJob where
  | trailer (pack : BoundActivePack)
  | entry (candidate : PackedObjectCandidate)
  | whole (pack : BoundActivePack)
deriving DecidableEq

def ReadJob.pack : ReadJob → BoundActivePack
  | .trailer pack => pack
  | .entry candidate => candidate.pack
  | .whole pack => pack

/-- The start and length of a read. -/
def ReadJob.range : ReadJob → Option (Nat × Nat)
  | .trailer pack => some (pack.packBytes - 20, 20)
  | .entry candidate =>
    some (candidate.entry.offset, candidate.entry.nextOffset - candidate.entry.offset)
  | .whole _ => none

/-- The nodes visited so far, and the notes with the requests they are of. -/
structure PlannerRun where
  nodes : List PackedObjectCandidate := []
  reads : List (ReadJob × RuntimeActivePackRead) := []

section Planner

variable (packs : List BoundActivePack) (wholeKeys : List String)

/-- The request whose answer a node waits for. -/
def nodeJob (node : PackedObjectCandidate) : ReadJob :=
  if node.pack.packKey ∈ wholeKeys then .whole node.pack else .entry node

/-- A request is made for a pack that is loaded or for a node that is visited. -/
def Wanted (run : PlannerRun) (job : ReadJob) : Prop :=
  (∃ pack ∈ packs, job = .trailer pack) ∨ ∃ node ∈ run.nodes, job = nodeJob wholeKeys node

instance (run : PlannerRun) (job : ReadJob) : Decidable (Wanted packs wholeKeys run job) :=
  inferInstanceAs (Decidable (_ ∨ _))

def PlannerRun.noteOf (run : PlannerRun) (job : ReadJob) :
    Option RuntimeActivePackRead :=
  (run.reads.find? fun entry => decide (entry.1 = job)).map Prod.snd

def PlannerRun.without (run : PlannerRun) (job : ReadJob) : PlannerRun :=
  { run with reads := run.reads.filter fun entry => decide (entry.1 ≠ job) }

def PlannerRun.setNote (run : PlannerRun) (job : ReadJob)
    (read : RuntimeActivePackRead) : PlannerRun :=
  { run with
    reads := run.reads.map fun entry => if entry.1 = job then (job, read) else entry }

/-- Each node is visited once; another copy of it ends the plan. -/
def visit (run : PlannerRun) (candidate : PackedObjectCandidate) :
    Option PlannerRun :=
  match run.nodes.find? fun node =>
      decide (internalPhysicalNodeId node = internalPhysicalNodeId candidate) with
  | none => some { run with nodes := run.nodes ++ [candidate] }
  | some existing =>
    if existing.pack.packKey = candidate.pack.packKey ∧
        existing.entry = candidate.entry then
      some run
    else
      none

/-- The entry that an entry builds on. -/
def baseCandidate (node : PackedObjectCandidate) : Option PackedObjectCandidate :=
  match node.entry.base with
  | .full => none
  | .ofsDelta baseOffset => makeOffsetCandidate node.pack baseOffset
  | .refDelta baseOid => selectCandidate packs baseOid

/-- What happens while the planner reads. -/
inductive PlannerEvent where
  | visitRoot (oid : String)
  | visitBase (node : PackedObjectCandidate)
  | get (job : ReadJob)
  | fails (job : ReadJob)
  | body (job : ReadJob) (returnedBytes : Nat)

/-- A trailer is read once; every other request is made again when it fails. -/
def ReadJob.isRetried : ReadJob → Bool
  | .trailer _ => false
  | _ => true

/-- One step of a plan that does not fail.  Visits and requests go on side by
side in any order. -/
def step (run : PlannerRun) : PlannerEvent → Option PlannerRun
  | .visitRoot oid => (selectCandidate packs oid).bind (visit run)
  | .visitBase node =>
    if node ∈ run.nodes ∧
        (run.noteOf (nodeJob wholeKeys node)).any (fun read => read.consumed) then
      (baseCandidate packs node).bind (visit run)
    else
      none
  | .get job =>
    if Wanted packs wholeKeys run job ∧ run.noteOf job = none then
      some { run with reads := run.reads ++ [(job, observeGet job.pack job.range)] }
    else
      none
  | .fails job =>
    match run.noteOf job with
    | none => none
    | some read =>
      if read.consumed = false ∧ job.isRetried then some (run.without job) else none
  | .body job returnedBytes =>
    match run.noteOf job with
    | none => none
    | some read =>
      if read.consumed then
        none
      else
        match recordBody job.pack read returnedBytes with
        | some read => some (run.setNote job read)
        | none => if job.isRetried then some (run.without job) else none

end Planner

/-! ## The planned ranges -/

/-- A range that the plan says is needed. -/
structure StockRequiredRange where
  packChecksum : String
  start : Nat
  stop : Nat
  requiredOid : String

/-- The order of `compareStockPhysicalNodes`. -/
def sortPhysicalNodes (nodes : List PackedObjectCandidate) :
    List PackedObjectCandidate :=
  nodes.insertionSort fun left right =>
    (toLex (left.pack.packChecksum, toLex (left.entry.offset,
        toLex (left.entry.nextOffset, left.entry.oid))) :
      Lex (String × Lex (Nat × Lex (Nat × String)))) ≤
      toLex (right.pack.packChecksum, toLex (right.entry.offset,
        toLex (right.entry.nextOffset, right.entry.oid)))

def baseInternalId (packs : List BoundActivePack) (node : PackedObjectCandidate) :
    Option (String × Nat × Nat) :=
  (baseCandidate packs node).map internalPhysicalNodeId

/-- Each base comes before the nodes that depend on it. -/
def topologicalNodes (packs : List BoundActivePack)
    (nodes : List PackedObjectCandidate) : List PackedObjectCandidate :=
  DependencyOrder.serveAll internalPhysicalNodeId (baseInternalId packs)
    sortPhysicalNodes nodes

def plannedRange (node : PackedObjectCandidate) : StockRequiredRange where
  packChecksum := node.pack.packChecksum
  start := node.entry.offset
  stop := node.entry.nextOffset
  requiredOid := node.entry.oid

def plannedRanges (packs : List BoundActivePack)
    (nodes : List PackedObjectCandidate) : Except String (List StockRequiredRange) :=
  if (topologicalNodes packs nodes).length ≠ nodes.length then
    .error "stock-physical-plan:dependency-cycle"
  else
    .ok ((topologicalNodes packs nodes).map plannedRange)

/-! ## Reconciliation -/

structure ObservedRead where
  packChecksum : String
  start : Nat
  stop : Nat
  returnedBytes : Nat

/-- The order of `compareRuntimeRead`. -/
abbrev RangeKey := Lex (String × Lex (Nat × Nat))

def ObservedRead.key (read : ObservedRead) : RangeKey :=
  toLex (read.packChecksum, toLex (read.start, read.stop))

def StockRequiredRange.key (range : StockRequiredRange) : RangeKey :=
  toLex (range.packChecksum, toLex (range.start, range.stop))

def sortReads (reads : List ObservedRead) : List ObservedRead :=
  reads.insertionSort fun left right => left.key ≤ right.key

def sortRanges (ranges : List StockRequiredRange) : List StockRequiredRange :=
  ranges.insertionSort fun left right =>
    (toLex (left.key, left.requiredOid) : Lex (RangeKey × String)) ≤
      toLex (right.key, right.requiredOid)

structure SortedReads where
  trailerReads : List ObservedRead := []
  bodyReads : List ObservedRead := []
  wholeReads : List ObservedRead := []
  wholeBytes : Nat := 0
  wholeRequests : Nat := 0
  unattributedBytes : Nat := 0
  unattributedRequests : Nat := 0

section Reconcile

variable (packs : List BoundActivePack)

def checksumByKey (packKey : String) : Option String :=
  (findKey packs packKey).map BoundActivePack.packChecksum

/-- Of packs with one checksum the last one is kept. -/
def activeByChecksum (packChecksum : String) : Option BoundActivePack :=
  packs.reverse.find? fun pack => decide (pack.packChecksum = packChecksum)

def sortRead (sorted : SortedReads) (read : RuntimeActivePackRead) :
    Except String SortedReads :=
  match checksumByKey packs read.packKey with
  | none => .error "stock-plan:active-pack-read-source-missing"
  | some packChecksum =>
    if read.kind = .whole then
      .ok { sorted with
        wholeRequests := sorted.wholeRequests + 1
        wholeBytes := sorted.wholeBytes + read.returnedBytes
        wholeReads := sorted.wholeReads ++
          [⟨packChecksum, 0, read.returnedBytes, read.returnedBytes⟩] }
    else
      match read.kind, read.start, read.stop with
      | .trailer, some start, some stop =>
        if read.consumed = false ∨ start + read.returnedBytes ≠ stop then
          .error "stock-plan:active-pack-read-length-mismatch"
        else
          .ok { sorted with
            trailerReads := sorted.trailerReads ++
              [⟨packChecksum, start, stop, read.returnedBytes⟩] }
      | .bodyRange, some start, some stop =>
        if read.consumed = false ∨ start + read.returnedBytes ≠ stop then
          .error "stock-plan:active-pack-read-length-mismatch"
        else
          .ok { sorted with
            bodyReads := sorted.bodyReads ++
              [⟨packChecksum, start, stop, read.returnedBytes⟩] }
      | _, _, _ =>
        .ok { sorted with
          unattributedRequests := sorted.unattributedRequests + 1
          unattributedBytes := sorted.unattributedBytes + read.returnedBytes }

/-- Each whole read is of another checksum and has the length of its pack. -/
def checkWholeRead (wholeChecksums : List String) (read : ObservedRead) :
    Except String (List String) :=
  match activeByChecksum packs read.packChecksum with
  | none => .error "stock-plan:active-pack-whole-observation-mismatch"
  | some pack =>
    if read.packChecksum ∈ wholeChecksums ∨ read.start ≠ 0 ∨
        read.stop ≠ pack.packBytes ∨ read.returnedBytes ≠ pack.packBytes then
      .error "stock-plan:active-pack-whole-observation-mismatch"
    else
      .ok (wholeChecksums ++ [read.packChecksum])

structure ReconciledActivePackReads where
  trailerReads : List ObservedRead
  requiredReads : List StockRequiredRange
  wholeReads : List ObservedRead
  trailerBytes : Nat
  trailerRequests : Nat
  rangeBytes : Nat
  rangeRequests : Nat
  wholeBytes : Nat
  wholeRequests : Nat

/-- Checksums are hexadecimal, and both orders of the source agree on them. -/
def sortStrings (texts : List String) : List String :=
  texts.insertionSort fun left right => left ≤ right

def reconcileActivePackReads (reads : List RuntimeActivePackRead)
    (ranges : List StockRequiredRange) : Except String ReconciledActivePackReads := do
  let sorted ← reads.foldlM (sortRead packs) {}
  if sorted.unattributedRequests ≠ 0 then
    .error "stock-plan:active-pack-read-unattributed"
  else
    let wholeReads := sortReads sorted.wholeReads
    let wholeChecksums ← wholeReads.foldlM (checkWholeRead packs) []
    let observedTrailerPackKeys :=
      (reads.filter fun read => decide (read.kind = .trailer)).map
        RuntimeActivePackRead.packKey
    if sortStrings (packs.map BoundActivePack.packKey) ≠
        sortStrings observedTrailerPackKeys then
      .error "stock-plan:active-pack-trailer-source-mismatch"
    else
      let trailerReads := sortReads sorted.trailerReads
      if trailerReads.map ObservedRead.packChecksum ≠
            sortStrings (packs.map BoundActivePack.packChecksum) ∨
          ∃ read ∈ trailerReads, read.returnedBytes ≠ 20 then
        .error "stock-plan:active-pack-trailer-observation-mismatch"
      else
        let expectedRanges := sortRanges
          (ranges.filter fun range => decide (range.packChecksum ∉ wholeChecksums))
        let bodyReads := sortReads sorted.bodyReads
        if bodyReads.map (fun read => (read.key, read.returnedBytes)) ≠
            expectedRanges.map (fun range => (range.key, range.stop - range.start)) then
          .error "stock-plan:active-pack-range-observation-mismatch"
        else
          let requiredReads :=
            ranges.filter fun range => decide (range.packChecksum ∉ wholeChecksums)
          .ok {
            trailerReads, requiredReads, wholeReads
            trailerBytes := (trailerReads.map ObservedRead.returnedBytes).sum
            trailerRequests := trailerReads.length
            rangeBytes := (requiredReads.map fun range => range.stop - range.start).sum
            rangeRequests := requiredReads.length
            wholeBytes := sorted.wholeBytes
            wholeRequests := sorted.wholeRequests }

end Reconcile

end GitOnCloudflare.Planner.ActiveReads
