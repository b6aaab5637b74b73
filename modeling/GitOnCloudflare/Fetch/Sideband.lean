import GitOnCloudflare.Core.PktLine
import GitOnCloudflare.Foundations.EventRun

/-!
# The side-band stream of a fetch

The response behind the acknowledgements: progress and pack in banded packets,
a fatal message, and the flush.  The pack comes through a transform that cuts
it into packets, and the loop that relays them looks at the abort signal and
at the read lease between its waits.  Messages are bytes.
-/

namespace GitOnCloudflare.Fetch

open GitOnCloudflare.Core (PktBytes pktLine flushPkt)

/-! ## Packets -/

def sidebandPayloadMaxBytes : Nat := 65515

/-- The three bands of a response. -/
inductive Band where
  | pack
  | progress
  | fatal
deriving DecidableEq

def Band.byte : Band → UInt8
  | pack => 1
  | progress => 2
  | fatal => 3

/-- A band byte and a payload that fits into a packet. -/
structure SidebandPacket where
  band : Band
  payload : PktBytes
  fits : payload.length ≤ sidebandPayloadMaxBytes
deriving DecidableEq

def SidebandPacket.bytes (packet : SidebandPacket) : PktBytes :=
  pktLine (packet.band.byte :: packet.payload)

/-- The loop over the slices of a payload. -/
def sidebandSlices (band : Band) : Nat → PktBytes → List SidebandPacket
  | 0, _ => []
  | rounds + 1, payload =>
    if payload = [] then
      []
    else
      ⟨band, payload.take sidebandPayloadMaxBytes, List.length_take_le _ _⟩ ::
        sidebandSlices band rounds (payload.drop sidebandPayloadMaxBytes)

/-- Cut a payload into packets. -/
def createSidebandPacketChunks (band : Band) (payload : PktBytes) :
    List SidebandPacket :=
  if payload = [] then
    [⟨band, [], Nat.zero_le _⟩]
  else
    sidebandSlices band payload.length payload

/-- The text of a constant. -/
def asciiBytes (text : String) : PktBytes :=
  text.toList.map fun char => UInt8.ofNat char.toNat

def emitProgress (message : PktBytes) : List SidebandPacket :=
  createSidebandPacketChunks .progress message

def emitFatal (message : PktBytes) : List SidebandPacket :=
  createSidebandPacketChunks .fatal (asciiBytes "fatal: " ++ message ++ [0x0a])

/-! ## The response -/

/-- What goes to the controller. -/
inductive ResponseChunk where
  | packet (sent : SidebandPacket)
  | flush
deriving DecidableEq

def ResponseChunk.bytes : ResponseChunk → PktBytes
  | .packet sent => sent.bytes
  | .flush => flushPkt

/-- The readable side of the transform. -/
inductive Upstream where
  | opened
  | closed
  | failed
deriving DecidableEq

/-- Where `start` and the loop of `pipePackWithSideband` stand. -/
inductive Place where
  | resolving
  | waiting
  | top
  | reading
  | holding (value : SidebandPacket)
  | sending (value : SidebandPacket)
  | closed
  | cancelled
deriving DecidableEq

/-- The stream between the pack and the client. -/
structure StreamState where
  source : List PktBytes
  queue : List SidebandPacket
  upstream : Upstream
  aborted : Bool
  leaseLost : Bool
  progressMessages : List PktBytes
  place : Place
  out : List ResponseChunk

namespace StreamState

/-- The response begins with a progress message. -/
def start (chunks : List PktBytes) : StreamState where
  source := chunks
  queue := []
  upstream := .opened
  aborted := false
  leaseLost := false
  progressMessages := []
  place := .resolving
  out := (emitProgress (asciiBytes "Preparing pack...\n")).map .packet

/-- `sendRemaining` and the loop of `sendPending`. -/
def sendProgress (state : StreamState) : StreamState :=
  { state with
    progressMessages := []
    out := state.out ++
      (state.progressMessages.flatMap emitProgress).map .packet }

/-- `closeSidebandWithFatal`. -/
def closeWithFatal (state : StreamState) (message : PktBytes) : StreamState :=
  { state with
    place := .closed
    out := state.out ++ (emitFatal message).map .packet ++ [.flush] }

/-- Behind the loop: the remaining progress, the flush and `close`. -/
def complete (state : StreamState) : StreamState :=
  { state.sendProgress with
    place := .closed
    out := state.sendProgress.out ++ [.flush] }

end StreamState

/-- What can happen next.  Messages of errors are whatever was thrown. -/
inductive StreamEvent where
  | push (message : PktBytes)
  | abort
  | heartbeatFailure
  | cancel
  | transform
  | terminate
  | finish
  | sourceFailure
  | resolved
  | unresolved (message : PktBytes)
  | begin
  | breakOff
  | read
  | take
  | done
  | readFailure (message : PktBytes)
  | onChunk
  | leaseFailure (message : PktBytes)
  | sendPending
  | capacityFailure (message : PktBytes)
  | enqueue
deriving DecidableEq

def streamStep (state : StreamState) : StreamEvent → Option StreamState
  | .push message =>
    some { state with progressMessages := state.progressMessages ++ [message] }
  | .abort => some { state with aborted := true }
  | .heartbeatFailure => some { state with aborted := true, leaseLost := true }
  | .cancel =>
    if state.place = .closed then none
    else some { state with aborted := true, place := .cancelled }
  -- the transform, from the time the pack is piped through it
  | .transform =>
    match state.source with
    | [] => none
    | chunk :: source =>
      if state.place ≠ .resolving ∧ state.upstream = .opened ∧
          state.aborted = false then
        some
          { state with
            source
            queue := state.queue ++ createSidebandPacketChunks .pack chunk }
      else
        none
  | .terminate =>
    if state.place ≠ .resolving ∧ state.upstream = .opened ∧
        state.aborted = true ∧ state.source ≠ [] then
      some { state with upstream := .closed }
    else
      none
  | .finish =>
    if state.place ≠ .resolving ∧ state.upstream = .opened ∧
        state.source = [] then
      some { state with upstream := .closed }
    else
      none
  -- an error of the source drops what has not been read
  | .sourceFailure =>
    if state.place ≠ .resolving ∧ state.upstream = .opened then
      some { state with upstream := .failed, queue := [] }
    else
      none
  -- `resolvePackForStream` and the lease check behind it
  | .resolved =>
    if state.place = .resolving ∧ state.leaseLost = false then
      some { state with place := .waiting }
    else
      none
  | .unresolved message =>
    if state.place = .resolving then
      some (state.closeWithFatal message)
    else
      none
  -- `waitForFirst` and the progress before the loop
  | .begin =>
    if state.place = .waiting then
      some { state.sendProgress with place := .top }
    else
      none
  | .breakOff =>
    if state.place = .top ∧ state.aborted = true then
      some state.complete
    else
      none
  | .read =>
    if state.place = .top ∧ state.aborted = false then
      some { state with place := .reading }
    else
      none
  | .take =>
    match state.queue with
    | [] => none
    | value :: queue =>
      if state.place = .reading then
        some { state with queue, place := .holding value }
      else
        none
  | .done =>
    if state.place = .reading ∧ state.queue = [] ∧
        state.upstream = .closed then
      some state.complete
    else
      none
  | .readFailure message =>
    if state.place = .reading ∧ state.upstream = .failed then
      some (state.closeWithFatal message)
    else
      none
  | .onChunk =>
    match state.place with
    | .holding value =>
      if state.leaseLost = false then
        some { state with place := .sending value }
      else
        none
    | _ => none
  | .leaseFailure message =>
    match state.place with
    | .holding _ =>
      if state.leaseLost = true then
        some (state.closeWithFatal message)
      else
        none
    | _ => none
  | .sendPending =>
    match state.place with
    | .sending _ => some state.sendProgress
    | _ => none
  | .capacityFailure message =>
    match state.place with
    | .sending _ =>
      if state.aborted = true then
        some (state.closeWithFatal message)
      else
        none
    | _ => none
  | .enqueue =>
    match state.place with
    | .sending value =>
      some { state with place := .top, out := state.out ++ [.packet value] }
    | _ => none

end GitOnCloudflare.Fetch
