import GitOnCloudflare.Foundations.CheckedFold

/-!
# Staging a pack

Three ways to put a pack that streams in into the bucket: with a known length,
in parts, and behind the commands of a stock request.  All of them check the
header and the trailer through a window over the chunks.  A call on the platform
may fail; the hash is a parameter.
-/

namespace GitOnCloudflare.Receive.PackStaging

open Foundations

abbrev Bytes := List UInt8

def multipartPartBytes : Nat := 8 * 1024 * 1024

def packHeaderBytes : Nat := 12

def packTrailerBytes : Nat := 20

def maxStockReceiveRequestBytes : Nat := 16 * 1024 * 1024

/-! ## The window -/

/-- What is known of the bytes so far, and what the digest was given. -/
structure PackWindow where
  totalBytes : Nat := 0
  headerPrefix : Bytes := []
  tail : Bytes := []
  digested : Bytes := []

/-- The version as the shifts leave it, a signed number of 32 bits. -/
def packVersion (header : Bytes) : Int :=
  Int.bmod (((header.drop 4).take 4).foldl
    (fun version byte => version * 256 + byte.toNat) 0 : Nat) 4294967296

def validatePackHeader (header : Bytes) : Except String Unit :=
  if header.length < packHeaderBytes then
    .ok ()
  else if header.take 4 ≠ [0x50, 0x41, 0x43, 0x4b] then
    .error "receive-pack body did not begin with a valid PACK header."
  else if (header.drop 4).take 4 ≠ [0, 0, 0, 2] then
    .error s!"Unsupported pack version {packVersion header}."
  else
    .ok ()

/-- The trailer is held back from the digest. -/
def updateTrailerWindow (window : PackWindow) (chunk : Bytes) : PackWindow :=
  let combined := window.tail ++ chunk
  if combined.length ≤ packTrailerBytes then
    { window with tail := combined }
  else
    let digestBytes := combined.length - packTrailerBytes
    { window with
      digested := window.digested ++ combined.take digestBytes
      tail := combined.drop digestBytes }

def PackWindow.read (window : PackWindow) (chunk : Bytes) :
    Except String PackWindow :=
  let counted := { window with totalBytes := window.totalBytes + chunk.length }
  if window.headerPrefix.length < packHeaderBytes then
    let headerNeeded := packHeaderBytes - window.headerPrefix.length
    let header := window.headerPrefix ++ chunk.take headerNeeded
    match validatePackHeader header with
    | .error message => .error message
    | .ok () => .ok (updateTrailerWindow { counted with headerPrefix := header } chunk)
  else
    .ok (updateTrailerWindow counted chunk)

/-! ## The platform -/

/-- The body of a request: its chunks, and whether the stream then fails. -/
structure PackStream where
  chunks : List Bytes
  fails : Bool := false

/-- Which calls on the platform fail. -/
structure StagingFaults where
  create : Bool := false
  put : Bool := false
  beforeComplete : Bool := false
  uploadPart : Nat → Bool := fun _ => false
  complete : Bool := false
  delete : Bool := false

inductive UploadEvent where
  | write (bytes : Bytes)
  | beforeComplete (packBytes : Nat) (packSha1 : Bytes)
deriving DecidableEq

structure StagedPack where
  packBytes : Nat
  packSha1 : Bytes

/-- How staging ends, what is then under the key, and what it did before. -/
structure Staging (Value : Type) where
  outcome : Except String Value
  stored : Option Bytes
  events : List UploadEvent := []
  parts : List Bytes := []

/-- The put did not end: it is atomic and leaves nothing.  Whether what was
there before is deleted is not looked at. -/
def deleteArtifact (faults : StagingFaults) (stored : Option Bytes) :
    Option Bytes :=
  if faults.delete then stored else none

section Staging

variable (sha1 : Bytes → Bytes) (faults : StagingFaults)

/-- The digest of all that was held behind the trailer. -/
def checkTrailer (window : PackWindow) : Except String Bytes :=
  if sha1 window.digested ≠ window.tail then
    .error "Received pack trailer SHA-1 did not match the streamed body."
  else
    .ok (sha1 window.digested)

/-! ## Known length -/

structure KnownLengthState where
  window : PackWindow := {}
  uploaded : Bytes := []
  events : List UploadEvent := []

/-- A fixed length stream takes no more than its length. -/
def KnownLengthState.write (expectedLength : Nat) (state : KnownLengthState)
    (bytes : Bytes) : Except String KnownLengthState :=
  if expectedLength < state.uploaded.length + bytes.length then
    .error "Attempt to write too many bytes through a FixedLengthStream."
  else
    .ok { state with
      uploaded := state.uploaded ++ bytes
      events := state.events ++ [.write bytes] }

/-- With a durable owner the last bytes are held back. -/
def knownLengthChunk (durable : Bool) (expectedLength : Nat)
    (state : KnownLengthState) (chunk : Bytes) :
    Except String KnownLengthState :=
  match state.window.read chunk with
  | .error message => .error message
  | .ok window =>
    let read := { state with window := window }
    if durable then
      let uploadBytes := state.window.tail ++ chunk
      if packTrailerBytes < uploadBytes.length then
        read.write expectedLength
          (uploadBytes.take (uploadBytes.length - packTrailerBytes))
      else
        .ok read
    else
      read.write expectedLength chunk

/-- The end of a stream that is uploaded, up to the close of the upload. -/
def finishKnownLength (durable : Bool) (expectedLength : Nat)
    (state : KnownLengthState) : Except String (StagedPack × KnownLengthState) :=
  if state.window.totalBytes ≠ expectedLength then
    .error "Received pack length did not match Content-Length."
  else if state.window.totalBytes < packHeaderBytes + packTrailerBytes then
    .error "Received pack body was too short."
  else
    match checkTrailer sha1 state.window with
    | .error message => .error message
    | .ok digest =>
      if durable then
        if faults.beforeComplete then
          .error "beforeComplete"
        else
          let owned := { state with
            events := state.events ++
              [UploadEvent.beforeComplete state.window.totalBytes digest] }
          match owned.write expectedLength state.window.tail with
          | .error message => .error message
          | .ok written => .ok (⟨state.window.totalBytes, digest⟩, written)
      else
        .ok (⟨state.window.totalBytes, digest⟩, state)

/-- All up to the end of the put. -/
def uploadKnownLength (durable : Bool) (expectedLength : Nat)
    (packStream : PackStream) : Except String (StagedPack × KnownLengthState) :=
  match packStream.chunks.foldlM (knownLengthChunk durable expectedLength) {} with
  | .error message => .error message
  | .ok state =>
    if packStream.fails then
      .error "stream"
    else
      match finishKnownLength sha1 faults durable expectedLength state with
      | .error message => .error message
      | .ok (pack, written) =>
        if written.uploaded.length ≠ expectedLength then
          .error "FixedLengthStream did not see all expected bytes"
        else if faults.put then
          .error "r2:put-pack"
        else
          .ok (pack, written)

/-- A put with a durable owner does not replace what is stored, and nobody
looks whether it did; without one, what a failure leaves is deleted. -/
def stageKnownLengthPack (durable : Bool) (expectedLength : Nat)
    (packStream : PackStream) (stored : Option Bytes) : Staging StagedPack :=
  if expectedLength = 0 then
    { outcome := .error "Streaming receive expected a non-empty pack body."
      stored := stored }
  else
    match uploadKnownLength sha1 faults durable expectedLength packStream with
    | .error message =>
      { outcome := .error message
        stored := if durable then stored else deleteArtifact faults stored }
    | .ok (pack, written) =>
      { outcome := .ok pack
        stored :=
          if durable ∧ stored.isSome then stored else some written.uploaded
        events := written.events }

/-! ## Parts -/

structure MultipartState where
  window : PackWindow := {}
  buffered : Bytes := []
  parts : List Bytes := []

/-- A part is uploaded under the number behind those before it. -/
def MultipartState.upload (state : MultipartState) (bytes rest : Bytes) :
    Except String MultipartState :=
  if faults.uploadPart (state.parts.length + 1) then
    .error "r2:upload-pack-part"
  else
    .ok { state with parts := state.parts ++ [bytes], buffered := rest }

/-- Upload full parts while there are any; the fuel is what is buffered. -/
def flushParts : Nat → MultipartState → Except String MultipartState
  | 0, state => .ok state
  | fuel + 1, state =>
    if state.buffered.length < multipartPartBytes then
      .ok state
    else
      match state.upload faults (state.buffered.take multipartPartBytes)
          (state.buffered.drop multipartPartBytes) with
      | .error message => .error message
      | .ok uploaded => flushParts fuel uploaded

def multipartChunk (state : MultipartState) (chunk : Bytes) :
    Except String MultipartState :=
  match state.window.read chunk with
  | .error message => .error message
  | .ok window =>
    let buffered := state.buffered ++ chunk
    flushParts faults buffered.length
      { state with window := window, buffered := buffered }

def finishMultipart (state : MultipartState) :
    Except String (StagedPack × List Bytes) :=
  if state.window.totalBytes < packHeaderBytes + packTrailerBytes then
    .error "Received pack body was too short."
  else if state.buffered = [] ∧ state.parts = [] then
    .error "Streaming receive expected a non-empty pack body."
  else
    match state.upload faults state.buffered [] with
    | .error message => .error message
    | .ok uploaded =>
      match checkTrailer sha1 state.window with
      | .error message => .error message
      | .ok digest =>
        if faults.complete then
          .error "r2:complete-pack-multipart"
        else
          .ok (⟨state.window.totalBytes, digest⟩, uploaded.parts)

def uploadMultipart (packStream : PackStream) :
    Except String (StagedPack × List Bytes) :=
  match packStream.chunks.foldlM (multipartChunk faults) {} with
  | .error message => .error message
  | .ok state =>
    if packStream.fails then
      .error "stream"
    else
      finishMultipart sha1 faults state

/-- What a failure leaves is aborted and deleted. -/
def stageMultipartPack (packStream : PackStream) (stored : Option Bytes) :
    Staging StagedPack :=
  if faults.create then
    { outcome := .error "r2:create-pack-multipart", stored := stored }
  else
    match uploadMultipart sha1 faults packStream with
    | .error message =>
      { outcome := .error message
        stored := deleteArtifact faults stored }
    | .ok (pack, parts) =>
      { outcome := .ok pack, stored := some parts.flatten, parts := parts }

/-! ## Stock requests -/

structure StagedRequest where
  requestBytes : Nat
  requestSha256 : Bytes
  packOffset : Nat
  packBytes : Nat
  packData : Bytes

structure StockState where
  window : PackWindow := {}
  totalBytes : Nat
  written : Bytes

def stockChunk (expectedLength : Nat) (state : StockState) (chunk : Bytes) :
    Except String StockState :=
  if expectedLength - state.totalBytes < chunk.length then
    .error "Stock receive body exceeded Content-Length."
  else
    match state.window.read chunk with
    | .error message => .error message
    | .ok window =>
      .ok { window := window
            totalBytes := state.totalBytes + chunk.length
            written := state.written ++ chunk }

variable (sha256 : Bytes → Bytes)

def finishStock (expectedLength : Nat) (rawPrefix : Bytes) (chunks : List Bytes)
    (state : StockState) : Except String (StagedRequest × Bytes) :=
  if state.totalBytes ≠ expectedLength ∨
      state.window.totalBytes < packHeaderBytes + packTrailerBytes then
    .error "Stock receive body length did not match Content-Length."
  else
    match checkTrailer sha1 state.window with
    | .error message => .error message
    | .ok _ =>
      if faults.put then
        .error "r2:put-stock-receive-request"
      else
        .ok (⟨state.totalBytes, sha256 state.written, rawPrefix.length,
          state.window.totalBytes, chunks.flatten⟩, state.written)

def uploadStock (expectedLength : Nat) (rawPrefix : Bytes)
    (packStream : PackStream) : Except String (StagedRequest × Bytes) :=
  match packStream.chunks.foldlM (stockChunk expectedLength)
      ⟨{}, rawPrefix.length, rawPrefix⟩ with
  | .error message => .error message
  | .ok state =>
    if packStream.fails then
      .error "stream"
    else
      finishStock sha1 faults sha256 expectedLength rawPrefix
        packStream.chunks state

def stageStockReceiveRequestToR2 (contentLength : Option Nat)
    (rawPrefix : Bytes) (packStream : PackStream) (stored : Option Bytes) :
    Staging StagedRequest :=
  match contentLength.filter fun expectedLength =>
      rawPrefix.length < expectedLength &&
        decide (expectedLength ≤ maxStockReceiveRequestBytes) with
  | none =>
    { outcome :=
        .error "Stock receive requires a bounded exact Content-Length."
      stored := stored }
  | some expectedLength =>
    match uploadStock sha1 faults sha256 expectedLength rawPrefix
        packStream with
    | .error message =>
      { outcome := .error message
        stored := deleteArtifact faults stored }
    | .ok (request, written) =>
      { outcome := .ok request, stored := some written }

end Staging

end GitOnCloudflare.Receive.PackStaging
