import GitOnCloudflare.Foundations.ByteTable
import GitOnCloudflare.Foundations.ChunkedReader
import GitOnCloudflare.Foundations.StringBytes
import GitOnCloudflare.Foundations.Text

/-!
# Bundles between the Worker and its container

A stock receive travels to the container as a header and three sections, and
its result comes back with three artifacts or none.  Each side writes one frame
and reads the other under limits of its own.  The texts of header and result
are given with their decoders, the hash is a parameter.
-/

namespace GitOnCloudflare.Receive.StockBundle

open Foundations
open Foundations.ByteTable

abbrev Bytes := List UInt8

abbrev BundleReader := ChunkedReader UInt8

/-- The text `STKREQ1` and a line feed. -/
def requestMagic : Bytes := [0x53, 0x54, 0x4b, 0x52, 0x45, 0x51, 0x31, 0x0a]

/-- The text `STKOUT1` and a line feed. -/
def responseMagic : Bytes := [0x53, 0x54, 0x4b, 0x4f, 0x55, 0x54, 0x31, 0x0a]

/-! ## Limits of the container -/

def stockBundleHeaderBytes : Nat := 64 * 1024

def stockBundleInputBytes : Nat := 48 * 1024 * 1024

def stockBundleOutputBytes : Nat := 96 * 1024 * 1024

def stockBundleArtifactBytes : Nat := 32 * 1024 * 1024

def maxStockRequestBytes : Nat := 16 * 1024 * 1024

def maxStockMetadataBytes : Nat := 16 * 1024 * 1024

def maxStockResponseBytes : Nat := 1024 * 1024

def maxCommands : Nat := 4096

def maxStockClosureObjects : Nat := 100000

def maxStockClosureEdges : Nat := 500000

/-- What the container reads of a request at most. -/
def maximumRequest : Nat := 12 + stockBundleHeaderBytes + stockBundleInputBytes

/-! ## Limits of the Worker -/

def bundleHeaderMaxBytes : Nat := 64 * 1024

def hostResultMaxBytes : Nat := 1024 * 1024

def artifactMaxBytes : Nat := 32 * 1024 * 1024

def bundleRequestMaxBytes : Nat := 48 * 1024 * 1024 + bundleHeaderMaxBytes + 12

def bundleResponseMaxBytes : Nat := 96 * 1024 * 1024 + hostResultMaxBytes + 12

def maxManifestBytes : Nat := 512 * 1024

def maxInputPackBytes : Nat := 16 * 1024 * 1024

/-! ## The request as the container checks it -/

/-- One update of a ref. -/
structure ReceiveCommand where
  oldOid : String
  newOid : String
  ref : String

/-- A ref as it was advertised. -/
structure StockAdvertisedRef where
  name : String
  oid : String

/-- The header of a request. -/
structure StockReceiveRequest where
  operationId : String
  inputRequestKey : String
  inputRequestBytes : Int
  inputRequestSha256 : String
  packOffset : Int
  prerequisitePackKey : String
  prerequisitePackBytes : Int
  prerequisitePackSha256 : String
  closureManifestKey : String
  closureManifestBytes : Int
  closureManifestSha256 : String
  advertisedRefs : List StockAdvertisedRef
  commands : List ReceiveCommand
  outputPackKey : String
  outputIdxKey : String
  outputRefsKey : String

/-- `^[0-9a-f]{40}$` -/
def objectIDPattern (text : String) : Bool :=
  text.toList.length == 40 &&
    text.toList.all fun char => char.isDigit || "abcdef".toList.contains char

/-- `^[0-9a-f]{64}$` -/
def sha256Pattern (text : String) : Bool :=
  text.toList.length == 64 &&
    text.toList.all fun char => char.isDigit || "abcdef".toList.contains char

/-- `^refs/[^\x00-\x20~^:?*\\\[]+$` -/
def refNamePattern (text : String) : Bool :=
  Text.startsWith text "refs/" && decide (5 < text.toList.length) &&
    (text.toList.drop 5).all fun char =>
      decide (0x20 < char.toNat) && !"~^:?*\\[".toList.contains char

/-- The container's checks of a request header. -/
def validateStockReceiveRequest (input : StockReceiveRequest) :
    Except String Unit :=
  if input.operationId = "" ∨ 200 < input.operationId.utf8ByteSize then
    .error "invalid operation id"
  else if input.inputRequestKey = "" ∨ input.inputRequestBytes ≤ 0 ∨
      (maxStockRequestBytes : Int) < input.inputRequestBytes then
    .error "invalid stock receive request body declaration"
  else if input.inputRequestSha256.utf8ByteSize ≠ 64 ∨ input.packOffset ≤ 0 ∨
      input.inputRequestBytes ≤ input.packOffset then
    .error "invalid stock receive request binding"
  else if input.prerequisitePackKey = "" ∨ input.prerequisitePackBytes ≤ 0 ∨
      (maxStockMetadataBytes : Int) < input.prerequisitePackBytes ∨
      input.prerequisitePackSha256.utf8ByteSize ≠ 64 then
    .error "invalid prerequisite pack declaration"
  else if input.closureManifestKey = "" ∨ input.closureManifestBytes ≤ 0 ∨
      (maxStockMetadataBytes : Int) < input.closureManifestBytes ∨
      input.closureManifestSha256.utf8ByteSize ≠ 64 then
    .error "invalid closure manifest declaration"
  else if maxCommands < input.advertisedRefs.length ∨ input.commands.length = 0 ∨
      maxCommands < input.commands.length then
    .error "invalid stock receive command or advertisement count"
  else if ∃ ref ∈ input.advertisedRefs,
      objectIDPattern ref.oid = false ∨ refNamePattern ref.name = false then
    .error "invalid advertised ref"
  else if ∃ command ∈ input.commands, objectIDPattern command.oldOid = false ∨
      objectIDPattern command.newOid = false ∨
      refNamePattern command.ref = false then
    .error "invalid receive command"
  else if input.outputPackKey = "" ∨ input.outputIdxKey = "" ∨
      input.outputRefsKey = "" then
    .error "missing output key"
  else
    .ok ()

/-! ## Reading a request -/

/-- Read so many bytes, or fail with the message. -/
def readFull (reader : BundleReader) (need : Nat) (message : String) :
    Except String (Bytes × BundleReader) :=
  (reader.exact need message).mapError fun _ => message

/-- Behind the limit the body fails; how it is cut does not matter any more. -/
def maxBytesReader (limit : Nat) (body : BundleReader) : BundleReader :=
  if body.ahead.length ≤ limit then
    body
  else
    { pending := body.ahead.take limit
      chunks := []
      filled := fun _ member => absurd member List.not_mem_nil
      fails := some "http: request body too large" }

section Request

-- The JSON of one request with no unknown field and nothing behind it.
variable (decode : Bytes → Option StockReceiveRequest)

/-- Read the magic, the header's length and the header. -/
def decodeStockBundleHeader (reader : BundleReader) :
    Except String (StockReceiveRequest × Nat × BundleReader) := do
  let (magic, reader) ← readFull reader 8 "invalid stock bundle magic"
  if magic ≠ requestMagic then
    .error "invalid stock bundle magic"
  else
    let (lengthBytes, reader) ← readFull reader 4 "stock bundle header is truncated"
    let headerLength := ofBigEndian lengthBytes
    if headerLength = 0 ∨ stockBundleHeaderBytes < headerLength then
      .error "stock bundle header exceeds its bound"
    else
      let (header, reader) ←
        readFull reader headerLength "stock bundle header is truncated"
      match decode header with
      | none => .error "stock bundle header is invalid"
      | some input =>
        let _ ← validateStockReceiveRequest input
        .ok (input, headerLength, reader)

/-- Read one input section into its file. -/
def receiveStockBundleSection (reader : BundleReader) (expected : Int) :
    Except String (Bytes × BundleReader) :=
  if expected ≤ 0 ∨ (stockBundleArtifactBytes : Int) < expected then
    .error "stock bundle input exceeds its bound"
  else
    readFull reader expected.toNat "stock bundle input is truncated"

/-- What the handler has read when it starts to process. -/
structure ReceivedBundle where
  input : StockReceiveRequest
  request : Bytes
  prerequisite : Bytes
  manifest : Bytes

/-- Read the three input sections, and no more. -/
def receiveStockBundleSections (input : StockReceiveRequest)
    (reader : BundleReader) : Except String (ReceivedBundle × BundleReader) := do
  let (request, reader) ←
    receiveStockBundleSection reader input.inputRequestBytes
  let (prerequisite, reader) ←
    receiveStockBundleSection reader input.prerequisitePackBytes
  let (manifest, reader) ←
    receiveStockBundleSection reader input.closureManifestBytes
  .ok ({ input, request, prerequisite, manifest }, reader)

/-- The length that the parts declare. -/
def expectedRequest (headerLength : Nat) (input : StockReceiveRequest) : Int :=
  12 + headerLength + input.inputRequestBytes + input.prerequisitePackBytes +
    input.closureManifestBytes

/-- `stockReceiveBundleHandler` up to the processing of what it has read. -/
def receiveStockBundle (busy : Bool) (contentLength : Int) (body : BundleReader) :
    Except String ReceivedBundle :=
  if contentLength ≤ 0 ∨ (maximumRequest : Int) < contentLength then
    .error "invalid stock bundle declaration"
  else do
    let (input, headerLength, reader) ←
      (decodeStockBundleHeader decode (maxBytesReader maximumRequest body)).mapError
        fun _ => "invalid stock bundle header"
    if contentLength ≠ expectedRequest headerLength input ∨
        (maximumRequest : Int) < expectedRequest headerLength input then
      .error "stock bundle length mismatch"
    else if busy then
      .error "repository processor busy"
    else
      let (received, reader) ←
        (receiveStockBundleSections input reader).mapError
          fun _ => "stock bundle input is truncated"
      if reader.atEnd then
        .ok received
      else
        .error "stock bundle input has trailing bytes"

end Request

/-! ## Writing a request -/

def isValidNativeReceiveOperationId (value : String) : Bool :=
  decide (0 < value.toList.length) && decide (value.toList.length ≤ 100) &&
    value.toList.all fun char => char.isAlphanum || char == '_' || char == '-'

/-- One character between the quotation marks of a JSON text. -/
def quoteCharacter (char : Char) : List Char :=
  if char = '"' then ['\\', '"']
  else if char = '\\' then ['\\', '\\']
  else if char.toNat = 0x08 then ['\\', 'b']
  else if char.toNat = 0x0c then ['\\', 'f']
  else if char = '\n' then ['\\', 'n']
  else if char = '\r' then ['\\', 'r']
  else if char = '\t' then ['\\', 't']
  else if char.toNat < 0x20 then
    ['\\', 'u', '0', '0', (char.toNat / 16).digitChar, (char.toNat % 16).digitChar]
  else [char]

def quote (text : String) : List Char :=
  '"' :: (text.toList.flatMap quoteCharacter ++ ['"'])

def jsonMember (name : String) (value : List Char) : List Char :=
  quote name ++ ':' :: value

/-- The members in braces, with commas between. -/
def jsonObject (members : List (List Char)) : List Char :=
  '{' :: (List.intercalate [','] members ++ ['}'])

def jsonArray (items : List (List Char)) : List Char :=
  '[' :: (List.intercalate [','] items ++ [']'])

def jsonNumber (value : Int) : List Char := (toString value).toList

def jsonRef (ref : StockAdvertisedRef) : List Char :=
  jsonObject [jsonMember "name" (quote ref.name), jsonMember "oid" (quote ref.oid)]

def jsonCommand (command : ReceiveCommand) : List Char :=
  jsonObject [jsonMember "oldOid" (quote command.oldOid),
    jsonMember "newOid" (quote command.newOid), jsonMember "ref" (quote command.ref)]

/-- `JSON.stringify(stockHostRequest(operation, plan))` -/
def stockHostRequest (request : StockReceiveRequest) : List Char :=
  jsonObject
    [ jsonMember "operationId" (quote request.operationId),
      jsonMember "inputRequestKey" (quote request.inputRequestKey),
      jsonMember "inputRequestBytes" (jsonNumber request.inputRequestBytes),
      jsonMember "inputRequestSha256" (quote request.inputRequestSha256),
      jsonMember "packOffset" (jsonNumber request.packOffset),
      jsonMember "prerequisitePackKey" (quote request.prerequisitePackKey),
      jsonMember "prerequisitePackBytes" (jsonNumber request.prerequisitePackBytes),
      jsonMember "prerequisitePackSha256" (quote request.prerequisitePackSha256),
      jsonMember "closureManifestKey" (quote request.closureManifestKey),
      jsonMember "closureManifestBytes" (jsonNumber request.closureManifestBytes),
      jsonMember "closureManifestSha256" (quote request.closureManifestSha256),
      jsonMember "advertisedRefs" (jsonArray (request.advertisedRefs.map jsonRef)),
      jsonMember "commands" (jsonArray (request.commands.map jsonCommand)),
      jsonMember "outputPackKey" (quote request.outputPackKey),
      jsonMember "outputIdxKey" (quote request.outputIdxKey),
      jsonMember "outputRefsKey" (quote request.outputRefsKey) ]

/-- `new TextEncoder().encode(text)` -/
def encodeText (text : List Char) : Bytes := text.flatMap String.utf8EncodeChar

/-- A size from zero up to a bound. -/
def assertSafeBytes (value : Int) (name : String) (maximum : Int) :
    Except String Unit :=
  if value < 0 ∨ maximum < value then
    .error ("stock-plan:" ++ name ++ "-limit")
  else
    .ok ()

/-- The sizes that planning checks, in its order. -/
def checkPlan (inputRequestBytes packBytes packOffset : Int)
    (prerequisite manifest : Bytes) : Except String Unit := do
  let _ ← assertSafeBytes inputRequestBytes "input-request-bytes" maxInputPackBytes
  let _ ← assertSafeBytes packBytes "input-pack-bytes" maxInputPackBytes
  let _ ← assertSafeBytes packOffset "input-pack-offset" inputRequestBytes
  if packOffset + packBytes ≠ inputRequestBytes then
    .error "stock-plan:input-pack-span"
  else if maxInputPackBytes < prerequisite.length then
    .error "stock-plan:prerequisite-pack-limit"
  else if maxManifestBytes < manifest.length then
    .error "stock-plan:manifest-limit"
  else
    .ok ()

/-- The writes of one bundle. -/
def writeRequestBundle (header : Bytes) (inputs : List Bytes) : List Bytes :=
  requestMagic :: bigEndian 4 header.length :: header :: inputs

/-- The declared length and the writes of the bundle that is sent. -/
def requestBundle (header input prerequisite manifest : Bytes) :
    Except String (Nat × List Bytes) :=
  let requestBytes :=
    12 + header.length + input.length + prerequisite.length + manifest.length
  if bundleHeaderMaxBytes < header.length ∨ bundleRequestMaxBytes < requestBytes then
    .error "stock-data-plane:request-bundle-limit"
  else
    .ok (requestBytes, writeRequestBundle header [input, prerequisite, manifest])

/-! ## Writing a response -/

/-- One event of the trace of `git receive-pack`. -/
structure StockTraceEvent where
  sequence : Nat
  event : String
deriving DecidableEq

structure StockObjectTypeCounts where
  commit : Int
  tree : Int
  blob : Int
  tag : Int
deriving DecidableEq

/-- The counts of the closure manifest. -/
structure StockClosureCounts where
  incomingObjectCount : Int
  visitedIncomingObjectCount : Int
  logicalEdgeCount : Int
  internalEdgeCount : Int
  externalEdgeCount : Int
  missingObjectCount : Int
  objectTypeCounts : StockObjectTypeCounts

/-- The closure as the hook has found it before the refs moved. -/
structure StockClosureProof where
  planSha256 : String
  incomingOids : List String
  semanticExternalOids : List String
  visitedIncomingObjectCount : Int
  logicalEdgeCount : Int
  internalEdgeCount : Int
  externalEdgeCount : Int
  missingObjectCount : Int
  objectTypeCounts : StockObjectTypeCounts
deriving DecidableEq

/-- The container's result document. -/
structure StockReceiveResponse where
  resultKind : String
  operationId : String
  receivePackResponse : String
  receiveResponseBytes : Nat
  inputRequestSha256 : String
  packBytes : Int
  idxBytes : Int
  refsBytes : Int
  packSha1 : String
  packSha256 : String
  idxSha256 : String
  refsSha256 : String
  objectCount : Nat
  inputPackObjectCount : Nat
  trace : List StockTraceEvent
  planSha256 : String
  closureProof : StockClosureProof

/-- The loop of `validateSortedUniqueOIDs` behind `prior`. -/
def sortedUniqueBehind (prior : String) : List String → Bool
  | [] => true
  | oid :: values =>
    objectIDPattern oid && (prior = "" || prior < oid) &&
      sortedUniqueBehind oid values

/-- Empty lists are allowed wherever a result is concerned. -/
def validateSortedUniqueOIDs (values : List String) : Bool :=
  values.length ≤ maxStockClosureObjects && sortedUniqueBehind "" values

/-- The checks of `validateStockClosureManifest` on the counts. -/
def validateStockClosureCounts (counts : StockClosureCounts) : Bool :=
  decide (0 ≤ counts.incomingObjectCount) &&
    decide (counts.incomingObjectCount ≤ maxStockClosureObjects) &&
    decide (0 ≤ counts.visitedIncomingObjectCount) &&
    decide (counts.visitedIncomingObjectCount ≤ counts.incomingObjectCount) &&
    decide (0 ≤ counts.logicalEdgeCount) &&
    decide (counts.logicalEdgeCount ≤ maxStockClosureEdges) &&
    decide (0 ≤ counts.internalEdgeCount) &&
    decide (0 ≤ counts.externalEdgeCount) &&
    counts.internalEdgeCount + counts.externalEdgeCount ==
      counts.logicalEdgeCount &&
    counts.missingObjectCount == 0 &&
    decide (0 ≤ counts.objectTypeCounts.commit) &&
    decide (0 ≤ counts.objectTypeCounts.tree) &&
    decide (0 ≤ counts.objectTypeCounts.blob) &&
    decide (0 ≤ counts.objectTypeCounts.tag) &&
    counts.objectTypeCounts.commit + counts.objectTypeCounts.tree +
        counts.objectTypeCounts.blob + counts.objectTypeCounts.tag ==
      counts.visitedIncomingObjectCount

/-- The container's checks of the closure proof. -/
def validateStockClosureProof (proof : StockClosureProof)
    (counts : StockClosureCounts) (semanticExternalOids : List String)
    (planSha256 : String) : Bool :=
  proof.planSha256 == planSha256 && proof.missingObjectCount == 0 &&
    proof.visitedIncomingObjectCount == counts.visitedIncomingObjectCount &&
    proof.logicalEdgeCount == counts.logicalEdgeCount &&
    proof.internalEdgeCount == counts.internalEdgeCount &&
    proof.externalEdgeCount == counts.externalEdgeCount &&
    proof.objectTypeCounts == counts.objectTypeCounts &&
    proof.semanticExternalOids == semanticExternalOids &&
    (proof.incomingOids.length : Int) == counts.visitedIncomingObjectCount &&
    validateSortedUniqueOIDs proof.incomingOids &&
    validateSortedUniqueOIDs proof.semanticExternalOids

/-- `readStockTrace` numbers the events of the file. -/
def readStockTrace (events : List String) : List StockTraceEvent :=
  events.mapIdx fun index event => ⟨index + 1, event⟩

/-- The events that a receive passes, in order. -/
def validateStockTrace (trace : List StockTraceEvent) : Bool :=
  trace.map StockTraceEvent.event ==
    ["receive_pack_invoked", "pre_receive_started",
      "pre_receive_quarantine_nonempty", "logical_closure_started_ref_still_old",
      "incoming_oid_visible_in_quarantine", "logical_closure_completed",
      "pre_receive_succeeded", "disposable_ref_update_observed"]

/-- The characters of `base64.StdEncoding`. -/
def base64Character (value : Nat) : Char :=
  "ABCDEFGHIJKLMNOPQRSTUVWXYZabcdefghijklmnopqrstuvwxyz0123456789+/".toList.getD
    value '='

/-- `base64.StdEncoding.EncodeToString` -/
def encodeBase64 : Bytes → List Char
  | [] => []
  | [first] =>
    [base64Character (first.toNat / 4), base64Character (first.toNat % 4 * 16),
      '=', '=']
  | [first, second] =>
    [base64Character (first.toNat / 4),
      base64Character (first.toNat % 4 * 16 + second.toNat / 16),
      base64Character (second.toNat % 16 * 4), '=']
  | first :: second :: third :: rest =>
    base64Character (first.toNat / 4) ::
      base64Character (first.toNat % 4 * 16 + second.toNat / 16) ::
      base64Character (second.toNat % 16 * 4 + third.toNat / 64) ::
      base64Character (third.toNat % 64) :: encodeBase64 rest

/-- What the container has put on its data plane. -/
abbrev Outputs := List (String × Bytes)

/-- Store one output under its key. -/
def upload (outputs : Outputs) (key : String) (source : Bytes) (expected : Int) :
    Except String Outputs :=
  if expected ≤ 0 ∨ (stockBundleArtifactBytes : Int) < expected then
    .error "bundle output exceeds its bound"
  else if (outputs.lookup key).isSome then
    .error "bundle output key was reused"
  else if (source.length : Int) ≠ expected then
    .error "bundle file length mismatch"
  else
    .ok (outputs ++ [(key, source)])

/-- The uploads of one processing: key, file and declared length. -/
def uploadAll (uploads : List (String × Bytes × Int)) : Except String Outputs :=
  uploads.foldlM (fun outputs entry => upload outputs entry.1 entry.2.1 entry.2.2) []

/-- No kind stands for artifacts. -/
def normalizedStockResultKind (resultKind : String) : String :=
  if resultKind = "" then "artifacts" else resultKind

/-- The declared length and the writes behind the checks of the result. -/
def sendStockBundle (kind : String) (resultBytes pack idx refs : Bytes) :
    Except String (Nat × List Bytes) :=
  let responseBytes :=
    12 + resultBytes.length + pack.length + idx.length + refs.length
  if 12 + maxStockResponseBytes + stockBundleOutputBytes < responseBytes then
    .error "stock bundle response exceeds its bound"
  else
    .ok (responseBytes,
      responseMagic :: bigEndian 4 resultBytes.length :: resultBytes ::
        if kind = "artifacts" then [pack, idx, refs] else [])

/-- `stockReceiveBundleHandler` behind the processing. -/
def stockBundleResponse (marshal : StockReceiveResponse → Bytes)
    (input : StockReceiveRequest) (result : StockReceiveResponse)
    (outputs : Outputs) : Except String (Nat × List Bytes) :=
  if marshal result = [] ∨ maxStockResponseBytes < (marshal result).length then
    .error "stock result metadata exceeds its bound"
  else
    let pack := outputs.lookup input.outputPackKey
    let idx := outputs.lookup input.outputIdxKey
    let refs := outputs.lookup input.outputRefsKey
    let kind := normalizedStockResultKind result.resultKind
    if kind = "ref-only" then
      if pack.isSome ∨ idx.isSome ∨ refs.isSome ∨ result.packBytes ≠ 0 ∨
          result.idxBytes ≠ 0 ∨ result.refsBytes ≠ 0 ∨ result.objectCount ≠ 0 then
        .error "ref-only stock result unexpectedly produced outputs"
      else
        sendStockBundle kind (marshal result) [] [] []
    else
      match pack, idx, refs with
      | some pack, some idx, some refs =>
        if (pack.length : Int) ≠ result.packBytes ∨
            (idx.length : Int) ≠ result.idxBytes ∨
            (refs.length : Int) ≠ result.refsBytes then
          .error "stock result outputs are incomplete"
        else
          sendStockBundle kind (marshal result) pack idx refs
      | _, _, _ => .error "stock result outputs are incomplete"

/-! ## Reading a response -/

/-- Whether a receive has made artifacts. -/
inductive ResultKind where
  | artifacts
  | refOnly
deriving DecidableEq

/-- The result as the Worker reads it. -/
structure HostResult where
  operationId : String
  resultKind : ResultKind
  receivePackResponse : String
  receiveResponseBytes : Nat
  inputRequestSha256 : String
  packBytes : Nat
  idxBytes : Nat
  refsBytes : Nat
  packSha1 : Option String
  packSha256 : Option String
  idxSha256 : Option String
  refsSha256 : Option String
  objectCount : Nat
  inputPackObjectCount : Nat
  trace : List StockTraceEvent
  planSha256 : String
  closureProof : StockClosureProof
deriving DecidableEq

/-- What the fields of a result with artifacts are. -/
def HostResult.hasArtifacts (result : HostResult) : Bool :=
  decide (0 < result.packBytes) && decide (0 < result.idxBytes) &&
    decide (0 < result.refsBytes) && decide (0 < result.objectCount) &&
    result.packSha1.isSome && result.packSha256.isSome &&
    result.idxSha256.isSome && result.refsSha256.isSome

/-- What the fields of a ref-only result are. -/
def HostResult.isRefOnly (result : HostResult) : Bool :=
  decide (result.packBytes = 0) && decide (result.idxBytes = 0) &&
    decide (result.refsBytes = 0) && decide (result.objectCount = 0) &&
    result.packSha1.isNone && result.packSha256.isNone &&
    result.idxSha256.isNone && result.refsSha256.isNone

/-- A text whose code units number within bounds. -/
def textWithin (least most : Nat) (text : String) : Bool :=
  least ≤ (StringBytes.units text).length && (StringBytes.units text).length ≤ most

/-- A nonnegative integer up to a bound. -/
def countWithin (most : Nat) (count : Int) : Bool :=
  decide (0 ≤ count) && decide (count ≤ most)

/-- The issue of a field that is not as its schema says. -/
def issue (valid : Bool) (path : List String) : List (List String) :=
  if valid then [] else [path]

/-- The issues of an array: those of its items, then that of its length. -/
def itemIssues {Item : Type} (most : Nat) (path : List String)
    (issues : List String → Item → List (List String)) (items : List Item) :
    List (List String) :=
  (items.zipIdx.flatMap fun item => issues (path ++ [toString item.2]) item.1) ++
    issue (items.length ≤ most) path

/-- What the schema finds wrong with a closure proof. -/
def closureProofIssues (proof : StockClosureProof) : List (List String) :=
  let oids := itemIssues maxStockClosureObjects
  let oid := fun path text => issue (objectIDPattern text) path
  issue (sha256Pattern proof.planSha256) ["closureProof", "planSha256"] ++
    oids ["closureProof", "incomingOids"] oid proof.incomingOids ++
    oids ["closureProof", "semanticExternalOids"] oid proof.semanticExternalOids ++
    issue (countWithin 100000 proof.visitedIncomingObjectCount)
      ["closureProof", "visitedIncomingObjectCount"] ++
    issue (countWithin 500000 proof.logicalEdgeCount)
      ["closureProof", "logicalEdgeCount"] ++
    issue (countWithin 500000 proof.internalEdgeCount)
      ["closureProof", "internalEdgeCount"] ++
    issue (countWithin 500000 proof.externalEdgeCount)
      ["closureProof", "externalEdgeCount"] ++
    issue (countWithin 500000 proof.missingObjectCount)
      ["closureProof", "missingObjectCount"] ++
    issue (0 ≤ proof.objectTypeCounts.commit)
      ["closureProof", "objectTypeCounts", "commit"] ++
    issue (0 ≤ proof.objectTypeCounts.tree)
      ["closureProof", "objectTypeCounts", "tree"] ++
    issue (0 ≤ proof.objectTypeCounts.blob)
      ["closureProof", "objectTypeCounts", "blob"] ++
    issue (0 ≤ proof.objectTypeCounts.tag)
      ["closureProof", "objectTypeCounts", "tag"]

/-- The issues that the schema finds, in its order. -/
def hostResultIssues (result : HostResult) : List (List String) :=
  issue (textWithin 1 100 result.operationId) ["operationId"] ++
    issue (textWithin 1 1400000 result.receivePackResponse)
      ["receivePackResponse"] ++
    issue (result.receiveResponseBytes ≤ 1024 * 1024) ["receiveResponseBytes"] ++
    issue (sha256Pattern result.inputRequestSha256) ["inputRequestSha256"] ++
    issue (result.packBytes ≤ artifactMaxBytes) ["packBytes"] ++
    issue (result.idxBytes ≤ artifactMaxBytes) ["idxBytes"] ++
    issue (result.refsBytes ≤ artifactMaxBytes) ["refsBytes"] ++
    issue (result.packSha1.all objectIDPattern) ["packSha1"] ++
    issue (result.packSha256.all sha256Pattern) ["packSha256"] ++
    issue (result.idxSha256.all sha256Pattern) ["idxSha256"] ++
    issue (result.refsSha256.all sha256Pattern) ["refsSha256"] ++
    issue (result.objectCount ≤ 100256) ["objectCount"] ++
    issue (result.inputPackObjectCount ≤ 100000) ["inputPackObjectCount"] ++
    itemIssues 128 ["trace"]
      (fun path event =>
        issue (0 < event.sequence) (path ++ ["sequence"]) ++
          issue (textWithin 1 100 event.event) (path ++ ["event"]))
      result.trace ++
    issue (sha256Pattern result.planSha256) ["planSha256"] ++
    closureProofIssues result.closureProof

/-- The diagnostic of the first issue. -/
def issueText (path : List String) : String :=
  String.ofList
    (((String.intercalate "-" path).toList.map Char.toLower).take 36)

/-- `hostResultSchema`: the fields, then whether kind and artifacts agree. -/
def checkHostResult (result : HostResult) : Except String HostResult :=
  match hostResultIssues result with
  | path :: _ =>
    .error ("stock-data-plane:response-header-" ++ issueText path)
  | [] =>
    if (result.resultKind = .artifacts ∧ result.hasArtifacts = false) ∨
        (result.resultKind = .refOnly ∧ result.isRefOnly = false) then
      .error "stock-data-plane:response-header-result-artifact-contract"
    else
      .ok result

/-- An object of the bucket and its digest. -/
structure StoredArtifact where
  bytes : Bytes
  sha256 : String

abbrev Bucket := String → Option StoredArtifact

def Bucket.store (bucket : Bucket) (key : String) (object : StoredArtifact) :
    Bucket :=
  fun other => if other = key then some object else bucket other

/-- A put is answered, is lost, or is done without an answer. -/
inductive PutAnswer where
  | answered
  | lost
  | unanswered
deriving DecidableEq

/-- What happens to the put and to the reading back. -/
structure StoreFaults where
  put : PutAnswer := .answered
  read : Bool := false

/-- An artifact that the result announces. -/
structure Artifact where
  key : String
  bytes : Nat
  sha256 : String
  role : String
  faults : StoreFaults := {}

/-- What the Worker expects a result to be bound to. -/
structure StockOperation where
  id : String
  inputRequestSha256 : String
  planSha256 : String
  outputPackKey : String
  outputIdxKey : String
  outputRefsKey : String

/-- The answer of the container as it arrives. -/
structure StockResponse where
  ok : Bool
  contentLength : Option Nat
  body : Option BundleReader
  failureCode : String

section Response

variable (sha256 : Bytes → String)

/-- The object that is already there must be the artifact. -/
def verifyExisting (bucket : Bucket) (artifact : Artifact) : Except String Unit :=
  if artifact.faults.read then
    .error "stock-data-plane:output-upload-failed"
  else
    match bucket artifact.key with
    | none => .error ("stock-data-plane:existing-output-" ++ artifact.role ++
        "-authority-mismatch")
    | some existing =>
      if existing.bytes.length ≠ artifact.bytes then
        .error ("stock-data-plane:existing-output-" ++ artifact.role ++
          "-authority-mismatch")
      else if sha256 existing.bytes ≠ artifact.sha256 then
        .error ("stock-data-plane:existing-output-" ++ artifact.role ++
          "-digest-mismatch")
      else if existing.sha256 ≠ artifact.sha256 then
        .error ("stock-data-plane:" ++ artifact.role ++ "-immutable-conflict")
      else
        .ok ()

/-- A put that must not replace an object, with the bucket it leaves. -/
def putArtifact (bucket : Bucket) (artifact : Artifact) (bytes : Bytes) : Bucket :=
  if artifact.faults.put = .lost ∨ (bucket artifact.key).isSome then
    bucket
  else
    bucket.store artifact.key { bytes, sha256 := artifact.sha256 }

/-- Read one artifact and store it. -/
def receiveArtifact (bucket : Bucket) (reader : BundleReader)
    (artifact : Artifact) : Except String BundleReader × Bucket :=
  match reader.exact artifact.bytes "stock-data-plane:bundle-truncated" with
  | .error message => (.error message, bucket)
  | .ok (bytes, reader) =>
    if sha256 bytes ≠ artifact.sha256 then
      (.error ("stock-data-plane:" ++ artifact.role ++ "-stream-digest-mismatch"),
        bucket)
    else
      let stored := putArtifact bucket artifact bytes
      if artifact.faults.put = .answered ∧ bucket artifact.key = none then
        (.ok reader, stored)
      else
        ((verifyExisting sha256 stored artifact).map fun _ => reader, stored)

/-- Read and store the artifacts in order. -/
def receiveArtifacts (bucket : Bucket) (reader : BundleReader) :
    List Artifact → Except String BundleReader × Bucket
  | [] => (.ok reader, bucket)
  | artifact :: artifacts =>
    match receiveArtifact sha256 bucket reader artifact with
    | (.error message, bucket) => (.error message, bucket)
    | (.ok reader, bucket) => receiveArtifacts bucket reader artifacts

/-- Nothing may follow the last artifact. -/
def expectEof (reader : BundleReader) : Except String Unit :=
  if reader.atEnd then
    .ok ()
  else
    .error "stock-data-plane:bundle-trailing-bytes"

variable (parse : Bytes → Option HostResult)

/-- Parse the result document and check it. -/
def parseHostResultPayload (bytes : Bytes) : Except String HostResult :=
  match parse bytes with
  | none => .error "stock-data-plane:response-header-json-invalid"
  | some result => checkHostResult result

/-- The result in front of the artifacts. -/
def readHostResult (operation : StockOperation) (declared : Nat)
    (reader : BundleReader) : Except String (HostResult × BundleReader) := do
  let (magic, reader) ← reader.exact 8 "stock-data-plane:bundle-truncated"
  if magic ≠ responseMagic then
    .error "stock-data-plane:response-magic-invalid"
  else
    let (lengthBytes, reader) ← reader.exact 4 "stock-data-plane:bundle-truncated"
    let resultLength := ofBigEndian lengthBytes
    if resultLength = 0 ∨ hostResultMaxBytes < resultLength then
      .error "stock-data-plane:response-header-limit"
    else
      let (payload, reader) ←
        reader.exact resultLength "stock-data-plane:bundle-truncated"
      let host ← parseHostResultPayload parse payload
      if host.operationId ≠ operation.id ∨
          host.inputRequestSha256 ≠ operation.inputRequestSha256 ∨
          host.planSha256 ≠ operation.planSha256 ∨
          declared ≠ 12 + resultLength + host.packBytes + host.idxBytes +
            host.refsBytes then
        .error "stock-data-plane:response-binding-invalid"
      else
        .ok (host, reader)

/-- The artifacts of a result in the order of the frame. -/
def hostArtifacts (operation : StockOperation) (faults : String → StoreFaults)
    (host : HostResult) : List Artifact :=
  match host.resultKind with
  | .refOnly => []
  | .artifacts =>
    [ { key := operation.outputPackKey, bytes := host.packBytes
        sha256 := host.packSha256.getD "", role := "pack"
        faults := faults "pack" },
      { key := operation.outputIdxKey, bytes := host.idxBytes
        sha256 := host.idxSha256.getD "", role := "index"
        faults := faults "index" },
      { key := operation.outputRefsKey, bytes := host.refsBytes
        sha256 := host.refsSha256.getD "", role := "references"
        faults := faults "references" } ]

/-- `executeStreamingContainer` from the response of the container on, with the
bucket it leaves. -/
def receiveStockResponse (operation : StockOperation)
    (faults : String → StoreFaults) (bucket : Bucket) (response : StockResponse) :
    Except String HostResult × Bucket :=
  match response.body, response.contentLength with
  | some reader, some declared =>
    if response.ok = false ∨ declared ≤ 12 ∨ bundleResponseMaxBytes < declared then
      (.error response.failureCode, bucket)
    else
      match readHostResult parse operation declared reader with
      | .error message => (.error message, bucket)
      | .ok (host, reader) =>
        match receiveArtifacts sha256 bucket reader
            (hostArtifacts operation faults host) with
        | (.error message, bucket) => (.error message, bucket)
        | (.ok reader, bucket) =>
          ((expectEof reader).map fun _ => host, bucket)
  | _, _ => (.error response.failureCode, bucket)

end Response

end GitOnCloudflare.Receive.StockBundle
