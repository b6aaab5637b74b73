import GitOnCloudflare.Receive.StockBundleResponses
import Mathlib.Data.Bool.AllAny

/-!
# The two sides of a bundle agree

Artifacts are stored under the digest of their bytes whatever the outcome, the
Worker accepts a frame to its last byte and no other, and what either side is
willing to send is accepted by the other.
-/

namespace GitOnCloudflare.Receive.StockBundle

open Foundations
open Foundations.ByteTable
open Foundations.CheckedFold

/-! ## Artifacts -/

variable {bytes : Bytes} {after : Bucket} {most contentLength : Nat}
  {values : List String} {writes : List Bytes}

section Artifacts

variable (sha256 : Bytes → String)

/-- The bytes have the length and the digest of an artifact. -/
structure Artifact.Matches (artifact : Artifact) (bytes : Bytes) : Prop where
  length : bytes.length = artifact.bytes
  digest : sha256 bytes = artifact.sha256

/-- Under the key there is an object with the length and digest of the artifact. -/
def Bucket.Holds (bucket : Bucket) (artifact : Artifact) : Prop :=
  ∃ bytes, bucket artifact.key = some { bytes, sha256 := artifact.sha256 } ∧
    artifact.Matches sha256 bytes

/-- Nothing is replaced, and what is new has the digest of its bytes. -/
def Bucket.Kept (before after : Bucket) : Prop :=
  ∀ key, after key = before key ∨
    (before key = none ∧ ∃ bytes, after key = some { bytes, sha256 := sha256 bytes })

variable {sha256}

theorem Bucket.Kept.trans {first second third : Bucket}
    (earlier : first.Kept sha256 second) (later : second.Kept sha256 third) :
    first.Kept sha256 third := by
  intro key
  rcases earlier key with same | ⟨absent, bytes, stored⟩
  · rw [← same]
    exact later key
  · rcases later key with same | ⟨gone, _⟩
    · exact Or.inr ⟨absent, bytes, same.trans stored⟩
    · cases stored.symm.trans gone

theorem Bucket.Holds.kept {before after : Bucket} {artifact : Artifact}
    (holds : before.Holds sha256 artifact) (kept : before.Kept sha256 after) :
    after.Holds sha256 artifact := by
  rcases holds with ⟨bytes, stored, same⟩
  rcases kept artifact.key with unchanged | ⟨absent, _⟩
  · exact ⟨bytes, unchanged.trans stored, same⟩
  · cases stored.symm.trans absent

variable {bucket after : Bucket} {reader next : BundleReader} {artifact : Artifact}

theorem kept_putArtifact (digest : sha256 bytes = artifact.sha256) :
    bucket.Kept sha256 (putArtifact bucket artifact bytes) := by
  intro key
  unfold putArtifact
  split
  · exact Or.inl rfl
  next fresh =>
    rcases not_or.mp fresh with ⟨_, absent⟩
    rw [Option.not_isSome_iff_eq_none] at absent
    unfold Bucket.store
    by_cases same : key = artifact.key
    · rw [if_pos same, same, ← digest]
      exact Or.inr ⟨absent, bytes, rfl⟩
    · exact Or.inl (if_neg same)

theorem kept_receiveArtifact :
    bucket.Kept sha256 (receiveArtifact sha256 bucket reader artifact).2 := by
  unfold receiveArtifact
  split
  · exact fun _ => Or.inl rfl
  next bytes rest _ =>
    split
    · exact fun _ => Or.inl rfl
    next digest =>
      dsimp only
      split
      · exact kept_putArtifact (not_not.mp digest)
      · exact kept_putArtifact (not_not.mp digest)

theorem verifyExisting_eq_ok {done : Unit}
    (verified : verifyExisting sha256 bucket artifact = .ok done) :
    bucket.Holds sha256 artifact := by
  unfold verifyExisting at verified
  split at verified
  · cases verified
  split at verified
  · cases verified
  next existing found =>
    split at verified
    · cases verified
    next length =>
      split at verified
      · cases verified
      next digest =>
        split at verified
        · cases verified
        next stored =>
          rw [not_not] at length digest stored
          refine ⟨existing.bytes, ?_, length, digest⟩
          rw [found, ← stored]

theorem receiveArtifact_sound
    (received : receiveArtifact sha256 bucket reader artifact = (.ok next, after)) :
    (∃ bytes, artifact.Matches sha256 bytes ∧
      reader.ahead = bytes ++ next.ahead ∧ next.fails = reader.fails) ∧
    after.Holds sha256 artifact := by
  unfold receiveArtifact at received
  split at received
  · cases received
  next bytes rest read =>
    rcases ChunkedReader.exact_sound read with ⟨length, ahead, fails⟩
    split at received
    · cases received
    next digest =>
      rw [not_not] at digest
      dsimp only at received
      split at received
      next fresh =>
        cases received
        refine ⟨⟨bytes, ⟨length, digest⟩, ahead, fails⟩, bytes, ?_, length, digest⟩
        unfold putArtifact
        rw [if_neg]
        · exact if_pos rfl
        · rw [fresh.1, fresh.2]
          rintro (lost | taken)
          · cases lost
          · cases taken
      next conflicting =>
        cases verified : verifyExisting sha256 (putArtifact bucket artifact bytes)
            artifact with
        | error message =>
          rw [verified] at received
          cases received
        | ok done =>
          rw [verified] at received
          cases received
          exact ⟨⟨bytes, ⟨length, digest⟩, ahead, fails⟩, verifyExisting_eq_ok verified⟩

theorem receiveArtifact_total {bytes rest : Bytes}
    (same : artifact.Matches sha256 bytes)
    (answered : artifact.faults.put = .answered) (fresh : bucket artifact.key = none)
    (ahead : reader.ahead = bytes ++ rest) :
    ∃ next, receiveArtifact sha256 bucket reader artifact =
        (.ok next, bucket.store artifact.key { bytes, sha256 := artifact.sha256 }) ∧
      next.ahead = rest ∧ next.fails = reader.fails := by
  rcases ChunkedReader.exact_total "stock-data-plane:bundle-truncated" ahead with
    ⟨next, read, behind⟩
  refine ⟨next, ?_, behind⟩
  rw [same.length] at read
  unfold receiveArtifact
  rw [read]
  dsimp only
  rw [if_neg (not_not.mpr same.digest), if_pos ⟨answered, fresh⟩]
  unfold putArtifact
  rw [if_neg]
  rw [answered, fresh]
  rintro (lost | taken)
  · cases lost
  · cases taken

theorem kept_receiveArtifacts (artifacts : List Artifact) (bucket : Bucket)
    (reader : BundleReader) :
    bucket.Kept sha256 (receiveArtifacts sha256 bucket reader artifacts).2 := by
  induction artifacts generalizing bucket reader with
  | nil => exact fun _ => Or.inl rfl
  | cons artifact artifacts ih =>
    have one := @kept_receiveArtifact sha256 bucket reader artifact
    unfold receiveArtifacts
    split
    next received =>
      rw [received] at one
      exact one
    next next after received =>
      rw [received] at one
      exact one.trans (ih after next)

theorem receiveArtifacts_sound {artifacts : List Artifact}
    (received : receiveArtifacts sha256 bucket reader artifacts = (.ok next, after)) :
    (∃ files, List.Forall₂ (Artifact.Matches sha256) artifacts files ∧
      reader.ahead = files.flatten ++ next.ahead ∧ next.fails = reader.fails) ∧
    ∀ artifact ∈ artifacts, after.Holds sha256 artifact := by
  induction artifacts generalizing bucket reader with
  | nil =>
    cases received
    exact ⟨⟨[], List.Forall₂.nil, rfl, rfl⟩,
      fun _ member => absurd member List.not_mem_nil⟩
  | cons artifact artifacts ih =>
    unfold receiveArtifacts at received
    split at received
    · cases received
    next behind between one =>
      rcases receiveArtifact_sound one with ⟨⟨bytes, same, ahead, fails⟩, holds⟩
      rcases ih received with ⟨⟨files, all, later, failsLater⟩, others⟩
      have kept := @kept_receiveArtifacts sha256 artifacts between behind
      rw [received] at kept
      constructor
      · refine ⟨bytes :: files, List.Forall₂.cons same all, ?_,
          failsLater.trans fails⟩
        rw [ahead, later, List.flatten_cons, List.append_assoc]
      · intro other member
        rcases List.mem_cons.mp member with rfl | member
        · exact holds.kept kept
        · exact others other member

end Artifacts

/-! ## Accepted responses -/

variable {host : HostResult} {bucket : Bucket} {response : StockResponse}
  {path : List String} {report : Bytes}

theorem checkHostResult_eq_ok {result : HostResult}
    (checked : checkHostResult result = .ok host) :
    host = result ∧
      (result.resultKind = .artifacts → result.hasArtifacts = true) ∧
      (result.resultKind = .refOnly → result.isRefOnly = true) := by
  unfold checkHostResult at checked
  split at checked
  · cases checked
  split at checked
  · cases checked
  next agrees =>
    cases checked
    rcases not_or.mp agrees with ⟨artifacts, refOnly⟩
    refine ⟨rfl, ?_, ?_⟩
    · intro kind
      by_contra never
      exact artifacts ⟨kind, Bool.eq_false_iff.mpr never⟩
    · intro kind
      by_contra never
      exact refOnly ⟨kind, Bool.eq_false_iff.mpr never⟩

theorem refOnly_lengths (refOnly : host.isRefOnly = true) :
    host.packBytes = 0 ∧ host.idxBytes = 0 ∧ host.refsBytes = 0 := by
  unfold HostResult.isRefOnly at refOnly
  simp only [Bool.and_eq_true, decide_eq_true_eq] at refOnly
  exact ⟨refOnly.1.1.1.1.1.1.1, refOnly.1.1.1.1.1.1.2, refOnly.1.1.1.1.1.2⟩

section Accepted

variable {sha256 : Bytes → String} {parse : Bytes → Option HostResult}
  {operation : StockOperation} {faults : String → StoreFaults} {host : HostResult}

/-- The files of the artifacts have the lengths that the result declares. -/
theorem length_files {payload : Bytes} {files : List Bytes}
    (parsed : parseHostResultPayload parse payload = .ok host)
    (all : List.Forall₂ (Artifact.Matches sha256)
      (hostArtifacts operation faults host) files) :
    files.flatten.length = host.packBytes + host.idxBytes + host.refsBytes := by
  unfold hostArtifacts at all
  split at all
  next kind =>
    cases all
    unfold parseHostResultPayload at parsed
    split at parsed
    · cases parsed
    next result _ =>
      rcases checkHostResult_eq_ok parsed with ⟨rfl, _, refOnly⟩
      rcases refOnly_lengths (refOnly kind) with ⟨pack, idx, refs⟩
      rw [pack, idx, refs]
      rfl
  next kind =>
    rcases all with _ | ⟨pack, _ | ⟨idx, _ | ⟨refs, ⟨⟩⟩⟩⟩
    simp only [List.flatten_cons, List.flatten_nil, List.length_append,
      List.length_nil, pack.length, idx.length, refs.length]
    omega

/-- The body of a response is one frame to the last byte, and its length was
declared. -/
structure AcceptedResponse (sha256 : Bytes → String)
    (parse : Bytes → Option HostResult) (operation : StockOperation)
    (faults : String → StoreFaults) (response : StockResponse) (host : HostResult)
    (payload : Bytes) (files : List Bytes) : Prop where
  ok : response.ok = true
  body : ∃ reader, response.body = some reader ∧ reader.fails = none ∧
    reader.ahead = responseFrame payload files
  length : response.contentLength = some (responseFrame payload files).length
  parsed : parseHostResultPayload parse payload = .ok host
  bounded : payload.length ≤ hostResultMaxBytes
  files : List.Forall₂ (Artifact.Matches sha256)
    (hostArtifacts operation faults host) files

theorem receiveStockResponse_sound
    (accepted : receiveStockResponse sha256 parse operation faults bucket response =
      (.ok host, after)) :
    (∃ payload files, AcceptedResponse sha256 parse operation faults response host
      payload files) ∧
    ∀ artifact ∈ hostArtifacts operation faults host, after.Holds sha256 artifact := by
  unfold receiveStockResponse at accepted
  split at accepted
  next reader declared body contentLength =>
    split at accepted
    · cases accepted
    next limits =>
      split at accepted
      · cases accepted
      next result behind read =>
        split at accepted
        · cases accepted
        next last between received =>
          unfold expectEof at accepted
          split at accepted
          next ended =>
            cases accepted
            rcases readHostResult_sound read with ⟨payload, frame, ahead, fails⟩
            rcases receiveArtifacts_sound received with
              ⟨⟨files, all, aheadFiles, failsFiles⟩, holds⟩
            rcases ChunkedReader.atEnd_iff.mp ended with ⟨empty, ends⟩
            have lengths := length_files frame.parsed all
            refine ⟨⟨payload, files, ?_, ⟨reader, body, ?_, ?_⟩, ?_, frame.parsed,
              frame.bounded, all⟩, holds⟩
            · by_contra never
              exact limits (Or.inl (Bool.eq_false_iff.mpr never))
            · exact fails.symm.trans (failsFiles.symm.trans ends)
            · rw [ahead, aheadFiles, empty, List.append_nil]
              rfl
            · rw [contentLength, length_responseFrame, lengths, frame.length]
              exact congrArg some (by omega)
          · cases accepted
  · cases accepted

theorem kept_receiveStockResponse (bucket : Bucket) (response : StockResponse) :
    bucket.Kept sha256
      (receiveStockResponse sha256 parse operation faults bucket response).2 := by
  have same : bucket.Kept sha256 bucket := fun _ => Or.inl rfl
  unfold receiveStockResponse
  split
  · split
    · exact same
    split
    · exact same
    next host behind _ =>
      have all := @kept_receiveArtifacts sha256 (hostArtifacts operation faults host)
        bucket behind
      split
      next received =>
        rw [received] at all
        exact all
      next received =>
        rw [received] at all
        exact all
  · exact same

end Accepted

/-! ## Sent responses are accepted -/

def presentText (text : String) : Option String :=
  if text = "" then none else some text

/-- What the fields of a result are to the Worker: empty texts are left out of
the JSON, and a missing kind stands for artifacts. -/
def hostOf (result : StockReceiveResponse) : HostResult where
  operationId := result.operationId
  resultKind := if result.resultKind = "ref-only" then .refOnly else .artifacts
  receivePackResponse := result.receivePackResponse
  receiveResponseBytes := result.receiveResponseBytes
  inputRequestSha256 := result.inputRequestSha256
  packBytes := result.packBytes.toNat
  idxBytes := result.idxBytes.toNat
  refsBytes := result.refsBytes.toNat
  packSha1 := presentText result.packSha1
  packSha256 := presentText result.packSha256
  idxSha256 := presentText result.idxSha256
  refsSha256 := presentText result.refsSha256
  objectCount := result.objectCount
  inputPackObjectCount := result.inputPackObjectCount
  trace := result.trace
  planSha256 := result.planSha256
  closureProof := result.closureProof

/-- A result of `processStockReceive` without outputs. -/
structure RefOnlyResult (result : StockReceiveResponse) : Prop where
  kind : result.resultKind = "ref-only"
  packSha1 : result.packSha1 = ""
  packSha256 : result.packSha256 = ""
  idxSha256 : result.idxSha256 = ""
  refsSha256 : result.refsSha256 = ""

/-- The digest of a result is that of the file under its key. -/
def DigestOf (sha256 : Bytes → String) (outputs : Outputs) (key digest : String) :
    Prop :=
  digest ≠ "" ∧ ∀ bytes, outputs.lookup key = some bytes → sha256 bytes = digest

/-- A result of `processStockReceive` for the files that it has uploaded. -/
structure ArtifactsResult (sha256 : Bytes → String) (input : StockReceiveRequest)
    (result : StockReceiveResponse) (outputs : Outputs) : Prop where
  kind : result.resultKind = ""
  objects : 0 < result.objectCount
  packSha1 : objectIDPattern result.packSha1 = true
  packSha256 : DigestOf sha256 outputs input.outputPackKey result.packSha256
  idxSha256 : DigestOf sha256 outputs input.outputIdxKey result.idxSha256
  refsSha256 : DigestOf sha256 outputs input.outputRefsKey result.refsSha256

/-- What `processStockReceive` has checked and filled in of every result.
`report` is what `git receive-pack` has written. -/
structure ProcessedResult (sha256 : Bytes → String) (input : StockReceiveRequest)
    (result : StockReceiveResponse) (outputs : Outputs) (report : Bytes) :
    Prop where
  validated : validateStockReceiveRequest input = .ok ()
  operationId : result.operationId = input.operationId
  receivePackResponse :
    result.receivePackResponse = String.ofList (encodeBase64 report)
  receiveResponseBytes : result.receiveResponseBytes = report.length
  report : report.length ≤ maxStockResponseBytes
  inputRequestSha256 : ∃ bytes, result.inputRequestSha256 = sha256 bytes
  inputPackObjectCount : result.inputPackObjectCount ≤ maxStockClosureObjects
  trace : ∃ events, result.trace = readStockTrace events ∧
    validateStockTrace result.trace = true
  planSha256 : ∃ bytes, result.planSha256 = sha256 bytes
  closureProof : ∃ counts semanticExternalOids,
    validateStockClosureCounts counts = true ∧
      validateStockClosureProof result.closureProof counts semanticExternalOids
        result.planSha256 = true
  outputs : RefOnlyResult result ∨ ArtifactsResult sha256 input result outputs

/-- `git receive-pack` has reported something, the output has no more objects
than the schema of the Worker allows, and neither has the operation id
characters. -/
structure WorkerTakes (input : StockReceiveRequest)
    (result : StockReceiveResponse) (report : Bytes) : Prop where
  report : report ≠ []
  objects : result.objectCount ≤ 100256
  operationId : (StringBytes.units input.operationId).length ≤ 100

/-! ### The fields of a processed result -/

theorem issue_eq_nil {valid : Bool} : issue valid path = [] ↔ valid = true := by
  unfold issue
  cases valid with
  | false => exact ⟨fun never => absurd never (List.cons_ne_nil _ _), nofun⟩
  | true => exact ⟨fun _ => rfl, fun _ => rfl⟩

theorem itemIssues_eq_nil {Item : Type}
    {issues : List String → Item → List (List String)} {items : List Item}
    (clean : ∀ item ∈ items, ∀ path, issues path item = [])
    (within : items.length ≤ most) :
    itemIssues most path issues items = [] := by
  unfold itemIssues
  rw [List.append_eq_nil_iff, issue_eq_nil, List.flatMap_eq_nil_iff]
  refine ⟨?_, decide_eq_true within⟩
  intro item member
  exact clean item.1 (List.fst_mem_of_mem_zipIdx member) _

theorem length_encodeBase64 (bytes : Bytes) :
    (encodeBase64 bytes).length = 4 * ((bytes.length + 2) / 3) := by
  fun_induction encodeBase64 bytes with
  | case1 => rfl
  | case2 first => simp only [List.length_cons, List.length_nil]
  | case3 first second => simp only [List.length_cons, List.length_nil]
  | case4 first second third rest ih =>
    simp only [List.length_cons, ih]
    omega

theorem toNat_base64Character_lt (value : Nat) :
    (base64Character value).toNat < 0x10000 := by
  have alphabet : ∀ char ∈ "ABCDEFGHIJKLMNOPQRSTUVWXYZabcdefghijklmnopqrstuvwxyz0123456789+/".toList,
      char.toNat < 0x10000 := by
    rw [← List.all_iff_forall_prop]
    rfl
  unfold base64Character
  rw [List.getD_eq_getElem?_getD]
  cases found : "ABCDEFGHIJKLMNOPQRSTUVWXYZabcdefghijklmnopqrstuvwxyz0123456789+/".toList[value]? with
  | none =>
    rw [Option.getD_none]
    decide
  | some char => exact alphabet char (List.mem_of_getElem? found)

theorem toNat_encodeBase64_lt {char : Char} (member : char ∈ encodeBase64 bytes) :
    char.toNat < 0x10000 := by
  have padding : '='.toNat < 0x10000 := by decide
  fun_induction encodeBase64 bytes with
  | case1 => cases member
  | case2 first =>
    simp only [List.mem_cons, List.not_mem_nil, or_false] at member
    rcases member with rfl | rfl | rfl | rfl
    · exact toNat_base64Character_lt _
    · exact toNat_base64Character_lt _
    · exact padding
    · exact padding
  | case3 first second =>
    simp only [List.mem_cons, List.not_mem_nil, or_false] at member
    rcases member with rfl | rfl | rfl | rfl
    · exact toNat_base64Character_lt _
    · exact toNat_base64Character_lt _
    · exact toNat_base64Character_lt _
    · exact padding
  | case4 first second third rest ih =>
    simp only [List.mem_cons] at member
    rcases member with rfl | rfl | rfl | rfl | later
    · exact toNat_base64Character_lt _
    · exact toNat_base64Character_lt _
    · exact toNat_base64Character_lt _
    · exact toNat_base64Character_lt _
    · exact ih later

theorem length_flatMap_charUnits {chars : List Char}
    (plain : ∀ char ∈ chars, char.toNat < 0x10000) :
    (chars.flatMap StringBytes.charUnits).length = chars.length := by
  induction chars with
  | nil => rfl
  | cons char chars ih =>
    have single : StringBytes.charUnits char = [char.toNat] :=
      if_pos (plain char List.mem_cons_self)
    rw [List.flatMap_cons, single, List.length_append,
      ih fun other member => plain other (List.mem_cons_of_mem _ member)]
    simp only [List.length_cons, List.length_nil]
    omega

/-- The report is within the schema just where there is one. -/
theorem textWithin_encodeBase64
    (bounded : report.length ≤ maxStockResponseBytes) :
    textWithin 1 1400000 (String.ofList (encodeBase64 report)) = true ↔
      report ≠ [] := by
  have most : maxStockResponseBytes = 1048576 := rfl
  have filled : report ≠ [] ↔ 0 < report.length := List.length_pos_iff.symm
  unfold textWithin StringBytes.units
  rw [String.toList_ofList, length_flatMap_charUnits fun _ =>
    toNat_encodeBase64_lt, length_encodeBase64, Bool.and_eq_true,
    decide_eq_true_eq, decide_eq_true_eq, filled]
  omega

theorem objectIDPattern_of_sortedUnique {prior : String}
    (sorted : sortedUniqueBehind prior values = true) :
    ∀ oid ∈ values, objectIDPattern oid = true := by
  induction values generalizing prior with
  | nil =>
    intro oid member
    cases member
  | cons head values ih =>
    unfold sortedUniqueBehind at sorted
    simp only [Bool.and_eq_true] at sorted
    intro oid member
    rcases List.mem_cons.mp member with rfl | later
    · exact sorted.1.1
    · exact ih sorted.2 oid later

theorem oidIssues_eq_nil (valid : validateSortedUniqueOIDs values = true) :
    itemIssues maxStockClosureObjects path
      (fun path text => issue (objectIDPattern text) path) values = [] := by
  unfold validateSortedUniqueOIDs at valid
  rw [Bool.and_eq_true] at valid
  apply itemIssues_eq_nil
  · intro oid member path
    exact issue_eq_nil.mpr (objectIDPattern_of_sortedUnique valid.2 oid member)
  · exact of_decide_eq_true valid.1

theorem countWithin_of {count : Int} (least : 0 ≤ count) (within : count ≤ most) :
    countWithin most count = true :=
  Bool.and_eq_true_iff.mpr ⟨decide_eq_true least, decide_eq_true within⟩

/-- A closure proof that the container has validated passes the schema. -/
theorem closureProofIssues_eq_nil {proof : StockClosureProof}
    {counts : StockClosureCounts} {semanticExternalOids : List String}
    {planSha256 : String} (plan : sha256Pattern planSha256 = true)
    (counted : validateStockClosureCounts counts = true)
    (proved : validateStockClosureProof proof counts semanticExternalOids
      planSha256 = true) : closureProofIssues proof = [] := by
  have objects : maxStockClosureObjects = 100000 := rfl
  have edges : maxStockClosureEdges = 500000 := rfl
  unfold validateStockClosureCounts at counted
  unfold validateStockClosureProof at proved
  simp only [Bool.and_eq_true, decide_eq_true_eq, beq_iff_eq] at counted proved
  rcases counted with ⟨⟨⟨⟨⟨⟨⟨⟨⟨⟨⟨⟨⟨⟨_, incoming⟩, visited⟩, visitedMost⟩,
    logical⟩, logicalMost⟩, internal⟩, external⟩, sum⟩, _⟩, commit⟩, tree⟩, blob⟩,
    tag⟩, _⟩
  rcases proved with ⟨⟨⟨⟨⟨⟨⟨⟨⟨⟨samePlan, missing⟩, sameVisited⟩, sameLogical⟩,
    sameInternal⟩, sameExternal⟩, sameTypes⟩, _⟩, _⟩, incomingOids⟩, externalOids⟩
  unfold closureProofIssues
  dsimp only
  simp only [List.append_eq_nil_iff, issue_eq_nil, decide_eq_true_eq]
  rw [samePlan, missing, sameVisited, sameLogical, sameInternal, sameExternal,
    sameTypes]
  exact ⟨⟨⟨⟨⟨⟨⟨⟨⟨⟨⟨plan, oidIssues_eq_nil incomingOids⟩,
    oidIssues_eq_nil externalOids⟩, countWithin_of visited (by omega)⟩,
    countWithin_of logical (by omega)⟩, countWithin_of internal (by omega)⟩,
    countWithin_of external (by omega)⟩, rfl⟩, commit⟩, tree⟩, blob⟩, tag⟩

/-- A trace that the container has validated passes the schema. -/
theorem traceIssues_eq_nil {events : List String}
    (valid : validateStockTrace (readStockTrace events) = true) :
    itemIssues 128 ["trace"]
      (fun path event =>
        issue (decide (0 < event.sequence)) (path ++ ["sequence"]) ++
          issue (textWithin 1 100 event.event) (path ++ ["event"]))
      (readStockTrace events) = [] := by
  have numbered : (readStockTrace events).map StockTraceEvent.event = events := by
    apply List.ext_getElem?
    intro index
    unfold readStockTrace
    rw [List.getElem?_map, List.getElem?_mapIdx, Option.map_map]
    exact Option.map_id'
  unfold validateStockTrace at valid
  rw [numbered, beq_iff_eq] at valid
  rw [valid]
  decide +kernel

section Sent

variable {sha256 : Bytes → String} {marshal : StockReceiveResponse → Bytes}
  {parse : Bytes → Option HostResult} {input : StockReceiveRequest}
  {result : StockReceiveResponse} {outputs : Outputs} {contentLength : Nat}
  {writes : List Bytes} {pack idx refs : Bytes}
  {text : String}

theorem presentText_of_ne (present : text ≠ "") :
    presentText text = some text := if_neg present

theorem SentFiles.lengths (files : SentFiles input result outputs pack idx refs) :
    (hostOf result).packBytes = pack.length ∧
      (hostOf result).idxBytes = idx.length ∧
      (hostOf result).refsBytes = refs.length := by
  unfold hostOf
  dsimp only
  rw [files.packBytes, files.idxBytes, files.refsBytes]
  exact ⟨Int.toNat_natCast _, Int.toNat_natCast _, Int.toNat_natCast _⟩

/-- Kind and artifacts of what the container sends agree. -/
theorem kind_agrees (bounded : outputs.Bounded)
    (files : SentFiles input result outputs pack idx refs)
    (processed : RefOnlyResult result ∨
      ArtifactsResult sha256 input result outputs) :
    ¬ (((hostOf result).resultKind = .artifacts ∧
        (hostOf result).hasArtifacts = false) ∨
      ((hostOf result).resultKind = .refOnly ∧
        (hostOf result).isRefOnly = false)) := by
  rcases files.lengths with ⟨packBytes, idxBytes, refsBytes⟩
  rcases processed with refOnly | artifacts
  · rcases files.kinds with ⟨kind, rfl, rfl, rfl, objects⟩ | ⟨other, _⟩
    · have whole : (hostOf result).isRefOnly = true := by
        unfold HostResult.isRefOnly
        rw [packBytes, idxBytes, refsBytes]
        unfold hostOf
        dsimp only
        rw [objects, refOnly.packSha1, refOnly.packSha256, refOnly.idxSha256,
          refOnly.refsSha256]
        rfl
      have is : (hostOf result).resultKind = .refOnly := if_pos kind
      rw [is, whole]
      rintro (⟨never, _⟩ | ⟨_, never⟩)
      · cases never
      · cases never
    · exact absurd refOnly.kind other
  · rcases files.kinds with ⟨kind, _⟩ | ⟨other, packAt, idxAt, refsAt⟩
    · rw [artifacts.kind] at kind
      exact absurd kind (by decide)
    · have packFilled :=
        List.length_pos_iff.mpr (bounded_lookup bounded packAt).1
      have idxFilled := List.length_pos_iff.mpr (bounded_lookup bounded idxAt).1
      have refsFilled := List.length_pos_iff.mpr (bounded_lookup bounded refsAt).1
      have packSha1 : result.packSha1 ≠ "" := by
        intro empty
        have hex := artifacts.packSha1
        rw [empty] at hex
        exact absurd hex (by decide)
      have whole : (hostOf result).hasArtifacts = true := by
        unfold HostResult.hasArtifacts
        rw [packBytes, idxBytes, refsBytes]
        unfold hostOf
        dsimp only
        rw [presentText_of_ne packSha1,
          presentText_of_ne artifacts.packSha256.1,
          presentText_of_ne artifacts.idxSha256.1,
          presentText_of_ne artifacts.refsSha256.1, decide_eq_true packFilled,
          decide_eq_true idxFilled, decide_eq_true refsFilled,
          decide_eq_true artifacts.objects]
        rfl
      have is : (hostOf result).resultKind = .artifacts := if_neg other
      rw [is, whole]
      rintro (⟨_, never⟩ | ⟨never, _⟩)
      · cases never
      · cases never

theorem presentText_all {valid : String → Bool}
    (passes : text ≠ "" → valid text = true) :
    (presentText text).all valid = true := by
  unfold presentText
  split
  · rfl
  · next present => exact passes present

/-- The digests of the files pass the schema. -/
theorem digests_valid (digests : ∀ bytes, sha256Pattern (sha256 bytes) = true)
    (files : SentFiles input result outputs pack idx refs)
    (processed : RefOnlyResult result ∨
      ArtifactsResult sha256 input result outputs) :
    (presentText result.packSha1).all objectIDPattern = true ∧
      (presentText result.packSha256).all sha256Pattern = true ∧
      (presentText result.idxSha256).all sha256Pattern = true ∧
      (presentText result.refsSha256).all sha256Pattern = true := by
  rcases processed with refOnly | artifacts
  · rw [refOnly.packSha1, refOnly.packSha256, refOnly.idxSha256,
      refOnly.refsSha256]
    exact ⟨rfl, rfl, rfl, rfl⟩
  · rcases files.kinds with ⟨kind, _⟩ | ⟨_, packAt, idxAt, refsAt⟩
    · rw [artifacts.kind] at kind
      exact absurd kind (by decide)
    · refine ⟨presentText_all fun _ => artifacts.packSha1, ?_, ?_, ?_⟩
      · rw [← artifacts.packSha256.2 pack packAt]
        exact presentText_all fun _ => digests pack
      · rw [← artifacts.idxSha256.2 idx idxAt]
        exact presentText_all fun _ => digests idx
      · rw [← artifacts.refsSha256.2 refs refsAt]
        exact presentText_all fun _ => digests refs

theorem operationId_filled (valid : validateStockReceiveRequest input = .ok ()) :
    1 ≤ (StringBytes.units input.operationId).length := by
  unfold validateStockReceiveRequest at valid
  split at valid
  · cases valid
  next bounded =>
    apply List.length_pos_iff.mpr
    intro empty
    apply bounded
    left
    have none : input.operationId.toList = [] := by
      by_contra some
      rcases List.exists_cons_of_ne_nil some with ⟨char, rest, same⟩
      unfold StringBytes.units at empty
      rw [same, List.flatMap_cons, List.append_eq_nil_iff] at empty
      exact StringBytes.charUnits_ne_nil char empty.1
    exact String.toList_eq_nil_iff.mp none

/-- What the container sends for a result of the processing passes the schema
just where the Worker takes it. -/
theorem checkHostResult_hostOf
    (digests : ∀ bytes, sha256Pattern (sha256 bytes) = true)
    (bounded : outputs.Bounded)
    (files : SentFiles input result outputs pack idx refs)
    (processed : ProcessedResult sha256 input result outputs report) :
    checkHostResult (hostOf result) = .ok (hostOf result) ↔
      WorkerTakes input result report := by
  rcases files.lengths with ⟨packBytes, idxBytes, refsBytes⟩
  rcases files.bounded bounded with ⟨packMost, idxMost, refsMost⟩
  rcases digests_valid digests files processed.outputs with
    ⟨packSha1, packSha256, idxSha256, refsSha256⟩
  rcases processed.inputRequestSha256 with ⟨request, inputSha256⟩
  rcases processed.planSha256 with ⟨plan, planSha256⟩
  rcases processed.trace with ⟨events, trace, traced⟩
  rcases processed.closureProof with ⟨counts, external, counted, proved⟩
  have planHex : sha256Pattern result.planSha256 = true := by
    rw [planSha256]
    exact digests plan
  have clean : hostResultIssues (hostOf result) = [] ↔
      WorkerTakes input result report := by
    unfold hostResultIssues
    rw [packBytes, idxBytes, refsBytes]
    unfold hostOf
    dsimp only
    rw [processed.operationId, processed.receivePackResponse,
      processed.receiveResponseBytes, inputSha256,
      closureProofIssues_eq_nil planHex counted proved, trace,
      traceIssues_eq_nil (trace ▸ traced)]
    simp only [List.append_eq_nil_iff, issue_eq_nil, decide_eq_true_eq,
      and_true]
    rw [textWithin_encodeBase64 processed.report]
    constructor
    · intro all
      refine ⟨all.1.1.1.1.1.1.1.1.1.1.1.1.2, all.1.1.2, ?_⟩
      have within := all.1.1.1.1.1.1.1.1.1.1.1.1.1
      unfold textWithin at within
      rw [Bool.and_eq_true] at within
      exact of_decide_eq_true within.2
    · intro takes
      have named : textWithin 1 100 input.operationId = true :=
        Bool.and_eq_true_iff.mpr ⟨decide_eq_true
          (operationId_filled processed.validated),
          decide_eq_true takes.operationId⟩
      exact ⟨⟨⟨⟨⟨⟨⟨⟨⟨⟨⟨⟨⟨named, takes.report⟩, processed.report⟩,
        digests request⟩, packMost⟩, idxMost⟩, refsMost⟩, packSha1⟩, packSha256⟩,
        idxSha256⟩, refsSha256⟩, takes.objects⟩,
        processed.inputPackObjectCount⟩, planHex⟩
  rw [← clean]
  unfold checkHostResult
  constructor
  · intro checked
    split at checked
    · cases checked
    · next none => exact none
  · intro none
    rw [none]
    exact if_neg (kind_agrees bounded files processed.outputs)

/-- The operation that the Worker waits for is the one in the request and the
result, and its keys are three different keys. -/
structure BoundTo (operation : StockOperation) (input : StockReceiveRequest)
    (result : StockReceiveResponse) : Prop where
  id : result.operationId = operation.id
  inputRequestSha256 : result.inputRequestSha256 = operation.inputRequestSha256
  planSha256 : result.planSha256 = operation.planSha256
  packKey : operation.outputPackKey = input.outputPackKey
  idxKey : operation.outputIdxKey = input.outputIdxKey
  refsKey : operation.outputRefsKey = input.outputRefsKey
  packIdx : input.outputPackKey ≠ input.outputIdxKey
  packRefs : input.outputPackKey ≠ input.outputRefsKey
  idxRefs : input.outputIdxKey ≠ input.outputRefsKey

/-- Nothing is under the keys of the outputs. -/
structure Bucket.Fresh (bucket : Bucket) (input : StockReceiveRequest) : Prop where
  pack : bucket input.outputPackKey = none
  idx : bucket input.outputIdxKey = none
  refs : bucket input.outputRefsKey = none

/-- The bucket with the artifacts of a result. -/
def storedOutputs (bucket : Bucket) (input : StockReceiveRequest)
    (result : StockReceiveResponse) (pack idx refs : Bytes) : Bucket :=
  if result.resultKind = "ref-only" then
    bucket
  else
    ((bucket.store input.outputPackKey ⟨pack, result.packSha256⟩).store
      input.outputIdxKey ⟨idx, result.idxSha256⟩).store
      input.outputRefsKey ⟨refs, result.refsSha256⟩

/-- A response that the transport hands over whole, cut in any way. -/
structure StockResponse.Carries (response : StockResponse) (contentLength : Nat)
    (writes : List Bytes) : Prop where
  ok : response.ok = true
  contentLength : response.contentLength = some contentLength
  body : ∃ reader, response.body = some reader ∧ reader.fails = none ∧
    reader.ahead = writes.flatten

theorem store_of_ne {key other : String} {object : StoredArtifact}
    (different : other ≠ key) : bucket.store key object other = bucket other :=
  if_neg different

variable {operation : StockOperation}

theorem receiveOutputs {reader : BundleReader} {rest : Bytes}
    (files : SentFiles input result outputs pack idx refs)
    (processed : RefOnlyResult result ∨
      ArtifactsResult sha256 input result outputs)
    (bound : BoundTo operation input result) (fresh : bucket.Fresh input)
    (ahead : reader.ahead = pack ++ (idx ++ (refs ++ rest))) :
    ∃ next, receiveArtifacts sha256 bucket reader
        (hostArtifacts operation (fun _ => {}) (hostOf result)) =
        (.ok next, storedOutputs bucket input result pack idx refs) ∧
      next.ahead = rest ∧ next.fails = reader.fails := by
  rcases files.lengths with ⟨packBytes, idxBytes, refsBytes⟩
  rcases files.kinds with ⟨kind, rfl, rfl, rfl, _⟩ | ⟨other, packAt, idxAt, refsAt⟩
  · have is : (hostOf result).resultKind = .refOnly := if_pos kind
    unfold hostArtifacts storedOutputs
    rw [is, if_pos kind]
    exact ⟨reader, rfl, ahead, rfl⟩
  · rcases processed with refOnly | artifacts
    · exact absurd refOnly.kind other
    have is : (hostOf result).resultKind = .artifacts := if_neg other
    have packSha256 : (hostOf result).packSha256 = some result.packSha256 :=
      presentText_of_ne artifacts.packSha256.1
    have idxSha256 : (hostOf result).idxSha256 = some result.idxSha256 :=
      presentText_of_ne artifacts.idxSha256.1
    have refsSha256 : (hostOf result).refsSha256 = some result.refsSha256 :=
      presentText_of_ne artifacts.refsSha256.1
    unfold hostArtifacts storedOutputs
    rw [is, if_neg other]
    dsimp only
    rw [packBytes, idxBytes, refsBytes, packSha256, idxSha256, refsSha256,
      bound.packKey, bound.idxKey, bound.refsKey, Option.getD_some, Option.getD_some,
      Option.getD_some]
    rcases @receiveArtifact_total sha256 bucket reader
        ⟨input.outputPackKey, pack.length, result.packSha256, "pack", {}⟩ pack _
        ⟨rfl, artifacts.packSha256.2 pack packAt⟩ rfl fresh.pack ahead with
      ⟨behindPack, first, aheadPack, failsPack⟩
    have idxFresh : bucket.store input.outputPackKey ⟨pack, result.packSha256⟩
        input.outputIdxKey = none :=
      (store_of_ne bound.packIdx.symm).trans fresh.idx
    rcases @receiveArtifact_total sha256 _ behindPack
        ⟨input.outputIdxKey, idx.length, result.idxSha256, "index", {}⟩ idx _
        ⟨rfl, artifacts.idxSha256.2 idx idxAt⟩ rfl idxFresh aheadPack with
      ⟨behindIdx, second, aheadIdx, failsIdx⟩
    have refsFresh : (bucket.store input.outputPackKey ⟨pack, result.packSha256⟩).store
        input.outputIdxKey ⟨idx, result.idxSha256⟩ input.outputRefsKey = none :=
      (store_of_ne bound.idxRefs.symm).trans
        ((store_of_ne bound.packRefs.symm).trans fresh.refs)
    rcases @receiveArtifact_total sha256 _ behindIdx
        ⟨input.outputRefsKey, refs.length, result.refsSha256, "references", {}⟩ refs _
        ⟨rfl, artifacts.refsSha256.2 refs refsAt⟩ rfl refsFresh aheadIdx with
      ⟨behindRefs, third, aheadRefs, failsRefs⟩
    refine ⟨behindRefs, ?_, aheadRefs, ?_⟩
    · unfold receiveArtifacts
      rw [first]
      dsimp only
      unfold receiveArtifacts
      rw [second]
      dsimp only
      unfold receiveArtifacts
      rw [third]
      rfl
    · rw [failsRefs, failsIdx, failsPack]

/-- The Worker recovers the result and the outputs of a response that it was
sent, however the transport cuts it. -/
theorem receiveStockResponse_sent
    (digests : ∀ bytes, sha256Pattern (sha256 bytes) = true)
    (bounded : outputs.Bounded)
    (processed : ProcessedResult sha256 input result outputs report)
    (takes : WorkerTakes input result report)
    (sent : stockBundleResponse marshal input result outputs =
      .ok (contentLength, writes))
    (parsed : parse (marshal result) = some (hostOf result))
    (bound : BoundTo operation input result) (fresh : bucket.Fresh input)
    (carries : response.Carries contentLength writes) :
    ∃ pack idx refs, SentFiles input result outputs pack idx refs ∧
      receiveStockResponse sha256 parse operation (fun _ => {}) bucket response =
        (.ok (hostOf result), storedOutputs bucket input result pack idx refs) := by
  rcases stockBundleResponse_eq_ok sent with
    ⟨nonempty, marshalled, pack, idx, refs, files, framed⟩
  rcases sendStockBundle_eq_ok framed with ⟨length, most, flat⟩
  rcases carries.body with ⟨reader, body, ends, ahead⟩
  rcases files.lengths with ⟨packBytes, idxBytes, refsBytes⟩
  have checked :=
    (checkHostResult_hostOf digests bounded files processed).mpr takes
  have frame : HostFrame parse operation contentLength (hostOf result)
      (marshal result) := by
    refine ⟨?_, nonempty, marshalled, bound.id, bound.inputRequestSha256,
      bound.planSha256, ?_⟩
    · unfold parseHostResultPayload
      rw [parsed]
      exact checked
    · rw [packBytes, idxBytes, refsBytes]
      exact length
  have filesFlat : (if normalizedStockResultKind result.resultKind = "artifacts" then
      [pack, idx, refs] else []).flatten = pack ++ (idx ++ (refs ++ [])) := by
    rcases files.kinds with ⟨kind, rfl, rfl, rfl, _⟩ | ⟨other, _⟩
    · rw [kind]
      rfl
    · rcases processed.outputs with refOnly | artifacts
      · exact absurd refOnly.kind other
      · rw [artifacts.kind]
        rfl
  have whole : reader.ahead = responseMagic ++ (bigEndian 4 (marshal result).length ++
      (marshal result ++ (pack ++ (idx ++ (refs ++ []))))) := by
    rw [ahead, flat]
    unfold responseFrame
    rw [filesFlat]
  rcases readHostResult_total frame whole with
    ⟨behind, read, aheadOutputs, failsRead⟩
  rcases receiveOutputs files processed.outputs bound fresh aheadOutputs with
    ⟨last, received, empty, failsOutputs⟩
  have positive := List.length_pos_iff.mpr nonempty
  refine ⟨pack, idx, refs, files, ?_⟩
  unfold receiveStockResponse
  rw [body, carries.contentLength]
  dsimp only
  rw [if_neg, read]
  · dsimp only
    rw [received]
    unfold expectEof
    dsimp only
    rw [if_pos (ChunkedReader.atEnd_iff.mpr
      ⟨empty, failsOutputs.trans (failsRead.trans ends)⟩)]
    rfl
  · rw [carries.ok]
    rintro (never | short | long)
    · cases never
    · omega
    · omega

/-- The Worker reads the very result that the container has sent. -/
theorem receiveStockResponse_checked
    (sent : stockBundleResponse marshal input result outputs =
      .ok (contentLength, writes))
    (parsed : parse (marshal result) = some (hostOf result))
    (carries : response.Carries contentLength writes)
    (accepted : receiveStockResponse sha256 parse operation (fun _ => {}) bucket
      response = (.ok host, after)) :
    checkHostResult (hostOf result) = .ok (hostOf result) := by
  rcases stockBundleResponse_eq_ok sent with
    ⟨_, marshalled, pack, idx, refs, _, framed⟩
  rcases sendStockBundle_eq_ok framed with ⟨_, _, flat⟩
  rcases carries.body with ⟨reader, body, _, ahead⟩
  rcases (receiveStockResponse_sound accepted).1 with ⟨payload, files, found⟩
  rcases found.body with ⟨reader', body', _, ahead'⟩
  rw [body] at body'
  cases body'
  have same := (flat.symm.trans (ahead.symm.trans ahead'))
  unfold responseFrame at same
  have behind := List.append_cancel_left same
  rcases List.append_inj behind
    ((length_bigEndian 4 _).trans (length_bigEndian 4 _).symm) with ⟨sizes, texts⟩
  have short : (marshal result).length < 256 ^ 4 :=
    Nat.lt_of_le_of_lt marshalled (by decide)
  have lengths : payload.length = (marshal result).length := by
    have bounded : payload.length ≤ hostResultMaxBytes := found.bounded
    rw [← ofBigEndian_of_lt short, sizes, ofBigEndian_of_lt]
    exact Nat.lt_of_le_of_lt bounded (by decide)
  rcases List.append_inj texts lengths.symm with ⟨payloads, _⟩
  have checked := found.parsed
  unfold parseHostResultPayload at checked
  rw [← payloads, parsed] at checked
  dsimp only at checked
  rw [(checkHostResult_eq_ok checked).1] at checked
  exact checked

end Sent

/-! ## Both directions -/

/-- What staging and planning promise of a request before it is sent: checked
sizes, and no part that is empty. -/
structure PlannedBundle (request : StockReceiveRequest)
    (input prerequisite manifest : Bytes) : Prop where
  planned : checkPlan request.inputRequestBytes
    (request.inputRequestBytes - request.packOffset) request.packOffset
    prerequisite manifest = .ok ()
  operationId : isValidNativeReceiveOperationId request.operationId = true
  packOffset : 0 < request.packOffset
  pack : request.packOffset < request.inputRequestBytes
  inputBytes : request.inputRequestBytes = input.length
  prerequisiteBytes : request.prerequisitePackBytes = prerequisite.length
  manifestBytes : request.closureManifestBytes = manifest.length
  prerequisite : prerequisite ≠ []
  manifest : manifest ≠ []
  commands : request.commands ≠ []

/-- The limits of the container on a bundle under its declared length. -/
structure WithinContainer (request : StockReceiveRequest) (header : Bytes)
    (contentLength : Nat) : Prop where
  header : 0 < header.length ∧ header.length ≤ stockBundleHeaderBytes
  request : WithinLimits request
  length : 0 < contentLength ∧ contentLength ≤ maximumRequest

/-- The limits of the Worker on a response under its declared length. -/
structure WithinWorker (result : StockReceiveResponse) (resultBytes : Bytes)
    (contentLength : Nat) : Prop where
  payload : 0 < resultBytes.length ∧ resultBytes.length ≤ hostResultMaxBytes
  checked : checkHostResult (hostOf result) = .ok (hostOf result)
  length : 12 < contentLength ∧ contentLength ≤ bundleResponseMaxBytes

theorem withinContainer_of_sent {request : StockReceiveRequest}
    {input prerequisite manifest : Bytes}
    (planned : PlannedBundle request input prerequisite manifest)
    (sent : requestBundle (encodeText (stockHostRequest request)) input prerequisite
      manifest = .ok (contentLength, writes)) :
    WithinContainer request (encodeText (stockHostRequest request)) contentLength := by
  rcases requestBundle_eq_ok sent with ⟨bounded, most, positive, _, _⟩
  have filled : 0 < (stockHostRequest request).length := Nat.succ_pos _
  have bytes := length_le_encodeText (stockHostRequest request)
  refine ⟨⟨by omega, bounded⟩, ?_, positive, most⟩
  apply withinLimits_of_plan planned.planned bounded planned.operationId
    planned.packOffset
  · have inside := planned.pack
    omega
  · exact planned.prerequisiteBytes
  · exact planned.manifestBytes
  · exact planned.prerequisite
  · exact planned.manifest
  · exact planned.commands

theorem withinWorker_of_sent {sha256 : Bytes → String}
    {marshal : StockReceiveResponse → Bytes} {input : StockReceiveRequest}
    {result : StockReceiveResponse} {outputs : Outputs}
    (digests : ∀ bytes, sha256Pattern (sha256 bytes) = true)
    (bounded : outputs.Bounded)
    (processed : ProcessedResult sha256 input result outputs report)
    (sent : stockBundleResponse marshal input result outputs =
      .ok (contentLength, writes)) :
    WithinWorker result (marshal result) contentLength ↔
      WorkerTakes input result report := by
  rcases stockBundleResponse_eq_ok sent with
    ⟨nonempty, marshalled, pack, idx, refs, files, framed⟩
  rcases sendStockBundle_eq_ok framed with ⟨length, most, _⟩
  have positive := List.length_pos_iff.mpr nonempty
  rw [← checkHostResult_hostOf digests bounded files processed]
  exact ⟨fun within => within.checked,
    fun checked => ⟨⟨positive, marshalled⟩, checked, by omega, most⟩⟩

/-- The frames of both directions: what the container accepts is one bundle to
the last byte under its length, and what the Worker sends is within the limits of
the container; what the Worker accepts is one response to the last byte, it
stores nothing under a digest that is not that of the bytes, and what the
container sends is within the limits of the Worker and recovered just where the
report is not empty and neither the objects nor the operation id are too many or
too long. -/
theorem stockBundle_framing (decode : Bytes → Option StockReceiveRequest)
    (marshal : StockReceiveResponse → Bytes) (parse : Bytes → Option HostResult)
    (sha256 : Bytes → String) :
    (∀ contentLength body received,
      receiveStockBundle decode false contentLength body = .ok received ↔
        contentLength = (body.ahead.length : Int) ∧ body.fails = none ∧
          ∃ header, received.IsBody decode body header) ∧
    (∀ request input prerequisite manifest contentLength writes,
      PlannedBundle request input prerequisite manifest →
      requestBundle (encodeText (stockHostRequest request)) input prerequisite
        manifest = .ok (contentLength, writes) →
      WithinContainer request (encodeText (stockHostRequest request)) contentLength ∧
      ∀ body : BundleReader, body.ahead = writes.flatten → body.fails = none →
        decode (encodeText (stockHostRequest request)) = some request →
        validateStockReceiveRequest request = .ok () →
        receiveStockBundle decode false contentLength body =
          .ok ⟨request, input, prerequisite, manifest⟩) ∧
    (∀ operation faults bucket response host after,
      receiveStockResponse sha256 parse operation faults bucket response =
        (.ok host, after) →
      (∃ payload files, AcceptedResponse sha256 parse operation faults response host
        payload files) ∧
      ∀ artifact ∈ hostArtifacts operation faults host,
        after.Holds sha256 artifact) ∧
    (∀ operation faults (bucket : Bucket) response, bucket.Kept sha256
      (receiveStockResponse sha256 parse operation faults bucket response).2) ∧
    ((∀ bytes, sha256Pattern (sha256 bytes) = true) →
      ∀ input result uploads outputs report contentLength writes,
        uploadAll uploads = .ok outputs →
        ProcessedResult sha256 input result outputs report →
        stockBundleResponse marshal input result outputs =
          .ok (contentLength, writes) →
        (WithinWorker result (marshal result) contentLength ↔
          WorkerTakes input result report) ∧
        ∀ operation (bucket : Bucket) (response : StockResponse),
          parse (marshal result) = some (hostOf result) →
          BoundTo operation input result → bucket.Fresh input →
          response.Carries contentLength writes →
          ((∃ host after, receiveStockResponse sha256 parse operation (fun _ => {})
              bucket response = (.ok host, after)) ↔
            WorkerTakes input result report) ∧
          (WorkerTakes input result report →
            ∃ pack idx refs, SentFiles input result outputs pack idx refs ∧
              receiveStockResponse sha256 parse operation (fun _ => {}) bucket
                response =
                (.ok (hostOf result),
                  storedOutputs bucket input result pack idx refs))) := by
  refine ⟨fun _ _ _ => receiveStockBundle_iff, ?_, ?_, ?_, ?_⟩
  · intro request input prerequisite manifest contentLength writes planned sent
    have within := withinContainer_of_sent planned sent
    refine ⟨within, fun body ahead ends decoded valid => ?_⟩
    rcases requestBundle_eq_ok sent with ⟨bounded, _, _, length, rfl⟩
    apply receiveStockBundle_iff.mpr
    refine ⟨?_, ends, encodeText (stockHostRequest request), ?_, ?_, ahead⟩
    · rw [length, ahead]
    · refine ⟨decoded, valid, ?_, bounded⟩
      exact List.length_pos_iff.mp within.header.1
    · exact ⟨planned.inputBytes, planned.prerequisiteBytes, planned.manifestBytes⟩
  · intro operation faults bucket response host after accepted
    exact receiveStockResponse_sound accepted
  · intro operation faults bucket response
    exact kept_receiveStockResponse bucket response
  · intro digests input result uploads outputs report contentLength writes
      uploaded processed sent
    have bounded := bounded_uploadAll uploaded
    have within := withinWorker_of_sent digests bounded processed sent
    refine ⟨within, ?_⟩
    intro operation bucket response parsed bound fresh carries
    have recovers := fun takes => receiveStockResponse_sent digests bounded
      processed takes sent parsed bound fresh carries
    refine ⟨⟨?_, ?_⟩, recovers⟩
    · rintro ⟨host, after, accepted⟩
      rcases stockBundleResponse_eq_ok sent with ⟨_, _, _, _, _, files, _⟩
      exact (checkHostResult_hostOf digests bounded files processed).mp
        (receiveStockResponse_checked sent parsed carries accepted)
    · intro takes
      rcases recovers takes with ⟨_, _, _, _, received⟩
      exact ⟨_, _, received⟩

/-! ## A push that asks for no report -/

/-- Stands in for every digest below. -/
def zeroDigest : String := String.ofList (List.replicate 64 '0')

/-- A branch on an object that the repository has, pushed with an empty pack by a
client that offers neither a report nor a side band. -/
def quietInput : StockReceiveRequest where
  operationId := "quiet"
  inputRequestKey := "input"
  inputRequestBytes := 64
  inputRequestSha256 := zeroDigest
  packOffset := 32
  prerequisitePackKey := "prerequisite"
  prerequisitePackBytes := 32
  prerequisitePackSha256 := zeroDigest
  closureManifestKey := "manifest"
  closureManifestBytes := 32
  closureManifestSha256 := zeroDigest
  advertisedRefs := []
  commands := [⟨String.ofList (List.replicate 40 '0'),
    String.ofList (List.replicate 40 '1'), "refs/heads/quiet"⟩]
  outputPackKey := "pack"
  outputIdxKey := "idx"
  outputRefsKey := "refs"

/-- `git receive-pack` updates the branch and writes nothing. -/
def quietResult : StockReceiveResponse where
  resultKind := "ref-only"
  operationId := "quiet"
  receivePackResponse := ""
  receiveResponseBytes := 0
  inputRequestSha256 := zeroDigest
  packBytes := 0
  idxBytes := 0
  refsBytes := 0
  packSha1 := ""
  packSha256 := ""
  idxSha256 := ""
  refsSha256 := ""
  objectCount := 0
  inputPackObjectCount := 0
  trace := readStockTrace
    ["receive_pack_invoked", "pre_receive_started",
      "pre_receive_quarantine_nonempty", "logical_closure_started_ref_still_old",
      "incoming_oid_visible_in_quarantine", "logical_closure_completed",
      "pre_receive_succeeded", "disposable_ref_update_observed"]
  planSha256 := zeroDigest
  closureProof := ⟨zeroDigest, [], [], 0, 0, 0, 0, 0,
    ⟨0, 0, 0, 0⟩⟩

/-- The JSON of `quietResult`. -/
def quietText : Bytes :=
  encodeText (jsonObject
    [ jsonMember "resultKind" (quote "ref-only"),
      jsonMember "operationId" (quote "quiet"),
      jsonMember "receivePackResponse" (quote ""),
      jsonMember "receiveResponseBytes" (jsonNumber 0),
      jsonMember "inputRequestSha256" (quote zeroDigest),
      jsonMember "packBytes" (jsonNumber 0),
      jsonMember "idxBytes" (jsonNumber 0),
      jsonMember "refsBytes" (jsonNumber 0),
      jsonMember "objectCount" (jsonNumber 0),
      jsonMember "inputPackObjectCount" (jsonNumber 0),
      jsonMember "elapsedMs" (jsonNumber 20),
      jsonMember "trace" (jsonArray (quietResult.trace.map fun event =>
        jsonObject
          [ jsonMember "sequence" (jsonNumber event.sequence),
            jsonMember "event" (quote event.event) ])),
      jsonMember "quarantinePathInsideOwnedWorkRoot" "true".toList,
      jsonMember "quarantineRemovedAfterReceive" "true".toList,
      jsonMember "quarantinePathNonEmpty" "true".toList,
      jsonMember "freshWorkDirectory" "true".toList,
      jsonMember "repositoryPackBytesBeforeHydration" (jsonNumber 0),
      jsonMember "sharedObjectCacheDisabled" "true".toList,
      jsonMember "skipConnectivityCheck" "true".toList,
      jsonMember "planSha256" (quote zeroDigest),
      jsonMember "closureProof" (jsonObject
        [ jsonMember "planSha256" (quote zeroDigest),
          jsonMember "incomingOids" (jsonArray []),
          jsonMember "semanticExternalOids" (jsonArray []),
          jsonMember "visitedIncomingObjectCount" (jsonNumber 0),
          jsonMember "logicalEdgeCount" (jsonNumber 0),
          jsonMember "internalEdgeCount" (jsonNumber 0),
          jsonMember "externalEdgeCount" (jsonNumber 0),
          jsonMember "missingObjectCount" (jsonNumber 0),
          jsonMember "objectTypeCounts" (jsonObject
            (["commit", "tree", "blob", "tag"].map fun name =>
              jsonMember name (jsonNumber 0))) ]) ])

theorem quietResult_processed :
    ProcessedResult (fun _ => zeroDigest) quietInput quietResult [] [] where
  validated := by decide +kernel
  operationId := rfl
  receivePackResponse := rfl
  receiveResponseBytes := rfl
  report := Nat.zero_le _
  inputRequestSha256 := ⟨[], rfl⟩
  inputPackObjectCount := Nat.zero_le _
  trace := ⟨_, rfl, by decide +kernel⟩
  planSha256 := ⟨[], rfl⟩
  closureProof := ⟨⟨0, 0, 0, 0, 0, 0, ⟨0, 0, 0, 0⟩⟩, [], by decide +kernel⟩
  outputs := Or.inl ⟨rfl, rfl, rfl, rfl, rfl⟩

theorem quietResult_sent {text : Bytes} (some : text ≠ [])
    (small : text.length ≤ maxStockResponseBytes) :
    stockBundleResponse (fun _ => text) quietInput quietResult [] =
      .ok (12 + text.length,
        [responseMagic, bigEndian 4 text.length, text]) := by
  have within : ¬ (text = [] ∨ maxStockResponseBytes < text.length) :=
    not_or.mpr ⟨some, Nat.not_lt.mpr small⟩
  have length : ¬ 12 + maxStockResponseBytes + stockBundleOutputBytes <
      12 + text.length + 0 + 0 + 0 := by
    omega
  unfold stockBundleResponse
  dsimp only
  rw [if_neg within]
  exact if_neg length

/-- The container sends the result, and the Worker does not take it. -/
theorem quietResult_refused :
    sha256Pattern zeroDigest = true ∧
    ProcessedResult (fun _ => zeroDigest) quietInput quietResult [] [] ∧
    stockBundleResponse (fun _ => quietText) quietInput quietResult [] =
      .ok (12 + quietText.length,
        [responseMagic, bigEndian 4 quietText.length, quietText]) ∧
    checkHostResult (hostOf quietResult) =
      .error "stock-data-plane:response-header-receivepackresponse" ∧
    ∀ contentLength, ¬ WithinWorker quietResult quietText contentLength := by
  have refused : checkHostResult (hostOf quietResult) =
      .error "stock-data-plane:response-header-receivepackresponse" := by
    decide +kernel
  have size : 0 < quietText.length ∧ quietText.length ≤ maxStockResponseBytes := by
    decide +kernel
  have sent := quietResult_sent (List.ne_nil_of_length_pos size.1) size.2
  refine ⟨by decide +kernel, quietResult_processed, sent, refused, ?_⟩
  intro contentLength within
  cases refused.symm.trans within.checked

end GitOnCloudflare.Receive.StockBundle
