import GitOnCloudflare.Receive.StockBundleRequests

/-!
# Responses in a bundle

What the Worker has read when it accepts a response: a result and its artifacts
under the length that was declared.  However it ends, an artifact is put under
its key only with the digest that its bytes have.
-/

namespace GitOnCloudflare.Receive.StockBundle

open Foundations
open Foundations.ByteTable
open Foundations.CheckedFold

/-! ## What the container sends -/

/-- A file that is uploaded has a length within the bound of artifacts. -/
def Outputs.Bounded (outputs : Outputs) : Prop :=
  ∀ entry ∈ outputs, entry.2 ≠ [] ∧ entry.2.length ≤ stockBundleArtifactBytes

variable {outputs : Outputs} {pack idx refs : Bytes}

theorem bounded_uploadAll {uploads : List (String × Bytes × Int)}
    (uploaded : uploadAll uploads = .ok outputs) :
    outputs.Bounded := by
  unfold uploadAll at uploaded
  apply foldlM_preserves uploaded Outputs.Bounded
  · intro entry member
    exact absurd member List.not_mem_nil
  · intro outputs upload next _ bounded stepped
    unfold StockBundle.upload at stepped
    split at stepped
    · cases stepped
    next within =>
      split at stepped
      · cases stepped
      split at stepped
      · cases stepped
      next lengths =>
        cases stepped
        intro entry member
        rcases List.mem_append.mp member with before | new
        · exact bounded entry before
        · rcases List.mem_singleton.mp new with rfl
          have same := not_not.mp lengths
          constructor
          · intro empty
            have none : upload.2.1 = [] := empty
            rw [none, List.length_nil] at same
            omega
          · dsimp only
            omega

theorem bounded_lookup {key : String} {bytes : Bytes}
    (bounded : outputs.Bounded) (found : outputs.lookup key = some bytes) :
    bytes ≠ [] ∧ bytes.length ≤ stockBundleArtifactBytes := by
  induction outputs with
  | nil => cases found
  | cons entry outputs ih =>
    rw [List.lookup_cons] at found
    split at found
    · cases found
      exact bounded entry List.mem_cons_self
    · exact ih (fun other member => bounded other (List.mem_cons_of_mem _ member)) found

/-- The bytes of a response frame. -/
def responseFrame (resultBytes : Bytes) (files : List Bytes) : Bytes :=
  responseMagic ++ (bigEndian 4 resultBytes.length ++ (resultBytes ++ files.flatten))

theorem length_responseFrame (resultBytes : Bytes) (files : List Bytes) :
    (responseFrame resultBytes files).length =
      12 + resultBytes.length + files.flatten.length := by
  have magic : responseMagic.length = 8 := rfl
  unfold responseFrame
  simp only [List.length_append, length_bigEndian]
  omega

theorem sendStockBundle_eq_ok {kind : String} {resultBytes : Bytes}
    {contentLength : Nat} {writes : List Bytes}
    (sent : sendStockBundle kind resultBytes pack idx refs =
      .ok (contentLength, writes)) :
    contentLength =
        12 + resultBytes.length + pack.length + idx.length + refs.length ∧
      contentLength ≤ bundleResponseMaxBytes ∧
      writes.flatten = responseFrame resultBytes
        (if kind = "artifacts" then [pack, idx, refs] else []) := by
  unfold sendStockBundle at sent
  dsimp only at sent
  split at sent
  · cases sent
  next within =>
    cases sent
    have limits : 12 + maxStockResponseBytes + stockBundleOutputBytes =
      bundleResponseMaxBytes := by decide
    exact ⟨rfl, by omega, rfl⟩

section Container

variable {marshal : StockReceiveResponse → Bytes} {input : StockReceiveRequest}
  {result : StockReceiveResponse} {outputs : Outputs} {contentLength : Nat}
  {writes : List Bytes}

/-- The files of a response that is sent. -/
structure SentFiles (input : StockReceiveRequest) (result : StockReceiveResponse)
    (outputs : Outputs) (pack idx refs : Bytes) : Prop where
  packBytes : result.packBytes = pack.length
  idxBytes : result.idxBytes = idx.length
  refsBytes : result.refsBytes = refs.length
  kinds : (result.resultKind = "ref-only" ∧ pack = [] ∧ idx = [] ∧ refs = [] ∧
      result.objectCount = 0) ∨
    (result.resultKind ≠ "ref-only" ∧
      outputs.lookup input.outputPackKey = some pack ∧
      outputs.lookup input.outputIdxKey = some idx ∧
      outputs.lookup input.outputRefsKey = some refs)

theorem normalizedStockResultKind_eq {resultKind : String} :
    normalizedStockResultKind resultKind = "ref-only" ↔ resultKind = "ref-only" := by
  unfold normalizedStockResultKind
  split
  · next same =>
    rw [same]
    decide
  · exact Iff.rfl

theorem stockBundleResponse_eq_ok
    (sent : stockBundleResponse marshal input result outputs =
      .ok (contentLength, writes)) :
    marshal result ≠ [] ∧ (marshal result).length ≤ maxStockResponseBytes ∧
      ∃ pack idx refs, SentFiles input result outputs pack idx refs ∧
        sendStockBundle (normalizedStockResultKind result.resultKind)
          (marshal result) pack idx refs = .ok (contentLength, writes) := by
  unfold stockBundleResponse at sent
  split at sent
  · cases sent
  next within =>
    rcases not_or.mp within with ⟨nonempty, bounded⟩
    refine ⟨nonempty, Nat.le_of_not_lt bounded, ?_⟩
    dsimp only at sent
    split at sent
    next refOnly =>
      split at sent
      · cases sent
      next clean =>
        simp only [not_or, not_not] at clean
        rcases clean with ⟨_, _, _, packBytes, idxBytes, refsBytes, objectCount⟩
        have kind := normalizedStockResultKind_eq.mp refOnly
        exact ⟨[], [], [], ⟨packBytes, idxBytes, refsBytes,
          Or.inl ⟨kind, rfl, rfl, rfl, objectCount⟩⟩, sent⟩
    next other =>
      split at sent
      next pack idx refs packAt idxAt refsAt =>
        split at sent
        · cases sent
        next lengths =>
          simp only [not_or, not_not] at lengths
          rcases lengths with ⟨packBytes, idxBytes, refsBytes⟩
          have kind := fun same => other (normalizedStockResultKind_eq.mpr same)
          exact ⟨pack, idx, refs, ⟨packBytes.symm, idxBytes.symm, refsBytes.symm,
            Or.inr ⟨kind, packAt, idxAt, refsAt⟩⟩, sent⟩
      · cases sent

theorem SentFiles.bounded (bounded : outputs.Bounded)
    (files : SentFiles input result outputs pack idx refs) :
    pack.length ≤ artifactMaxBytes ∧ idx.length ≤ artifactMaxBytes ∧
      refs.length ≤ artifactMaxBytes := by
  rcases files.kinds with ⟨_, rfl, rfl, rfl, _⟩ | ⟨_, packAt, idxAt, refsAt⟩
  · exact ⟨Nat.zero_le _, Nat.zero_le _, Nat.zero_le _⟩
  · exact ⟨(bounded_lookup bounded packAt).2, (bounded_lookup bounded idxAt).2,
      (bounded_lookup bounded refsAt).2⟩

end Container

/-! ## The result that the Worker reads -/

section Result

variable {parse : Bytes → Option HostResult} {operation : StockOperation}
  {declared : Nat} {reader next : BundleReader} {host : HostResult}

/-- What the Worker reads of a frame up to the first artifact. -/
structure HostFrame (parse : Bytes → Option HostResult)
    (operation : StockOperation) (declared : Nat) (host : HostResult)
    (payload : Bytes) : Prop where
  parsed : parseHostResultPayload parse payload = .ok host
  nonempty : payload ≠ []
  bounded : payload.length ≤ hostResultMaxBytes
  operationId : host.operationId = operation.id
  inputRequestSha256 : host.inputRequestSha256 = operation.inputRequestSha256
  planSha256 : host.planSha256 = operation.planSha256
  length : declared =
    12 + payload.length + host.packBytes + host.idxBytes + host.refsBytes

theorem readHostResult_sound
    (read : readHostResult parse operation declared reader = .ok (host, next)) :
    ∃ payload, HostFrame parse operation declared host payload ∧
      reader.ahead = responseMagic ++
        (bigEndian 4 payload.length ++ (payload ++ next.ahead)) ∧
      next.fails = reader.fails := by
  unfold readHostResult at read
  rcases bind_eq_ok.mp read with ⟨⟨magic, behindMagic⟩, readMagic, read⟩
  rcases ChunkedReader.exact_sound readMagic with ⟨_, aheadMagic, failsMagic⟩
  dsimp only at read
  split at read
  · cases read
  next same =>
    rw [not_not] at same
    rcases bind_eq_ok.mp read with ⟨⟨lengthBytes, behindLength⟩, readLength, read⟩
    rcases ChunkedReader.exact_sound readLength with ⟨four, aheadLength, failsLength⟩
    dsimp only at read
    split at read
    · cases read
    next within =>
      rcases not_or.mp within with ⟨positive, bounded⟩
      rcases bind_eq_ok.mp read with ⟨⟨payload, behindPayload⟩, readPayload, read⟩
      rcases ChunkedReader.exact_sound readPayload with
        ⟨counted, aheadPayload, failsPayload⟩
      rcases bind_eq_ok.mp read with ⟨found, parsed, read⟩
      split at read
      · cases read
      next binding =>
        cases read
        simp only [not_or, not_not] at binding
        rcases binding with ⟨operationId, inputSha256, planSha256, length⟩
        refine ⟨payload, ⟨parsed, ?_, ?_, operationId, inputSha256, planSha256, ?_⟩,
          ?_, ?_⟩
        · rintro rfl
          exact positive counted.symm
        · rw [counted]
          exact Nat.le_of_not_lt bounded
        · rw [counted]
          exact length
        · rw [aheadMagic, same, aheadLength, aheadPayload, counted,
            bigEndian_ofBigEndian four]
        · rw [failsPayload, failsLength, failsMagic]

theorem readHostResult_total {payload rest : Bytes}
    (frame : HostFrame parse operation declared host payload)
    (ahead : reader.ahead = responseMagic ++
      (bigEndian 4 payload.length ++ (payload ++ rest))) :
    ∃ next, readHostResult parse operation declared reader = .ok (host, next) ∧
      next.ahead = rest ∧ next.fails = reader.fails := by
  rcases ChunkedReader.exact_total "stock-data-plane:bundle-truncated" ahead with
    ⟨behindMagic, readMagic, aheadMagic, failsMagic⟩
  rcases ChunkedReader.exact_total "stock-data-plane:bundle-truncated" aheadMagic with
    ⟨behindLength, readLength, aheadLength, failsLength⟩
  rcases ChunkedReader.exact_total "stock-data-plane:bundle-truncated" aheadLength with
    ⟨behindPayload, readPayload, aheadPayload, failsPayload⟩
  have sized : ofBigEndian (bigEndian 4 payload.length) = payload.length := by
    apply ofBigEndian_of_lt
    exact Nat.lt_of_le_of_lt frame.bounded (by decide)
  refine ⟨behindPayload, ?_, aheadPayload, ?_⟩
  · unfold readHostResult
    apply bind_eq_ok.mpr
    refine ⟨_, readMagic, ?_⟩
    dsimp only
    rw [if_neg (not_not.mpr rfl)]
    apply bind_eq_ok.mpr
    rw [length_bigEndian] at readLength
    refine ⟨_, readLength, ?_⟩
    dsimp only
    rw [sized, if_neg]
    · apply bind_eq_ok.mpr
      refine ⟨_, readPayload, ?_⟩
      dsimp only
      apply bind_eq_ok.mpr
      refine ⟨host, frame.parsed, ?_⟩
      rw [if_neg]
      simp only [not_or, not_not]
      exact ⟨frame.operationId, frame.inputRequestSha256, frame.planSha256,
        frame.length⟩
    · rintro (empty | long)
      · exact frame.nonempty (List.length_eq_zero_iff.mp empty)
      · exact absurd frame.bounded (Nat.not_le_of_lt long)
  · rw [failsPayload, failsLength, failsMagic]

end Result

end GitOnCloudflare.Receive.StockBundle
