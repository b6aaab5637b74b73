import GitOnCloudflare.Receive.PackStaging

/-!
# Staging does not depend on chunks

The window knows the header, the trailer and what the digest was given of any
chunks of a stream.  So all ways of staging accept the same packs, and store the
stream.
-/

namespace GitOnCloudflare.Receive.PackStaging

open Foundations
open Foundations.CheckedFold (Decides)

variable {bytes chunk : Bytes} {window : PackWindow}

/-! ## The window -/

/-- The magic and the version of a pack. -/
def PackHeader (bytes : Bytes) : Prop :=
  bytes.take 4 = [0x50, 0x41, 0x43, 0x4b] ∧ (bytes.drop 4).take 4 = [0, 0, 0, 2]

/-- A header that is complete is that of a pack. -/
def HeaderOk (bytes : Bytes) : Prop :=
  packHeaderBytes ≤ bytes.length → PackHeader bytes

def packBody (bytes : Bytes) : Bytes :=
  bytes.take (bytes.length - packTrailerBytes)

def packTrailer (bytes : Bytes) : Bytes :=
  bytes.drop (bytes.length - packTrailerBytes)

/-- What a window knows of the bytes before it. -/
structure Sees (window : PackWindow) (bytes : Bytes) : Prop where
  total : window.totalBytes = bytes.length
  header : window.headerPrefix = bytes.take packHeaderBytes
  tail : window.tail = packTrailer bytes
  digested : window.digested = packBody bytes

theorem sees_nil : Sees {} [] := ⟨rfl, rfl, rfl, rfl⟩

theorem packHeader_take : PackHeader (bytes.take packHeaderBytes) ↔
    PackHeader bytes := by
  have first : (bytes.take packHeaderBytes).take 4 = bytes.take 4 := by
    rw [List.take_take]
    rfl
  have second : ((bytes.take packHeaderBytes).drop 4).take 4 =
      (bytes.drop 4).take 4 := by
    rw [List.drop_take, List.take_take]
    rfl
  unfold PackHeader
  rw [first, second]

theorem HeaderOk.take (ok : HeaderOk (bytes ++ chunk)) : HeaderOk bytes := by
  intro long
  have whole := ok (by rw [List.length_append]; omega)
  rw [← packHeader_take, List.take_append_of_le_length long,
    packHeader_take] at whole
  exact whole

theorem validatePackHeader_eq_ok :
    validatePackHeader (bytes.take packHeaderBytes) = .ok () ↔
      HeaderOk bytes := by
  unfold validatePackHeader HeaderOk
  rw [List.length_take]
  by_cases short : bytes.length < packHeaderBytes
  · rw [if_pos (by omega)]
    exact ⟨fun _ long => absurd short (Nat.not_lt.mpr long), fun _ => rfl⟩
  · have long := Nat.not_lt.mp short
    rw [if_neg (by omega), ← packHeader_take]
    unfold PackHeader
    split
    · next other =>
        constructor
        · exact nofun
        · exact fun ok => absurd (ok long).1 other
    split
    · next other =>
        constructor
        · exact nofun
        · exact fun ok => absurd (ok long).2 other
    · next magic version =>
        exact ⟨fun _ _ => ⟨not_not.mp magic, not_not.mp version⟩, fun _ => rfl⟩

theorem packBody_append : packBody bytes ++ packTrailer bytes = bytes :=
  List.take_append_drop _ _

theorem packBody_short (short : bytes.length ≤ packTrailerBytes) :
    packBody bytes = [] := by
  unfold packBody
  rw [Nat.sub_eq_zero_of_le short, List.take_zero]

/-- The body and the trailer of a stream, of the trailer before and what comes
in. -/
theorem packBody_more :
    packBody (bytes ++ chunk) =
        packBody bytes ++ packBody (packTrailer bytes ++ chunk) ∧
      packTrailer (bytes ++ chunk) =
        packTrailer (packTrailer bytes ++ chunk) := by
  have whole : packBody bytes ++ (packTrailer bytes ++ chunk) =
      bytes ++ chunk := by
    rw [← List.append_assoc, packBody_append]
  -- Bytes are before the trailer only where the window is full.
  have more : (bytes ++ chunk).length - packTrailerBytes =
      (packBody bytes).length +
        ((packTrailer bytes ++ chunk).length - packTrailerBytes) := by
    unfold packBody packTrailer
    rw [List.length_append, List.length_append, List.length_take,
      List.length_drop]
    omega
  constructor
  · change (bytes ++ chunk).take _ = _
    rw [more, ← whole]
    exact List.take_length_add_append _
  · change (bytes ++ chunk).drop _ = _
    rw [more, ← whole]
    exact List.drop_length_add_append _

theorem updateTrailerWindow_totalBytes :
    (updateTrailerWindow window chunk).totalBytes = window.totalBytes := by
  unfold updateTrailerWindow
  dsimp only
  split <;> rfl

theorem updateTrailerWindow_headerPrefix :
    (updateTrailerWindow window chunk).headerPrefix = window.headerPrefix := by
  unfold updateTrailerWindow
  dsimp only
  split <;> rfl

/-- The digest is given all but the last bytes of what the window held and what
comes in. -/
theorem updateTrailerWindow_sees (tail : window.tail = packTrailer bytes)
    (digested : window.digested = packBody bytes) :
    (updateTrailerWindow window chunk).tail = packTrailer (bytes ++ chunk) ∧
      (updateTrailerWindow window chunk).digested = packBody (bytes ++ chunk) := by
  rw [packBody_more.1, packBody_more.2, ← tail, ← digested]
  unfold updateTrailerWindow packBody packTrailer
  dsimp only
  split
  · next short =>
      rw [Nat.sub_eq_zero_of_le short]
      exact ⟨rfl, (List.append_nil _).symm⟩
  · exact ⟨rfl, rfl⟩

/-- Reading goes on exactly as long as the header may be that of a pack. -/
theorem read_sees (sees : Sees window bytes) (ok : HeaderOk bytes)
    (chunk : Bytes) :
    Decides (window.read chunk) (HeaderOk (bytes ++ chunk))
      (Sees · (bytes ++ chunk)) := by
  have kept : ∀ counted : PackWindow,
      counted.totalBytes = (bytes ++ chunk).length →
      counted.headerPrefix = (bytes ++ chunk).take packHeaderBytes →
      counted.tail = window.tail → counted.digested = window.digested →
      Sees (updateTrailerWindow counted chunk) (bytes ++ chunk) := by
    intro counted total header tail digested
    rcases @updateTrailerWindow_sees bytes chunk counted
      (tail.trans sees.tail) (digested.trans sees.digested) with
        ⟨newTail, newDigested⟩
    refine ⟨?_, ?_, newTail, newDigested⟩
    · rw [updateTrailerWindow_totalBytes, total]
    · rw [updateTrailerWindow_headerPrefix, header]
  have total : window.totalBytes + chunk.length = (bytes ++ chunk).length := by
    rw [sees.total, List.length_append]
  have known : window.headerPrefix.length = min packHeaderBytes bytes.length := by
    rw [sees.header, List.length_take]
  unfold PackWindow.read
  dsimp only
  by_cases short : bytes.length < packHeaderBytes
  · have all : window.headerPrefix = bytes := by
      rw [sees.header]
      exact List.take_of_length_le (Nat.le_of_lt short)
    have header : window.headerPrefix ++
        chunk.take (packHeaderBytes - window.headerPrefix.length) =
          (bytes ++ chunk).take packHeaderBytes := by
      rw [all, List.take_append, List.take_of_length_le (Nat.le_of_lt short)]
    rw [if_pos (by omega), header]
    cases valid : validatePackHeader ((bytes ++ chunk).take packHeaderBytes) with
    | error message =>
      intro ok
      rw [validatePackHeader_eq_ok.mpr ok] at valid
      cases valid
    | ok done =>
      constructor
      · exact validatePackHeader_eq_ok.mp valid
      · exact kept _ total rfl rfl rfl
  · have enough := Nat.not_lt.mp short
    have same : (bytes ++ chunk).take packHeaderBytes =
        bytes.take packHeaderBytes := List.take_append_of_le_length enough
    rw [if_neg (by omega)]
    constructor
    · intro _
      rw [← packHeader_take, same, packHeader_take]
      exact ok enough
    · exact kept _ total (by rw [same, ← sees.header]) rfl rfl

/-! ## The loops -/

/-- What is uploaded of the bytes so far. -/
def sentBytes (durable : Bool) (bytes : Bytes) : Bytes :=
  if durable then packBody bytes else bytes

theorem sentBytes_le (durable : Bool) (bytes more : Bytes) :
    (sentBytes durable bytes).length ≤ (sentBytes durable (bytes ++ more)).length := by
  unfold sentBytes
  split
  · rw [packBody_more.1, List.length_append]
    exact Nat.le_add_right _ _
  · rw [List.length_append]
    exact Nat.le_add_right _ _

/-- What a known-length upload has done for the bytes so far. -/
structure KnownLengthState.Keeps (durable : Bool) (bytes : Bytes)
    (state : KnownLengthState) : Prop where
  sees : Sees state.window bytes
  uploaded : state.uploaded = sentBytes durable bytes
  writes : ∃ writes : List Bytes, writes.flatten = state.uploaded ∧
    state.events = writes.map UploadEvent.write

/-- The bytes that a known-length upload takes. -/
def KnownLengthTakes (durable : Bool) (expectedLength : Nat) (bytes : Bytes) :
    Prop :=
  HeaderOk bytes ∧ (sentBytes durable bytes).length ≤ expectedLength

/-- One write continues the upload, or is more than the stream takes. -/
theorem write_keeps {durable : Bool} {expectedLength : Nat}
    {state : KnownLengthState} {sent : Bytes} (header : HeaderOk bytes)
    (sees : Sees state.window bytes)
    (uploaded : state.uploaded ++ sent = sentBytes durable bytes)
    (writes : ∃ writes : List Bytes, writes.flatten = state.uploaded ∧
      state.events = writes.map UploadEvent.write) :
    Decides (state.write expectedLength sent)
      (KnownLengthTakes durable expectedLength bytes)
      (KnownLengthState.Keeps durable bytes) := by
  have length : state.uploaded.length + sent.length =
      (sentBytes durable bytes).length := by
    rw [← uploaded, List.length_append]
  unfold KnownLengthState.write
  rw [length]
  by_cases long : expectedLength < (sentBytes durable bytes).length
  · rw [if_pos long]
    exact fun takes => absurd takes.2 (Nat.not_le.mpr long)
  · rw [if_neg long]
    rcases writes with ⟨writes, flat, events⟩
    refine ⟨⟨header, Nat.not_lt.mp long⟩, sees, uploaded, writes ++ [sent], ?_, ?_⟩
    · rw [List.flatten_append, flat, List.flatten_singleton]
    · rw [List.map_append, ← events]
      rfl

variable {expectedLength : Nat} {state : MultipartState}
  {durable : Bool} {rawPrefix : Bytes} {packStream : PackStream}
  {stored : Option Bytes}

theorem knownLengthChunk_keeps {state : KnownLengthState}
    (takes : KnownLengthTakes durable expectedLength bytes)
    (keeps : state.Keeps durable bytes) :
    Decides (knownLengthChunk durable expectedLength state chunk)
      (KnownLengthTakes durable expectedLength (bytes ++ chunk))
      (KnownLengthState.Keeps durable (bytes ++ chunk)) := by
  have read := read_sees keeps.sees takes.1 chunk
  unfold knownLengthChunk
  cases result : state.window.read chunk with
  | error message =>
    rw [result] at read
    exact fun takes => read takes.1
  | ok window =>
    rw [result] at read
    rcases read with ⟨header, sees⟩
    dsimp only
    cases durable with
    | false =>
      rw [if_neg Bool.false_ne_true]
      have more : state.uploaded ++ chunk = sentBytes false (bytes ++ chunk) :=
        congrArg (· ++ chunk) keeps.uploaded
      exact @write_keeps (bytes ++ chunk) false expectedLength
        { state with window := window } chunk header sees more keeps.writes
    | true =>
      have more : state.uploaded ++ packBody (state.window.tail ++ chunk) =
          sentBytes true (bytes ++ chunk) := by
        rw [keeps.uploaded, keeps.sees.tail]
        exact packBody_more.1.symm
      rw [if_pos rfl]
      by_cases long : packTrailerBytes < (state.window.tail ++ chunk).length
      · rw [if_pos long]
        exact @write_keeps (bytes ++ chunk) true expectedLength
          { state with window := window } _ header sees more keeps.writes
      · rw [if_neg long]
        rw [packBody_short (Nat.not_lt.mp long), List.append_nil] at more
        refine ⟨⟨header, ?_⟩, sees, more, keeps.writes⟩
        rw [← more, keeps.uploaded]
        exact takes.2

/-- A known-length upload knows the stream, whatever its chunks are. -/
theorem knownLength_loop (durable : Bool) (expectedLength : Nat)
    (chunks : List Bytes) :
    Decides (chunks.foldlM (knownLengthChunk durable expectedLength) {})
      (KnownLengthTakes durable expectedLength chunks.flatten)
      (KnownLengthState.Keeps durable chunks.flatten) := by
  have none : sentBytes durable [] = [] := by
    cases durable <;> rfl
  apply CheckedFold.foldlM_chunks
  · intro seen more takes
    constructor
    · exact takes.1.take
    · exact Nat.le_trans (sentBytes_le durable seen more) takes.2
  · intro seen chunk state takes keeps
    exact knownLengthChunk_keeps takes keeps
  · constructor
    · exact fun long => absurd long (by decide)
    · rw [none]
      exact Nat.zero_le _
  · exact ⟨sees_nil, none.symm, [], rfl, rfl⟩

/-! ### Parts -/

/-- The parts but the last, and what is behind them. -/
structure MultipartState.Keeps (bytes : Bytes) (state : MultipartState) :
    Prop where
  sees : Sees state.window bytes
  whole : state.parts.flatten ++ state.buffered = bytes
  parts : ∀ part ∈ state.parts, part.length = multipartPartBytes

variable {faults : StagingFaults}

theorem MultipartState.Keeps.length (keeps : state.Keeps bytes) :
    state.parts.length * multipartPartBytes + state.buffered.length =
      bytes.length := by
  have all : state.parts.map List.length =
      List.replicate state.parts.length multipartPartBytes := by
    rw [← @List.length_map _ _ state.parts List.length]
    apply List.eq_replicate_of_mem
    intro length member
    rcases List.mem_map.mp member with ⟨part, stored, rfl⟩
    exact keeps.parts part stored
  have flat : state.parts.flatten.length =
      state.parts.length * multipartPartBytes := by
    rw [List.length_flatten, all, List.sum_replicate_nat]
  rw [← flat, ← List.length_append, keeps.whole]

/-- As many parts are full as fit into the bytes. -/
theorem MultipartState.Keeps.full {state : MultipartState}
    (keeps : state.Keeps bytes)
    (short : state.buffered.length < multipartPartBytes) :
    bytes.length / multipartPartBytes = state.parts.length := by
  rw [← keeps.length, Nat.mul_comm, Nat.mul_add_div (by decide),
    Nat.div_eq_of_lt short, Nat.add_zero]

/-- No upload of one of the first parts fails. -/
def PartsUpload (faults : StagingFaults) (count : Nat) : Prop :=
  ∀ part < count, faults.uploadPart (part + 1) = false

theorem partsUpload_succ {count : Nat} : PartsUpload faults (count + 1) ↔
    PartsUpload faults count ∧ faults.uploadPart (count + 1) = false := by
  constructor
  · intro upload
    constructor
    · exact fun part before => upload part (Nat.lt_succ_of_lt before)
    · exact upload count (Nat.lt_succ_self _)
  · rintro ⟨before, last⟩ part bound
    rcases Nat.lt_succ_iff_lt_or_eq.mp bound with earlier | rfl
    · exact before part earlier
    · exact last

theorem flushParts_keeps {fuel : Nat} (enough : state.buffered.length ≤ fuel)
    (keeps : state.Keeps bytes)
    (earlier : PartsUpload faults state.parts.length) :
    Decides (flushParts faults fuel state)
      (PartsUpload faults (bytes.length / multipartPartBytes))
      (fun next => next.Keeps bytes ∧
        next.buffered.length < multipartPartBytes) := by
  have done : state.buffered.length < multipartPartBytes →
      Decides (.ok state : Except String MultipartState)
        (PartsUpload faults (bytes.length / multipartPartBytes))
        (fun next => next.Keeps bytes ∧
          next.buffered.length < multipartPartBytes) := by
    intro short
    rw [keeps.full short]
    exact ⟨earlier, keeps, short⟩
  induction fuel generalizing state with
  | zero =>
    apply done
    rw [Nat.le_zero.mp enough]
    decide
  | succ fuel ih =>
    unfold flushParts
    by_cases short : state.buffered.length < multipartPartBytes
    · rw [if_pos short]
      exact done short
    rw [if_neg short]
    have long := Nat.not_lt.mp short
    unfold MultipartState.upload
    by_cases fails : faults.uploadPart (state.parts.length + 1)
    · rw [if_pos fails]
      intro upload
      have reached : state.parts.length < bytes.length / multipartPartBytes := by
        apply (Nat.le_div_iff_mul_le (by decide)).mpr
        rw [← keeps.length, Nat.succ_mul]
        exact Nat.add_le_add_left long _
      rw [upload _ reached] at fails
      cases fails
    · rw [if_neg fails]
      have next : MultipartState.Keeps bytes
          { state with
            parts := state.parts ++ [state.buffered.take multipartPartBytes]
            buffered := state.buffered.drop multipartPartBytes } := by
        refine ⟨keeps.sees, ?_, ?_⟩
        · rw [List.flatten_append, List.flatten_singleton, List.append_assoc,
            List.take_append_drop, keeps.whole]
        · intro part member
          rcases List.mem_append.mp member with stored | last
          · exact keeps.parts part stored
          · rw [List.mem_singleton.mp last, List.length_take]
            exact Nat.min_eq_left long
      have uploaded : PartsUpload faults
          (state.parts ++ [state.buffered.take multipartPartBytes]).length := by
        rw [List.length_append]
        apply partsUpload_succ.mpr
        exact ⟨earlier, Bool.eq_false_iff.mpr fails⟩
      apply ih _ next uploaded
      · intro short
        rw [next.full short]
        exact ⟨uploaded, next, short⟩
      · rw [List.length_drop]
        unfold multipartPartBytes at long ⊢
        omega

/-- The bytes of which all chunks and full parts are taken. -/
def MultipartTakes (faults : StagingFaults) (bytes : Bytes) : Prop :=
  HeaderOk bytes ∧
    PartsUpload faults (bytes.length / multipartPartBytes)

theorem multipartChunk_keeps (takes : MultipartTakes faults bytes)
    (keeps : state.Keeps bytes ∧ state.buffered.length < multipartPartBytes) :
    Decides (multipartChunk faults state chunk)
      (MultipartTakes faults (bytes ++ chunk))
      (fun next => next.Keeps (bytes ++ chunk) ∧
        next.buffered.length < multipartPartBytes) := by
  rcases keeps with ⟨keeps, short⟩
  have read := read_sees keeps.sees takes.1 chunk
  unfold multipartChunk
  cases result : state.window.read chunk with
  | error message =>
    rw [result] at read
    exact fun takes => read takes.1
  | ok window =>
    rw [result] at read
    rcases read with ⟨header, sees⟩
    have more : MultipartState.Keeps (bytes ++ chunk)
        { state with window := window, buffered := state.buffered ++ chunk } := by
      refine ⟨sees, ?_, keeps.parts⟩
      rw [← List.append_assoc, keeps.whole]
    have earlier := takes.2
    rw [keeps.full short] at earlier
    have flushed := flushParts_keeps (Nat.le_refl _) more earlier
    dsimp only
    cases flush : flushParts faults (state.buffered ++ chunk).length
        { state with window := window, buffered := state.buffered ++ chunk } with
    | error message =>
      rw [flush] at flushed
      exact fun takes => flushed takes.2
    | ok next =>
      rw [flush] at flushed
      exact ⟨⟨header, flushed.1⟩, flushed.2⟩

/-- A multipart upload knows the stream, whatever its chunks are. -/
theorem multipart_loop (chunks : List Bytes) :
    Decides (chunks.foldlM (multipartChunk faults) {})
      (MultipartTakes faults chunks.flatten)
      (fun final => final.Keeps chunks.flatten ∧
        final.buffered.length < multipartPartBytes) := by
  apply @CheckedFold.foldlM_chunks _ _ _ _ (MultipartTakes faults)
    (fun bytes (state : MultipartState) =>
      state.Keeps bytes ∧ state.buffered.length < multipartPartBytes)
  · intro seen more takes
    constructor
    · exact takes.1.take
    · intro part before
      apply takes.2 part (Nat.lt_of_lt_of_le before _)
      rw [List.length_append]
      exact Nat.div_le_div_right (Nat.le_add_right _ _)
  · intro seen chunk state takes keeps
    exact multipartChunk_keeps takes keeps
  · constructor
    · exact fun long => absurd long (by decide)
    · exact fun part before => absurd before (by decide +revert)
  · exact ⟨⟨sees_nil, rfl, nofun⟩, by decide⟩

/-! ### Stock requests -/

/-- What a stock upload has written for the bytes so far. -/
structure StockState.Keeps (rawPrefix bytes : Bytes) (state : StockState) :
    Prop where
  sees : Sees state.window bytes
  total : state.totalBytes = rawPrefix.length + bytes.length
  written : state.written = rawPrefix ++ bytes

def StockTakes (expectedLength : Nat) (rawPrefix bytes : Bytes) : Prop :=
  HeaderOk bytes ∧ rawPrefix.length + bytes.length ≤ expectedLength

theorem stockChunk_keeps {state : StockState}
    (takes : StockTakes expectedLength rawPrefix bytes)
    (keeps : state.Keeps rawPrefix bytes) :
    Decides (stockChunk expectedLength state chunk)
      (StockTakes expectedLength rawPrefix (bytes ++ chunk))
      (StockState.Keeps rawPrefix (bytes ++ chunk)) := by
  have length : rawPrefix.length + (bytes ++ chunk).length =
      state.totalBytes + chunk.length := by
    rw [List.length_append, keeps.total, Nat.add_assoc]
  have bound := takes.2
  rw [← keeps.total] at bound
  unfold stockChunk
  by_cases long : expectedLength - state.totalBytes < chunk.length
  · rw [if_pos long]
    intro takes
    have fits := takes.2
    omega
  rw [if_neg long]
  have read := read_sees keeps.sees takes.1 chunk
  cases result : state.window.read chunk with
  | error message =>
    rw [result] at read
    exact fun takes => read takes.1
  | ok window =>
    rw [result] at read
    refine ⟨⟨read.1, by omega⟩, read.2, length.symm, ?_⟩
    rw [← List.append_assoc, ← keeps.written]

/-- A stock upload knows the stream, whatever its chunks are. -/
theorem stock_loop (short : rawPrefix.length ≤ expectedLength)
    (chunks : List Bytes) :
    Decides
      (chunks.foldlM (stockChunk expectedLength)
        ⟨{}, rawPrefix.length, rawPrefix⟩)
      (StockTakes expectedLength rawPrefix chunks.flatten)
      (StockState.Keeps rawPrefix chunks.flatten) := by
  apply CheckedFold.foldlM_chunks
  · intro seen more takes
    refine ⟨takes.1.take, Nat.le_trans ?_ takes.2⟩
    rw [List.length_append]
    omega
  · intro seen chunk state takes keeps
    exact stockChunk_keeps takes keeps
  · exact ⟨fun long => absurd long (by decide), short⟩
  · exact ⟨sees_nil, rfl, (List.append_nil _).symm⟩

/-! ## The end of a stream -/

variable {sha1 sha256 : Bytes → Bytes}

/-- A pack that is long enough, with the header of version 2 and the digest of
what is before the trailer in the trailer. -/
structure ValidPack (sha1 : Bytes → Bytes) (bytes : Bytes) : Prop where
  long : packHeaderBytes + packTrailerBytes ≤ bytes.length
  header : PackHeader bytes
  trailer : sha1 (packBody bytes) = packTrailer bytes

theorem ValidPack.headerOk (valid : ValidPack sha1 bytes) : HeaderOk bytes :=
  fun _ => valid.header

theorem HeaderOk.validPack (ok : HeaderOk bytes)
    (long : packHeaderBytes + packTrailerBytes ≤ bytes.length)
    (trailer : sha1 (packBody bytes) = packTrailer bytes) :
    ValidPack sha1 bytes :=
  ⟨long, ok (Nat.le_of_add_right_le long), trailer⟩

theorem checkTrailer_sees (sees : Sees window bytes) :
    Decides (checkTrailer sha1 window)
      (sha1 (packBody bytes) = packTrailer bytes) (· = packTrailer bytes) := by
  unfold checkTrailer
  rw [sees.digested, sees.tail]
  by_cases same : sha1 (packBody bytes) = packTrailer bytes
  · rw [if_neg (not_not.mpr same)]
    exact ⟨same, same⟩
  · rw [if_pos same]
    exact same

/-- What a known-length upload has told its owner and written. -/
def TrailerAfterOwner (bytes : Bytes) (events : List UploadEvent) : Prop :=
  ∃ writes : List Bytes, writes.flatten = packBody bytes ∧
    events = writes.map UploadEvent.write ++
      [.beforeComplete bytes.length (packTrailer bytes),
        .write (packTrailer bytes)]

theorem finishKnownLength_keeps {durable : Bool} {expectedLength : Nat}
    {state : KnownLengthState} (keeps : state.Keeps durable bytes) :
    Decides (finishKnownLength sha1 faults durable expectedLength state)
      (bytes.length = expectedLength ∧
        packHeaderBytes + packTrailerBytes ≤ bytes.length ∧
        sha1 (packBody bytes) = packTrailer bytes ∧
        (durable = true → faults.beforeComplete = false))
      (fun result => result.1 = ⟨bytes.length, packTrailer bytes⟩ ∧
        result.2.uploaded = bytes ∧
        (durable = true → TrailerAfterOwner bytes result.2.events)) := by
  have checked := @checkTrailer_sees bytes state.window sha1 keeps.sees
  unfold finishKnownLength
  rw [keeps.sees.total]
  by_cases length : bytes.length = expectedLength
  case neg =>
    rw [if_pos length]
    exact fun accepts => length accepts.1
  rw [if_neg (not_not.mpr length)]
  by_cases short : bytes.length < packHeaderBytes + packTrailerBytes
  case pos =>
    rw [if_pos short]
    exact fun accepts => absurd accepts.2.1 (Nat.not_le.mpr short)
  rw [if_neg short]
  cases check : checkTrailer sha1 state.window with
  | error message =>
    rw [check] at checked
    exact fun accepts => checked accepts.2.2.1
  | ok digest =>
    rw [check] at checked
    rcases checked with ⟨same, rfl⟩
    have long := Nat.not_lt.mp short
    dsimp only
    cases durable with
    | false =>
      rw [if_neg Bool.false_ne_true]
      refine ⟨⟨length, long, same, nofun⟩, rfl, keeps.uploaded, nofun⟩
    | true =>
      rw [if_pos rfl]
      cases owner : faults.beforeComplete with
      | true =>
        rw [if_pos rfl]
        exact fun accepts => Bool.noConfusion (accepts.2.2.2 rfl)
      | false =>
        have whole : state.uploaded ++ state.window.tail = bytes := by
          rw [keeps.uploaded, keeps.sees.tail]
          exact List.take_append_drop _ _
        have fits : ¬ expectedLength <
            state.uploaded.length + state.window.tail.length := by
          rw [← List.length_append, whole, length]
          exact Nat.lt_irrefl _
        rcases keeps.writes with ⟨writes, flat, events⟩
        rw [if_neg Bool.false_ne_true]
        unfold KnownLengthState.write
        rw [if_neg fits]
        refine ⟨⟨length, long, same, fun _ => rfl⟩, rfl, whole, fun _ => ?_⟩
        refine ⟨writes, flat.trans keeps.uploaded, ?_⟩
        dsimp only
        rw [events, keeps.sees.tail, List.append_assoc]
        rfl

/-- What a known-length upload takes to succeed. -/
structure KnownLengthAccepts (sha1 : Bytes → Bytes) (faults : StagingFaults)
    (durable : Bool) (expectedLength : Nat) (packStream : PackStream) : Prop where
  valid : ValidPack sha1 packStream.chunks.flatten
  length : packStream.chunks.flatten.length = expectedLength
  stream : packStream.fails = false
  owner : durable = true → faults.beforeComplete = false
  put : faults.put = false

theorem uploadKnownLength_keeps {durable : Bool} {expectedLength : Nat}
    {packStream : PackStream} :
    Decides (uploadKnownLength sha1 faults durable expectedLength packStream)
      (KnownLengthAccepts sha1 faults durable expectedLength packStream)
      (fun result =>
        result.1 = ⟨packStream.chunks.flatten.length,
          packTrailer packStream.chunks.flatten⟩ ∧
        result.2.uploaded = packStream.chunks.flatten ∧
        (durable = true →
          TrailerAfterOwner packStream.chunks.flatten result.2.events)) := by
  have loop := knownLength_loop durable expectedLength packStream.chunks
  unfold uploadKnownLength
  cases read : packStream.chunks.foldlM
      (knownLengthChunk durable expectedLength) {} with
  | error message =>
    rw [read] at loop
    intro accepts
    apply loop
    constructor
    · exact accepts.valid.headerOk
    · rw [← accepts.length]
      unfold sentBytes packBody
      split
      · rw [List.length_take]
        exact Nat.min_le_right _ _
      · exact Nat.le_refl _
  | ok state =>
    rw [read] at loop
    rcases loop with ⟨takes, keeps⟩
    have finish := @finishKnownLength_keeps _ faults sha1 durable expectedLength
      state keeps
    dsimp only
    cases stream : packStream.fails with
    | true =>
      rw [if_pos rfl]
      intro accepts
      rw [accepts.stream] at stream
      cases stream
    | false =>
      rw [if_neg Bool.false_ne_true]
      cases finished : finishKnownLength sha1 faults durable expectedLength
          state with
      | error message =>
        rw [finished] at finish
        exact fun accepts => finish
          ⟨accepts.length, accepts.valid.long, accepts.valid.trailer,
            accepts.owner⟩
      | ok result =>
        rw [finished] at finish
        rcases finish with ⟨⟨length, long, trailer, owner⟩, told, whole, events⟩
        dsimp only
        rw [whole, if_neg (not_not.mpr length)]
        cases put : faults.put with
        | true =>
          rw [if_pos rfl]
          intro accepts
          rw [accepts.put] at put
          cases put
        | false =>
          rw [if_neg Bool.false_ne_true]
          refine ⟨?_, told, whole, events⟩
          exact ⟨takes.1.validPack long trailer, length, stream, owner, put⟩

/-- What a multipart upload takes to succeed: one part more than are full. -/
structure MultipartAccepts (sha1 : Bytes → Bytes) (faults : StagingFaults)
    (packStream : PackStream) : Prop where
  valid : ValidPack sha1 packStream.chunks.flatten
  stream : packStream.fails = false
  create : faults.create = false
  parts : PartsUpload faults
    (packStream.chunks.flatten.length / multipartPartBytes + 1)
  complete : faults.complete = false

/-- The parts of a stream: full ones, and what is left where they do not make
up the stream. -/
structure PartsOf (bytes : Bytes) (parts : List Bytes) : Prop where
  whole : parts.flatten = bytes
  sizes : ∃ full last, parts = full ++ [last] ∧
    (∀ part ∈ full, part.length = multipartPartBytes) ∧
    (¬ multipartPartBytes ∣ bytes.length →
      last ≠ [] ∧ last.length < multipartPartBytes)

theorem MultipartState.Keeps.partsOf (keeps : state.Keeps bytes)
    (short : state.buffered.length < multipartPartBytes) :
    PartsOf bytes (state.parts ++ [state.buffered]) := by
  constructor
  · rw [List.flatten_append, List.flatten_singleton, keeps.whole]
  · refine ⟨state.parts, state.buffered, rfl, keeps.parts, ?_⟩
    intro between
    refine ⟨?_, short⟩
    intro nothing
    apply between
    rw [← keeps.length, nothing, List.length_nil, Nat.add_zero]
    exact Nat.dvd_mul_left _ _

theorem uploadMultipart_keeps {packStream : PackStream}
    (create : faults.create = false) :
    Decides (uploadMultipart sha1 faults packStream)
      (MultipartAccepts sha1 faults packStream)
      (fun result =>
        result.1 = ⟨packStream.chunks.flatten.length,
          packTrailer packStream.chunks.flatten⟩ ∧
        PartsOf packStream.chunks.flatten result.2) := by
  have loop := @multipart_loop faults packStream.chunks
  unfold uploadMultipart
  cases read : packStream.chunks.foldlM (multipartChunk faults) {} with
  | error message =>
    rw [read] at loop
    exact fun accepts => loop
      ⟨accepts.valid.headerOk, (partsUpload_succ.mp accepts.parts).1⟩
  | ok state =>
    rw [read] at loop
    rcases loop with ⟨takes, keeps, small⟩
    have checked := @checkTrailer_sees _ state.window sha1 keeps.sees
    dsimp only
    cases stream : packStream.fails with
    | true =>
      rw [if_pos rfl]
      intro accepts
      rw [accepts.stream] at stream
      cases stream
    | false =>
      unfold finishMultipart
      rw [if_neg Bool.false_ne_true, keeps.sees.total]
      by_cases short : packStream.chunks.flatten.length <
          packHeaderBytes + packTrailerBytes
      · rw [if_pos short]
        exact fun accepts => absurd accepts.valid.long (Nat.not_le.mpr short)
      have nonempty : ¬ (state.buffered = [] ∧ state.parts = []) := by
        rintro ⟨buffered, parts⟩
        apply short
        rw [← keeps.whole, buffered, parts]
        decide
      rw [if_neg short, if_neg nonempty]
      unfold MultipartState.upload
      by_cases fails : faults.uploadPart (state.parts.length + 1)
      · rw [if_pos fails]
        intro accepts
        rw [← keeps.full small,
          (partsUpload_succ.mp accepts.parts).2] at fails
        cases fails
      rw [if_neg fails]
      cases check : checkTrailer sha1 state.window with
      | error message =>
        rw [check] at checked
        exact fun accepts => checked accepts.valid.trailer
      | ok digest =>
        rw [check] at checked
        rcases checked with ⟨same, rfl⟩
        dsimp only
        cases complete : faults.complete with
        | true =>
          rw [if_pos rfl]
          intro accepts
          rw [accepts.complete] at complete
          cases complete
        | false =>
          rw [if_neg Bool.false_ne_true]
          refine ⟨⟨?_, stream, create, ?_, complete⟩, rfl, ?_⟩
          · exact takes.1.validPack (Nat.not_lt.mp short) same
          · apply partsUpload_succ.mpr
            refine ⟨takes.2, ?_⟩
            rw [keeps.full small]
            exact Bool.eq_false_iff.mpr fails
          · exact keeps.partsOf small

/-- What a stock request takes to be staged. -/
structure StockAccepts (sha1 : Bytes → Bytes) (faults : StagingFaults)
    (expectedLength : Nat) (rawPrefix : Bytes) (packStream : PackStream) :
    Prop where
  valid : ValidPack sha1 packStream.chunks.flatten
  length : rawPrefix.length + packStream.chunks.flatten.length = expectedLength
  stream : packStream.fails = false
  put : faults.put = false

/-- The request that a stock receive stages, and its pack. -/
def stagedRequest (sha256 : Bytes → Bytes) (rawPrefix bytes : Bytes) :
    StagedRequest where
  requestBytes := rawPrefix.length + bytes.length
  requestSha256 := sha256 (rawPrefix ++ bytes)
  packOffset := rawPrefix.length
  packBytes := bytes.length
  packData := bytes

theorem uploadStock_keeps {expectedLength : Nat} {rawPrefix : Bytes}
    {packStream : PackStream} (fits : rawPrefix.length ≤ expectedLength) :
    Decides
      (uploadStock sha1 faults sha256 expectedLength rawPrefix packStream)
      (StockAccepts sha1 faults expectedLength rawPrefix packStream)
      (· = (stagedRequest sha256 rawPrefix packStream.chunks.flatten,
        rawPrefix ++ packStream.chunks.flatten)) := by
  have loop := stock_loop fits packStream.chunks
  unfold uploadStock
  cases read : packStream.chunks.foldlM (stockChunk expectedLength)
      ⟨{}, rawPrefix.length, rawPrefix⟩ with
  | error message =>
    rw [read] at loop
    exact fun accepts => loop
      ⟨accepts.valid.headerOk, Nat.le_of_eq accepts.length⟩
  | ok state =>
    rw [read] at loop
    rcases loop with ⟨takes, keeps⟩
    have checked := @checkTrailer_sees _ state.window sha1 keeps.sees
    dsimp only
    cases stream : packStream.fails with
    | true =>
      rw [if_pos rfl]
      intro accepts
      rw [accepts.stream] at stream
      cases stream
    | false =>
      unfold finishStock
      rw [if_neg Bool.false_ne_true, keeps.total, keeps.sees.total]
      by_cases wrong : rawPrefix.length + packStream.chunks.flatten.length ≠
          expectedLength ∨ packStream.chunks.flatten.length <
            packHeaderBytes + packTrailerBytes
      · rw [if_pos wrong]
        intro accepts
        rcases wrong with other | short
        · exact other accepts.length
        · exact absurd accepts.valid.long (Nat.not_le.mpr short)
      rw [if_neg wrong]
      rcases not_or.mp wrong with ⟨length, long⟩
      cases check : checkTrailer sha1 state.window with
      | error message =>
        rw [check] at checked
        exact fun accepts => checked accepts.valid.trailer
      | ok digest =>
        rw [check] at checked
        dsimp only
        cases put : faults.put with
        | true =>
          rw [if_pos rfl]
          intro accepts
          rw [accepts.put] at put
          cases put
        | false =>
          rw [if_neg Bool.false_ne_true, keeps.written]
          refine ⟨⟨?_, not_not.mp length, stream, put⟩, rfl⟩
          exact takes.1.validPack (Nat.not_lt.mp long) checked.1

/-! ## Staging -/

/-- Staging ends with a value exactly when a stream is accepted; otherwise the
caller sees an error, and what is under the key was there before. -/
structure Staging.Follows {Value : Type} (staging : Staging Value)
    (stored : Option Bytes) (accepts : Prop) (value : Value) : Prop where
  staged : accepts → staging.outcome = .ok value
  refused : ¬ accepts → (∃ message, staging.outcome = .error message) ∧
    (staging.stored = none ∨ staging.stored = stored)

theorem deleteArtifact_cases (stored : Option Bytes) :
    deleteArtifact faults stored = none ∨
      deleteArtifact faults stored = stored := by
  unfold deleteArtifact
  split
  · exact Or.inr rfl
  · exact Or.inl rfl

theorem stageKnownLengthPack_follows :
    (stageKnownLengthPack sha1 faults durable expectedLength packStream
        stored).Follows stored
      (KnownLengthAccepts sha1 faults durable expectedLength packStream)
      ⟨packStream.chunks.flatten.length,
        packTrailer packStream.chunks.flatten⟩ ∧
    (KnownLengthAccepts sha1 faults durable expectedLength packStream →
      ((durable = true → stored = none) →
        (stageKnownLengthPack sha1 faults durable expectedLength packStream
          stored).stored = some packStream.chunks.flatten) ∧
      (durable = true → TrailerAfterOwner packStream.chunks.flatten
        (stageKnownLengthPack sha1 faults durable expectedLength packStream
          stored).events)) := by
  have upload := @uploadKnownLength_keeps faults sha1 durable expectedLength
    packStream
  unfold stageKnownLengthPack
  by_cases zero : expectedLength = 0
  · rw [if_pos zero]
    have never : ¬ KnownLengthAccepts sha1 faults durable expectedLength
        packStream := by
      intro accepts
      have long := accepts.valid.long
      rw [accepts.length, zero] at long
      exact absurd long (by decide)
    refine ⟨⟨fun accepts => absurd accepts never, fun _ => ?_⟩,
      fun accepts => absurd accepts never⟩
    exact ⟨⟨_, rfl⟩, Or.inr rfl⟩
  rw [if_neg zero]
  cases uploaded : uploadKnownLength sha1 faults durable expectedLength
      packStream with
  | error message =>
    rw [uploaded] at upload
    refine ⟨⟨fun accepts => absurd accepts upload, fun _ => ?_⟩,
      fun accepts => absurd accepts upload⟩
    refine ⟨⟨message, rfl⟩, ?_⟩
    cases durable with
    | true => exact Or.inr rfl
    | false => exact deleteArtifact_cases stored
  | ok result =>
    rw [uploaded] at upload
    rcases upload with ⟨accepts, told, whole, events⟩
    refine ⟨⟨fun _ => ?_, fun refused => absurd accepts refused⟩, fun _ => ?_⟩
    · exact congrArg Except.ok told
    · refine ⟨fun free => ?_, events⟩
      have fresh : ¬ (durable = true ∧ stored.isSome = true) := by
        rintro ⟨owned, taken⟩
        rw [free owned] at taken
        cases taken
      dsimp only
      rw [if_neg fresh, whole]

theorem stageMultipartPack_follows :
    (stageMultipartPack sha1 faults packStream stored).Follows stored
      (MultipartAccepts sha1 faults packStream)
      ⟨packStream.chunks.flatten.length,
        packTrailer packStream.chunks.flatten⟩ ∧
    (MultipartAccepts sha1 faults packStream →
      (stageMultipartPack sha1 faults packStream stored).stored =
          some packStream.chunks.flatten ∧
        PartsOf packStream.chunks.flatten
          (stageMultipartPack sha1 faults packStream stored).parts) := by
  unfold stageMultipartPack
  cases create : faults.create with
  | true =>
    have never : ¬ MultipartAccepts sha1 faults packStream := by
      intro accepts
      rw [accepts.create] at create
      cases create
    rw [if_pos rfl]
    refine ⟨⟨fun accepts => absurd accepts never, fun _ => ?_⟩,
      fun accepts => absurd accepts never⟩
    exact ⟨⟨_, rfl⟩, Or.inr rfl⟩
  | false =>
    have upload := @uploadMultipart_keeps faults sha1 packStream create
    rw [if_neg Bool.false_ne_true]
    cases uploaded : uploadMultipart sha1 faults packStream with
    | error message =>
      rw [uploaded] at upload
      refine ⟨⟨fun accepts => absurd accepts upload, fun _ => ?_⟩,
        fun accepts => absurd accepts upload⟩
      exact ⟨⟨message, rfl⟩, deleteArtifact_cases stored⟩
    | ok result =>
      rw [uploaded] at upload
      rcases upload with ⟨accepts, told, parts⟩
      refine ⟨⟨fun _ => ?_, fun refused => absurd accepts refused⟩, fun _ => ?_⟩
      · exact congrArg Except.ok told
      · exact ⟨congrArg some parts.whole, parts⟩

/-- A stock request is bounded, and holds more than its commands. -/
def StockLength (rawPrefix : Bytes) (expectedLength : Nat) : Prop :=
  rawPrefix.length < expectedLength ∧
    expectedLength ≤ maxStockReceiveRequestBytes

theorem stageStockReceiveRequestToR2_follows {contentLength : Option Nat}
    {rawPrefix : Bytes} {packStream : PackStream} {stored : Option Bytes} :
    (stageStockReceiveRequestToR2 sha1 faults sha256 contentLength rawPrefix
        packStream stored).Follows stored
      (∃ expectedLength, contentLength = some expectedLength ∧
        StockLength rawPrefix expectedLength ∧
        StockAccepts sha1 faults expectedLength rawPrefix packStream)
      (stagedRequest sha256 rawPrefix packStream.chunks.flatten) ∧
    ((∃ expectedLength, contentLength = some expectedLength ∧
        StockLength rawPrefix expectedLength ∧
        StockAccepts sha1 faults expectedLength rawPrefix packStream) →
      (stageStockReceiveRequestToR2 sha1 faults sha256 contentLength rawPrefix
        packStream stored).stored =
          some (rawPrefix ++ packStream.chunks.flatten)) := by
  unfold stageStockReceiveRequestToR2
  cases declared : contentLength.filter fun expectedLength =>
      rawPrefix.length < expectedLength &&
        decide (expectedLength ≤ maxStockReceiveRequestBytes) with
  | none =>
    have never : ¬ ∃ expectedLength, contentLength = some expectedLength ∧
        StockLength rawPrefix expectedLength ∧
        StockAccepts sha1 faults expectedLength rawPrefix packStream := by
      rintro ⟨expectedLength, rfl, ⟨longer, bounded⟩, _⟩
      rw [Option.filter_some, if_pos] at declared
      · cases declared
      · rw [decide_eq_true longer, decide_eq_true bounded]
        rfl
    refine ⟨⟨fun accepts => absurd accepts never, fun _ => ?_⟩,
      fun accepts => absurd accepts never⟩
    exact ⟨⟨_, rfl⟩, Or.inr rfl⟩
  | some expectedLength =>
    rcases Option.filter_eq_some_iff.mp declared with ⟨rfl, bounds⟩
    rw [Bool.and_eq_true, decide_eq_true_iff, decide_eq_true_iff] at bounds
    have upload := @uploadStock_keeps faults sha1 sha256 expectedLength
      rawPrefix packStream (Nat.le_of_lt bounds.1)
    dsimp only
    cases uploaded : uploadStock sha1 faults sha256 expectedLength rawPrefix
        packStream with
    | error message =>
      rw [uploaded] at upload
      have never : ¬ ∃ length, some expectedLength = some length ∧
          StockLength rawPrefix length ∧
          StockAccepts sha1 faults length rawPrefix packStream := by
        rintro ⟨length, same, _, accepts⟩
        cases same
        exact upload accepts
      refine ⟨⟨fun accepts => absurd accepts never, fun _ => ?_⟩,
        fun accepts => absurd accepts never⟩
      exact ⟨⟨message, rfl⟩, deleteArtifact_cases stored⟩
    | ok result =>
      rw [uploaded] at upload
      rcases upload with ⟨accepts, rfl⟩
      refine ⟨⟨fun _ => rfl, fun refused => ?_⟩, fun _ => rfl⟩
      exact absurd ⟨expectedLength, rfl, bounds, accepts⟩ refused

/-- Staging is about the stream, not about its chunks.  All ways succeed on the
same packs, up to the bound on stock requests and failures of the platform, and
store the stream. -/
theorem staging_independent (sha1 sha256 : Bytes → Bytes)
    (faults : StagingFaults) (durable : Bool) (expectedLength : Nat)
    (contentLength : Option Nat) (rawPrefix : Bytes) (packStream : PackStream)
    (stored : Option Bytes) :
    let bytes := packStream.chunks.flatten
    let known := stageKnownLengthPack sha1 faults durable expectedLength
      packStream stored
    let multipart := stageMultipartPack sha1 faults packStream stored
    let stock := stageStockReceiveRequestToR2 sha1 faults sha256 contentLength
      rawPrefix packStream stored
    let knownAccepts :=
      KnownLengthAccepts sha1 faults durable expectedLength packStream
    let multipartAccepts := MultipartAccepts sha1 faults packStream
    let stockAccepts := ∃ expectedLength, contentLength = some expectedLength ∧
      StockLength rawPrefix expectedLength ∧
      StockAccepts sha1 faults expectedLength rawPrefix packStream
    (known.Follows stored knownAccepts ⟨bytes.length, packTrailer bytes⟩ ∧
      (knownAccepts →
        ((durable = true → stored = none) → known.stored = some bytes) ∧
        (durable = true → TrailerAfterOwner bytes known.events))) ∧
    (multipart.Follows stored multipartAccepts
        ⟨bytes.length, packTrailer bytes⟩ ∧
      (multipartAccepts →
        multipart.stored = some bytes ∧ PartsOf bytes multipart.parts)) ∧
    (stock.Follows stored stockAccepts
        (stagedRequest sha256 rawPrefix bytes) ∧
      (stockAccepts → stock.stored = some (rawPrefix ++ bytes))) := by
  refine ⟨?_, ?_, ?_⟩
  · exact stageKnownLengthPack_follows
  · exact stageMultipartPack_follows
  · exact stageStockReceiveRequestToR2_follows

/-- A pack that is longer than a stock request may be. -/
def largePack (sha1 : Bytes → Bytes) : Bytes :=
  let body := [0x50, 0x41, 0x43, 0x4b, 0, 0, 0, 2] ++
    List.replicate maxStockReceiveRequestBytes 0
  body ++ sha1 body

/-- Whatever hash of 20 bytes is used, a large pack is staged in parts and no
stock request. -/
theorem staging_bounded : ¬ ∃ sha1 sha256 : Bytes → Bytes,
    (∀ bytes, (sha1 bytes).length = packTrailerBytes) ∧
    ((∃ pack, (stageMultipartPack sha1 {} ⟨[largePack sha1], false⟩ none).outcome =
        .ok pack) →
      ∃ request, (stageStockReceiveRequestToR2 sha1 {} sha256
        (some (4 + (largePack sha1).length)) [48, 48, 48, 48]
        ⟨[largePack sha1], false⟩ none).outcome = .ok request) := by
  rintro ⟨sha1, sha256, digest, same⟩
  have flat : [largePack sha1].flatten = largePack sha1 := List.flatten_singleton
  generalize body_def : [0x50, 0x41, 0x43, 0x4b, 0, 0, 0, 2] ++
    List.replicate maxStockReceiveRequestBytes (0 : UInt8) = body
  have whole : largePack sha1 = body ++ sha1 body := by
    rw [← body_def]
    rfl
  have bodyLength : body.length = 8 + maxStockReceiveRequestBytes := by
    rw [← body_def, List.length_append, List.length_replicate]
    rfl
  have length : (largePack sha1).length =
      8 + maxStockReceiveRequestBytes + packTrailerBytes := by
    rw [whole, List.length_append, digest, bodyLength]
  have before : (largePack sha1).length - packTrailerBytes = body.length := by
    rw [length, bodyLength, Nat.add_sub_cancel]
  have valid : ValidPack sha1 (largePack sha1) := by
    refine ⟨?_, ⟨?_, ?_⟩, ?_⟩
    · rw [length]
      decide
    · rw [whole, ← body_def]
      rfl
    · rw [whole, ← body_def]
      rfl
    · unfold packBody packTrailer
      rw [before, whole, List.take_left, List.drop_left]
  have accepts : MultipartAccepts sha1 {} ⟨[largePack sha1], false⟩ := by
    refine ⟨?_, rfl, rfl, fun _ _ => rfl, rfl⟩
    rw [flat]
    exact valid
  rcases same ⟨_, stageMultipartPack_follows.1.staged accepts⟩ with
    ⟨request, staged⟩
  have refused : ¬ ∃ expectedLength,
      some (4 + (largePack sha1).length) = some expectedLength ∧
        StockLength [48, 48, 48, 48] expectedLength ∧
        StockAccepts sha1 {} expectedLength [48, 48, 48, 48]
          ⟨[largePack sha1], false⟩ := by
    rintro ⟨expectedLength, declared, ⟨_, bounded⟩, _⟩
    cases declared
    rw [length] at bounded
    exact absurd bounded (by decide)
  have follows := @stageStockReceiveRequestToR2_follows {} sha1 sha256
    (some (4 + (largePack sha1).length)) [48, 48, 48, 48]
    ⟨[largePack sha1], false⟩ none
  rcases follows.1.refused refused with ⟨⟨message, failed⟩, _⟩
  rw [failed] at staged
  cases staged

end GitOnCloudflare.Receive.PackStaging
