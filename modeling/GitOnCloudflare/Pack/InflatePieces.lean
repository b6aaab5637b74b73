import GitOnCloudflare.Foundations.StreamDecoder
import GitOnCloudflare.Pack.InflateCursor

/-!
# Inflating in pieces

A raw inflater that takes its stream in any pieces is given by what it makes
of all the bytes it has had.  Around such an inflater the cursor is a decoder
of the same kind for wrapped streams: header, raw stream and checksum.
-/

namespace GitOnCloudflare.Pack

open Foundations Foundations.ByteTable

/-! ## The raw inflater -/

/-- The inflater takes the stream in pieces: the answer to a push depends on
the bytes that went in so far and on the piece. -/
structure Incremental (inflate : RawInflate)
    (decode : Bytes → Decoded UInt8 String)
    (fed : inflate.State → Bytes → Prop) : Prop where
  stable : StableDecoder decode
  start : fed inflate.start []
  failed : ∀ {state sofar piece failure}, fed state sofar → piece ≠ [] →
    decode (sofar ++ piece) = .failed failure →
      inflate.push state piece = .error failure
  done : ∀ {state sofar piece output whole used}, fed state sofar →
    decode sofar = .more output → piece ≠ [] →
      decode (sofar ++ piece) = .done whole used →
        ∃ last chunk,
          inflate.push state piece =
              .ok ⟨last, chunk, used - sofar.length, true⟩ ∧
            whole = output ++ chunk
  more : ∀ {state sofar piece output whole}, fed state sofar →
    decode sofar = .more output → piece ≠ [] →
      decode (sofar ++ piece) = .more whole →
        ∃ next chunk,
          inflate.push state piece =
              .ok ⟨next, chunk, piece.length, false⟩ ∧
            whole = output ++ chunk ∧ fed next (sofar ++ piece)

/-- The checksum behind a raw stream. -/
def decodeTrailer (payload : Bytes) (used : Nat) (behind : Bytes) :
    Decoded UInt8 String :=
  if behind.length < 4 then
    .more payload
  else if ofBigEndian (behind.take 4) ≠ adler32Update adler32Init payload then
    .failed (adlerMismatch (ofBigEndian (behind.take 4))
      (adler32Update adler32Init payload))
  else
    .done payload (2 + used + 4)

/-- What the cursor makes of the first bytes of an entry. -/
def decodeZlib (decode : Bytes → Decoded UInt8 String) :
    Bytes → Decoded UInt8 String
  | cmf :: flg :: raw =>
    if isValidZlibHeader cmf flg then
      if flg &&& 0x20 ≠ 0 then
        .failed "inflate: zlib preset dictionaries are not supported"
      else
        match decode raw with
        | .more output => .more output
        | .failed failure => .failed failure
        | .done payload used => decodeTrailer payload used (raw.drop used)
    else
      .failed (invalidZlibHeader cmf flg)
  | _ => .more []

variable {payload sofar : Bytes}
  {output : Bytes}

section Zlib

variable {decode : Bytes → Decoded UInt8 String}
  {used : Nat}

end Zlib

/-! ## The cursor on its way -/

namespace InflateCursor

variable {inflate : RawInflate}

/-- The cursor past the header, with the output so far. -/
def past (inf : inflate.State) (limit : Nat) (output : Bytes) (done : Bool)
    (trailer : Bytes) : InflateCursor inflate where
  inf := inf
  chunks := output.take limit
  totalOutputBytes := output.length
  captureLimit := limit
  outputTruncated := decide (limit < output.length)
  rawDeflateDone := done
  entryDone := decide (trailer.length = 4)
  adler32 := adler32Update adler32Init output
  headerConsumed := true
  trailerBytes := trailer

/-- The capture keeps what fits, however the output is cut. -/
theorem onData_past (inf : inflate.State) (limit : Nat) (output chunk : Bytes) :
    (past inf limit output false []).onData chunk =
      past inf limit (output ++ chunk) false [] := by
  unfold onData past
  dsimp only
  rw [← adler32Update_append, List.length_append, List.length_take]
  split
  · next full =>
      have kept : (output ++ chunk).take limit = output.take limit :=
        List.take_append_of_le_length (by omega)
      have truncated : (decide (limit < output.length) || decide (0 < chunk.length)) =
          decide (limit < output.length + chunk.length) := by
        rw [Bool.eq_iff_iff, Bool.or_eq_true, decide_eq_true_iff,
          decide_eq_true_iff, decide_eq_true_iff]
        omega
      rw [kept, truncated]
  · next room =>
      have whole : output.take limit = output := List.take_of_length_le (by omega)
      split
      · next fits =>
          have kept : (output ++ chunk).take limit = output ++ chunk := by
            apply List.take_of_length_le
            rw [List.length_append]
            omega
          have truncated : decide (limit < output.length + chunk.length) =
              decide (limit < output.length) := by
            rw [decide_eq_false (by omega), decide_eq_false (by omega)]
          rw [kept, whole, truncated]
      · next exceeds =>
          have kept : (output ++ chunk).take limit =
              output ++ chunk.take (limit - output.length) := by
            rw [List.take_append, whole]
          have truncated : decide (limit < output.length + chunk.length) =
              true := decide_eq_true (by omega)
          rw [kept, whole, truncated, Nat.min_eq_right (by omega)]

end InflateCursor

section Cursor

variable {inflate : RawInflate} {decode : Bytes → Decoded UInt8 String}
  {fed : inflate.State → Bytes → Prop} {limit : Nat}

open InflateCursor

theorem reset_past (limit : Nat) :
    ({ (reset limit : InflateCursor inflate) with headerConsumed := true } :
      InflateCursor inflate) = past inflate.start limit [] false [] := by
  unfold reset past
  rw [List.take_nil]
  rfl

/-- Where the cursor stands while it wants more bytes. -/
inductive CursorAt (decode : Bytes → Decoded UInt8 String)
    (fed : inflate.State → Bytes → Prop) (limit : Nat) :
    InflateCursor inflate → Bytes → Prop
  | start : CursorAt decode fed limit (.reset limit) []
  | inflating {cmf flg : UInt8} {raw output : Bytes} {inf : inflate.State}
      (valid : isValidZlibHeader cmf flg = true)
      (noDictionary : flg &&& 0x20 = 0) (wants : decode raw = .more output)
      (state : fed inf raw) :
      CursorAt decode fed limit (past inf limit output false [])
        (cmf :: flg :: raw)
  | closing {cmf flg : UInt8} {raw payload trailer : Bytes}
      {inf : inflate.State} (valid : isValidZlibHeader cmf flg = true)
      (noDictionary : flg &&& 0x20 = 0)
      (inflated : decode raw = .done payload raw.length)
      (short : trailer.length < 4) :
      CursorAt decode fed limit (past inf limit payload true trailer)
        (cmf :: flg :: (raw ++ trailer))

variable {cursor : InflateCursor inflate} {cmf flg : UInt8}

theorem CursorAt.open_ (stands : CursorAt decode fed limit cursor sofar) :
    cursor.entryDone = false := by
  cases stands with
  | start => rfl
  | inflating => rfl
  | closing _ _ _ short => exact decide_eq_false (by omega)

/-- The cursor has the whole payload. -/
structure Holds (limit : Nat) (payload : Bytes)
    (cursor : InflateCursor inflate) : Prop where
  entryDone : cursor.entryDone = true
  chunks : cursor.chunks = payload.take limit
  outputTruncated : cursor.outputTruncated = decide (limit < payload.length)
  totalOutputBytes : cursor.totalOutputBytes = payload.length

/-- What a push of a piece answers when the decoder has this verdict on all
bytes. -/
def Answers (decode : Bytes → Decoded UInt8 String)
    (fed : inflate.State → Bytes → Prop) (limit : Nat) (sofar piece : Bytes)
    (result : Except String (InflateCursor inflate × Nat)) :
    Decoded UInt8 String → Prop
  | .failed failure => result = .error failure
  | .more _ =>
    ∃ next, result = .ok (next, piece.length) ∧
      CursorAt decode fed limit next (sofar ++ piece)
  | .done payload used =>
    ∃ next taken, result = .ok (next, taken) ∧ 0 < taken ∧
      taken ≤ piece.length ∧ used = sofar.length + taken ∧
      Holds limit payload next

/-- The answer when some bytes of the piece have gone in already. -/
def behind (count : Nat) (result : Except String (InflateCursor inflate × Nat)) :
    Except String (InflateCursor inflate × Nat) :=
  result.map fun pushed => (pushed.1, count + pushed.2)

theorem Answers.behind {sofar piece : Bytes} {count : Nat}
    {result : Except String (InflateCursor inflate × Nat)}
    {verdict : Decoded UInt8 String} (within : count ≤ piece.length)
    (answers : Answers decode fed limit (sofar ++ piece.take count)
      (piece.drop count) result verdict) :
    Answers decode fed limit sofar piece (Pack.behind count result) verdict := by
  have whole := List.take_append_drop count piece
  have taken_ : (piece.take count).length = count := by
    rw [List.length_take]
    exact Nat.min_eq_left within
  cases verdict with
  | failed failure =>
    change result = _ at answers
    rw [answers]
    rfl
  | more output =>
    rcases answers with ⟨next, ran, stands⟩
    rw [List.append_assoc, whole] at stands
    refine ⟨next, ?_, stands⟩
    rw [ran, List.length_drop]
    change Except.ok (next, count + (piece.length - count)) = _
    rw [Nat.add_sub_of_le within]
  | done payload used =>
    rcases answers with ⟨next, taken, ran, positive, inside, used_eq, holds⟩
    rw [List.length_drop] at inside
    rw [List.length_append, taken_] at used_eq
    refine ⟨next, count + taken, ?_, by omega, by omega, by omega, holds⟩
    rw [ran]
    rfl

theorem decodeZlib_valid (raw : Bytes)
    (valid : isValidZlibHeader cmf flg = true) (noDictionary : flg &&& 0x20 = 0) :
    decodeZlib decode (cmf :: flg :: raw) =
      match decode raw with
      | .more output => .more output
      | .failed failure => .failed failure
      | .done payload used => decodeTrailer payload used (raw.drop used) := by
  rw [decodeZlib, if_pos valid, if_neg (not_not.mpr noDictionary)]

variable {raw piece : Bytes} {inf : inflate.State}

/-- The verdict on a raw stream that is done with what came behind it. -/
theorem decodeZlib_closing (stable : StableDecoder decode)
    (valid : isValidZlibHeader cmf flg = true) (noDictionary : flg &&& 0x20 = 0)
    (inflated : decode raw = .done payload raw.length) (behind : Bytes) :
    decodeZlib decode (cmf :: flg :: (raw ++ behind)) =
      decodeTrailer payload raw.length behind := by
  rw [decodeZlib_valid _ valid noDictionary, stable.done inflated behind]
  dsimp only
  rw [List.drop_left]

/-- The bytes of the checksum. -/
theorem takeTrailer_answers {cmf flg : UInt8} {raw payload trailer : Bytes}
    {inf : inflate.State} (valid : isValidZlibHeader cmf flg = true)
    (noDictionary : flg &&& 0x20 = 0)
    (inflated : decode raw = .done payload raw.length)
    (short : trailer.length < 4) (piece : Bytes) :
    Answers decode fed limit (cmf :: flg :: (raw ++ trailer)) piece
      ((past inf limit payload true trailer).takeTrailer piece)
      (decodeTrailer payload raw.length (trailer ++ piece)) := by
  have sizes : (trailer ++ piece).length = trailer.length + piece.length :=
    List.length_append
  unfold decodeTrailer takeTrailer
  by_cases none_ : piece = []
  · subst none_
    rw [List.append_nil, if_pos short, if_neg fun both => both.2 rfl]
    refine ⟨_, rfl, ?_⟩
    rw [List.append_nil]
    exact .closing valid noDictionary inflated short
  rw [if_pos ⟨rfl, none_⟩]
  change Answers decode fed limit _ piece
    (if (trailer ++ piece.take (4 - trailer.length)).length = 4 then
      if ofBigEndian (trailer ++ piece.take (4 - trailer.length)) ≠
          adler32Update adler32Init payload then
        .error (adlerMismatch
          (ofBigEndian (trailer ++ piece.take (4 - trailer.length)))
          (adler32Update adler32Init payload))
      else
        .ok ({ past inf limit payload true trailer with
          trailerBytes := trailer ++ piece.take (4 - trailer.length)
          entryDone := true }, (piece.take (4 - trailer.length)).length)
    else
      .ok ({ past inf limit payload true trailer with
        trailerBytes := trailer ++ piece.take (4 - trailer.length) },
        (piece.take (4 - trailer.length)).length)) _
  by_cases few : (trailer ++ piece).length < 4
  · have all : piece.take (4 - trailer.length) = piece :=
      List.take_of_length_le (by omega)
    have other : ¬ (trailer ++ piece).length = 4 := by omega
    rw [all, if_pos few, if_neg other]
    refine ⟨_, rfl, ?_⟩
    have moved : ({ past inf limit payload true trailer with
        trailerBytes := trailer ++ piece } : InflateCursor inflate) =
          past inf limit payload true (trailer ++ piece) := by
      have before : ¬ trailer.length = 4 := by omega
      unfold past
      rw [decide_eq_false other, decide_eq_false before]
    rw [moved, List.cons_append, List.cons_append, List.append_assoc]
    exact .closing valid noDictionary inflated few
  · have taken : (piece.take (4 - trailer.length)).length =
        4 - trailer.length := by
      rw [List.length_take]
      omega
    have four : (trailer ++ piece).take 4 =
        trailer ++ piece.take (4 - trailer.length) := by
      rw [List.take_append, List.take_of_length_le short.le]
    have whole : (trailer ++ piece.take (4 - trailer.length)).length = 4 := by
      rw [List.length_append, taken]
      omega
    rw [if_neg few, if_pos whole, four]
    by_cases same : ofBigEndian (trailer ++ piece.take (4 - trailer.length)) =
        adler32Update adler32Init payload
    · rw [if_neg (not_not.mpr same), if_neg (not_not.mpr same)]
      refine ⟨_, _, rfl, ?_, ?_, ?_, ⟨rfl, rfl, rfl, rfl⟩⟩
      · omega
      · omega
      · rw [taken, List.length_cons, List.length_cons, List.length_append]
        omega
    · rw [if_pos same, if_pos same]
      rfl

/-- The bytes after the two of the header. -/
def InflateCursor.pushBody (cursor : InflateCursor inflate) (data : Bytes) :
    Except String (InflateCursor inflate × Nat) :=
  match cursor.takeRaw data with
  | .error failure => .error failure
  | .ok (inflated, raw) =>
    behind raw (inflated.takeTrailer (data.drop raw))

theorem InflateCursor.push_eq (open_ : cursor.entryDone = false) (data : Bytes) :
    cursor.push data =
      match cursor.takeHeader data with
      | .error failure => .error failure
      | .ok (opened, header) =>
        behind header (opened.pushBody (data.drop header)) := by
  unfold InflateCursor.push
  rw [open_, if_neg Bool.false_ne_true]
  cases cursor.takeHeader data with
  | error failure => rfl
  | ok first =>
    rcases first with ⟨opened, header⟩
    dsimp only [bind, Except.bind]
    unfold InflateCursor.pushBody
    cases opened.takeRaw (data.drop header) with
    | error failure => rfl
    | ok second =>
      rcases second with ⟨inflated, raw⟩
      dsimp only
      rw [List.drop_drop]
      cases inflated.takeTrailer (data.drop (header + raw)) with
      | error failure => rfl
      | ok third =>
        change Except.ok (third.1, header + raw + third.2) =
          Except.ok (third.1, header + (raw + third.2))
        rw [Nat.add_assoc]

/-- The cursor has had the whole raw stream. -/
theorem pushBody_closing {trailer : Bytes}
    (valid : isValidZlibHeader cmf flg = true) (noDictionary : flg &&& 0x20 = 0)
    (inflated : decode raw = .done payload raw.length)
    (short : trailer.length < 4) (piece : Bytes) :
    Answers decode fed limit (cmf :: flg :: (raw ++ trailer)) piece
      ((past inf limit payload true trailer).pushBody piece)
      (decodeTrailer payload raw.length (trailer ++ piece)) := by
  have nothing : (past inf limit payload true trailer).takeRaw piece =
      .ok (past inf limit payload true trailer, 0) := if_pos (.inl rfl)
  unfold InflateCursor.pushBody
  rw [nothing]
  apply Answers.behind (Nat.zero_le _)
  rw [List.take_zero, List.append_nil, List.drop_zero]
  exact takeTrailer_answers valid noDictionary inflated short piece

theorem takeRaw_push (some_ : piece ≠ []) :
    (past inf limit output false [] : InflateCursor inflate).takeRaw piece =
      match inflate.push inf piece with
      | .error failure => .error failure
      | .ok pushed =>
        .ok (past pushed.state limit (output ++ pushed.chunk) pushed.ended [],
          pushed.consumed) := by
  unfold InflateCursor.takeRaw
  rw [if_neg (by
    rintro (done | empty)
    · cases done
    · exact some_ empty)]
  have moved : ∀ pushed : InflatePush inflate.State,
      ({ (past inf limit output false [] : InflateCursor inflate).onData
          pushed.chunk with
        inf := pushed.state
        rawDeflateDone := pushed.ended } : InflateCursor inflate) =
      past pushed.state limit (output ++ pushed.chunk) pushed.ended [] := by
    intro pushed
    rw [onData_past]
    rfl
  have same : inflate.push (past inf limit output false []).inf piece =
      inflate.push inf piece := rfl
  rw [same]
  cases inflate.push inf piece with
  | error failure => rfl
  | ok pushed =>
    change Except.ok (_, pushed.consumed) = Except.ok (_, pushed.consumed)
    rw [moved]

/-- The cursor wants more of the raw stream. -/
theorem pushBody_inflating (incremental : Incremental inflate decode fed)
    {cmf flg : UInt8} {raw output : Bytes} {inf : inflate.State}
    (valid : isValidZlibHeader cmf flg = true) (noDictionary : flg &&& 0x20 = 0)
    (wants : decode raw = .more output) (state : fed inf raw) (piece : Bytes) :
    Answers decode fed limit (cmf :: flg :: raw) piece
      ((past inf limit output false []).pushBody piece)
      (decodeZlib decode (cmf :: flg :: (raw ++ piece))) := by
  rw [decodeZlib_valid _ valid noDictionary]
  by_cases none_ : piece = []
  · subst none_
    rw [List.append_nil, wants]
    refine ⟨past inf limit output false [], rfl, ?_⟩
    rw [List.append_nil]
    exact .inflating valid noDictionary wants state
  unfold InflateCursor.pushBody
  rw [takeRaw_push none_]
  cases verdict : decode (raw ++ piece) with
  | failed failure =>
    rw [incremental.failed state none_ verdict]
    rfl
  | more whole =>
    rcases incremental.more state wants none_ verdict with
      ⟨next, chunk, ran, rfl, later⟩
    rw [ran]
    dsimp only
    rw [List.drop_length]
    refine ⟨past next limit (output ++ chunk) false [], rfl, ?_⟩
    exact .inflating valid noDictionary verdict later
  | done whole used =>
    rcases incremental.done state wants none_ verdict with
      ⟨last, chunk, ran, rfl⟩
    have ends := incremental.stable.ends wants verdict
    have within := incremental.stable.within verdict
    rw [List.length_append] at within
    have taken : raw ++ piece.take (used - raw.length) =
        (raw ++ piece).take used := by
      rw [List.take_append, List.take_of_length_le ends.le]
    have exact_ : (raw ++ piece.take (used - raw.length)).length = used := by
      rw [taken, List.length_take, List.length_append]
      omega
    have inflated : decode (raw ++ piece.take (used - raw.length)) =
        .done (output ++ chunk)
          (raw ++ piece.take (used - raw.length)).length := by
      rw [exact_, taken]
      exact incremental.stable.take verdict
    rw [ran]
    dsimp only
    apply Answers.behind (by omega)
    have closing := @takeTrailer_answers _ _ fed limit _ _ _ _ [] last valid
      noDictionary inflated (by decide) (piece.drop (used - raw.length))
    have rest : (raw ++ piece).drop used = piece.drop (used - raw.length) := by
      rw [List.drop_append, List.drop_eq_nil_of_le ends.le, List.nil_append]
    rw [exact_, List.nil_append, List.append_nil] at closing
    rw [rest]
    exact closing

theorem CursorAt.wants (incremental : Incremental inflate decode fed)
    (stands : CursorAt decode fed limit cursor sofar) :
    ∃ output, decodeZlib decode sofar = .more output := by
  cases stands with
  | start => exact ⟨[], rfl⟩
  | inflating valid noDictionary wants =>
    exact ⟨_, by rw [decodeZlib_valid _ valid noDictionary, wants]⟩
  | @closing _ _ _ payload _ _ valid noDictionary inflated short =>
    refine ⟨payload, ?_⟩
    rw [decodeZlib_closing incremental.stable valid noDictionary inflated,
      decodeTrailer, if_pos short]

/-- A push answers what the decoder makes of all bytes. -/
theorem CursorAt.push (incremental : Incremental inflate decode fed)
    (stands : CursorAt decode fed limit cursor sofar)
    (enough : sofar = [] → 2 ≤ piece.length) :
    Answers decode fed limit sofar piece (cursor.push piece)
      (decodeZlib decode (sofar ++ piece)) := by
  rw [InflateCursor.push_eq stands.open_]
  cases stands with
  | start =>
    match piece, enough rfl with
    | cmf :: flg :: raw, _ =>
      unfold InflateCursor.takeHeader
      rw [List.nil_append, decodeZlib, if_neg (by exact Bool.false_ne_true)]
      dsimp only
      by_cases valid : isValidZlibHeader cmf flg = true
      · rw [if_pos valid, if_pos valid]
        by_cases dictionary : flg &&& 0x20 ≠ 0
        · rw [if_pos dictionary, if_pos dictionary]
          rfl
        · rw [if_neg dictionary, if_neg dictionary]
          have noDictionary := not_not.mp dictionary
          have body := @pushBody_inflating _ _ _ limit incremental _ _ [] []
            inflate.start valid noDictionary incremental.stable.nil
            incremental.start raw
          rw [List.nil_append, decodeZlib_valid _ valid noDictionary] at body
          have within : 2 ≤ (cmf :: flg :: raw).length := by
            rw [List.length_cons, List.length_cons]
            omega
          rw [reset_past]
          exact @Answers.behind _ _ fed limit [] _ 2 _ _ within body
      · rw [if_neg valid, if_neg valid]
        rfl
  | inflating valid noDictionary wants state =>
    apply Answers.behind (Nat.zero_le _)
    rw [List.take_zero, List.append_nil, List.drop_zero]
    exact pushBody_inflating incremental valid noDictionary wants state piece
  | closing valid noDictionary inflated short =>
    apply Answers.behind (Nat.zero_le _)
    rw [List.take_zero, List.append_nil, List.drop_zero]
    rw [List.cons_append, List.cons_append, List.append_assoc,
      decodeZlib_closing incremental.stable valid noDictionary inflated]
    exact pushBody_closing valid noDictionary inflated short piece

end Cursor

end GitOnCloudflare.Pack
