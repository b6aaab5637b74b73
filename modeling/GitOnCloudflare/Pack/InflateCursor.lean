import GitOnCloudflare.Foundations.ByteTable
import GitOnCloudflare.Pack.EntryHeader

/-!
# The inflate cursor

The indexer feeds the compressed bytes of an entry to a raw inflater in
whatever pieces its reader has.  The cursor strips the wrapper of the stream,
checks its checksum and counts the bytes that belong to the entry.
-/

namespace GitOnCloudflare.Pack

open Foundations.ByteTable

/-! ## Checksums -/

/-- A row of the CRC table: eight shifts of the register. -/
def crc32Entry (index : UInt32) : UInt32 :=
  Nat.iterate
    (fun c => if c &&& 1 = 1 then (0xedb88320 : UInt32) ^^^ (c >>> 1)
      else c >>> 1)
    8 index

def crc32Init : UInt32 := 0xffffffff

def crc32Update (crc : UInt32) (data : Bytes) : UInt32 :=
  data.foldl
    (fun crc byte =>
      crc32Entry ((crc ^^^ byte.toUInt32) &&& 0xff) ^^^ (crc >>> 8))
    crc

def crc32Finish (crc : UInt32) : UInt32 := crc ^^^ 0xffffffff

theorem crc32Update_append (crc : UInt32) (first second : Bytes) :
    crc32Update crc (first ++ second) =
      crc32Update (crc32Update crc first) second :=
  List.foldl_append

def adler32Mod : Nat := 65521

def adler32Init : Nat := 1

/-- Both sums after one more byte. -/
def adlerStep (sums : Nat × Nat) (byte : UInt8) : Nat × Nat :=
  let a := sums.1 + byte.toNat
  let a := if adler32Mod ≤ a then a - adler32Mod else a
  let b := sums.2 + a
  let b := if adler32Mod ≤ b then b - adler32Mod else b
  (a, b)

def adler32Update (adler : Nat) (data : Bytes) : Nat :=
  let sums := data.foldl adlerStep (adler % 65536, adler / 65536 % 65536)
  sums.2 % 65536 * 65536 + sums.1 % 65536

theorem adlerStep_small {sums : Nat × Nat} (byte : UInt8)
    (small : sums.1 < 65536 ∧ sums.2 < 65536) :
    (adlerStep sums byte).1 < 65536 ∧ (adlerStep sums byte).2 < 65536 := by
  have bounded := byte.toNat_lt
  have first : (adlerStep sums byte).1 < adler32Mod := by
    unfold adlerStep adler32Mod
    dsimp only
    split <;> omega
  unfold adler32Mod at first
  refine ⟨by omega, ?_⟩
  have second : (adlerStep sums byte).2 =
      if adler32Mod ≤ sums.2 + (adlerStep sums byte).1 then
        sums.2 + (adlerStep sums byte).1 - adler32Mod
      else sums.2 + (adlerStep sums byte).1 := rfl
  rw [second]
  unfold adler32Mod
  split <;> omega

theorem foldl_adlerStep_small {data : Bytes} {sums : Nat × Nat}
    (small : sums.1 < 65536 ∧ sums.2 < 65536) :
    (data.foldl adlerStep sums).1 < 65536 ∧
      (data.foldl adlerStep sums).2 < 65536 := by
  induction data generalizing sums with
  | nil => exact small
  | cons byte data ih => exact ih (adlerStep_small byte small)

theorem adler32Update_append (adler : Nat) (first second : Bytes) :
    adler32Update adler (first ++ second) =
      adler32Update (adler32Update adler first) second := by
  have small : (adler % 65536, adler / 65536 % 65536).1 < 65536 ∧
      (adler % 65536, adler / 65536 % 65536).2 < 65536 :=
    ⟨Nat.mod_lt _ (by decide), Nat.mod_lt _ (by decide)⟩
  have bounds := @foldl_adlerStep_small first _ small
  unfold adler32Update
  rw [List.foldl_append]
  generalize first.foldl adlerStep
    (adler % 65536, adler / 65536 % 65536) = sums at bounds
  rcases sums with ⟨a, b⟩
  dsimp only at bounds ⊢
  have low : (b % 65536 * 65536 + a % 65536) % 65536 = a := by omega
  have high : (b % 65536 * 65536 + a % 65536) / 65536 % 65536 = b := by
    omega
  rw [low, high]

theorem adler32Update_lt (adler : Nat) (data : Bytes) :
    adler32Update adler data < 2 ^ 32 := by
  unfold adler32Update
  dsimp only
  omega

/-! ## The cursor -/

structure InflatePush (State : Type) where
  state : State
  chunk : Bytes
  consumed : Nat
  ended : Bool

/-- The raw inflater below the cursor. -/
structure RawInflate where
  State : Type
  start : State
  push : State → Bytes → Except String (InflatePush State)

structure InflateCursor (inflate : RawInflate) where
  inf : inflate.State
  chunks : Bytes
  totalOutputBytes : Nat
  captureLimit : Nat
  outputTruncated : Bool
  rawDeflateDone : Bool
  entryDone : Bool
  adler32 : Nat
  headerConsumed : Bool
  trailerBytes : Bytes

/-- `toString(16)`. -/
def hexNumber (number : Nat) : String :=
  String.ofList (Nat.toDigits 16 number)

def invalidZlibHeader (cmf flg : UInt8) : String :=
  let cmf := hexNumber cmf.toNat
  let flg := hexNumber flg.toNat
  s!"inflate: invalid zlib header (CMF=0x{cmf}, FLG=0x{flg})"

def adlerMismatch (expected adler : Nat) : String :=
  let expected := hexNumber expected
  let adler := hexNumber adler
  s!"inflate: Adler-32 mismatch (expected 0x{expected}, got 0x{adler})"

def isValidZlibHeader (cmf flg : UInt8) : Bool :=
  decide (cmf.toNat % 16 = 8) &&
    decide ((cmf.toNat * 256 + flg.toNat) % 31 = 0)

namespace InflateCursor

variable {inflate : RawInflate}

def reset (captureLimit : Nat) : InflateCursor inflate where
  inf := inflate.start
  chunks := []
  totalOutputBytes := 0
  captureLimit := captureLimit
  outputTruncated := false
  rawDeflateDone := false
  entryDone := false
  adler32 := adler32Init
  headerConsumed := false
  trailerBytes := []

def onData (cursor : InflateCursor inflate) (chunk : Bytes) :
    InflateCursor inflate :=
  let counted :=
    { cursor with
      adler32 := adler32Update cursor.adler32 chunk
      totalOutputBytes := cursor.totalOutputBytes + chunk.length }
  let captureRemaining := cursor.captureLimit - cursor.chunks.length
  if captureRemaining = 0 then
    { counted with
      outputTruncated := cursor.outputTruncated || decide (0 < chunk.length) }
  else if chunk.length ≤ captureRemaining then
    { counted with chunks := cursor.chunks ++ chunk }
  else
    { counted with
      chunks := cursor.chunks ++ chunk.take captureRemaining
      outputTruncated := true }

/-- The first two bytes of the stream. -/
def takeHeader (cursor : InflateCursor inflate) (data : Bytes) :
    Except String (InflateCursor inflate × Nat) :=
  if cursor.headerConsumed then
    .ok (cursor, 0)
  else
    match data with
    | cmf :: flg :: _ =>
      if isValidZlibHeader cmf flg then
        if flg &&& 0x20 ≠ 0 then
          .error "inflate: zlib preset dictionaries are not supported"
        else
          .ok ({ cursor with headerConsumed := true }, 2)
      else
        .error (invalidZlibHeader cmf flg)
    | _ => .error "inflate: buffer too small for zlib header"

/-- The bytes for the raw inflater. -/
def takeRaw (cursor : InflateCursor inflate) (data : Bytes) :
    Except String (InflateCursor inflate × Nat) :=
  if cursor.rawDeflateDone ∨ data = [] then
    .ok (cursor, 0)
  else
    match inflate.push cursor.inf data with
    | .error failure => .error failure
    | .ok pushed =>
      .ok
        ({ cursor.onData pushed.chunk with
            inf := pushed.state
            rawDeflateDone := pushed.ended },
          pushed.consumed)

/-- The checksum after the raw stream. -/
def takeTrailer (cursor : InflateCursor inflate) (data : Bytes) :
    Except String (InflateCursor inflate × Nat) :=
  if cursor.rawDeflateDone ∧ data ≠ [] then
    let taken := data.take (4 - cursor.trailerBytes.length)
    let trailerBytes := cursor.trailerBytes ++ taken
    if trailerBytes.length = 4 then
      if ofBigEndian trailerBytes ≠ cursor.adler32 then
        .error (adlerMismatch (ofBigEndian trailerBytes) cursor.adler32)
      else
        .ok ({ cursor with trailerBytes, entryDone := true }, taken.length)
    else
      .ok ({ cursor with trailerBytes }, taken.length)
  else
    .ok (cursor, 0)

/-- Feed some bytes: the cursor after them, and how many it has consumed. -/
def push (cursor : InflateCursor inflate) (data : Bytes) :
    Except String (InflateCursor inflate × Nat) :=
  if cursor.entryDone then
    .ok (cursor, 0)
  else do
    let (opened, header) ← cursor.takeHeader data
    let (inflated, raw) ← opened.takeRaw (data.drop header)
    let (closed, trailer) ← inflated.takeTrailer (data.drop (header + raw))
    .ok (closed, header + raw + trailer)

def output (cursor : InflateCursor inflate) : Except String Bytes :=
  if cursor.outputTruncated then
    .error "inflate: full output was not retained for this entry"
  else
    .ok cursor.chunks

end InflateCursor

/-! ## Streams -/

/-- A stream that wraps what inflates to a payload.  The raw inflater takes it
in any pieces: it consumes a piece that ends before the stream does, and of a
longer one what belongs to the stream. -/
structure ZlibStream (inflate : RawInflate) (stream payload : Bytes) where
  cmf : UInt8
  flg : UInt8
  raw : Bytes
  left : inflate.State → Bytes → Bytes → Prop
  stream_eq : stream = cmf :: flg ::
    (raw ++ bigEndian 4 (adler32Update adler32Init payload))
  valid : isValidZlibHeader cmf flg = true
  noDictionary : flg &&& 0x20 = 0
  twoBytes : 2 ≤ raw.length
  starts : left inflate.start raw payload
  ends : ∀ {state rest more} after, left state rest more → rest ≠ [] →
    ∃ last, inflate.push state (rest ++ after) =
      .ok ⟨last, more, rest.length, true⟩
  goesOn : ∀ {state piece rest more}, left state (piece ++ rest) more →
    piece ≠ [] → rest ≠ [] →
      ∃ next chunk others, inflate.push state piece =
          .ok ⟨next, chunk, piece.length, false⟩ ∧
        more = chunk ++ others ∧ left next rest others

namespace ZlibStream

open InflateCursor

variable {inflate : RawInflate} {stream payload : Bytes}

/-- The cursor once it is past the header. -/
def opened (inf : inflate.State) (limit : Nat) (done : Bool)
    (chunks trailer : Bytes) : InflateCursor inflate where
  inf := inf
  chunks := chunks
  totalOutputBytes := chunks.length
  captureLimit := limit
  outputTruncated := false
  rawDeflateDone := done
  entryDone := decide (trailer.length = 4)
  adler32 := adler32Update adler32Init chunks
  headerConsumed := true
  trailerBytes := trailer

/-- The cursor after its first bytes of the stream. -/
inductive Fed (zlib : ZlibStream inflate stream payload) (limit : Nat) :
    InflateCursor inflate → Nat → Prop
  | start : Fed zlib limit (.reset limit) 0
  | inflating {inf : inflate.State} {before rest chunks more : Bytes}
      (split : zlib.raw = before ++ rest) (rest_ne : rest ≠ [])
      (payload_eq : payload = chunks ++ more)
      (left : zlib.left inf rest more) :
      Fed zlib limit (opened inf limit false chunks []) (2 + before.length)
  | closing {inf : inflate.State} {trailer rest : Bytes}
      (split : bigEndian 4 (adler32Update adler32Init payload) =
        trailer ++ rest) :
      Fed zlib limit (opened inf limit true payload trailer)
        (2 + zlib.raw.length + trailer.length)

theorem length_stream (zlib : ZlibStream inflate stream payload) :
    stream.length = 2 + zlib.raw.length + 4 := by
  have whole := congrArg List.length zlib.stream_eq
  simp only [List.length_cons, List.length_append, length_bigEndian] at whole
  omega

section Feeding

variable {zlib : ZlibStream inflate stream payload} {limit : Nat}
  {cursor : InflateCursor inflate} {count : Nat}

theorem Fed.length_le (fed : zlib.Fed limit cursor count) :
    count ≤ stream.length := by
  rw [zlib.length_stream]
  cases fed with
  | start => exact Nat.zero_le _
  | inflating split =>
    have whole := congrArg List.length split
    rw [List.length_append] at whole
    omega
  | closing split =>
    have whole := congrArg List.length split
    rw [List.length_append, length_bigEndian] at whole
    omega

/-- The cursor is done when it has all bytes of the stream. -/
theorem Fed.entryDone_iff (fed : zlib.Fed limit cursor count) :
    cursor.entryDone = true ↔ count = stream.length := by
  rw [zlib.length_stream]
  cases fed with
  | start =>
    refine iff_of_false nofun ?_
    omega
  | inflating split rest_ne =>
    have whole := congrArg List.length split
    have some_ := List.length_pos_of_ne_nil rest_ne
    rw [List.length_append] at whole
    refine iff_of_false nofun ?_
    omega
  | closing split =>
    exact decide_eq_true_iff.trans (by omega)

theorem Fed.output (fed : zlib.Fed limit cursor count)
    (done : cursor.entryDone = true) :
    cursor.output = .ok payload ∧
      cursor.totalOutputBytes = payload.length := by
  cases fed with
  | start => cases done
  | inflating => cases done
  | closing => exact ⟨rfl, rfl⟩

theorem onData_opened {inf : inflate.State} {chunks chunk : Bytes}
    (fits : chunks.length + chunk.length ≤ limit) :
    (opened inf limit false chunks []).onData chunk =
      opened inf limit false (chunks ++ chunk) [] := by
  unfold onData opened
  dsimp only
  rw [← adler32Update_append, List.length_append]
  split
  · have none_ : chunk = [] := by
      apply List.eq_nil_of_length_eq_zero
      omega
    subst none_
    simp
  · rw [if_pos (by omega)]

/-- What follows the bytes that the raw inflater has taken. -/
theorem drop_stream {before rest : Bytes} (split : zlib.raw = before ++ rest) :
    stream.drop (2 + before.length) =
      rest ++ bigEndian 4 (adler32Update adler32Init payload) := by
  have body := congrArg (List.drop (2 + before.length)) zlib.stream_eq
  rw [Nat.add_comm 2, split, List.append_assoc] at body
  rw [Nat.add_comm 2]
  exact body.trans (List.drop_left ..)

theorem drop_trailer {trailer rest : Bytes}
    (split : bigEndian 4 (adler32Update adler32Init payload) = trailer ++ rest) :
    stream.drop (2 + zlib.raw.length + trailer.length) = rest := by
  have whole : zlib.raw = zlib.raw ++ [] := (List.append_nil _).symm
  have inner := drop_stream whole
  rw [List.nil_append] at inner
  rw [← List.drop_drop, inner, split]
  exact List.drop_left ..

theorem takeHeader_fed {data after tail : Bytes}
    (piece : stream ++ tail = data ++ after) (enough : 2 ≤ data.length) :
    ∃ next, (reset limit : InflateCursor inflate).takeHeader data =
        .ok (next, 2) ∧
      zlib.Fed limit next 2 := by
  rw [zlib.stream_eq] at piece
  match data, enough with
  | cmf :: flg :: data, _ =>
    rcases List.cons.inj piece with ⟨first, rest⟩
    rcases List.cons.inj rest with ⟨second, _⟩
    subst first second
    refine ⟨opened inflate.start limit false [] [], ?_, ?_⟩
    · unfold takeHeader
      rw [if_neg (by exact Bool.false_ne_true)]
      dsimp only
      rw [if_pos zlib.valid, if_neg (not_not.mpr zlib.noDictionary)]
      rfl
    · have some_ : zlib.raw ≠ [] := by
        intro none_
        have two := zlib.twoBytes
        rw [none_] at two
        cases two
      exact @Fed.inflating _ _ _ zlib limit inflate.start [] zlib.raw []
        payload rfl some_ rfl zlib.starts

variable {data after tail : Bytes}

theorem Fed.takeRaw (fed : zlib.Fed limit cursor count)
    (fits : payload.length ≤ limit) (past : 2 ≤ count)
    (piece : stream.drop count ++ tail = data ++ after) :
    ∃ next used, cursor.takeRaw data = .ok (next, used) ∧
      used ≤ data.length ∧ zlib.Fed limit next (count + used) ∧
      (used = data.length ∨ 2 + zlib.raw.length ≤ count + used) := by
  cases fed with
  | start => cases past
  | @inflating inf before rest chunks more split rest_ne payload_eq left =>
    by_cases none_ : data = []
    · subst none_
      exact ⟨_, 0, if_pos (.inr rfl), le_refl _,
        .inflating split rest_ne payload_eq left, .inl rfl⟩
    have stepped : ∀ pushed,
        inflate.push inf data = .ok pushed →
          (opened inf limit false chunks []).takeRaw data =
            .ok ({ (opened inf limit false chunks []).onData pushed.chunk with
              inf := pushed.state
              rawDeflateDone := pushed.ended }, pushed.consumed) := by
      intro pushed ran
      unfold InflateCursor.takeRaw
      rw [if_neg (by
        rintro (done | empty)
        · cases done
        · exact none_ empty)]
      have ran' : inflate.push (opened inf limit false chunks []).inf data =
          .ok pushed := ran
      rw [ran']
    have whole := congrArg List.length payload_eq
    rw [List.length_append] at whole
    have lengths := congrArg List.length split
    rw [List.length_append] at lengths
    rw [drop_stream split, List.append_assoc] at piece
    -- the piece reaches the end of the raw stream
    have reaches : ∀ others, data = rest ++ others →
        ∃ next used, (opened inf limit false chunks []).takeRaw data =
            .ok (next, used) ∧
          used ≤ data.length ∧
          zlib.Fed limit next (2 + before.length + used) ∧
          (used = data.length ∨
            2 + zlib.raw.length ≤ 2 + before.length + used) := by
      rintro others rfl
      rcases zlib.ends others left rest_ne with ⟨last, ran⟩
      refine ⟨_, _, stepped _ ran, ?_, ?_, .inr ?_⟩
      · rw [List.length_append]
        exact Nat.le_add_right _ _
      · dsimp only
        rw [onData_opened (by omega), ← payload_eq]
        have count_eq : 2 + before.length + rest.length =
            2 + zlib.raw.length + ([] : Bytes).length := by
          rw [List.length_nil]
          omega
        rw [count_eq]
        exact @Fed.closing _ _ _ zlib limit last [] _ rfl
      · dsimp only
        omega
    rcases List.append_eq_append_iff.mp piece with
      ⟨others, data_eq, _⟩ | ⟨others, rest_eq, _⟩
    · exact reaches others data_eq
    · by_cases last : others = []
      · subst last
        rw [List.append_nil] at rest_eq
        exact reaches [] (by rw [List.append_nil, rest_eq])
      · subst rest_eq
        rcases zlib.goesOn left none_ last with
          ⟨next, chunk, remaining, ran, more_eq, later⟩
        subst more_eq
        rw [List.length_append] at whole
        refine ⟨_, _, stepped _ ran, le_refl _, ?_, .inl rfl⟩
        dsimp only
        rw [onData_opened (by omega), Nat.add_assoc, ← List.length_append]
        refine Fed.inflating ?_ last ?_ later
        · rw [split, List.append_assoc]
        · exact payload_eq.trans (List.append_assoc ..).symm
  | @closing inf trailer rest split =>
    refine ⟨_, 0, if_pos (.inl rfl), Nat.zero_le _, .closing split, .inr ?_⟩
    omega

theorem Fed.takeTrailer (fed : zlib.Fed limit cursor count)
    (ready : data = [] ∨ 2 + zlib.raw.length ≤ count)
    (piece : stream.drop count ++ tail = data ++ after) :
    ∃ next used, cursor.takeTrailer data = .ok (next, used) ∧
      used ≤ data.length ∧ zlib.Fed limit next (count + used) ∧
      (used = data.length ∨ count + used = stream.length) := by
  by_cases none_ : data = []
  · subst none_
    exact ⟨_, 0, if_neg fun both => both.2 rfl, le_refl _, fed, .inl rfl⟩
  have late := ready.resolve_left none_
  cases fed with
  | start => omega
  | inflating split rest_ne =>
    have lengths := congrArg List.length split
    have some_ := List.length_pos_of_ne_nil rest_ne
    rw [List.length_append] at lengths
    omega
  | @closing inf trailer rest split =>
    have lengths := congrArg List.length split
    rw [List.length_append, length_bigEndian] at lengths
    have enters : ∀ taken, data.take (4 - trailer.length) = taken →
        (opened inf limit true payload trailer).takeTrailer data =
          (if (trailer ++ taken).length = 4 then
            if ofBigEndian (trailer ++ taken) ≠
                adler32Update adler32Init payload then
              .error (adlerMismatch (ofBigEndian (trailer ++ taken))
                (adler32Update adler32Init payload))
            else
              .ok ({ opened inf limit true payload trailer with
                trailerBytes := trailer ++ taken
                entryDone := true }, taken.length)
          else
            .ok ({ opened inf limit true payload trailer with
              trailerBytes := trailer ++ taken }, taken.length)) := by
      rintro taken rfl
      exact if_pos ⟨rfl, none_⟩
    rw [drop_trailer split] at piece
    -- the piece reaches the end of the stream
    have reaches : ∀ others, data = rest ++ others →
        ∃ next used, (opened inf limit true payload trailer).takeTrailer
            data = .ok (next, used) ∧
          used ≤ data.length ∧
          zlib.Fed limit next (2 + zlib.raw.length + trailer.length + used) ∧
          (used = data.length ∨
            2 + zlib.raw.length + trailer.length + used =
              stream.length) := by
      rintro others rfl
      have taken : (rest ++ others).take (4 - trailer.length) = rest := by
        have same : 4 - trailer.length = rest.length := by omega
        rw [same, List.take_left]
      have four : (trailer ++ rest).length = 4 := by
        rw [List.length_append]
        omega
      have checked : ¬ ofBigEndian (trailer ++ rest) ≠
          adler32Update adler32Init payload := by
        rw [not_not, ← split]
        exact ofBigEndian_of_lt (adler32Update_lt _ _)
      have closed : ({ opened inf limit true payload trailer with
          trailerBytes := trailer ++ rest
          entryDone := true } : InflateCursor inflate) =
            opened inf limit true payload (trailer ++ rest) := by
        unfold opened
        rw [decide_eq_true four]
      refine ⟨opened inf limit true payload (trailer ++ rest), rest.length,
        ?_, ?_, ?_, .inr ?_⟩
      · rw [enters rest taken, if_pos four, if_neg checked, closed]
      · rw [List.length_append]
        exact Nat.le_add_right _ _
      · rw [Nat.add_assoc, ← List.length_append]
        exact @Fed.closing _ _ _ zlib limit inf (trailer ++ rest) []
          (by rw [List.append_nil]; exact split)
      · rw [zlib.length_stream]
        omega
    rcases List.append_eq_append_iff.mp piece with
      ⟨others, data_eq, _⟩ | ⟨others, rest_eq, _⟩
    · exact reaches others data_eq
    · by_cases last : others = []
      · subst last
        rw [List.append_nil] at rest_eq
        exact reaches [] (by rw [List.append_nil, rest_eq])
      · subst rest_eq
        have some_ := List.length_pos_of_ne_nil last
        rw [List.length_append] at lengths
        have taken : data.take (4 - trailer.length) = data :=
          List.take_of_length_le (by omega)
        have few : (trailer ++ data).length ≠ 4 := by
          rw [List.length_append]
          omega
        have still : ({ opened inf limit true payload trailer with
            trailerBytes := trailer ++ data } : InflateCursor inflate) =
              opened inf limit true payload (trailer ++ data) := by
          unfold opened
          rw [decide_eq_false few, decide_eq_false (by omega)]
        refine ⟨opened inf limit true payload (trailer ++ data), data.length,
          ?_, le_refl _, ?_, .inl rfl⟩
        · rw [enters data taken, if_neg few, still]
        · rw [Nat.add_assoc, ← List.length_append]
          exact Fed.closing (by rw [split, List.append_assoc])

/-- A push goes on to the end of the stream or of the piece. -/
theorem Fed.push (fed : zlib.Fed limit cursor count)
    (fits : payload.length ≤ limit) (unfinished : count < stream.length)
    (piece : stream.drop count ++ tail = data ++ after) (some_ : data ≠ [])
    (enough : count = 0 → 2 ≤ data.length) :
    ∃ next consumed, cursor.push data = .ok (next, consumed) ∧
      0 < consumed ∧ consumed ≤ data.length ∧
      zlib.Fed limit next (count + consumed) := by
  have opens : ∃ first header, cursor.takeHeader data = .ok (first, header) ∧
      header ≤ data.length ∧ zlib.Fed limit first (count + header) ∧
      2 ≤ count + header := by
    cases fed with
    | start =>
      rcases @takeHeader_fed _ _ _ zlib limit _ _ _ piece (enough rfl) with
        ⟨next, ran, after_⟩
      exact ⟨next, 2, ran, enough rfl, after_, le_refl _⟩
    | inflating split rest_ne payload_eq left =>
      exact ⟨_, 0, if_pos rfl, Nat.zero_le _,
        .inflating split rest_ne payload_eq left, by omega⟩
    | closing split =>
      exact ⟨_, 0, if_pos rfl, Nat.zero_le _, .closing split, by omega⟩
  have onward : ∀ used, used ≤ data.length →
      stream.drop (count + used) ++ tail = data.drop used ++ after ∨
        stream.length < count + used := by
    intro used within
    by_cases inside : count + used ≤ stream.length
    · left
      have shifted := congrArg (List.drop used) piece
      rw [List.drop_append_of_le_length within,
        List.drop_append_of_le_length (by rw [List.length_drop]; omega),
        List.drop_drop] at shifted
      exact shifted
    · exact .inr (by omega)
  rcases opens with ⟨first, header, ranHeader, within, fedFirst, past⟩
  have pieceRaw := (onward header within).resolve_right
    (Nat.not_lt.mpr fedFirst.length_le)
  rcases fedFirst.takeRaw fits past pieceRaw with
    ⟨second, raw, ranRaw, rawWithin, fedSecond, rawEnds⟩
  rw [List.length_drop] at rawWithin rawEnds
  have pieceTrailer := (onward (header + raw) (by omega)).resolve_right (by
    rw [← Nat.add_assoc]
    exact Nat.not_lt.mpr fedSecond.length_le)
  have ready : data.drop (header + raw) = [] ∨
      2 + zlib.raw.length ≤ count + header + raw := by
    rcases rawEnds with all | late
    · left
      apply List.drop_eq_nil_of_le
      omega
    · exact .inr late
  rw [← Nat.add_assoc] at pieceTrailer
  rcases fedSecond.takeTrailer ready pieceTrailer with
    ⟨last, trailer, ranTrailer, trailerWithin, fedLast, ends⟩
  rw [List.length_drop] at trailerWithin ends
  have positive := List.length_pos_of_ne_nil some_
  refine ⟨last, header + raw + trailer, ?_, ?_, ?_, ?_⟩
  · have open_ : ¬ cursor.entryDone = true := by
      rw [fed.entryDone_iff]
      omega
    unfold InflateCursor.push
    rw [if_neg open_, ranHeader]
    dsimp only [bind, Except.bind]
    rw [ranRaw]
    dsimp only
    rw [ranTrailer]
  · omega
  · omega
  · rw [← Nat.add_assoc, ← Nat.add_assoc]
    exact fedLast

end Feeding

end ZlibStream

end GitOnCloudflare.Pack
