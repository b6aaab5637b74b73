import GitOnCloudflare.Pack.PackBuild

/-!
# The scanner on whole objects

The window of the reader shows the pack at its position, whatever the size of
its chunks, so that the scanner gives an entry of a whole object the row that
the builder gives it.
-/

namespace GitOnCloudflare.Pack

open Foundations.ByteTable

/-! ## The window -/

/-- The reader stands at a position of the pack, and its window continues
there. -/
structure BufferedPackReader.Reads (reader : BufferedPackReader)
    (pack : Bytes) (position : Nat) : Prop where
  inside : reader.pos ≤ reader.buf.length
  absPos_eq : reader.absPos = position
  window : pack.drop position =
    reader.buf.drop reader.pos ++
      pack.drop (reader.bufAbsStart + reader.buf.length)
  windowEnd : reader.bufAbsStart + reader.buf.length ≤ pack.length

variable {length count : Nat}

namespace BufferedPackReader.Reads

variable {pack : Bytes} {reader : BufferedPackReader} {position : Nat}

theorem start (pack : Bytes) : start.Reads pack 0 where
  inside := le_refl _
  absPos_eq := rfl
  window := rfl
  windowEnd := Nat.zero_le _

theorem refill (reads : reader.Reads pack position)
    (within : length ≤ pack.length - (reader.bufAbsStart + reader.buf.length)) :
    (reader.refill
      (slice pack (reader.bufAbsStart + reader.buf.length)
        length)).Reads pack position := by
  have size : (slice pack (reader.bufAbsStart + reader.buf.length)
      length).length = length := by
    unfold slice
    rw [List.length_take, List.length_drop]
    omega
  have ends := @refill_end reader
    (slice pack (reader.bufAbsStart + reader.buf.length) length) reads.inside
  have parts : pack.drop (reader.bufAbsStart + reader.buf.length) =
      slice pack (reader.bufAbsStart + reader.buf.length) length ++
        pack.drop
          (reader.bufAbsStart + reader.buf.length + length) := by
    have split := List.take_append_drop length
      (pack.drop (reader.bufAbsStart + reader.buf.length))
    rw [List.drop_drop] at split
    exact split.symm
  have position_eq : reader.bufAbsStart + reader.pos = position :=
    reads.absPos_eq
  have within_ := reads.windowEnd
  have inside := reads.inside
  constructor
  · unfold BufferedPackReader.refill
    dsimp only
    split <;> exact Nat.zero_le _
  · unfold BufferedPackReader.refill
    dsimp only
    split
    next none_ =>
      have consumed := List.drop_eq_nil_iff.mp none_
      change reader.bufAbsStart + reader.buf.length + 0 = position
      omega
    next => exact position_eq
  · rw [ends, size, reads.window, parts]
    unfold BufferedPackReader.refill
    dsimp only
    split
    next none_ => rw [none_]; rfl
    next => rw [List.drop_zero, List.append_assoc]
  · rw [ends, size]
    omega

/-- Reading ahead leaves the position and fills the window. -/
theorem ensureLoop (chunkSize_pos : 0 < chunkSize) (minBytes : Nat)
    (rounds : Nat) (reads : reader.Reads pack position)
    (enough : pack.length - (reader.bufAbsStart + reader.buf.length) < rounds) :
    (Pack.ensureLoop pack chunkSize minBytes rounds reader).Reads
        pack position ∧
      (position + minBytes ≤ pack.length →
        minBytes ≤
          (Pack.ensureLoop pack chunkSize minBytes rounds
            reader).remaining) := by
  induction rounds generalizing reader with
  | zero => exact absurd enough (Nat.not_lt_zero _)
  | succ rounds ih =>
    unfold Pack.ensureLoop
    split
    next filled => exact ⟨reads, fun _ => filled⟩
    next short =>
      dsimp only
      split
      next exhausted =>
        refine ⟨reads, fun fits => ?_⟩
        have at_ : reader.bufAbsStart + reader.pos = position :=
          reads.absPos_eq
        have inside := reads.inside
        unfold remaining at short ⊢
        omega
      next left =>
        have ends := @refill_end reader
          (slice pack (reader.bufAbsStart + reader.buf.length)
            (min chunkSize
              (pack.length - (reader.bufAbsStart + reader.buf.length))))
          reads.inside
        have size : (slice pack (reader.bufAbsStart + reader.buf.length)
            (min chunkSize (pack.length -
              (reader.bufAbsStart + reader.buf.length)))).length =
            min chunkSize (pack.length -
              (reader.bufAbsStart + reader.buf.length)) := by
          unfold slice
          rw [List.length_take, List.length_drop]
          omega
        apply ih (reads.refill (Nat.min_le_right _ _))
        rw [ends, size]
        omega

theorem ensure (reads : reader.Reads pack position)
    (chunkSize_pos : 0 < chunkSize) (minBytes : Nat) :
    (reader.ensure pack chunkSize minBytes).Reads pack position ∧
      (position + minBytes ≤ pack.length →
        minBytes ≤
          (reader.ensure pack chunkSize minBytes).remaining) :=
  reads.ensureLoop chunkSize_pos minBytes _ (Nat.lt_succ_self _)

/-- Bytes of the window are bytes of the pack. -/
theorem slice_eq (reads : reader.Reads pack position)
    (within : count ≤ reader.remaining) :
    slice reader.buf reader.pos count = (pack.drop position).take count := by
  unfold remaining at within
  rw [reads.window, List.take_append_of_le_length
    (by rw [List.length_drop]; exact within)]
  rfl

theorem advance (reads : reader.Reads pack position) {count : Nat}
    (within : count ≤ reader.remaining) :
    ({ reader with pos := reader.pos + count } :
      BufferedPackReader).Reads pack (position + count) := by
  unfold remaining at within
  have inside := reads.inside
  have at_ : reader.bufAbsStart + reader.pos = position := reads.absPos_eq
  constructor
  · change reader.pos + count ≤ reader.buf.length
    omega
  · change reader.bufAbsStart + (reader.pos + count) = position + count
    omega
  · have shifted := congrArg (List.drop count) reads.window
    rw [List.drop_append_of_le_length
      (by rw [List.length_drop]; exact within), List.drop_drop,
      List.drop_drop] at shifted
    exact shifted
  · exact reads.windowEnd

end BufferedPackReader.Reads

namespace Indexer

/-! ## One payload -/

section Payload

variable {inflate : RawInflate} {stream payload pack tail : Bytes}
  {payloadStart chunkSize : Nat}

/-- The bytes that a push needs are still to come. -/
theorem minBytes_le {first : Bool} (first_eq : first = decide (count = 0))
    (two : 2 ≤ length) (unfinished : count < length) :
    0 < (if first then 2 else 1) ∧
      (if first then 2 else 1) ≤ length - count := by
  subst first_eq
  by_cases zero : count = 0
  · rw [decide_eq_true zero, if_pos rfl]
    omega
  · rw [decide_eq_false zero, if_neg Bool.false_ne_true]
    omega

/-- The loop over the pushes reads a stream to its end. -/
theorem inflateLoop_stream (zlib : ZlibStream inflate stream payload)
    {limit : Nat} (fits : payload.length ≤ limit)
    (chunkSize_pos : 0 < chunkSize) (entryStart : Nat)
    (at_ : pack.drop payloadStart = stream ++ tail)
    (rounds : Nat) {run : InflateRun inflate} {count : Nat}
    (fed : zlib.Fed limit run.cursor count)
    (reads : run.reader.Reads pack (payloadStart + count))
    (first : run.firstInflatePush = decide (count = 0))
    (enough : stream.length - count < rounds) :
    ∃ last, inflateLoop pack chunkSize entryStart rounds run = .ok last ∧
      zlib.Fed limit last.cursor stream.length ∧
      last.reader.Reads pack (payloadStart + stream.length) ∧
      last.crc = crc32Update run.crc (stream.drop count) ∧
      last.digested = run.digested ++ stream.drop count := by
  induction rounds generalizing run count with
  | zero => exact absurd enough (Nat.not_lt_zero _)
  | succ rounds ih =>
    have lengths := zlib.length_stream
    have two := zlib.twoBytes
    have within := fed.length_le
    have packLength := congrArg List.length at_
    rw [List.length_drop, List.length_append] at packLength
    by_cases done : run.cursor.entryDone = true
    · have all := fed.entryDone_iff.mp done
      subst all
      refine ⟨run, ?_, fed, reads, ?_, ?_⟩
      · unfold inflateLoop
        rw [if_pos done]
      · rw [List.drop_length]
        rfl
      · rw [List.drop_length, List.append_nil]
    · have unfinished : count < stream.length := by
        have other : count ≠ stream.length :=
          fun all => done (fed.entryDone_iff.mpr all)
        omega
      rcases minBytes_le first (by omega : 2 ≤ stream.length) unfinished with
        ⟨positive, least⟩
      generalize ask : (if run.firstInflatePush then 2 else 1) = minBytes
        at least positive
      rcases reads.ensure chunkSize_pos minBytes with ⟨ahead, filled⟩
      have available := filled (by omega)
      generalize reader_eq :
        run.reader.ensure pack chunkSize minBytes = reader at ahead available
      have rest : pack.drop (payloadStart + count) =
          stream.drop count ++ tail := by
        rw [← List.drop_drop, at_, List.drop_append_of_le_length within]
      have size : (reader.buf.drop reader.pos).length =
          reader.remaining := List.length_drop
      have some_ : reader.buf.drop reader.pos ≠ [] := by
        intro none_
        rw [none_, List.length_nil] at size
        omega
      have header : count = 0 →
          2 ≤ (reader.buf.drop reader.pos).length := by
        intro zero
        rw [first, decide_eq_true zero, if_pos rfl] at ask
        omega
      rcases fed.push fits unfinished (rest.symm.trans ahead.window) some_
        header with ⟨cursor, consumed, ran, moved, taken, fedNext⟩
      rw [size] at taken
      have compressed : slice reader.buf reader.pos consumed =
          (stream.drop count).take consumed := by
        have reached := fedNext.length_le
        rw [ahead.slice_eq taken, rest, List.take_append_of_le_length
          (by rw [List.length_drop]; omega)]
      have parts : (stream.drop count).take consumed ++
          stream.drop (count + consumed) = stream.drop count := by
        rw [← List.drop_drop]
        exact List.take_append_drop _ _
      have onward := ahead.advance taken
      rw [Nat.add_assoc] at onward
      rcases @ih
          { reader := { reader with pos := reader.pos + consumed }
            cursor := cursor
            crc := crc32Update run.crc (slice reader.buf reader.pos consumed)
            digested :=
              run.digested ++ slice reader.buf reader.pos consumed
            firstInflatePush := false }
          (count + consumed) fedNext onward
          (decide_eq_false (by omega)).symm (by omega) with
        ⟨last, ranRest, fedLast, readsLast, crc, digested⟩
      refine ⟨last, ?_, fedLast, readsLast, ?_, ?_⟩
      · unfold inflateLoop
        rw [if_neg done]
        dsimp only
        rw [ask, reader_eq, if_neg (by omega), ran]
        dsimp only
        rw [if_neg fun stalled => absurd stalled.1 (by omega)]
        exact ranRest
      · rw [crc]
        dsimp only
        rw [compressed, ← crc32Update_append, parts]
      · rw [digested]
        dsimp only
        rw [compressed, List.append_assoc, parts]

end Payload

/-! ## Entries -/

section Entries

variable {inflate : RawInflate} {sha1 : Bytes → RawOid}
  {deflate : Bytes → Bytes} {opts : ScanOptions} {pack tail : Bytes}

theorem typeCode_range (type : GitObjectType) :
    0 < type.typeCode.toNat ∧ type.typeCode.toNat < 5 := by
  cases type <;> decide

variable {object : GitObject}

/-- The scanner gives the entry of a whole object the row that the builder
gives it. -/
theorem scanEntry_object (small : object.payload.length < 2 ^ 31)
    (allowed : opts.exceeded object.payload.length = false)
    (zlib : ZlibStream inflate (deflate object.payload) object.payload)
    {state : ScanState} {entryStart : Nat}
    (reads : state.reader.Reads pack entryStart)
    (at_ : pack.drop entryStart =
      (buildEntry sha1 deflate entryStart object).2 ++ tail) :
    ∃ reader, scanEntry inflate sha1 opts pack state =
        .ok ⟨reader,
          state.rows ++ [(buildEntry sha1 deflate entryStart object).1],
          state.digested ++
            (buildEntry sha1 deflate entryStart object).2⟩ ∧
      reader.Reads pack
        (entryStart + (buildEntry sha1 deflate entryStart object).2.length)
      := by
  have whole := typeCode_range object.type
  generalize header_eq : encodeObjHeader object.type.typeCode.toNat
    object.payload.length = header
  have parts : (buildEntry sha1 deflate entryStart object).2 =
      header ++ deflate object.payload := by
    rw [← header_eq]
    rfl
  have bound := length_encodeObjHeader object.type.typeCode.toNat small
  rw [header_eq] at bound
  rw [parts, List.append_assoc] at at_
  have packLength := congrArg List.length at_
  rw [List.length_drop, List.length_append, List.length_append]
    at packLength
  have lengths := zlib.length_stream
  rcases reads.ensure opts.chunkSize_pos (min 64 (pack.length - entryStart))
    with ⟨ahead, filled⟩
  have available := filled (by omega)
  generalize opened_eq : state.reader.ensure pack opts.chunkSize
    (min 64 (pack.length - entryStart)) = opened at ahead available
  have inside : header.length ≤ opened.remaining := by omega
  have headerBytes : slice opened.buf opened.pos header.length =
      header := by
    rw [ahead.slice_eq inside, at_, List.take_left]
  have window : opened.buf.drop opened.pos =
      encodeObjHeader object.type.typeCode.toNat object.payload.length ++
        (opened.buf.drop opened.pos).drop header.length := by
    rw [header_eq]
    exact (List.take_append_drop header.length _).symm.trans
      (congrArg (· ++ _) headerBytes)
  have parsed := parseEntryHeader_encodeObjHeader whole small window
  rw [header_eq] at parsed
  have code : typeCodeToObjectType
      (UInt8.ofNat object.type.typeCode.toNat) = some object.type := by
    rw [UInt8.ofNat_toNat]
    exact typeCodeToObjectType_typeCode object.type
  have behind : pack.drop (entryStart + header.length) =
      deflate object.payload ++ tail := by
    rw [← List.drop_drop, at_, List.drop_left]
  rcases @inflateLoop_stream _ _ _ _ _ _ _ zlib _ (le_refl _)
      opts.chunkSize_pos entryStart behind (pack.length + 1)
      { reader := { opened with pos := opened.pos + header.length }
        cursor := .reset object.payload.length
        crc := crc32Update crc32Init header
        digested := state.digested ++ header
        firstInflatePush := true }
      0 .start (ahead.advance inside) rfl (by omega) with
    ⟨last, ran, fed, readsLast, crc, digested⟩
  have done := fed.output (fed.entryDone_iff.mpr rfl)
  rw [List.drop_zero] at crc digested
  refine ⟨last.reader, ?_, ?_⟩
  · unfold scanEntry
    dsimp only
    rw [reads.absPos_eq, opened_eq, parsed]
    dsimp only
    rw [allowed, if_neg Bool.false_ne_true, Option.any_none,
      if_neg Bool.false_ne_true]
    unfold scanPayload
    dsimp only
    rw [code, Option.isSome_some, if_pos rfl, headerBytes, ran]
    dsimp only [bind, Except.bind]
    unfold finishEntry
    dsimp only
    rw [code]
    dsimp only
    rw [done.1]
    dsimp only [bind, Except.bind]
    rw [if_neg fun differs => differs rfl, digested, crc,
      readsLast.absPos_eq, parts]
    dsimp only
    rw [List.append_assoc]
    congr 4
    unfold buildEntry headerRow
    dsimp only
    rw [header_eq, UInt8.ofNat_toNat]
    rfl
  · rw [parts, List.length_append, ← Nat.add_assoc]
    exact readsLast

/-- The next entry starts where the row ends. -/
theorem spanEnd_build
    (zlib : ZlibStream inflate (deflate object.payload) object.payload)
    {offset : Nat} {others : Bytes}
    (at_ : pack.drop offset =
      (buildEntry sha1 deflate offset object).2 ++ (others ++ tail))
    (bound : pack.length - tail.length < 2 ^ 32) :
    (buildEntry sha1 deflate offset object).1.spanEnd.toNat =
      offset + (buildEntry sha1 deflate offset object).2.length := by
  have packLength := congrArg List.length at_
  rw [List.length_drop, List.length_append, List.length_append]
    at packLength
  have filled :
      0 < (buildEntry sha1 deflate offset object).2.length := by
    have lengths := zlib.length_stream
    unfold buildEntry
    dsimp only
    rw [List.length_append]
    omega
  have spanEnd : (buildEntry sha1 deflate offset object).1.spanEnd =
      UInt32.ofNat
        (offset + (buildEntry sha1 deflate offset object).2.length) := by
    unfold buildEntry
    dsimp only
    rw [List.length_append, ← Nat.add_assoc]
    rfl
  rw [spanEnd, UInt32.toNat_ofNat']
  exact Nat.mod_eq_of_lt (by omega)

/-- The scanner reads the entries that the builder wrote. -/
theorem scanEntries_build {objects : List GitObject}
    (small : ∀ object ∈ objects, object.payload.length < 2 ^ 31)
    (allowed : ∀ object ∈ objects, opts.exceeded object.payload.length = false)
    (deflates : ∀ object ∈ objects, Nonempty
      (ZlibStream inflate (deflate object.payload) object.payload))
    (bound : pack.length - tail.length < 2 ^ 32) {state : ScanState}
    {offset : Nat} (reads : state.reader.Reads pack offset)
    (at_ : pack.drop offset =
      (buildEntries sha1 deflate offset objects).2 ++ tail) :
    ∃ reader, scanEntries inflate sha1 opts pack objects.length state =
        .ok ⟨reader,
          state.rows ++ (buildEntries sha1 deflate offset objects).1,
          state.digested ++
            (buildEntries sha1 deflate offset objects).2⟩ ∧
      reader.Reads pack
        (offset + (buildEntries sha1 deflate offset objects).2.length)
      := by
  induction objects generalizing state offset with
  | nil =>
    refine ⟨state.reader, ?_, reads⟩
    unfold buildEntries
    rw [List.append_nil, List.append_nil]
    rfl
  | cons object objects ih =>
    rcases deflates object (List.mem_cons_self ..) with ⟨zlib⟩
    generalize first_eq : buildEntry sha1 deflate offset object = first
    generalize rest_eq :
      buildEntries sha1 deflate first.1.spanEnd.toNat objects = rest
    have unfolded : buildEntries sha1 deflate offset (object :: objects) =
        (first.1 :: rest.1, first.2 ++ rest.2) := by
      rw [← rest_eq, ← first_eq]
      rfl
    rw [unfolded] at at_ ⊢
    dsimp only at at_ ⊢
    rw [List.append_assoc] at at_
    have entryAt : pack.drop offset =
        (buildEntry sha1 deflate offset object).2 ++ (rest.2 ++ tail) := by
      rw [first_eq]
      exact at_
    have once := scanEntry_object (small object (List.mem_cons_self ..))
      (allowed object (List.mem_cons_self ..)) zlib reads entryAt
    rw [first_eq] at once
    rcases once with ⟨reader, ran, readsNext⟩
    have span := spanEnd_build zlib entryAt bound
    rw [first_eq] at span
    rw [span] at rest_eq
    rcases @ih
      (fun other member => small other (List.mem_cons_of_mem _ member))
      (fun other member => allowed other (List.mem_cons_of_mem _ member))
      (fun other member => deflates other (List.mem_cons_of_mem _ member))
      ⟨reader, state.rows ++ [first.1], state.digested ++ first.2⟩
      (offset + first.2.length) readsNext
      (by rw [rest_eq, ← List.drop_drop, at_, List.drop_left]) with
      ⟨final, ranRest, readsFinal⟩
    rw [rest_eq] at ranRest readsFinal
    refine ⟨final, ?_, ?_⟩
    · rw [List.length_cons]
      unfold scanEntries
      rw [ran]
      dsimp only [bind, Except.bind]
      rw [ranRest, List.append_assoc, List.append_assoc,
        List.singleton_append]
    · rw [List.length_append, ← Nat.add_assoc]
      exact readsFinal

end Entries

end Indexer

end GitOnCloudflare.Pack
