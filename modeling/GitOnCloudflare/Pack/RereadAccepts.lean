import GitOnCloudflare.Pack.PackReread

/-!
# Reading whole objects again

Whatever the chunks of the reader, inflating the entry of a whole object again
gives its payload, so that the caller is shown the objects in pack order.
-/

namespace GitOnCloudflare.Pack.Indexer

open Foundations.ByteTable

variable {offset length : Nat}
  {pack : Bytes}

theorem length_slice (within : offset + length ≤ pack.length) :
    (slice pack offset length).length = length := by
  unfold slice
  rw [List.length_take, List.length_drop]
  omega

theorem load_eq (within : offset + length ≤ pack.length) :
    load pack offset length = some (slice pack offset length) :=
  if_pos (length_slice within)

/-! ## The reader -/

/-- The buffered chunk is a part of the pack. -/
def SequentialReader.Holds (reader : SequentialReader) (pack : Bytes) : Prop :=
  reader.buf = slice pack reader.bufAbsStart reader.buf.length

namespace SequentialReader

variable {opts : ReadOptions} {pack : Bytes} {reader : SequentialReader}

theorem empty_holds (pack : Bytes) : empty.Holds pack := rfl

theorem Holds.slice_eq (holds : reader.Holds pack)
    (from_ : reader.bufAbsStart ≤ offset)
    (upTo : offset + length ≤ reader.bufEnd) :
    slice reader.buf (offset - reader.bufAbsStart) length =
      slice pack offset length := by
  have inner : offset - reader.bufAbsStart + length ≤ reader.buf.length := by
    unfold bufEnd at upTo
    omega
  rw [holds, slice_slice pack inner]
  congr 1
  omega

theorem Holds.bufEnd_le (holds : reader.Holds pack)
    (some_ : reader.bufAbsStart < reader.bufEnd) :
    reader.bufEnd ≤ pack.length := by
  have size := congrArg List.length holds
  unfold slice at size
  rw [List.length_take, List.length_drop] at size
  unfold bufEnd at some_ ⊢
  omega

theorem preload_holds (reader : SequentialReader) {offset : Nat}
    (inside : offset < pack.length) :
    ∃ next, reader.preload opts pack offset = .ok next ∧ next.Holds pack ∧
      next.bufAbsStart = offset ∧ offset < next.bufEnd := by
  have positive := opts.chunkSize_pos
  have within : offset + min opts.chunkSize (pack.length - offset) ≤
      pack.length := by omega
  have size := length_slice within
  refine ⟨⟨slice pack offset
    (min opts.chunkSize (pack.length - offset)), offset⟩, ?_, ?_, rfl, ?_⟩
  · unfold preload
    rw [if_neg (by omega), load_eq within]
  · unfold Holds
    dsimp only
    rw [size]
  · unfold bufEnd
    dsimp only
    rw [size]
    omega

theorem readRange_holds (holds : reader.Holds pack) {offset length : Nat}
    (positive : 0 < length) (within : offset + length ≤ pack.length) :
    ∃ next, reader.readRange opts pack offset length =
        .ok (slice pack offset length, next) ∧
      next.Holds pack := by
  unfold readRange loadOrFail
  rw [load_eq within]
  split
  next buffered =>
    exact ⟨reader, by rw [holds.slice_eq buffered.1 buffered.2], holds⟩
  next =>
    split
    next => exact ⟨reader, rfl, holds⟩
    next =>
      have inside : offset < pack.length := by omega
      rcases @preload_holds opts pack reader offset inside with
        ⟨next, ran, nextHolds, starts, _⟩
      rw [ran]
      dsimp only [bind, Except.bind]
      split
      next covered =>
        refine ⟨next, ?_, nextHolds⟩
        rw [nextHolds.slice_eq (le_of_eq starts) covered]
      next => exact ⟨next, rfl, nextHolds⟩

theorem readWindow_holds (holds : reader.Holds pack) {offset maxLength : Nat}
    (positive : 0 < maxLength) (inside : offset < pack.length) :
    ∃ count next, reader.readWindow opts pack offset maxLength =
        .ok (slice pack offset count, next) ∧
      next.Holds pack ∧ 0 < count ∧ count ≤ maxLength ∧
      offset + count ≤ pack.length := by
  have opened : ∃ next, reader.buffered opts pack offset = .ok next ∧
      next.Holds pack ∧ next.bufAbsStart ≤ offset ∧
      offset < next.bufEnd := by
    unfold buffered
    split
    next buffered => exact ⟨reader, rfl, holds, buffered⟩
    next =>
      rcases @preload_holds opts pack reader offset inside with
        ⟨next, ran, nextHolds, starts, ends⟩
      exact ⟨next, ran, nextHolds, le_of_eq starts, ends⟩
  rcases opened with ⟨next, ran, nextHolds, from_, upTo⟩
  have limit := nextHolds.bufEnd_le (Nat.lt_of_le_of_lt from_ upTo)
  refine ⟨min maxLength (next.bufEnd - offset), next, ?_, nextHolds,
    by omega, by omega, by omega⟩
  unfold readWindow
  rw [if_neg (by omega), ran]
  dsimp only [bind, Except.bind]
  rw [if_neg (by omega), nextHolds.slice_eq from_ (by omega)]

end SequentialReader

theorem nextWindow_holds {opts : ReadOptions} {pack : Bytes}
    {reader : SequentialReader} (holds : reader.Holds pack)
    {nextOffset bytesLeft minBytes : Nat} (positive : 0 < minBytes)
    (enough : minBytes ≤ bytesLeft)
    (within : nextOffset + bytesLeft ≤ pack.length) :
    ∃ count next, nextWindow opts pack reader nextOffset bytesLeft minBytes =
        .ok (slice pack nextOffset count, next) ∧
      next.Holds pack ∧ minBytes ≤ count ∧ count ≤ bytesLeft := by
  have inside : nextOffset < pack.length := by omega
  have some_ : 0 < bytesLeft := by omega
  rcases @SequentialReader.readWindow_holds opts _ _ holds _ _ some_ inside
    with ⟨count, next, ran, nextHolds, _, most, fits⟩
  unfold nextWindow
  rw [ran]
  dsimp only [bind, Except.bind]
  rw [length_slice fits]
  split
  next =>
    have least : min bytesLeft minBytes = minBytes := by omega
    rcases @SequentialReader.readRange_holds opts _ _ nextHolds nextOffset
        minBytes positive (by omega) with ⟨last, ranRange, lastHolds⟩
    rw [least, ranRange]
    exact ⟨minBytes, last, rfl, lastHolds, le_refl _, enough⟩
  next filled =>
    exact ⟨count, next, rfl, nextHolds, by omega, most⟩

/-! ## Payloads -/

section Payloads

variable {inflate : RawInflate} {stream payload pack tail : Bytes}
  {opts : ReadOptions} {payloadStart : Nat} {row : EntryRow}

/-- The loop over the pushes reads a stream to the end of the span. -/
theorem rereadLoop_stream (zlib : ZlibStream inflate stream payload)
    {limit : Nat} (fits : payload.length ≤ limit)
    (at_ : pack.drop payloadStart = stream ++ tail)
    (span : row.spanEnd.toNat = payloadStart + stream.length) (rounds : Nat)
    {run : RereadRun inflate} {count : Nat}
    (fed : zlib.Fed limit run.cursor count) (holds : run.reader.Holds pack)
    (next_eq : run.nextOffset = payloadStart + count)
    (first : run.firstPush = decide (count = 0))
    (enough : stream.length - count < rounds) :
    ∃ last, rereadLoop opts pack row rounds run = .ok last ∧
      zlib.Fed limit last.cursor stream.length ∧
      last.reader.Holds pack ∧ last.nextOffset = row.spanEnd.toNat := by
  induction rounds generalizing run count with
  | zero => exact absurd enough (Nat.not_lt_zero _)
  | succ rounds ih =>
    have lengths := zlib.length_stream
    have two := zlib.twoBytes
    have within := fed.length_le
    have packLength := congrArg List.length at_
    rw [List.length_drop, List.length_append] at packLength
    by_cases done : run.cursor.entryDone = true
    · have all := fed.entryDone_iff.mp done
      subst all
      refine ⟨run, ?_, fed, holds, next_eq.trans span.symm⟩
      unfold rereadLoop
      rw [if_pos done]
    · have unfinished : count < stream.length := by
        have other : count ≠ stream.length :=
          fun all => done (fed.entryDone_iff.mpr all)
        omega
      rcases minBytes_le first (by omega : 2 ≤ stream.length) unfinished with
        ⟨positive, least⟩
      generalize ask : (if run.firstPush then 2 else 1) = minBytes
        at least positive
      have left : row.spanEnd.toNat - run.nextOffset =
          stream.length - count := by omega
      rcases @nextWindow_holds opts pack _ holds (payloadStart + count)
          (stream.length - count) minBytes positive least (by omega) with
        ⟨size, reader, ranWindow, readerHolds, filled, most⟩
      have inside : payloadStart + count + size ≤ pack.length := by omega
      have sized := length_slice inside
      have rest : pack.drop (payloadStart + count) =
          stream.drop count ++ tail := by
        rw [← List.drop_drop, at_, List.drop_append_of_le_length within]
      have window : slice pack (payloadStart + count) size =
          (stream.drop count).take size := by
        unfold slice
        rw [rest, List.take_append_of_le_length
          (by rw [List.length_drop]; omega)]
      have piece : stream.drop count ++ [] =
          slice pack (payloadStart + count) size ++
            (stream.drop count).drop size := by
        rw [List.append_nil, window, List.take_append_drop]
      have some_ : slice pack (payloadStart + count) size ≠ [] := by
        intro none_
        rw [none_, List.length_nil] at sized
        omega
      have header : count = 0 →
          2 ≤ (slice pack (payloadStart + count) size).length := by
        intro zero
        rw [first, decide_eq_true zero, if_pos rfl] at ask
        omega
      rcases fed.push fits unfinished piece some_ header with
        ⟨cursor, consumed, ran, moved, taken, fedNext⟩
      rcases @ih
          { reader := reader
            cursor := cursor
            nextOffset := run.nextOffset + consumed
            firstPush := false }
          (count + consumed) fedNext readerHolds
          (by dsimp only; omega) (decide_eq_false (by omega)).symm
          (by omega) with
        ⟨last, ranRest, fedLast, lastHolds, lastOffset⟩
      refine ⟨last, ?_, fedLast, lastHolds, lastOffset⟩
      unfold rereadLoop
      rw [if_neg done, if_neg (by omega)]
      dsimp only
      rw [ask, left, next_eq, ranWindow]
      dsimp only [bind, Except.bind]
      rw [if_neg (by omega), ran]
      dsimp only
      rw [if_neg fun stalled => absurd stalled.1 (by omega), ← next_eq]
      exact ranRest

end Payloads

section Entries

variable {inflate : RawInflate} {sha1 : Bytes → RawOid}
  {deflate : Bytes → Bytes} {opts : ReadOptions} {pack tail : Bytes}

/-- The row of the builder leads back to the payload. -/
theorem inflateFromReader_build {object : GitObject}
    (small : object.payload.length < 2 ^ 31)
    (zlib : ZlibStream inflate (deflate object.payload) object.payload)
    {reader : SequentialReader} (holds : reader.Holds pack) {entryStart : Nat}
    (at_ : pack.drop entryStart =
      (buildEntry sha1 deflate entryStart object).2 ++ tail)
    (bound : pack.length - tail.length < 2 ^ 32) :
    ∃ next, inflateFromReader inflate opts pack reader
        (buildEntry sha1 deflate entryStart object).1 =
          .ok (object.payload, next) ∧
      next.Holds pack := by
  have bounds := length_encodeObjHeader object.type.typeCode.toNat small
  generalize header_eq : encodeObjHeader object.type.typeCode.toNat
    object.payload.length = header at bounds
  have parts : (buildEntry sha1 deflate entryStart object).2 =
      header ++ deflate object.payload := by
    rw [← header_eq]
    rfl
  rw [parts, List.append_assoc] at at_
  have packLength := congrArg List.length at_
  rw [List.length_drop, List.length_append, List.length_append]
    at packLength
  have lengths := zlib.length_stream
  generalize row_eq : (buildEntry sha1 deflate entryStart object).1 = row
  have starts : row.offset.toNat + row.headerLen.toNat =
      entryStart + header.length := by
    have offset : row.offset = UInt32.ofNat entryStart := by
      rw [← row_eq]
      rfl
    have headerLen : row.headerLen = UInt16.ofNat header.length := by
      rw [← row_eq, ← header_eq]
      rfl
    rw [offset, headerLen, UInt32.toNat_ofNat', UInt16.toNat_ofNat',
      Nat.mod_eq_of_lt (by omega), Nat.mod_eq_of_lt (by omega)]
  have span : row.spanEnd.toNat =
      entryStart + header.length + (deflate object.payload).length := by
    have spanEnd : row.spanEnd = UInt32.ofNat
        (entryStart + header.length + (deflate object.payload).length) := by
      rw [← row_eq, ← header_eq]
      rfl
    rw [spanEnd, UInt32.toNat_ofNat']
    exact Nat.mod_eq_of_lt (by omega)
  have behind : pack.drop (entryStart + header.length) =
      deflate object.payload ++ tail := by
    rw [← List.drop_drop, at_, List.drop_left]
  have safe : object.payload.length ≤ maxSafe := by
    have far : 2 ^ 31 ≤ maxSafe := by decide
    omega
  rcases @rereadLoop_stream _ _ _ _ _ opts _ row zlib _ safe behind span
      (pack.length + 1)
      { reader := reader
        cursor := .reset maxSafe
        nextOffset := row.offset.toNat + row.headerLen.toNat
        firstPush := true }
      0 .start holds starts rfl (by omega) with
    ⟨last, ran, fed, lastHolds, ended⟩
  refine ⟨last.reader, ?_, lastHolds⟩
  unfold inflateFromReader
  rw [ran]
  dsimp only [bind, Except.bind]
  rw [if_neg (not_not.mpr ended),
    (fed.output (fed.entryDone_iff.mpr rfl)).1]

/-- The caller is shown the objects in pack order. -/
theorem visitResolved_build {objects : List GitObject}
    (small : ∀ object ∈ objects, object.payload.length < 2 ^ 31)
    (deflates : ∀ object ∈ objects, Nonempty
      (ZlibStream inflate (deflate object.payload) object.payload))
    (bound : pack.length - tail.length < 2 ^ 32) (index : Nat)
    {reader : SequentialReader} (holds : reader.Holds pack) {offset : Nat}
    (at_ : pack.drop offset =
      (buildEntries sha1 deflate offset objects).2 ++ tail) :
    visitResolved inflate opts pack index reader
        (buildEntries sha1 deflate offset objects).1 =
      .ok ((List.range' index objects.length).zip objects) := by
  induction objects generalizing index reader offset with
  | nil => rfl
  | cons object objects ih =>
    rcases deflates object (List.mem_cons_self ..) with ⟨zlib⟩
    generalize first_eq : buildEntry sha1 deflate offset object = first
    generalize rest_eq :
      buildEntries sha1 deflate first.1.spanEnd.toNat objects = rest
    have unfolded : buildEntries sha1 deflate offset (object :: objects) =
        (first.1 :: rest.1, first.2 ++ rest.2) := by
      rw [← rest_eq, ← first_eq]
      rfl
    rw [unfolded] at at_ ⊢
    dsimp only at at_ ⊢
    rw [List.append_assoc] at at_
    have entryAt : pack.drop offset =
        (buildEntry sha1 deflate offset object).2 ++ (rest.2 ++ tail) := by
      rw [first_eq]
      exact at_
    have span := spanEnd_build zlib entryAt bound
    have close : pack.length - (rest.2 ++ tail).length < 2 ^ 32 := by
      rw [List.length_append]
      omega
    rcases @inflateFromReader_build _ _ _ opts _ _ _
        (small object (List.mem_cons_self ..)) zlib reader holds offset
        entryAt close with ⟨next, ran, nextHolds⟩
    rw [first_eq] at ran span
    rw [span] at rest_eq
    have others := @ih
      (fun other member => small other (List.mem_cons_of_mem _ member))
      (fun other member => deflates other (List.mem_cons_of_mem _ member))
      (index + 1) next nextHolds (offset + first.2.length)
      (by rw [rest_eq, ← List.drop_drop, at_, List.drop_left])
    rw [rest_eq] at others
    have code : typeCodeToObjectType first.1.type = some object.type := by
      rw [← first_eq]
      exact typeCodeToObjectType_typeCode object.type
    unfold visitResolved
    rw [code]
    dsimp only
    rw [ran]
    dsimp only [bind, Except.bind]
    rw [others, List.length_cons, List.range'_succ]
    rfl

end Entries

end GitOnCloudflare.Pack.Indexer
