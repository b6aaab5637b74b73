import GitOnCloudflare.Pack.RangeReader

/-!
# Ranges are read whole

The buffered chunk is always a part of the pack.  So a request returns the
bytes of its range or fails, whatever was requested before, and a request that
asks for a byte past the end of the pack fails.
-/

namespace GitOnCloudflare.Pack.RangeReader

open Foundations.ByteTable
open Indexer (SequentialReader length_slice)

variable {opts : ReaderOptions} {pack : Bytes} {conditions : Conditions pack}
  {reader : SequentialReader} {offset length : Nat} {bytes : Bytes}

/-! ## Loads -/

/-- The bytes are the whole range. -/
structure Whole (pack : Bytes) (offset length : Nat) (bytes : Bytes) :
    Prop where
  slice_eq : bytes = slice pack offset length
  length_eq : bytes.length = length

theorem Whole.of_part (part : bytes <+: slice pack offset length)
    (full : bytes.length = length) : Whole pack offset length bytes := by
  refine ⟨part.eq_of_length_le ?_, full⟩
  rw [full]
  exact length_slice_le pack offset length

/-- A range that is there whole, and has a byte, ends within the pack. -/
theorem Whole.within (whole : Whole pack offset length bytes)
    (some_ : 0 < length) : offset + length ≤ pack.length := by
  have size := whole.length_eq
  rw [whole.slice_eq] at size
  unfold slice at size
  rw [List.length_take, List.length_drop] at size
  omega

variable {which : Load}

/-- An attempt that ends the loop with bytes has all of them. -/
theorem readExactPackRangeWithRetry_whole {left : Nat}
    (read : readExactPackRangeWithRetry conditions which offset length left =
      .ok (some bytes)) : Whole pack offset length bytes := by
  induction left with
  | zero => cases read
  | succ left ih =>
    unfold readExactPackRangeWithRetry at read
    dsimp only at read
    split at read
    · cases read
    · have stored := conditions.answers which (rangeReadAttempts - left) offset
        length
      have failing : ∀ message : String,
          (if conditions.aborted (.failure which (rangeReadAttempts - left))
            then (.ok none : Except ReadFailure (Option Bytes))
            else if rangeReadAttempts - left = rangeReadAttempts then
              .error (.thrown message)
            else
              readExactPackRangeWithRetry conditions which offset length
                left) = .ok (some bytes) → Whole pack offset length bytes := by
        intro message again
        split at again
        · cases again
        · split at again
          · cases again
          · exact ih again
      split at read
      · cases read
      · next message _ => exact failing message read
      · next returned answered =>
        rw [answered] at stored
        split at read
        · next full =>
          cases read
          exact .of_part stored full
        · exact failing _ read

/-- A load with bytes has all of them. -/
theorem load_whole
    (loaded : load opts conditions which offset length = .ok (some bytes)) :
    Whole pack offset length bytes := by
  unfold load at loaded
  split at loaded
  · have read := Except.ok.inj loaded
    split at read
    · next full =>
      cases read
      exact ⟨rfl, full⟩
    · cases read
  · unfold readPackRange at loaded
    split at loaded
    · cases loaded
    · exact readExactPackRangeWithRetry_whole loaded

theorem loadOrThrow_whole {stage : String}
    (loaded : loadOrThrow opts conditions stage offset length = .ok bytes) :
    Whole pack offset length bytes := by
  unfold loadOrThrow at loaded
  cases answered : load opts conditions .range offset length with
  | error failure =>
    rw [answered] at loaded
    cases loaded
  | ok found =>
    rw [answered] at loaded
    cases found with
    | none => cases loaded
    | some data =>
      cases loaded
      exact load_whole answered

/-! ## The buffered chunk -/

/-- The chunk is a part of the pack. -/
structure Sound (pack : Bytes) (reader : SequentialReader) : Prop where
  holds : reader.Holds pack
  bufEnd_le : reader.bufEnd ≤ pack.length

theorem sound_empty (pack : Bytes) : Sound pack SequentialReader.empty where
  holds := SequentialReader.empty_holds pack
  bufEnd_le := Nat.zero_le _

/-- What the chunk covers is read from it whole. -/
theorem Sound.whole (sound : Sound pack reader)
    (from_ : reader.bufAbsStart ≤ offset)
    (upTo : offset + length ≤ reader.bufEnd) :
    Whole pack offset length
      (slice reader.buf (offset - reader.bufAbsStart) length) := by
  rw [sound.holds.slice_eq from_ upTo]
  exact ⟨rfl, length_slice (upTo.trans sound.bufEnd_le)⟩

variable {next : SequentialReader}

/-- A preload reads the chunk at the offset, or there is nothing to read. -/
theorem preload_sound (sound : Sound pack reader)
    (loaded : preload opts conditions reader offset = .ok next) :
    Sound pack next ∧
      (next = reader ∧ pack.length ≤ offset ∨
        next.bufAbsStart = offset ∧ offset < pack.length) := by
  unfold preload at loaded
  split at loaded
  · cases loaded
  · split at loaded
    · next past =>
      cases loaded
      exact ⟨sound, .inl ⟨rfl, past⟩⟩
    · next inside =>
      cases answered : load opts conditions .chunk offset
          (min opts.chunkSize (pack.length - offset)) with
      | error failure =>
        rw [answered] at loaded
        cases loaded
      | ok found =>
        rw [answered] at loaded
        cases found with
        | none => cases loaded
        | some chunk =>
          cases loaded
          have whole := load_whole answered
          refine ⟨⟨?_, ?_⟩, .inr ⟨rfl, Nat.lt_of_not_le inside⟩⟩
          · unfold SequentialReader.Holds
            dsimp only
            rw [whole.length_eq]
            exact whole.slice_eq
          · unfold SequentialReader.bufEnd
            dsimp only
            rw [whole.length_eq]
            omega

/-- After a preload the chunk starts no later than the offset. -/
theorem preload_start (sound : Sound pack reader)
    (loaded : preload opts conditions reader offset = .ok next) :
    next.bufAbsStart ≤ offset := by
  rcases preload_sound sound loaded with
    ⟨_, ⟨rfl, past⟩ | ⟨starts, _⟩⟩
  · have last := sound.bufEnd_le
    unfold SequentialReader.bufEnd at last
    omega
  · exact Nat.le_of_eq starts

/-! ## Requests -/

/-- A request keeps the chunk a part of the pack, and its bytes are whole. -/
theorem readRange_sound (sound : Sound pack reader) :
    Sound pack (readRange opts conditions reader offset length).2 ∧
      ∀ bytes,
        (readRange opts conditions reader offset length).1 = .ok bytes →
          Whole pack offset length bytes := by
  unfold readRange
  split
  · refine ⟨sound, ?_⟩
    intro bytes impossible
    cases impossible
  · split
    · next covered =>
      refine ⟨sound, ?_⟩
      rintro bytes ⟨rfl⟩
      exact sound.whole covered.1 covered.2
    · split
      · exact ⟨sound, fun bytes loaded => loadOrThrow_whole loaded⟩
      · split
        · refine ⟨sound, ?_⟩
          intro bytes impossible
          cases impossible
        · next next loaded =>
          have after := (preload_sound sound loaded).1
          split
          · next covered =>
            refine ⟨after, ?_⟩
            rintro bytes ⟨rfl⟩
            exact after.whole (preload_start sound loaded) covered
          · exact ⟨after, fun bytes loaded => loadOrThrow_whole loaded⟩

theorem buffered_sound (sound : Sound pack reader)
    (opened : buffered opts conditions reader offset = .ok next) :
    Sound pack next := by
  unfold buffered at opened
  split at opened
  · cases opened
    exact sound
  · exact (preload_sound sound opened).1

/-- A window keeps the chunk a part of the pack, and has bytes of the range
from its start on, at least one when there is one. -/
theorem readWindow_sound {maxLength : Nat} (sound : Sound pack reader) :
    Sound pack (readWindow opts conditions reader offset maxLength).2 ∧
      ∀ bytes,
        (readWindow opts conditions reader offset maxLength).1 = .ok bytes →
          ∃ count ≤ maxLength, Whole pack offset count bytes ∧
            (0 < maxLength → offset < pack.length → 0 < count) := by
  unfold readWindow
  split
  · refine ⟨sound, ?_⟩
    intro bytes impossible
    cases impossible
  · split
    · next nothing =>
      refine ⟨sound, ?_⟩
      rintro bytes ⟨rfl⟩
      refine ⟨0, Nat.zero_le _, ⟨List.take_zero.symm, rfl⟩, ?_⟩
      intro positive inside
      rcases nothing with zero | past
      · exact absurd zero (Nat.ne_of_gt positive)
      · exact absurd inside (Nat.not_lt_of_le past)
    · split
      · refine ⟨sound, ?_⟩
        intro bytes impossible
        cases impossible
      · next next opened =>
        have after := buffered_sound sound opened
        split
        · refine ⟨after, ?_⟩
          intro bytes loaded
          refine ⟨min maxLength 1, Nat.min_le_left _ _,
            loadOrThrow_whole loaded, ?_⟩
          intro positive _
          omega
        · next covered =>
          refine ⟨after, ?_⟩
          rintro bytes ⟨rfl⟩
          refine ⟨min maxLength (next.bufEnd - offset),
            Nat.min_le_left _ _, after.whole (by omega) (by omega), ?_⟩
          intro positive _
          omega

/-- Serving requests keeps the chunk a part of the pack. -/
theorem serve_sound (sound : Sound pack reader) (request : Request) :
    Sound pack (serve opts conditions reader request).2 := by
  cases request with
  | range offset length => exact (readRange_sound sound).1
  | window offset maxLength => exact (readWindow_sound sound).1
  | preload offset =>
    rw [serve]
    cases loaded : preload opts conditions reader offset with
    | error failure => exact sound
    | ok next => exact (preload_sound sound loaded).1

theorem serveAll_sound (opts : ReaderOptions)
    (requests : List (Request × Conditions pack)) :
    Sound pack (serveAll opts requests) := by
  unfold serveAll
  apply List.foldlRecOn
  · exact sound_empty pack
  · intro reader sound request _
    exact serve_sound sound request.1

/-! ## Requests that succeed -/

/-- The caller does not abort, and a bucket has the ranges of the pack. -/
structure Serves (opts : ReaderOptions) (conditions : Conditions pack) :
    Prop where
  quiet : ∀ look, conditions.aborted look = false
  stored : opts.inMemory = false → ∀ which attempt offset length,
    offset + length ≤ pack.length →
      conditions.answer which attempt offset length =
        .body (slice pack offset length)

theorem Serves.load_eq (serves : Serves opts conditions) (which : Load)
    (within : offset + length ≤ pack.length) :
    load opts conditions which offset length =
      .ok (some (slice pack offset length)) := by
  have full := length_slice within
  unfold load
  cases where_ : opts.inMemory with
  | true =>
    rw [if_pos rfl]
    exact congrArg Except.ok (if_pos full)
  | false =>
    rw [if_neg Bool.false_ne_true]
    unfold readPackRange rangeReadAttempts readExactPackRangeWithRetry
    dsimp only
    rw [serves.quiet, serves.quiet, serves.stored where_ _ _ _ _ within]
    rw [if_neg Bool.false_ne_true, if_neg Bool.false_ne_true]
    exact if_pos full

theorem Serves.loadOrThrow_eq (serves : Serves opts conditions)
    (stage : String) (within : offset + length ≤ pack.length) :
    loadOrThrow opts conditions stage offset length =
      .ok (slice pack offset length) := by
  unfold loadOrThrow
  rw [serves.load_eq .range within]
  rfl

theorem Serves.preload_ends (serves : Serves opts conditions)
    (reader : SequentialReader) (offset : Nat) :
    ∃ next, preload opts conditions reader offset = .ok next := by
  unfold preload
  rw [serves.quiet, if_neg Bool.false_ne_true]
  by_cases past : pack.length ≤ offset
  · exact ⟨reader, if_pos past⟩
  · rw [if_neg past, serves.load_eq .chunk (by omega)]
    exact ⟨_, rfl⟩

/-- A request within the pack is served. -/
theorem Serves.readRange_eq (serves : Serves opts conditions)
    (sound : Sound pack reader) (within : offset + length ≤ pack.length) :
    (readRange opts conditions reader offset length).1 =
      .ok (slice pack offset length) := by
  have returned := (@readRange_sound opts pack conditions reader offset
    length sound).2
  have ends : ∃ bytes,
      (readRange opts conditions reader offset length).1 = .ok bytes := by
    unfold readRange
    rw [serves.quiet, if_neg Bool.false_ne_true]
    split
    · exact ⟨_, rfl⟩
    · split
      · exact ⟨_, serves.loadOrThrow_eq _ within⟩
      · rcases serves.preload_ends reader offset with ⟨next, loaded⟩
        rw [loaded]
        dsimp only
        split
        · exact ⟨_, rfl⟩
        · exact ⟨_, serves.loadOrThrow_eq _ within⟩
  rcases ends with ⟨bytes, read⟩
  rw [read, (returned bytes read).slice_eq]

/-- Whatever was requested before, a request that returns has the bytes of its
range, a request for a byte past the end fails, and a request within the pack
is served unless the bucket fails or the caller aborts. -/
theorem sequentialReader_exact (opts : ReaderOptions) {pack : Bytes}
    (earlier : List (Request × Conditions pack))
    (conditions : Conditions pack) (offset length : Nat) :
    (∀ bytes,
      (readRange opts conditions (serveAll opts earlier) offset length).1 =
          .ok bytes →
        bytes = slice pack offset length ∧ bytes.length = length) ∧
    (∀ position, offset ≤ position → position < offset + length →
      pack.length ≤ position →
        ∃ failure,
          (readRange opts conditions (serveAll opts earlier) offset
            length).1 = .error failure) ∧
    (offset + length ≤ pack.length → Serves opts conditions →
      (readRange opts conditions (serveAll opts earlier) offset length).1 =
        .ok (slice pack offset length)) := by
  have sound := serveAll_sound opts earlier
  have returned := (@readRange_sound opts pack conditions _ offset length
    sound).2
  refine ⟨?_, ?_, ?_⟩
  · intro bytes read
    exact ⟨(returned bytes read).slice_eq, (returned bytes read).length_eq⟩
  · intro position from_ upTo past
    cases read : (readRange opts conditions (serveAll opts earlier) offset
        length).1 with
    | error failure => exact ⟨failure, rfl⟩
    | ok bytes =>
      have within := (returned bytes read).within (by omega)
      omega
  · intro within serves
    exact serves.readRange_eq sound within

end GitOnCloudflare.Pack.RangeReader
