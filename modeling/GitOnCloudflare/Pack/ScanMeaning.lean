import GitOnCloudflare.Pack.HeaderWindow
import GitOnCloudflare.Pack.InflatePieces
import GitOnCloudflare.Pack.ScanAccepts

/-!
# What the scanner reads

The entries of a pack as its bytes give them, with no window: the header that
begins at an offset, the stream behind it, and the row of both.
-/

namespace GitOnCloudflare.Pack

open Foundations Foundations.ByteTable

namespace Indexer

/-! ## Entries without a window -/

/-- Why an entry is refused: its header, or with another text. -/
inductive EntryRefusal where
  | header (entryStart : Nat) (failure : ScanFailure)
  | other (message : String)

section Meaning

variable (decode : Bytes → Decoded UInt8 String) (sha1 : Bytes → RawOid)
  (exceeded : Nat → Bool) (pack : Bytes)

/-- What is kept of the payload of an entry. -/
def captureLimit (header : ScanHeader) : Nat :=
  if (typeCodeToObjectType (UInt8.ofNat header.type)).isSome then
    header.size
  else
    deltaHeaderCaptureLimit

/-- The row of an entry with this header, payload and end. -/
def readRow (entryStart : Nat) (header : ScanHeader) (payload : Bytes)
    (spanEnd : Nat) : Except String EntryRow :=
  let row :=
    { headerRow entryStart header with
      spanEnd := UInt32.ofNat spanEnd
      crc32 := crc32Finish
        (crc32Update crc32Init
          (slice pack entryStart (spanEnd - entryStart))) }
  match typeCodeToObjectType (UInt8.ofNat header.type) with
  | some baseType =>
    if header.size < payload.length then
      .error "inflate: full output was not retained for this entry"
    else if payload.length ≠ header.size then
      .error s!"scan: inflated {baseType.text} size mismatch at offset {entryStart} (expected {header.size}, got {payload.length})"
    else
      .ok (row.record sha1 ⟨baseType, payload⟩)
  | none =>
    if payload.length ≠ header.size then
      .error s!"scan: inflated delta size mismatch at offset {entryStart} (expected {header.size}, got {payload.length})"
    else do
      let resultSize ←
        readDeltaResultSize (payload.take deltaHeaderCaptureLimit)
      if exceeded resultSize then
        .error s!"scan: delta result at offset {entryStart} exceeds operation size limit"
      else
        .ok { row with decompressedSize := UInt32.ofNat resultSize }

/-- The payload behind a header, and the end of the entry. -/
def readPayload (entryStart : Nat) (header : ScanHeader) :
    Except String (EntryRow × Nat) :=
  let payloadStart := entryStart + header.headerLen
  match decodeZlib decode (pack.drop payloadStart) with
  | .failed failure => .error failure
  | .more _ =>
    .error s!"scan: unexpected EOF while inflating entry at offset {entryStart}"
  | .done payload used => do
      let row ←
        readRow sha1 exceeded pack entryStart header payload (payloadStart + used)
      .ok (row, payloadStart + used)

def readEntry (entryStart : Nat) : Except EntryRefusal (EntryRow × Nat) :=
  match parseEntryHeader pack entryStart with
  | .error failure => .error (.header entryStart failure)
  | .ok none =>
    .error (.other s!"scan: failed to parse header at offset {entryStart}")
  | .ok (some header) =>
    if exceeded header.size then
      .error (.other s!"scan: object at offset {entryStart} exceeds operation size limit")
    else if header.baseRel.any fun baseRel => decide (entryStart < baseRel)
    then
      .error (.other s!"scan: OFS_DELTA at offset {entryStart} points before the start of the pack")
    else
      (readPayload decode sha1 exceeded pack entryStart header).mapError .other

/-- The entries from an offset on, and the end of the last one. -/
def readEntries : Nat → Nat → Except EntryRefusal (List EntryRow × Nat)
  | 0, position => .ok ([], position)
  | count + 1, position =>
    match readEntry decode sha1 exceeded pack position with
    | .error refusal => .error refusal
    | .ok (row, next) =>
      match readEntries count next with
      | .error refusal => .error refusal
      | .ok (rows, last) => .ok (row :: rows, last)

end Meaning

end Indexer

/-! ## The window -/

/-- The window still has the first bytes of the pack, or it has moved on
because it was too short. -/
def BufferedPackReader.Opened (first : Nat) (pack : Bytes)
    (reader : BufferedPackReader) : Prop :=
  (reader.bufAbsStart = 0 ∧ reader.buf.length = first) ∨
    (0 < reader.bufAbsStart ∧ first < pack.length ∧
      first < reader.absPos + 64)

namespace BufferedPackReader

variable {pack : Bytes} {reader : BufferedPackReader}
  {position chunkSize first : Nat}

theorem Opened.advance (opened : reader.Opened first pack) (count : Nat) :
    ({ reader with pos := reader.pos + count } : BufferedPackReader).Opened
      first pack := by
  rcases opened with still | ⟨moved, short, near⟩
  · exact .inl still
  · refine .inr ⟨moved, short, ?_⟩
    change first < reader.bufAbsStart + (reader.pos + count) + 64
    change first < reader.bufAbsStart + reader.pos + 64 at near
    omega

theorem bufAbsStart_refill (chunk : Bytes)
    (inside : reader.pos ≤ reader.buf.length) :
    (reader.refill chunk).bufAbsStart = reader.absPos := by
  unfold refill absPos
  dsimp only
  split
  next none_ =>
    have consumed := List.drop_eq_nil_iff.mp none_
    change reader.bufAbsStart + reader.buf.length = _
    omega
  next => rfl

theorem Opened.ensureLoop (opened : reader.Opened first pack)
    (reads : reader.Reads pack position) {minBytes : Nat}
    (few : minBytes ≤ 64) (behind : 0 < position) (rounds : Nat) :
    (Pack.ensureLoop pack chunkSize minBytes rounds reader).Opened first
      pack := by
  induction rounds generalizing reader with
  | zero => exact opened
  | succ rounds ih =>
    unfold Pack.ensureLoop
    split
    next filled => exact opened
    next short =>
      dsimp only
      split
      next exhausted => exact opened
      next left =>
        have later := reads.refill (Nat.min_le_right chunkSize
          (pack.length - (reader.bufAbsStart + reader.buf.length)))
        apply ih _ later
        have at_ := reads.absPos_eq
        have starts := @bufAbsStart_refill reader
          (slice pack (reader.bufAbsStart + reader.buf.length)
            (min chunkSize
              (pack.length - (reader.bufAbsStart + reader.buf.length))))
          reads.inside
        refine .inr ⟨by omega, ?_⟩
        rw [later.absPos_eq, ← at_]
        rcases opened with ⟨zero, length⟩ | ⟨_, less, near⟩
        · unfold remaining at short
          unfold absPos
          omega
        · exact ⟨less, near⟩

theorem Opened.ensure (opened : reader.Opened first pack)
    (reads : reader.Reads pack position) {minBytes : Nat}
    (few : minBytes ≤ 64) (behind : 0 < position) :
    (reader.ensure pack chunkSize minBytes).Opened first pack :=
  opened.ensureLoop reads few behind _

end BufferedPackReader

namespace Indexer

/-! ## One payload -/

section Payload

variable {inflate : RawInflate} {decode : Bytes → Decoded UInt8 String}
  {fed : inflate.State → Bytes → Prop} {pack : Bytes}
  {limit first chunkSize entryStart payloadStart : Nat}

/-- The loop over the pushes when the whole payload is read. -/
structure Inflated (pack : Bytes) (first limit payloadStart : Nat)
    (sofar rest : Bytes) (run : InflateRun inflate) (payload : Bytes)
    (used : Nat) (last : InflateRun inflate) : Prop where
  after : sofar.length ≤ used
  holds : Holds limit payload last.cursor
  reads : last.reader.Reads pack (payloadStart + used)
  opened : last.reader.Opened first pack
  crc : last.crc = crc32Update run.crc (rest.take (used - sofar.length))
  digested : last.digested = run.digested ++ rest.take (used - sofar.length)

/-- How the loop ends, by what the decoder makes of all that follows. -/
def LoopEnds (pack : Bytes) (first limit entryStart payloadStart : Nat)
    (sofar rest : Bytes) (run : InflateRun inflate)
    (result : Except String (InflateRun inflate)) :
    Decoded UInt8 String → Prop
  | .failed failure => result = .error failure
  | .more _ =>
    result =
      .error s!"scan: unexpected EOF while inflating entry at offset {entryStart}"
  | .done payload used =>
    ∃ last, result = .ok last ∧
      Inflated pack first limit payloadStart sofar rest run payload used last

/-- The end of a loop that has gone one push further. -/
theorem LoopEnds.further {sofar window tail : Bytes} {run : InflateRun inflate}
    {result : Except String (InflateRun inflate)} {cursor : InflateCursor inflate}
    {reader : BufferedPackReader} {verdict : Decoded UInt8 String}
    (ends : LoopEnds pack first limit entryStart payloadStart (sofar ++ window)
      tail
      { reader := reader
        cursor := cursor
        crc := crc32Update run.crc window
        digested := run.digested ++ window
        firstInflatePush := false } result verdict) :
    LoopEnds pack first limit entryStart payloadStart sofar (window ++ tail) run
      result verdict := by
  cases verdict with
  | failed failure => exact ends
  | more output => exact ends
  | done payload used =>
    rcases ends with ⟨last, ran, inflated⟩
    have after := inflated.after
    rw [List.length_append] at after
    have all : window.take (used - sofar.length) = window :=
      List.take_of_length_le (by omega)
    have parts : window ++ tail.take (used - (sofar ++ window).length) =
        (window ++ tail).take (used - sofar.length) := by
      rw [List.length_append, List.take_append, all, Nat.sub_add_eq]
    refine ⟨last, ran, by omega, inflated.holds, inflated.reads,
      inflated.opened, ?_, ?_⟩
    · rw [inflated.crc, ← crc32Update_append, parts]
    · rw [inflated.digested, List.append_assoc, parts]

end Payload

end Indexer

end GitOnCloudflare.Pack
