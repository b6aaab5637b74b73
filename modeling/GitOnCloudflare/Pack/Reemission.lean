import GitOnCloudflare.Pack.SelectionTable

/-!
# Re-emitting selected entries

Header reads, row copies and table growth in any order, over packs the
scanner accepted.  A row whose varint fits the five bytes it owns is emitted
with the varint and the compressed payload of its source entry; a longer
varint, which the scanner admits, runs into the next row.
-/

namespace GitOnCloudflare.Pack

/-! ## Scanned packs -/

structure ScannedEntry where
  offset : Nat
  header : ScanHeader
  spanEnd : Nat
deriving DecidableEq

/-- The scanner's loop.  `inflated` is the inflater: how many bytes of
compressed payload it consumes. -/
def scanEntries (inflated : Bytes → Option Nat) (buf : Bytes) :
    Nat → Nat → Option (List ScannedEntry × Nat)
  | 0, pos => some ([], pos)
  | count + 1, pos =>
    match parseEntryHeader buf pos with
    | .ok (some header) =>
      if header.baseRel.any fun distance => pos < distance then
        none
      else
        match inflated (buf.drop (pos + header.headerLen)) with
        | none => none
        | some consumed =>
          let spanEnd := pos + header.headerLen + consumed
          (scanEntries inflated buf count spanEnd).map fun scanned =>
            (⟨pos, header, spanEnd⟩ :: scanned.1, scanned.2)
    | _ => none

/-- A big-endian number of four bytes. -/
def readUint32 (bytes : Bytes) : Nat :=
  (bytes.take 4).foldl (fun value byte => value * 256 + byte.toNat) 0

def packMagicVersion : Bytes := [0x50, 0x41, 0x43, 0x4b, 0, 0, 0, 2]

/-- The entries of a pack the scanner accepts, up to its checksum. -/
def scanPack (inflated : Bytes → Option Nat) (buf : Bytes) :
    Option (List ScannedEntry) :=
  if buf.length < 32 ∨ buf.take 8 ≠ packMagicVersion then
    none
  else
    match scanEntries inflated buf (readUint32 (buf.drop 8)) 12 with
    | some (entries, last) =>
      if last = buf.length - 20 then some entries else none
    | none => none

/-- A pack of the snapshot with the entries the scanner found in it. -/
structure SourcePack (inflated : Bytes → Option Nat) where
  state : SelectionTable.PackReadState
  entries : List ScannedEntry
  scanned : scanPack inflated state.bytes = some entries

/-- Read the header of a selected row; a reader's window has 128 bytes. -/
def readSelectedHeader (state : SelectionTable.PackReadState) (offset : Nat) :
    Option PackHeaderEx :=
  match state with
  | .wholePack bytes => readPackHeaderExFromBuf bytes offset
  | .windows bytes =>
    readPackHeaderExFromBuf ((bytes.drop offset).take 128) 0

variable {state : SelectionTable.PackReadState} {header : PackHeaderEx}

theorem readSelectedHeader_eq {offset : Nat}
    (read : readSelectedHeader state offset = some header) :
    readPackHeaderExFromBuf state.bytes offset = some header := by
  cases state with
  | wholePack bytes => exact read
  | windows bytes =>
    have whole :=
      readPackHeader_append read ((bytes.drop offset).drop 128)
    rw [List.take_append_drop] at whole
    unfold readPackHeaderExFromBuf at whole ⊢
    rwa [List.drop_zero] at whole

/-! ## Runs of the planner on its rows -/

section Runs

variable {inflated : Bytes → Option Nat}

/-- The packs a rewrite selects from, in snapshot order. -/
abbrev Snapshot (inflated : Bytes → Option Nat) :=
  Nat → Option (SourcePack inflated)

/-- The fields of a table that decide what its rows emit as a copy. -/
structure SameRows (before after : SelectionTable) : Prop where
  count : after.count = before.count
  capacity : after.capacity = before.capacity
  packSlots : after.packSlots = before.packSlots
  offsets : after.offsets = before.offsets
  nextOffsets : after.nextOffsets = before.nextOffsets
  typeCodes : after.typeCodes = before.typeCodes
  headerLens : after.headerLens = before.headerLens
  payloadLens : after.payloadLens = before.payloadLens
  sizeVarBuf : after.sizeVarBuf = before.sizeVarBuf
  sizeVarLens : after.sizeVarLens = before.sizeVarLens
  syntheticPayloads : after.syntheticPayloads = before.syntheticPayloads

/-- One write of the planner: a new row, a header read, a row copy, growth or
a change beside the rows.  The index is the row that is written.  Left out are
the copy that `claimCanonicalOwner` swaps into a row, the full object that
`materializeSelectionAsFullObject` writes and the count behind
`compactDeadSlots`. -/
inductive RowStep
    (allowed : SourcePack inflated → ScannedEntry → Prop)
    (snapshot : Snapshot inflated) :
    SelectionTable → Option Nat → SelectionTable → Prop where
  | add
      (table : SelectionTable)
      (packSlot entryIndex : Nat)
      (pack : SourcePack inflated)
      (entry : ScannedEntry)
      (oid : RawOid)
      (found : snapshot packSlot = some pack)
      (member : entry ∈ pack.entries)
      (permitted : allowed pack entry) :
      RowStep allowed snapshot table (some table.count)
        (table.addRow
          ⟨packSlot, entryIndex, entry.offset, entry.spanEnd, oid⟩)
  | read
      (table next : SelectionTable)
      (sel : Nat)
      (pack : SourcePack inflated)
      (header : PackHeaderEx)
      (row : sel < table.count)
      (found : snapshot (table.packSlots sel) = some pack)
      (header_eq :
        readSelectedHeader pack.state (table.offsets sel) = some header)
      (stored :
        table.storeSelectionHeader sel (table.offsets sel)
          (table.nextOffsets sel) header = .ok (true, next)) :
      RowStep allowed snapshot table (some sel) next
  | copy
      (table next : SelectionTable)
      (targetSel sourceSel : Nat)
      (preserve : Bool)
      (target : targetSel < table.count)
      (source : sourceSel < table.count)
      (copied :
        table.copySelectionRow targetSel sourceSel preserve = .ok next) :
      RowStep allowed snapshot table (some targetSel) next
  | grow
      (table : SelectionTable) :
      RowStep allowed snapshot table none table.grow
  | wire
      (table next : SelectionTable)
      (same : SameRows table next) :
      RowStep allowed snapshot table none next

/-- Tables the planner reaches from an empty one. -/
inductive Planned
    (allowed : SourcePack inflated → ScannedEntry → Prop)
    (snapshot : Snapshot inflated) : SelectionTable → Prop where
  | start (capacity : Nat) :
      Planned allowed snapshot (allocateSelectionTable capacity)
  | step
      {table next : SelectionTable}
      {written : Option Nat}
      (planned : Planned allowed snapshot table)
      (stepped : RowStep allowed snapshot table written next) :
      Planned allowed snapshot next

/-- An emitted row is its source entry again: the varint of its type and size
first, and its compressed payload. -/
def ReEmits (snapshot : Snapshot inflated) (table : SelectionTable) : Prop :=
  ∀ sel < table.count, table.typeCodes sel ≠ 0 →
    table.syntheticPayloads sel = none →
      ∀ header payload,
        table.emitEntry (fun slot => (snapshot slot).map SourcePack.state)
            sel = .ok (header, payload) →
          ∃ pack entry source,
            snapshot (table.packSlots sel) = some pack ∧
              entry ∈ pack.entries ∧
              entry.offset = table.offsets sel ∧
              readPackHeaderExFromBuf pack.state.bytes entry.offset =
                some source ∧
              source.sizeVarBytes <+: header ∧
              payload =
                subarray pack.state.bytes
                  (entry.offset + source.headerLen)
                  (entry.spanEnd - (entry.offset + source.headerLen))

/-- A write of one row leaves the header bytes of every other row alone. -/
def Isolated (table : SelectionTable) (written : Option Nat)
    (next : SelectionTable) : Prop :=
  ∀ row < table.count, written ≠ some row →
    next.rowVarint row = table.rowVarint row

/-- Every planned table emits its rows again, and no write touches another
row. -/
def RowsKept (allowed : SourcePack inflated → ScannedEntry → Prop)
    (snapshot : Snapshot inflated) : Prop :=
  ∀ table, Planned allowed snapshot table →
    ReEmits snapshot table ∧
      ∀ written next, RowStep allowed snapshot table written next →
        Isolated table written next

/-! ## Rows that own their varint -/

/-- The varint of an entry fits the bytes a row owns. -/
def ShortVarint (pack : SourcePack inflated) (entry : ScannedEntry) : Prop :=
  ∀ source,
    readPackHeaderExFromBuf pack.state.bytes entry.offset = some source →
      source.sizeVarBytes.length ≤ sizeVarStride

/-- A row that selects an entry, with the entry's header once it is read. -/
structure RowFrom
    (snapshot : Snapshot inflated)
    (table : SelectionTable)
    (sel : Nat)
    (pack : SourcePack inflated)
    (entry : ScannedEntry) : Prop where
  found : snapshot (table.packSlots sel) = some pack
  member : entry ∈ pack.entries
  short : ShortVarint pack entry
  offset : table.offsets sel = entry.offset
  nextOffset : table.nextOffsets sel = entry.spanEnd
  stored :
    table.typeCodes sel ≠ 0 →
      ∃ source,
        readPackHeaderExFromBuf pack.state.bytes entry.offset = some source ∧
          table.rowVarint sel = source.sizeVarBytes ∧
          table.typeCodes sel = UInt8.ofNat source.type ∧
          (table.headerLens sel).toNat = source.headerLen ∧
          table.payloadLens sel =
            entry.spanEnd - entry.offset - source.headerLen

/-- What every planned table satisfies when all varints are short. -/
structure RowsSound
    (snapshot : Snapshot inflated)
    (table : SelectionTable) : Prop where
  buffer : table.sizeVarBuf.length = table.capacity * sizeVarStride
  count_le : table.count ≤ table.capacity
  fresh : ∀ row, table.count ≤ row → table.typeCodes row = 0
  short : ∀ row, (table.sizeVarLens row).toNat ≤ sizeVarStride
  rows : ∀ sel < table.count, ∃ pack entry,
    RowFrom snapshot table sel pack entry

theorem rowsSound_allocate (snapshot : Snapshot inflated) (capacity : Nat) :
    RowsSound snapshot (allocateSelectionTable capacity) where
  buffer := List.length_replicate
  count_le := Nat.zero_le _
  fresh := fun _ _ => rfl
  short := fun _ => Nat.zero_le _
  rows := fun _ row => absurd row (Nat.not_lt_zero _)

variable {table next : SelectionTable} {snapshot : Snapshot inflated}
  {sel : Nat}
  {row : Nat} {pack : SourcePack inflated}

/-- Growth keeps the varint of every row inside the old buffer. -/
theorem rowVarint_grow (sound : RowsSound snapshot table)
    (inside : row < table.capacity) :
    table.grow.rowVarint row = table.rowVarint row := by
  refine subarray_append ?_ _
  have short := sound.short row
  rw [sound.buffer]
  show row * sizeVarStride + (table.sizeVarLens row).toNat ≤ _
  unfold sizeVarStride at short ⊢
  omega

theorem rowsSound_grow (sound : RowsSound snapshot table) :
    RowsSound snapshot table.grow ∧ table.count < table.grow.capacity := by
  have larger : table.count < table.grow.capacity := by
    have bounded := sound.count_le
    show table.count < max (table.capacity * 2) 64
    omega
  refine ⟨⟨?_, larger.le, sound.fresh, sound.short, ?_⟩, larger⟩
  · have buffer := sound.buffer
    show (table.sizeVarBuf ++ List.replicate _ 0).length = _
    rw [List.length_append, List.length_replicate, buffer]
    show _ = max (table.capacity * 2) 64 * sizeVarStride
    unfold sizeVarStride
    omega
  · intro sel row
    obtain ⟨pack, entry, selected⟩ := sound.rows sel row
    refine ⟨pack, entry, { selected with stored := ?_ }⟩
    intro typed
    obtain ⟨source, read, varint, lengths⟩ := selected.stored typed
    refine ⟨source, read, ?_, lengths⟩
    rw [← varint]
    exact rowVarint_grow sound (lt_of_lt_of_le row sound.count_le)

/-- A new row selects its entry and has no header yet. -/
theorem rowsSound_add {packSlot : Nat} {entry : ScannedEntry}
    (sound : RowsSound snapshot table) (room : table.count < table.capacity)
    (found : snapshot packSlot = some pack) (member : entry ∈ pack.entries)
    (short : ShortVarint pack entry) (entryIndex : Nat) (oid : RawOid) :
    RowsSound snapshot
      (table.addRow
        ⟨packSlot, entryIndex, entry.offset, entry.spanEnd, oid⟩) := by
  have enough : ¬table.capacity ≤ table.count := by omega
  unfold SelectionTable.addRow
  dsimp only
  rw [if_neg enough]
  refine ⟨sound.buffer, room, ?_, sound.short, ?_⟩
  · intro row above
    exact sound.fresh row (Nat.le_of_succ_le above)
  · intro sel row
    by_cases new : sel = table.count
    · subst new
      refine ⟨pack, entry, ⟨?_, member, short, ?_, ?_, ?_⟩⟩
      · simpa [SelectionTable.setSelectionEntryIdentity] using found
      · simp [SelectionTable.setSelectionEntryIdentity]
      · simp [SelectionTable.setSelectionEntryIdentity]
      · intro typed
        exact absurd (sound.fresh table.count (le_refl _)) typed
    · have old : sel < table.count :=
        lt_of_le_of_ne (Nat.le_of_lt_succ row) new
      obtain ⟨other, source, selected⟩ := sound.rows sel old
      refine ⟨other, source, ⟨?_, selected.member, selected.short, ?_, ?_,
        selected.stored⟩⟩
      · simpa [SelectionTable.setSelectionEntryIdentity, new]
          using selected.found
      · simpa [SelectionTable.setSelectionEntryIdentity, new]
          using selected.offset
      · simpa [SelectionTable.setSelectionEntryIdentity, new]
          using selected.nextOffset

/-- Writing at most five bytes at a row leaves every other row alone. -/
theorem rowVarint_setBytes {buffer source result : Bytes} {length : Nat}
    (written : setBytes buffer source (sel * sizeVarStride) = .ok result)
    (fits : source.length ≤ sizeVarStride) (short : length ≤ sizeVarStride)
    (other : row ≠ sel) :
    subarray result (row * sizeVarStride) length =
      subarray buffer (row * sizeVarStride) length := by
  refine subarray_setBytes_other written ?_
  unfold sizeVarStride at *
  omega

/-- What storing a header that fits leaves behind. -/
theorem storeSelectionHeader_spec (sound : RowsSound snapshot table)
    (row : sel < table.count)
    (found : snapshot (table.packSlots sel) = some pack)
    (read : readSelectedHeader pack.state (table.offsets sel) = some header)
    (stored :
      table.storeSelectionHeader sel (table.offsets sel)
        (table.nextOffsets sel) header = .ok (true, next)) :
    RowsSound snapshot next ∧ Isolated table (some sel) next := by
  obtain ⟨owner, entry, selected⟩ := sound.rows sel row
  cases found.symm.trans selected.found
  have whole := readSelectedHeader_eq read
  rw [selected.offset] at whole
  have fits := selected.short header whole
  have lengths := readPackHeader_headerLen whole
  unfold SelectionTable.storeSelectionHeader at stored
  dsimp only at stored
  split at stored
  · cases stored
  · split at stored
    · cases stored
    · next result written =>
      have same := (Prod.mk.inj (Except.ok.inj stored)).2
      have shortLength :
          (UInt8.ofNat header.sizeVarBytes.length).toNat =
            header.sizeVarBytes.length := by
        rw [UInt8.toNat_ofNat']
        unfold sizeVarStride at fits
        omega
      have others :
          ∀ other, other ≠ sel →
            next.rowVarint other = table.rowVarint other := by
        intro other different
        rw [← same]
        unfold SelectionTable.rowVarint
        dsimp only
        rw [Function.update_of_ne different]
        exact rowVarint_setBytes written fits (sound.short other) different
      have own : next.rowVarint sel = header.sizeVarBytes := by
        rw [← same]
        unfold SelectionTable.rowVarint
        dsimp only
        rw [Function.update_self, shortLength]
        exact subarray_setBytes_same written
      refine ⟨?_, ?_⟩
      · subst same
        refine ⟨?_, sound.count_le, ?_, ?_, ?_⟩
        · dsimp only
          rw [length_setBytes written]
          exact sound.buffer
        · intro other above
          dsimp only at above ⊢
          rw [Function.update_of_ne (by omega)]
          exact sound.fresh other above
        · intro other
          dsimp only
          by_cases here : other = sel
          · subst here
            rw [Function.update_self, shortLength]
            exact fits
          · rw [Function.update_of_ne here]
            exact sound.short other
        · intro other inside
          by_cases here : other = sel
          · subst here
            refine ⟨pack, entry, { selected with stored := fun _ => ?_ }⟩
            refine ⟨header, whole, own, ?_, ?_, ?_⟩
            · dsimp only
              rw [Function.update_self]
            · dsimp only
              rw [Function.update_self, UInt16.toNat_ofNat']
              unfold sizeVarStride at fits
              omega
            · dsimp only
              rw [Function.update_self, selected.offset,
                selected.nextOffset]
          · obtain ⟨otherPack, otherEntry, kept⟩ := sound.rows other inside
            refine ⟨otherPack, otherEntry, { kept with stored := ?_ }⟩
            intro typed
            dsimp only at typed ⊢
            rw [Function.update_of_ne here] at typed
            obtain ⟨source, sourceRead, varint, type, headerLen,
              payloadLen⟩ := kept.stored typed
            refine ⟨source, sourceRead, (others other here).trans varint, ?_,
              ?_, ?_⟩
            · rw [Function.update_of_ne here]
              exact type
            · rw [Function.update_of_ne here]
              exact headerLen
            · rw [Function.update_of_ne here]
              exact payloadLen
      · intro other _ different
        exact others other fun same => different (congrArg some same.symm)

/-- What copying a row leaves behind. -/
theorem copySelectionRow_spec {targetSel sourceSel : Nat} {preserve : Bool}
    (sound : RowsSound snapshot table) (target : targetSel < table.count)
    (source : sourceSel < table.count)
    (copied : table.copySelectionRow targetSel sourceSel preserve = .ok next) :
    RowsSound snapshot next ∧ Isolated table (some targetSel) next := by
  unfold SelectionTable.copySelectionRow at copied
  split at copied
  · cases copied
  · next result written =>
    have same := Except.ok.inj copied
    have copiedLength :
        (subarray table.sizeVarBuf (sourceSel * sizeVarStride)
          sizeVarStride).length = sizeVarStride := by
      have buffer := sound.buffer
      have bounded := sound.count_le
      unfold subarray
      rw [List.length_take, List.length_drop, buffer]
      unfold sizeVarStride
      omega
    have others :
        ∀ other, other ≠ targetSel →
          next.rowVarint other = table.rowVarint other := by
      intro other different
      rw [← same]
      unfold SelectionTable.rowVarint
      dsimp only
      rw [Function.update_of_ne different]
      exact rowVarint_setBytes written copiedLength.le (sound.short other)
        different
    have own : next.rowVarint targetSel = table.rowVarint sourceSel := by
      have block := subarray_setBytes_same written
      rw [copiedLength] at block
      have cut :
          ∀ (buffer : Bytes) (start : Nat),
            (subarray buffer start sizeVarStride).take
                (table.sizeVarLens sourceSel).toNat =
              subarray buffer start (table.sizeVarLens sourceSel).toNat := by
        intro buffer start
        unfold subarray
        rw [List.take_take, Nat.min_eq_left (sound.short sourceSel)]
      rw [← same]
      unfold SelectionTable.rowVarint
      dsimp only
      rw [Function.update_self, ← cut, block, cut]
    refine ⟨?_, ?_⟩
    · subst same
      refine ⟨?_, sound.count_le, ?_, ?_, ?_⟩
      · dsimp only
        rw [length_setBytes written]
        exact sound.buffer
      · intro other above
        dsimp only at above ⊢
        rw [Function.update_of_ne (by omega)]
        exact sound.fresh other above
      · intro other
        dsimp only
        by_cases here : other = targetSel
        · subst here
          rw [Function.update_self]
          exact sound.short sourceSel
        · rw [Function.update_of_ne here]
          exact sound.short other
      · intro other inside
        by_cases here : other = targetSel
        · subst here
          obtain ⟨pack, entry, kept⟩ := sound.rows sourceSel source
          refine ⟨pack, entry, ⟨?_, kept.member, kept.short, ?_, ?_, ?_⟩⟩
          · simpa using kept.found
          · simpa using kept.offset
          · simpa using kept.nextOffset
          · intro typed
            dsimp only at typed ⊢
            rw [Function.update_self] at typed
            obtain ⟨header, read, varint, type, headerLen, payloadLen⟩ :=
              kept.stored typed
            refine ⟨header, read, own.trans varint, ?_, ?_, ?_⟩
            · rw [Function.update_self]
              exact type
            · rw [Function.update_self]
              exact headerLen
            · rw [Function.update_self]
              exact payloadLen
        · obtain ⟨pack, entry, kept⟩ := sound.rows other inside
          refine ⟨pack, entry, ⟨?_, kept.member, kept.short, ?_, ?_, ?_⟩⟩
          · simpa [here] using kept.found
          · simpa [here] using kept.offset
          · simpa [here] using kept.nextOffset
          · intro typed
            dsimp only at typed ⊢
            rw [Function.update_of_ne here] at typed
            obtain ⟨header, read, varint, type, headerLen, payloadLen⟩ :=
              kept.stored typed
            refine ⟨header, read, (others other here).trans varint, ?_, ?_,
              ?_⟩
            · rw [Function.update_of_ne here]
              exact type
            · rw [Function.update_of_ne here]
              exact headerLen
            · rw [Function.update_of_ne here]
              exact payloadLen
    · intro other _ different
      exact others other fun same => different (congrArg some same.symm)

/-- A change beside the rows keeps them. -/
theorem SameRows.sound (same : SameRows table next)
    (sound : RowsSound snapshot table) :
    RowsSound snapshot next ∧ Isolated table none next := by
  have varints : ∀ row, next.rowVarint row = table.rowVarint row := by
    intro row
    unfold SelectionTable.rowVarint
    rw [same.sizeVarBuf, same.sizeVarLens]
  refine ⟨⟨?_, ?_, ?_, ?_, ?_⟩, fun row _ _ => varints row⟩
  · rw [same.sizeVarBuf, same.capacity]
    exact sound.buffer
  · rw [same.count, same.capacity]
    exact sound.count_le
  · rw [same.count, same.typeCodes]
    exact sound.fresh
  · rw [same.sizeVarLens]
    exact sound.short
  · rw [same.count]
    intro sel row
    obtain ⟨pack, entry, kept⟩ := sound.rows sel row
    refine ⟨pack, entry, ⟨?_, kept.member, kept.short, ?_, ?_, ?_⟩⟩
    · rw [same.packSlots]
      exact kept.found
    · rw [same.offsets]
      exact kept.offset
    · rw [same.nextOffsets]
      exact kept.nextOffset
    · rw [same.typeCodes, varints, same.headerLens, same.payloadLens]
      exact kept.stored

/-- One write of the planner. -/
theorem RowStep.sound {written : Option Nat}
    (stepped : RowStep ShortVarint snapshot table written next)
    (sound : RowsSound snapshot table) :
    RowsSound snapshot next ∧ Isolated table written next := by
  cases stepped with
  | add packSlot entryIndex pack entry oid found member short =>
    by_cases full : table.capacity ≤ table.count
    · obtain ⟨grown, room⟩ := rowsSound_grow sound
      have added :=
        rowsSound_add grown room found member short entryIndex oid
      have unfolded :
          table.addRow
              ⟨packSlot, entryIndex, entry.offset, entry.spanEnd, oid⟩ =
            table.grow.addRow
              ⟨packSlot, entryIndex, entry.offset, entry.spanEnd, oid⟩ := by
        have enough : ¬table.grow.capacity ≤ table.grow.count :=
          Nat.not_le.mpr room
        unfold SelectionTable.addRow
        dsimp only
        rw [if_pos full, if_neg enough]
      rw [unfolded]
      refine ⟨added, ?_⟩
      intro row inside _
      have enough : ¬table.grow.capacity ≤ table.grow.count :=
        Nat.not_le.mpr room
      unfold SelectionTable.addRow
      dsimp only
      rw [if_neg enough]
      exact rowVarint_grow sound (lt_of_lt_of_le inside sound.count_le)
    · refine ⟨rowsSound_add sound (by omega) found member short entryIndex
        oid, ?_⟩
      intro row _ _
      unfold SelectionTable.addRow
      dsimp only
      rw [if_neg full]
      rfl
  | read _ sel pack header row found read stored =>
    exact storeSelectionHeader_spec sound row found read stored
  | copy _ targetSel sourceSel preserve target source copied =>
    exact copySelectionRow_spec sound target source copied
  | grow =>
    refine ⟨(rowsSound_grow sound).1, ?_⟩
    intro row inside _
    exact rowVarint_grow sound (lt_of_lt_of_le inside sound.count_le)
  | wire _ same => exact same.sound sound

theorem Planned.sound (planned : Planned ShortVarint snapshot table) :
    RowsSound snapshot table := by
  induction planned with
  | start capacity => exact rowsSound_allocate snapshot capacity
  | step _ stepped ih => exact (stepped.sound ih).1

/-- The header of an emitted row starts with its varint. -/
theorem rowVarint_prefix {header : Bytes}
    (built : table.buildEntryHeaderBytes sel = some header) :
    table.rowVarint sel <+: header := by
  unfold SelectionTable.buildEntryHeaderBytes at built
  split at built
  · cases built
  · split at built
    · obtain ⟨base, _, rfl⟩ := Option.map_eq_some_iff.mp built
      exact (List.prefix_append _ _).trans (List.prefix_append _ _)
    · split at built
      · obtain ⟨bases, _, rfl⟩ := Option.map_eq_some_iff.mp built
        exact (List.prefix_append _ _).trans (List.prefix_append _ _)
      · cases built
        exact List.prefix_rfl

/-- A copied payload is a slice of the row's pack. -/
theorem emitPackPayload_copy {payload : Bytes}
    (copied : table.syntheticPayloads sel = none)
    (emitted : table.emitPackPayload sel (some state) = .ok payload) :
    payload =
      subarray state.bytes
        (table.offsets sel + (table.headerLens sel).toNat)
        (table.payloadLens sel) := by
  unfold SelectionTable.emitPackPayload at emitted
  rw [copied] at emitted
  dsimp only at emitted
  split at emitted
  · cases emitted
  · next bytes same =>
    cases same
    exact (Except.ok.inj emitted).symm
  · next bytes same =>
    cases same
    split at emitted
    · exact (Except.ok.inj emitted).symm
    · cases emitted

theorem RowsSound.reEmits (sound : RowsSound snapshot table) :
    ReEmits snapshot table := by
  intro sel row typed copied header payload emitted
  obtain ⟨pack, entry, selected⟩ := sound.rows sel row
  obtain ⟨source, read, varint, _, headerLen, payloadLen⟩ :=
    selected.stored typed
  unfold SelectionTable.emitEntry at emitted
  dsimp only at emitted
  rw [selected.found, Option.map_some] at emitted
  split at emitted
  · cases emitted
  · split at emitted
    · cases emitted
    · next built headerBuilt =>
      split at emitted
      · cases emitted
      · next slice payloadEmitted =>
        cases emitted
        refine ⟨pack, entry, source, selected.found, selected.member,
          selected.offset.symm, read, ?_, ?_⟩
        · rw [← varint]
          exact rowVarint_prefix headerBuilt
        · rw [emitPackPayload_copy copied payloadEmitted, selected.offset,
            headerLen, payloadLen, Nat.sub_sub]

/-- With varints of at most five bytes every selected entry is emitted again
as it was, whatever the order of reads and copies. -/
theorem entry_reemission (snapshot : Snapshot inflated) :
    RowsKept ShortVarint snapshot := by
  intro table planned
  refine ⟨planned.sound.reEmits, ?_⟩
  intro written next stepped
  exact (stepped.sound planned.sound).2

end Runs

/-! ## A zero-padded size -/

/-- The empty blob, the blob `a` with its size padded to six bytes, and the
blob `b`. -/
def paddedPackBytes : Bytes :=
  [80, 65, 67, 75, 0, 0, 0, 2, 0, 0, 0, 3,
    48, 120, 156, 3, 0, 0, 0, 0, 1,
    177, 128, 128, 128, 128, 0, 120, 156, 75, 4, 0, 0, 98, 0, 98,
    49, 120, 156, 75, 2, 0, 0, 99, 0, 99,
    110, 50, 247, 194, 192, 105, 66, 250, 245, 93, 101, 52, 181, 168, 118,
    178, 185, 127, 174, 151]

/-- How much the inflater consumes of the payloads of this pack. -/
def paddedPackInflated (payload : Bytes) : Option Nat :=
  if payload.take 3 = [120, 156, 3] then some 8 else some 9

def paddedPack : SourcePack paddedPackInflated where
  state := .wholePack paddedPackBytes
  entries :=
    [⟨12, ⟨3, 0, 1, none, none⟩, 21⟩, ⟨21, ⟨3, 1, 6, none, none⟩, 36⟩,
      ⟨36, ⟨3, 1, 1, none, none⟩, 46⟩]
  scanned := by decide +kernel

def paddedSnapshot : Snapshot paddedPackInflated :=
  fun slot => if slot = 0 then some paddedPack else none

def zeroOid : RawOid := ⟨List.replicate 20 0, List.length_replicate⟩

/-- The rows of the padded blob and, after it, of the empty blob. -/
def paddedRows : SelectionTable :=
  ((allocateSelectionTable 16).addRow ⟨0, 1, 21, 36, zeroOid⟩).addRow
    ⟨0, 0, 12, 21, zeroOid⟩

/-- The table a header store leaves. -/
def stored (result : Except TableFailure (Bool × SelectionTable)) :
    SelectionTable :=
  match result with
  | .ok (_, table) => table
  | .error _ => allocateSelectionTable 0

/-- Reading the empty blob first, as its offset is lower. -/
def paddedRowsRead : SelectionTable :=
  stored
    (paddedRows.storeSelectionHeader 1 12 21 ⟨3, [48], 1, none, none⟩)

/-- The padded size of one row overwrites the header of the next. -/
theorem entry_reemission_not_padded :
    ¬∀ (inflated : Bytes → Option Nat) (snapshot : Snapshot inflated),
      RowsKept (fun _ _ => True) snapshot := by
  intro kept
  let padded : PackHeaderEx := ⟨3, [177, 128, 128, 128, 128, 0], 6, none, none⟩
  let final : SelectionTable :=
    stored (paddedRowsRead.storeSelectionHeader 0 21 36 padded)
  have planned :
      Planned (fun _ _ => True) paddedSnapshot paddedRowsRead := by
    refine .step (.step (.step (.start 16)
      (.add _ 0 1 paddedPack ⟨21, ⟨3, 1, 6, none, none⟩, 36⟩ zeroOid rfl
        (by decide +kernel) trivial))
      (.add _ 0 0 paddedPack ⟨12, ⟨3, 0, 1, none, none⟩, 21⟩ zeroOid rfl
        (by decide +kernel) trivial))
      (.read _ paddedRowsRead 1 paddedPack ⟨3, [48], 1, none, none⟩
        (by decide +kernel) rfl (by decide +kernel) rfl)
  have last :
      RowStep (fun _ _ => True) paddedSnapshot paddedRowsRead (some 0)
        final :=
    .read _ final 0 paddedPack padded (by decide +kernel) rfl
      (by decide +kernel) rfl
  have isolated := (kept _ paddedSnapshot paddedRowsRead planned).2 _ _ last
  have same : final.rowVarint 1 = paddedRowsRead.rowVarint 1 :=
    isolated 1 (by decide +kernel) (by decide)
  revert same
  decide +kernel

end GitOnCloudflare.Pack
