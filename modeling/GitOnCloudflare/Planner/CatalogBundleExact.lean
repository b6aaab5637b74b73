import GitOnCloudflare.Planner.CatalogBundle
import Mathlib.Algebra.Order.BigOperators.Group.List
import Mathlib.Algebra.Order.Ring.Nat
import Mathlib.Data.List.Perm.Basic

/-!
# Catalog metadata bundles are canonical

What is encoded is read back in the order of any catalog of the same packs, and
bytes that are read are those that encoding gives, but for byte order marks in
front of pack keys.
-/

namespace GitOnCloudflare.Planner.CatalogBundle

open Foundations.ByteTable
open Foundations.StringBytes

variable {bytes : List UInt8} {offset : Nat} {entry : BundleEntry}
  {entries : List BundleEntry}

/-! ## Pack sizes -/

variable {written : List UInt8} {catalog : List CatalogRow}
  {value : Int} {order : List BundleEntry}

theorem writeUint64_eq_ok :
    writeUint64 value = .ok written ↔
      (0 ≤ value ∧ value ≤ maxSafeInteger) ∧
        bigEndian 4 (value.toNat / 2 ^ 32) ++
          bigEndian 4 (value.toNat % 2 ^ 32) = written := by
  unfold writeUint64
  by_cases unsafe_ : value < 0 ∨ maxSafeInteger < value
  · rw [if_pos unsafe_]
    constructor
    · exact nofun
    · rintro ⟨⟨positive, small⟩, _⟩
      omega
  · rw [if_neg unsafe_]
    constructor
    · intro same
      exact ⟨by omega, Except.ok.inj same⟩
    · rintro ⟨_, rfl⟩
      rfl

/-- A size that is read is written as it stands. -/
theorem writeUint64_readUint64 (inside : offset + 8 ≤ bytes.length)
    (read : readUint64 bytes offset = .ok value) :
    writeUint64 value = .ok (slice bytes offset 8) := by
  unfold readUint64 at read
  dsimp only at read
  split at read
  · cases read
  next small =>
    cases read
    have high := numberAt_lt 4 bytes offset
    have low := numberAt_lt 4 bytes (offset + 4)
    have two : (256 : Nat) ^ 4 = 2 ^ 32 := by decide
    rw [two] at high low
    apply writeUint64_eq_ok.mpr
    refine ⟨⟨by omega, by omega⟩, ?_⟩
    have value : ((numberAt 4 bytes offset : Int) * 2 ^ 32 +
        (numberAt 4 bytes (offset + 4) : Int)).toNat =
          numberAt 4 bytes offset * 2 ^ 32 + numberAt 4 bytes (offset + 4) := by
      omega
    have quotient : (numberAt 4 bytes offset * 2 ^ 32 +
        numberAt 4 bytes (offset + 4)) / 2 ^ 32 = numberAt 4 bytes offset := by
      omega
    have remainder : (numberAt 4 bytes offset * 2 ^ 32 +
        numberAt 4 bytes (offset + 4)) % 2 ^ 32 =
          numberAt 4 bytes (offset + 4) := by
      omega
    rw [value, quotient, remainder, bigEndian_numberAt (by omega),
      bigEndian_numberAt (by omega)]
    exact slice_append_slice bytes offset 4 4

/-! ## One entry -/

/-- Lengths and sections of an entry, whatever its key section holds. -/
def rawEntry (key : List UInt8) (packBytes : Nat) (idx refs : List UInt8) :
    List UInt8 :=
  bigEndian 4 key.length ++
    (bigEndian 4 (packBytes / 2 ^ 32) ++ bigEndian 4 (packBytes % 2 ^ 32)) ++
    bigEndian 4 idx.length ++ bigEndian 4 refs.length ++ key ++ idx ++ refs

theorem length_rawEntry (key : List UInt8) (packBytes : Nat)
    (idx refs : List UInt8) :
    (rawEntry key packBytes idx refs).length =
      20 + key.length + idx.length + refs.length := by
  unfold rawEntry
  simp only [List.length_append, length_bigEndian]

/-- Sections that their lengths can tell. -/
structure Sized (key idx refs : List UInt8) : Prop where
  key : key.length < 256 ^ 4
  idx : idx.length < 256 ^ 4
  refs : refs.length < 256 ^ 4

theorem readUint64_rawEntry {before after key idx refs : List UInt8}
    {packBytes : Nat} (placed : before.length = offset)
    (safe : (packBytes : Int) ≤ maxSafeInteger) :
    readUint64 (before ++ rawEntry key packBytes idx refs ++ after)
      (offset + 4) = .ok packBytes := by
  have small : packBytes < 2 ^ 53 := by
    unfold maxSafeInteger at safe
    omega
  have high : numberAt 4 (before ++ rawEntry key packBytes idx refs ++ after)
      (offset + 4) = packBytes / 2 ^ 32 := by
    have shape : before ++ rawEntry key packBytes idx refs ++ after =
        before ++ bigEndian 4 key.length ++ bigEndian 4 (packBytes / 2 ^ 32) ++
          (bigEndian 4 (packBytes % 2 ^ 32) ++ (bigEndian 4 idx.length ++
            (bigEndian 4 refs.length ++ (key ++ (idx ++ (refs ++ after)))))) := by
      simp only [rawEntry, List.append_assoc]
    rw [shape]
    apply numberAt_middle _ _ _ (by omega)
    rw [List.length_append, length_bigEndian, placed]
  have low : numberAt 4 (before ++ rawEntry key packBytes idx refs ++ after)
      (offset + 4 + 4) = packBytes % 2 ^ 32 := by
    have shape : before ++ rawEntry key packBytes idx refs ++ after =
        before ++ bigEndian 4 key.length ++ bigEndian 4 (packBytes / 2 ^ 32) ++
          bigEndian 4 (packBytes % 2 ^ 32) ++ (bigEndian 4 idx.length ++
            (bigEndian 4 refs.length ++ (key ++ (idx ++ (refs ++ after))))) := by
      simp only [rawEntry, List.append_assoc]
    rw [shape]
    apply numberAt_middle _ _ _ (by omega)
    rw [List.length_append, List.length_append, length_bigEndian,
      length_bigEndian, placed]
  unfold readUint64
  rw [high, low]
  have value : ((packBytes / 2 ^ 32 : Nat) : Int) * 2 ^ 32 +
      ((packBytes % 2 ^ 32 : Nat) : Int) = packBytes := by
    omega
  rw [value]
  exact if_neg (not_lt.mpr safe)

/-- An entry is read back from where it stands. -/
theorem readEntry_rawEntry {before after key idx refs : List UInt8}
    {packBytes : Nat} {packKey : String} (placed : before.length = offset)
    (safe : (packBytes : Int) ≤ maxSafeInteger) (sized : Sized key idx refs)
    (decoded : decodeFatal key = some packKey) :
    readEntry (before ++ rawEntry key packBytes idx refs ++ after) offset =
      .ok (⟨packKey, packBytes, idx, refs⟩,
        offset + (rawEntry key packBytes idx refs).length) := by
  have size := @readUint64_rawEntry offset before after key idx refs packBytes
    placed safe
  generalize file_ : before ++ rawEntry key packBytes idx refs ++ after = file
    at size ⊢
  have shape : before ++ (bigEndian 4 key.length ++
      (bigEndian 4 (packBytes / 2 ^ 32) ++ (bigEndian 4 (packBytes % 2 ^ 32) ++
        (bigEndian 4 idx.length ++ (bigEndian 4 refs.length ++
          (key ++ (idx ++ (refs ++ after)))))))) = file := by
    rw [← file_]
    simp only [rawEntry, List.append_assoc]
  have long : file.length =
      offset + 20 + key.length + idx.length + refs.length + after.length := by
    rw [← file_, List.length_append, List.length_append, length_rawEntry, placed]
    omega
  have keyBytes : numberAt 4 file offset = key.length := by
    rw [← shape, ← List.append_assoc]
    exact numberAt_middle before _ placed sized.key
  have idxBytes : numberAt 4 file (offset + 12) = idx.length := by
    rw [← shape]
    iterate 4 rw [← List.append_assoc]
    apply numberAt_middle _ _ _ sized.idx
    simp only [List.length_append, length_bigEndian, placed]
  have refsBytes : numberAt 4 file (offset + 16) = refs.length := by
    rw [← shape]
    iterate 5 rw [← List.append_assoc]
    apply numberAt_middle _ _ _ sized.refs
    simp only [List.length_append, length_bigEndian, placed]
  have keyPart : slice file (offset + 20) key.length = key := by
    rw [← shape]
    iterate 6 rw [← List.append_assoc]
    apply slice_middle _ _ _ _ rfl
    simp only [List.length_append, length_bigEndian, placed]
  have idxPart : slice file (offset + 20 + key.length) idx.length = idx := by
    rw [← shape]
    iterate 7 rw [← List.append_assoc]
    apply slice_middle _ _ _ _ rfl
    simp only [List.length_append, length_bigEndian, placed]
  have refsPart : slice file (offset + 20 + key.length + idx.length)
      refs.length = refs := by
    rw [← shape]
    iterate 8 rw [← List.append_assoc]
    apply slice_middle _ _ _ _ rfl
    simp only [List.length_append, length_bigEndian, placed]
  have head : ¬ file.length < offset + 20 := by omega
  have sections : ¬ file.length <
      offset + 20 + key.length + idx.length + refs.length := by
    omega
  unfold readEntry
  rw [if_neg head, size]
  dsimp only
  rw [keyBytes, idxBytes, refsBytes, if_neg sections, keyPart, decoded,
    idxPart, refsPart, length_rawEntry]
  simp only [Nat.add_assoc]

theorem writeEntry_eq_ok :
    writeEntry entry = .ok written ↔
      (0 ≤ entry.packBytes ∧ entry.packBytes ≤ maxSafeInteger) ∧
        rawEntry (encode entry.packKey) entry.packBytes.toNat entry.idx
          entry.refs = written := by
  unfold writeEntry
  cases size : writeUint64 entry.packBytes with
  | error message =>
    constructor
    · exact nofun
    · rintro ⟨safe, _⟩
      have wrote := writeUint64_eq_ok.mpr ⟨safe, rfl⟩
      cases size.symm.trans wrote
  | ok packBytes =>
    rcases writeUint64_eq_ok.mp size with ⟨safe, rfl⟩
    constructor
    · intro same
      exact ⟨safe, Except.ok.inj same⟩
    · rintro ⟨_, rfl⟩
      rfl

/-- The key section of the entry at a position. -/
def keySection (bytes : List UInt8) (offset : Nat) : List UInt8 :=
  slice bytes (offset + 20) (numberAt 4 bytes offset)

/-- The position behind the entry at a position. -/
def behindEntry (bytes : List UInt8) (offset : Nat) : Nat :=
  offset + 20 + numberAt 4 bytes offset + numberAt 4 bytes (offset + 12) +
    numberAt 4 bytes (offset + 16)

theorem length_slice {position length : Nat}
    (inside : position + length ≤ bytes.length) :
    (slice bytes position length).length = length := by
  unfold slice
  rw [List.length_take, List.length_drop]
  omega

/-- The parts of an entry follow one another. -/
theorem slice_entry (bytes : List UInt8) (offset key idx refs : Nat) :
    slice bytes offset 4 ++ slice bytes (offset + 4) 8 ++
        slice bytes (offset + 12) 4 ++ slice bytes (offset + 16) 4 ++
        slice bytes (offset + 20) key ++ slice bytes (offset + 20 + key) idx ++
        slice bytes (offset + 20 + key + idx) refs =
      slice bytes offset (20 + key + idx + refs) := by
  rw [slice_append_slice bytes offset 4 8, slice_append_slice bytes offset 12 4,
    slice_append_slice bytes offset 16 4, slice_append_slice bytes offset 20 key,
    Nat.add_assoc offset 20 key, slice_append_slice bytes offset (20 + key) idx,
    Nat.add_assoc offset (20 + key) idx,
    slice_append_slice bytes offset (20 + key + idx) refs]

/-- An entry that is read is written as it stands. -/
theorem writeEntry_readEntry {next : Nat}
    (unmarked : ¬ Marked (keySection bytes offset))
    (read : readEntry bytes offset = .ok (entry, next)) :
    next = behindEntry bytes offset ∧ next ≤ bytes.length ∧
      (entry.idx.length ≤ 0xffffffff ∧ entry.refs.length ≤ 0xffffffff) ∧
      writeEntry entry = .ok (slice bytes offset (next - offset)) := by
  unfold keySection at unmarked
  unfold readEntry at read
  by_cases head : bytes.length < offset + 20
  · rw [if_pos head] at read
    cases read
  rw [if_neg head] at read
  cases size : readUint64 bytes (offset + 4) with
  | error message =>
    rw [size] at read
    cases read
  | ok packBytes =>
    rw [size] at read
    by_cases short : bytes.length < behindEntry bytes offset
    · have failed := (if_pos short).symm.trans read
      cases failed
    have read := (if_neg short).symm.trans read
    cases decoded : decodeFatal
        (slice bytes (offset + 20) (numberAt 4 bytes offset)) with
    | none =>
      rw [decoded] at read
      cases read
    | some packKey =>
      rw [decoded] at read
      rcases Prod.mk.inj (Except.ok.inj read) with ⟨rfl, rfl⟩
      have long : offset + 20 + numberAt 4 bytes offset +
          numberAt 4 bytes (offset + 12) + numberAt 4 bytes (offset + 16) ≤
            bytes.length := not_lt.mp short
      have small : ∀ position, numberAt 4 bytes position ≤ 0xffffffff := by
        intro position
        have bound := numberAt_lt 4 bytes position
        omega
      have keyBytes : (slice bytes (offset + 20)
          (numberAt 4 bytes offset)).length = numberAt 4 bytes offset :=
        length_slice (by omega)
      have idxBytes : (slice bytes (offset + 20 + numberAt 4 bytes offset)
          (numberAt 4 bytes (offset + 12))).length =
            numberAt 4 bytes (offset + 12) :=
        length_slice (by omega)
      have refsBytes : (slice bytes (offset + 20 + numberAt 4 bytes offset +
          numberAt 4 bytes (offset + 12))
            (numberAt 4 bytes (offset + 16))).length =
              numberAt 4 bytes (offset + 16) :=
        length_slice (by omega)
      have wrote := writeUint64_readUint64 (by omega) size
      refine ⟨rfl, long, ⟨?_, ?_⟩, ?_⟩
      · rw [idxBytes]
        exact small _
      · rw [refsBytes]
        exact small _
      · unfold writeEntry
        rw [wrote]
        dsimp only
        rw [encode_of_decodeFatal unmarked decoded, keyBytes, idxBytes,
          refsBytes, bigEndian_numberAt (by omega),
          bigEndian_numberAt (by omega), bigEndian_numberAt (by omega),
          slice_entry]
        congr 2
        omega

/-! ## All entries -/

theorem writeEntries_cons_eq_ok :
    writeEntries (entry :: entries) = .ok written ↔
      ∃ first rest, writeEntry entry = .ok first ∧
        writeEntries entries = .ok rest ∧ first ++ rest = written := by
  rw [writeEntries]
  cases writeEntry entry with
  | error message =>
    constructor
    · exact nofun
    · rintro ⟨_, _, impossible, _⟩
      cases impossible
  | ok first =>
    cases writeEntries entries with
    | error message =>
      constructor
      · exact nofun
      · rintro ⟨_, _, _, impossible, _⟩
        cases impossible
    | ok rest =>
      constructor
      · intro same
        exact ⟨first, rest, rfl, rfl, Except.ok.inj same⟩
      · rintro ⟨_, _, same, same', rfl⟩
        cases same
        cases same'
        rfl

theorem length_written (wrote : writeEntries entries = .ok written) :
    written.length = (entries.map entryBytes).sum := by
  induction entries generalizing written with
  | nil =>
    cases wrote
    rfl
  | cons entry entries ih =>
    rcases writeEntries_cons_eq_ok.mp wrote with ⟨first, rest, one, others, rfl⟩
    rcases writeEntry_eq_ok.mp one with ⟨_, rfl⟩
    rw [List.length_append, length_rawEntry, ih others, List.map_cons,
      List.sum_cons]
    rfl

theorem packBytes_written (wrote : writeEntries entries = .ok written) :
    ∀ entry ∈ entries,
      0 ≤ entry.packBytes ∧ entry.packBytes ≤ maxSafeInteger := by
  induction entries generalizing written with
  | nil => exact nofun
  | cons entry entries ih =>
    rcases writeEntries_cons_eq_ok.mp wrote with ⟨first, rest, one, others, _⟩
    intro other member
    rcases List.mem_cons.mp member with rfl | member
    · exact (writeEntry_eq_ok.mp one).1
    · exact ih others other member

/-- An entry that a bundle can hold and give back. -/
structure Bundled (entry : BundleEntry) : Prop where
  nonneg : 0 ≤ entry.packBytes
  safe : entry.packBytes ≤ maxSafeInteger
  unmarked : ¬ Marked (encode entry.packKey)
  sized : Sized (encode entry.packKey) entry.idx entry.refs

theorem writeEntries_bundled (bundled : ∀ entry ∈ entries, Bundled entry) :
    ∃ written, writeEntries entries = .ok written := by
  induction entries with
  | nil => exact ⟨[], rfl⟩
  | cons entry entries ih =>
    have here := bundled entry List.mem_cons_self
    rcases ih fun other member => bundled other (List.mem_cons_of_mem _ member)
      with ⟨rest, wrote⟩
    have first := writeEntry_eq_ok.mpr ⟨⟨here.nonneg, here.safe⟩, rfl⟩
    exact ⟨_, writeEntries_cons_eq_ok.mpr ⟨_, _, first, wrote, rfl⟩⟩

/-- What is written is read back from where it stands. -/
theorem readEntries_written {before after written : List UInt8}
    (placed : before.length = offset)
    (bundled : ∀ entry ∈ entries, Bundled entry)
    (wrote : writeEntries entries = .ok written) :
    readEntries (before ++ written ++ after) entries.length offset =
      .ok (entries, offset + written.length) := by
  induction entries generalizing before offset written with
  | nil =>
    cases wrote
    rfl
  | cons entry entries ih =>
    have here := bundled entry List.mem_cons_self
    rcases writeEntries_cons_eq_ok.mp wrote with ⟨first, rest, one, others, rfl⟩
    rcases writeEntry_eq_ok.mp one with ⟨⟨nonneg, safe⟩, rfl⟩
    have size : (entry.packBytes.toNat : Int) = entry.packBytes :=
      Int.toNat_of_nonneg nonneg
    generalize raw : rawEntry (encode entry.packKey) entry.packBytes.toNat
      entry.idx entry.refs = first
    have read : readEntry (before ++ (first ++ rest) ++ after) offset =
        .ok (entry, offset + first.length) := by
      have shape : before ++ (first ++ rest) ++ after =
          before ++ first ++ (rest ++ after) := by
        simp only [List.append_assoc]
      have back := @readEntry_rawEntry offset before (rest ++ after)
        (encode entry.packKey) entry.idx entry.refs entry.packBytes.toNat
        entry.packKey placed (size ▸ safe) here.sized
        (decodeFatal_encode here.unmarked)
      rw [shape, ← raw, back, size]
    have next := @ih (offset + first.length) (before ++ first) rest
      (by rw [List.length_append, placed])
      (fun other member => bundled other (List.mem_cons_of_mem _ member))
      others
    have shape : before ++ first ++ rest ++ after =
        before ++ (first ++ rest) ++ after := by
      simp only [List.append_assoc]
    rw [shape] at next
    rw [List.length_cons, readEntries, read]
    dsimp only
    rw [next, List.length_append, Nat.add_assoc]

/-- The key sections of the entries from a position on. -/
def keySections (bytes : List UInt8) : Nat → Nat → List (List UInt8)
  | 0, _ => []
  | count + 1, offset =>
    keySection bytes offset ::
      keySections bytes count (behindEntry bytes offset)

theorem writeEntries_readEntries {count last : Nat}
    (unmarked : ∀ key ∈ keySections bytes count offset, ¬ Marked key)
    (inside : offset ≤ bytes.length)
    (read : readEntries bytes count offset = .ok (entries, last)) :
    entries.length = count ∧ offset ≤ last ∧ last ≤ bytes.length ∧
      (∀ entry ∈ entries,
        entry.idx.length ≤ 0xffffffff ∧ entry.refs.length ≤ 0xffffffff) ∧
      writeEntries entries = .ok (slice bytes offset (last - offset)) := by
  induction count generalizing offset entries with
  | zero =>
    cases read
    refine ⟨rfl, le_refl _, inside, nofun, ?_⟩
    rw [Nat.sub_self]
    rfl
  | succ count ih =>
    rw [readEntries] at read
    cases one : readEntry bytes offset with
    | error message =>
      rw [one] at read
      cases read
    | ok first =>
      rcases first with ⟨entry, next⟩
      rw [one] at read
      dsimp only at read
      cases others : readEntries bytes count next with
      | error message =>
        rw [others] at read
        cases read
      | ok rest =>
        rcases rest with ⟨rest, last⟩
        rw [others] at read
        rcases Prod.mk.inj (Except.ok.inj read) with ⟨rfl, rfl⟩
        rcases writeEntry_readEntry
          (unmarked _ List.mem_cons_self) one with
          ⟨placed, within, small, wrote⟩
        have later : ∀ key ∈ keySections bytes count next, ¬ Marked key := by
          rw [placed]
          exact fun key member =>
            unmarked key (List.mem_cons_of_mem _ member)
        rcases ih later within others with
          ⟨counted, forward, ends, smalls, wroteRest⟩
        have forth : offset ≤ next := by
          rw [placed]
          unfold behindEntry
          omega
        refine ⟨?_, Nat.le_trans forth forward, ends, ?_, ?_⟩
        · rw [List.length_cons, counted]
        · intro other member
          rcases List.mem_cons.mp member with rfl | member
          · exact small
          · exact smalls other member
        · apply writeEntries_cons_eq_ok.mpr
          refine ⟨_, _, wrote, wroteRest, ?_⟩
          have joined := slice_append_slice bytes offset (next - offset)
            (last - next)
          rw [Nat.add_sub_cancel' forth] at joined
          rw [joined]
          congr 1
          omega

/-! ## The order of the catalog -/

theorem entryByKey_mem (distinct : (entries.map BundleEntry.packKey).Nodup)
    (member : entry ∈ entries) :
    entryByKey entries entry.packKey = some entry := by
  unfold entryByKey
  cases found : entries.reverse.find? fun other =>
      other.packKey = entry.packKey with
  | none =>
    have none_ := List.find?_eq_none.mp found entry
      (List.mem_reverse.mpr member)
    exact absurd (decide_eq_true rfl) none_
  | some other =>
    have named := List.find?_some found
    congr 1
    exact List.inj_on_of_nodup_map distinct
      (List.mem_reverse.mp (List.mem_of_find?_eq_some found)) member
      (decide_eq_true_iff.mp named)

theorem entriesOf_map (distinct : (entries.map BundleEntry.packKey).Nodup)
    (members : ∀ entry ∈ order, entry ∈ entries) :
    entriesOf entries (order.map BundleEntry.row) = .ok order := by
  induction order with
  | nil => rfl
  | cons entry order ih =>
    have found := entryByKey_mem distinct (members entry List.mem_cons_self)
    have here : entry.row.packKey = entry.packKey := rfl
    rw [List.map_cons, entriesOf, here, found]
    dsimp only
    rw [ih fun other member => members other (List.mem_cons_of_mem _ member)]

/-- Rows in another order are those of the entries in another order. -/
theorem exists_order (perm : catalog.Perm (entries.map BundleEntry.row)) :
    ∃ order : List BundleEntry, order.Perm entries ∧
      order.map BundleEntry.row = catalog := by
  have composed : Relation.Comp
        (fun (left : List CatalogRow) (right : List BundleEntry) =>
          left = right.map BundleEntry.row) List.Perm =
      fun (left : List CatalogRow) (right : List BundleEntry) =>
        left.Perm (right.map BundleEntry.row) :=
    List.eq_map_comp_perm BundleEntry.row
  have split := (congrFun (congrFun composed catalog) entries).mpr perm
  rcases split with ⟨order, rows, perm⟩
  exact ⟨order, perm, rows.symm⟩

/-- Entries that are read against a catalog. -/
theorem entriesOf_spec {result : List BundleEntry}
    (distinct : (entries.map BundleEntry.packKey).Nodup)
    (perm : catalog.Perm (entries.map BundleEntry.row))
    (read : entriesOf entries catalog = .ok result) :
    result.Perm entries ∧ result.map BundleEntry.row = catalog := by
  rcases exists_order perm with ⟨order, same, rfl⟩
  rw [entriesOf_map distinct fun entry => same.mem_iff.mp] at read
  cases read
  exact ⟨same, rfl⟩

theorem packKey_sorted
    (rows : entries.map BundleEntry.row = sortByKey CatalogRow.packKey catalog) :
    entries.Pairwise (KeyOrder BundleEntry.packKey) := by
  have sorted := @sortByKey_sorted _ CatalogRow.packKey catalog
  rw [← rows, List.pairwise_map] at sorted
  exact sorted

theorem packKey_nodup (distinct : (catalog.map CatalogRow.packKey).Nodup)
    (perm : (entries.map BundleEntry.row).Perm catalog) :
    (entries.map BundleEntry.packKey).Nodup := by
  have keys := (perm.map CatalogRow.packKey).nodup_iff.mpr distinct
  rw [List.map_map] at keys
  exact keys

/-! ## Both directions -/

/-- Entries within the limits of a bundle. -/
structure WithinLimits (entries : List BundleEntry) : Prop where
  count : entries.length ≤ stockActivePackMaxCount
  size : bundleBytes entries ≤ stockMetadataMaxBytes
  packBytes : ∀ entry ∈ entries,
    0 ≤ entry.packBytes ∧ entry.packBytes ≤ maxSafeInteger

theorem WithinLimits.sections (within : WithinLimits entries)
    (member : entry ∈ entries) :
    Sized (encode entry.packKey) entry.idx entry.refs := by
  have whole := within.size
  have part : entryBytes entry ≤ (entries.map entryBytes).sum :=
    List.single_le_sum (fun _ _ => Nat.zero_le _) _ (List.mem_map_of_mem member)
  unfold bundleBytes stockMetadataMaxBytes at whole
  have here : entryBytes entry = fixedEntryBytes +
    (encode entry.packKey).length + entry.idx.length + entry.refs.length := rfl
  constructor <;> omega

theorem WithinLimits.perm (within : WithinLimits entries)
    (perm : order.Perm entries) :
    WithinLimits order where
  count := perm.length_eq ▸ within.count
  size := by
    have sums := (perm.map entryBytes).sum_eq
    unfold bundleBytes
    rw [sums]
    exact within.size
  packBytes := fun entry member =>
    within.packBytes entry (perm.mem_iff.mp member)

/-- A bundle of sorted entries. -/
theorem encode_eq_ok
    (within : WithinLimits (sortByKey BundleEntry.packKey entries))
    (wrote : writeEntries (sortByKey BundleEntry.packKey entries) = .ok written) :
    encodeCatalogMetadataBundle entries =
      .ok (metadataMagic ++ bigEndian 4
        (sortByKey BundleEntry.packKey entries).length ++ written) := by
  have counted := (@sortByKey_perm _ BundleEntry.packKey entries).length_eq
  have count := within.count
  rw [counted] at count
  have sidecars : ¬ ∃ entry ∈ sortByKey BundleEntry.packKey entries,
      0xffffffff < entry.idx.length ∨ 0xffffffff < entry.refs.length := by
    rintro ⟨entry, member, long⟩
    have sized := within.sections member
    have idx := sized.idx
    have refs := sized.refs
    omega
  unfold encodeCatalogMetadataBundle
  rw [if_neg (not_lt.mpr count)]
  dsimp only
  rw [if_neg sidecars, if_neg (not_lt.mpr within.size), wrote]

theorem length_header (count : Nat) :
    (metadataMagic ++ bigEndian 4 count).length = metadataMagic.length + 4 := by
  rw [List.length_append, length_bigEndian]

/-- A bundle that is encoded is read in the order of any catalog. -/
theorem decode_encode (distinct : (entries.map BundleEntry.packKey).Nodup)
    (within : WithinLimits entries)
    (unmarked : ∀ entry ∈ entries, ¬ Marked (encode entry.packKey))
    (perm : catalog.Perm (entries.map BundleEntry.row)) :
    ∃ bytes result, encodeCatalogMetadataBundle entries = .ok bytes ∧
      decodeCatalogMetadataBundle bytes catalog = .ok result ∧
      result.Perm entries ∧ result.map BundleEntry.row = catalog := by
  have sorted := @sortByKey_perm _ BundleEntry.packKey entries
  generalize arranged : sortByKey BundleEntry.packKey entries = ordered at sorted
  have within := within.perm sorted
  have bundled : ∀ entry ∈ ordered, Bundled entry := by
    intro entry member
    rcases within.packBytes entry member with ⟨nonneg, safe⟩
    exact ⟨nonneg, safe, unmarked entry (sorted.mem_iff.mp member),
      within.sections member⟩
  rcases writeEntries_bundled bundled with ⟨written, wrote⟩
  have total := length_written wrote
  have encoded : encodeCatalogMetadataBundle entries =
      .ok (metadataMagic ++ bigEndian 4 ordered.length ++ written) := by
    rw [← arranged] at within wrote ⊢
    exact encode_eq_ok within wrote
  have distinctOrdered : (ordered.map BundleEntry.packKey).Nodup :=
    (sorted.map BundleEntry.packKey).nodup_iff.mpr distinct
  have rows : ordered.map BundleEntry.row =
      sortByKey CatalogRow.packKey catalog := by
    have kept : ∀ entry : BundleEntry, entry.row.packKey = entry.packKey :=
      fun _ => rfl
    have keys : (catalog.map CatalogRow.packKey).Nodup := by
      have listed := perm.map CatalogRow.packKey
      rw [List.map_map] at listed
      exact listed.nodup_iff.mpr distinct
    rw [← arranged, map_sortByKey kept]
    exact (sortByKey_congr perm keys).symm
  have rowPerm : catalog.Perm (ordered.map BundleEntry.row) :=
    perm.trans (sorted.map BundleEntry.row).symm
  rcases exists_order rowPerm with ⟨result, same, listed⟩
  refine ⟨_, result, encoded, ?_, same.trans sorted, listed⟩
  have size := within.size
  have count := within.count
  unfold bundleBytes at size
  have long : (metadataMagic ++ bigEndian 4 ordered.length ++ written).length =
      metadataMagic.length + 4 + written.length := by
    rw [List.length_append, length_header]
  have counted : numberAt 4
      (metadataMagic ++ bigEndian 4 ordered.length ++ written)
        metadataMagic.length = ordered.length := by
    apply numberAt_middle _ _ rfl
    unfold stockActivePackMaxCount at count
    omega
  have read := @readEntries_written _ ordered
    (metadataMagic ++ bigEndian 4 ordered.length) [] written
    (length_header _) bundled wrote
  rw [List.append_nil] at read
  have magic : metadataMagic.isPrefixOf
      (metadataMagic ++ bigEndian 4 ordered.length ++ written) = true := by
    rw [List.append_assoc]
    exact List.isPrefixOf_iff_prefix.mpr (List.prefix_append _ _)
  have lengths : ordered.length = catalog.length := by
    rw [← listed, List.length_map, same.length_eq]
  have fits : ¬ ((metadataMagic ++ bigEndian 4 ordered.length ++
      written).length < metadataMagic.length + 4 ∨ stockMetadataMaxBytes <
        (metadataMagic ++ bigEndian 4 ordered.length ++ written).length) := by
    rw [long]
    omega
  have few : ¬ (stockActivePackMaxCount < ordered.length ∨
      ordered.length ≠ catalog.length) := by
    omega
  unfold decodeCatalogMetadataBundle
  rw [if_neg fits, magic, if_neg Bool.true_eq_false_eq_False]
  dsimp only
  rw [counted, if_neg few, read]
  dsimp only
  rw [long, if_neg (not_not.mpr rfl), if_neg (not_not.mpr rows), ← listed]
  exact entriesOf_map distinctOrdered fun entry => same.mem_iff.mp

/-- The key sections that a decoder reads of a bundle. -/
def bundleKeys (bytes : List UInt8) : List (List UInt8) :=
  keySections bytes (numberAt 4 bytes metadataMagic.length)
    (metadataMagic.length + 4)

/-- A bundle that is read is what encoding its entries gives. -/
theorem encode_decode (distinct : (catalog.map CatalogRow.packKey).Nodup)
    (unmarked : ∀ key ∈ bundleKeys bytes, ¬ Marked key)
    (decoded : decodeCatalogMetadataBundle bytes catalog = .ok entries) :
    encodeCatalogMetadataBundle entries = .ok bytes := by
  unfold decodeCatalogMetadataBundle at decoded
  split at decoded
  · cases decoded
  next fits =>
  split at decoded
  · cases decoded
  next magic =>
  dsimp only at decoded
  split at decoded
  · cases decoded
  next few =>
  cases read : readEntries bytes (numberAt 4 bytes metadataMagic.length)
      (metadataMagic.length + 4) with
  | error message =>
    rw [read] at decoded
    cases decoded
  | ok found =>
    rcases found with ⟨ordered, last⟩
    rw [read] at decoded
    dsimp only at decoded
    split at decoded
    · cases decoded
    next whole =>
    split at decoded
    · cases decoded
    next rows =>
    have whole : last = bytes.length := not_not.mp whole
    have rows : ordered.map BundleEntry.row =
        sortByKey CatalogRow.packKey catalog := not_not.mp rows
    subst whole
    rcases writeEntries_readEntries unmarked (by omega) read with
      ⟨counted, _, _, small, wrote⟩
    have perm : (ordered.map BundleEntry.row).Perm catalog :=
      rows ▸ sortByKey_perm catalog
    have keys := packKey_nodup distinct perm
    rcases entriesOf_spec keys perm.symm decoded with ⟨same, _⟩
    have arranged : sortByKey BundleEntry.packKey entries = ordered := by
      rw [sortByKey_congr same ((same.map _).nodup_iff.mpr keys)]
      exact sortByKey_of_sorted keys (packKey_sorted rows)
    have behind : (slice bytes (metadataMagic.length + 4)
        (bytes.length - (metadataMagic.length + 4))).length =
          bytes.length - (metadataMagic.length + 4) :=
      length_slice (by omega)
    have within : WithinLimits ordered := by
      refine ⟨by omega, ?_, packBytes_written wrote⟩
      unfold bundleBytes
      rw [← length_written wrote, behind]
      omega
    rw [← arranged] at within wrote
    rw [encode_eq_ok within wrote, arranged, counted,
      bigEndian_numberAt (by omega)]
    have begins : slice bytes 0 metadataMagic.length = metadataMagic := by
      have starts := List.isPrefixOf_iff_prefix.mp
        (Bool.not_eq_false _ ▸ magic)
      exact (List.prefix_iff_eq_take.mp starts).symm
    have joined := slice_append_slice bytes 0 metadataMagic.length 4
    rw [Nat.zero_add, begins] at joined
    have ends := slice_append_slice bytes 0 (metadataMagic.length + 4)
      (bytes.length - (metadataMagic.length + 4))
    rw [Nat.zero_add, Nat.add_sub_cancel' (by omega)] at ends
    rw [joined, ends]
    unfold slice
    rw [List.drop_zero, List.take_length]

/-- What is encoded is read back in the order of the catalog, and what is read
is what encoding its entries gives. -/
theorem catalogMetadataBundle_canonical (entries result : List BundleEntry)
    (catalog expected : List CatalogRow) (bytes : List UInt8) :
    ((entries.map BundleEntry.packKey).Nodup → WithinLimits entries →
      (∀ entry ∈ entries, ¬ Marked (encode entry.packKey)) →
      catalog.Perm (entries.map BundleEntry.row) →
        ∃ bytes result, encodeCatalogMetadataBundle entries = .ok bytes ∧
          decodeCatalogMetadataBundle bytes catalog = .ok result ∧
          result.Perm entries ∧ result.map BundleEntry.row = catalog) ∧
      ((expected.map CatalogRow.packKey).Nodup →
        (∀ key ∈ bundleKeys bytes, ¬ Marked key) →
        decodeCatalogMetadataBundle bytes expected = .ok result →
          encodeCatalogMetadataBundle result = .ok bytes) :=
  ⟨decode_encode, encode_decode⟩

/-! ## Marks and repeated keys -/

def plainEntry : BundleEntry := ⟨"a", 5, [1], [2]⟩

def markedEntry : BundleEntry := ⟨"\uFEFFa", 5, [1], [2]⟩

/-- A bundle of two entries of one key, as their sections stand. -/
def bundleOf (entries : List (List UInt8)) : List UInt8 :=
  metadataMagic ++ bigEndian 4 entries.length ++ entries.flatten

def plainSections : List UInt8 := rawEntry [0x61] 5 [1] [2]

def markedSections : List UInt8 := rawEntry [0xef, 0xbb, 0xbf, 0x61] 5 [1] [2]

def otherSections : List UInt8 := rawEntry [0x61] 5 [3] [4]

/-- A key with a byte order mark is not read back, bytes with one are not
written again, and a key that is there twice is read as its last entry. -/
theorem catalogMetadataBundle_marked :
    (WithinLimits [markedEntry] ∧
      encodeCatalogMetadataBundle [markedEntry] =
        .ok (bundleOf [markedSections]) ∧
      decodeCatalogMetadataBundle (bundleOf [markedSections])
        [markedEntry.row] = .error "catalog-metadata:catalog-mismatch") ∧
    (bundleOf [markedSections] ≠ bundleOf [plainSections] ∧
      decodeCatalogMetadataBundle (bundleOf [markedSections])
        [plainEntry.row] = .ok [plainEntry] ∧
      decodeCatalogMetadataBundle (bundleOf [plainSections])
        [plainEntry.row] = .ok [plainEntry]) ∧
    decodeCatalogMetadataBundle (bundleOf [otherSections, plainSections])
      [plainEntry.row, plainEntry.row] = .ok [plainEntry, plainEntry] ∧
    encodeCatalogMetadataBundle [plainEntry, plainEntry] ≠
      .ok (bundleOf [otherSections, plainSections]) := by
  refine ⟨⟨⟨?_, ?_, ?_⟩, ?_, ?_⟩, ⟨?_, ?_, ?_⟩, ?_, ?_⟩
  all_goals decide +kernel

end GitOnCloudflare.Planner.CatalogBundle
