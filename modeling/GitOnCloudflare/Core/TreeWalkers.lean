import GitOnCloudflare.Core.ParsersAgree

/-!
# The two tree walkers

The text parser of a tree lists the children of all entries; the sidecar leaves
gitlinks out.  Both stop at the first entry that is not complete, and they test
in different ways whether the id of the last entry is there.
-/

namespace GitOnCloudflare.Core

open Foundations.ByteTable
open Pack
open Fetch (toList_bytesToHex)

/-! ## The walkers -/

/-- The loop over tree entries; every round reads the nul behind a name.  An
id is cut out of what follows the nul, which may be shorter than an id. -/
def treeChildOidsFrom : Nat → Bytes → List String
  | 0, _ => []
  | fuel + 1, payload =>
    match payload.dropWhile fun byte => decide (byte ≠ 0x20) with
    | [] => []
    | _ :: name =>
      let rest := name.dropWhile fun byte => decide (byte ≠ 0x00)
      if rest.length < oidBytes then
        []
      else
        bytesToHex ((rest.drop 1).take oidBytes) ::
          treeChildOidsFrom fuel (rest.drop (oidBytes + 1))

def parseTreeChildOids (payload : Bytes) : List String :=
  treeChildOidsFrom payload.length payload

def parseTreeClosureRefs (payload : Bytes) : List String :=
  (logicalRefs (parseTreeClosureRefBytes payload)).map bytesToHex

/-! ## Entries -/

/-- A complete entry: `<mode> <name>\0<20 bytes>`. -/
structure TreeEntry where
  mode : Bytes
  name : Bytes
  id : RawOid
  modeEnds : (0x20 : UInt8) ∉ mode
  nameEnds : (0x00 : UInt8) ∉ name

namespace TreeEntry

def bytes (entry : TreeEntry) : Bytes :=
  entry.mode ++ 0x20 :: (entry.name ++ 0x00 :: entry.id.bytes)

def oid (entry : TreeEntry) : String := bytesToHex entry.id.bytes

end TreeEntry

/-- A payload is its complete entries and a rest that starts with none. -/
structure TreeSplit (payload : Bytes) (entries : List TreeEntry)
    (rest : Bytes) : Prop where
  joined : payload = entries.flatMap TreeEntry.bytes ++ rest
  ended : ∀ (entry : TreeEntry) (more : Bytes), rest ≠ entry.bytes ++ more

/-- An entry whose id lacks its last byte, and nothing behind it. -/
def LacksOneByte (rest : Bytes) : Prop :=
  ∃ mode name id : Bytes, (0x20 : UInt8) ∉ mode ∧ (0x00 : UInt8) ∉ name ∧
    id.length + 1 = oidBytes ∧ rest = mode ++ 0x20 :: (name ++ 0x00 :: id)

/-- The list of the children is that of the entries, the references are those
of the entries that are not gitlinks, and every id is whole. -/
structure WalkersAgree (payload : Bytes) (entries : List TreeEntry) : Prop
    where
  children : parseTreeChildOids payload = entries.map TreeEntry.oid
  digits : ∀ oid ∈ parseTreeChildOids payload, oid.length = 2 * oidBytes
  references : parseTreeClosureRefs payload =
    (entries.filter fun entry => decide (entry.mode ≠ gitlinkMode)).map
      TreeEntry.oid

/-! ## Taking a tree apart -/

variable {mark : UInt8}

theorem dropWhile_to_mark {front : Bytes} (unmarked : mark ∉ front)
    (rest : Bytes) :
    (front ++ mark :: rest).dropWhile (fun byte => decide (byte ≠ mark)) =
        mark :: rest ∧
      (front ++ mark :: rest).takeWhile (fun byte => decide (byte ≠ mark)) =
        front := by
  have all : ∀ byte ∈ front, decide (byte ≠ mark) = true := by
    intro byte member
    apply decide_eq_true
    rintro rfl
    exact unmarked member
  constructor
  · rw [List.dropWhile_append_of_pos all]
    simp
  · rw [List.takeWhile_append_of_pos all]
    simp

/-- A text holds a mark, and is cut at the first one, or holds none. -/
theorem cut_at_mark (mark : UInt8) (text : Bytes) :
    (∃ front rest, mark ∉ front ∧ text = front ++ mark :: rest) ∨
      mark ∉ text := by
  by_cases member : mark ∈ text
  · left
    induction text with
    | nil => cases member
    | cons byte text ih =>
      by_cases same : byte = mark
      · subst same
        exact ⟨[], text, List.not_mem_nil, rfl⟩
      · rcases ih ((List.mem_cons.mp member).resolve_left (Ne.symm same)) with
          ⟨front, rest, unmarked, rfl⟩
        refine ⟨byte :: front, rest, ?_, rfl⟩
        intro inside
        rcases List.mem_cons.mp inside with rfl | inside
        · exact same rfl
        · exact unmarked inside
  · exact .inr member

theorem dropWhile_without_mark {text : Bytes} (unmarked : mark ∉ text) :
    text.dropWhile (fun byte => decide (byte ≠ mark)) = [] := by
  rw [List.dropWhile_eq_nil_iff]
  intro byte member
  apply decide_eq_true
  rintro rfl
  exact unmarked member

/-- What a text can start with: a complete entry, an entry with a short id, or
no nul behind a space. -/
inductive TreeHead : Bytes → Prop where
  | entry (entry : TreeEntry) (more : Bytes) : TreeHead (entry.bytes ++ more)
  | short (mode name id : Bytes) : (0x20 : UInt8) ∉ mode →
      (0x00 : UInt8) ∉ name → id.length < oidBytes →
        TreeHead (mode ++ 0x20 :: (name ++ 0x00 :: id))
  | unnamed (mode name : Bytes) : (0x20 : UInt8) ∉ mode →
      (0x00 : UInt8) ∉ name → TreeHead (mode ++ 0x20 :: name)
  | blank (mode : Bytes) : (0x20 : UInt8) ∉ mode → TreeHead mode

theorem treeHead (text : Bytes) : TreeHead text := by
  rcases cut_at_mark 0x20 text with ⟨mode, after, modeEnds, rfl⟩ | blank
  · rcases cut_at_mark 0x00 after with ⟨name, id, nameEnds, rfl⟩ | unnamed
    · by_cases short : id.length < oidBytes
      · exact .short mode name id modeEnds nameEnds short
      · have whole : (id.take oidBytes).length = 20 := by
          rw [List.length_take]
          unfold oidBytes at short ⊢
          omega
        have found := TreeHead.entry
          ⟨mode, name, ⟨id.take oidBytes, whole⟩, modeEnds, nameEnds⟩
          (id.drop oidBytes)
        unfold TreeEntry.bytes at found
        simp only [List.append_assoc, List.cons_append,
          List.take_append_drop] at found
        exact found
    · exact .unnamed mode after modeEnds unnamed
  · exact .blank text blank

/-- Every payload has a split. -/
theorem exists_treeSplit (payload : Bytes) :
    ∃ entries rest, TreeSplit payload entries rest := by
  induction size : payload.length using Nat.strong_induction_on
    generalizing payload with
  | _ length ih =>
    by_cases starts : ∃ (entry : TreeEntry) (more : Bytes),
        payload = entry.bytes ++ more
    · rcases starts with ⟨entry, more, rfl⟩
      have shorter : more.length < length := by
        rw [← size]
        unfold TreeEntry.bytes
        simp only [List.length_append, List.length_cons]
        omega
      rcases ih more.length shorter more rfl with ⟨entries, rest, split⟩
      refine ⟨entry :: entries, rest, ?_, split.ended⟩
      rw [List.flatMap_cons, List.append_assoc, ← split.joined]
    · refine ⟨[], payload, rfl, ?_⟩
      exact fun entry more same => starts ⟨entry, more, same⟩

/-! ## One round -/

theorem treeChildOidsFrom_entry (fuel : Nat) (entry : TreeEntry) (more : Bytes) :
    treeChildOidsFrom (fuel + 1) (entry.bytes ++ more) =
      entry.oid :: treeChildOidsFrom fuel more := by
  have id : entry.id.bytes.length = oidBytes := entry.id.length_eq
  have shape : entry.bytes ++ more =
      entry.mode ++ 0x20 ::
        (entry.name ++ 0x00 :: (entry.id.bytes ++ more)) := by
    simp [TreeEntry.bytes]
  rw [treeChildOidsFrom, shape, (dropWhile_to_mark entry.modeEnds _).1]
  dsimp only
  rw [(dropWhile_to_mark entry.nameEnds _).1, if_neg, List.drop_one,
    List.tail_cons, List.drop_succ_cons]
  · rw [List.take_left' id, List.drop_left' id]
    rfl
  · simp only [List.length_cons, List.length_append]
    omega

theorem visitTreeClosureRawRefs_entry (fuel : Nat) (entry : TreeEntry)
    (more : Bytes) :
    visitTreeClosureRawRefs (fuel + 1) (entry.bytes ++ more) =
      (if entry.mode = gitlinkMode then [] else entry.id.bytes) ++
        visitTreeClosureRawRefs fuel more := by
  have id : entry.id.bytes.length = oidBytes := entry.id.length_eq
  have shape : entry.bytes ++ more =
      entry.mode ++ 0x20 ::
        (entry.name ++ 0x00 :: (entry.id.bytes ++ more)) := by
    simp [TreeEntry.bytes]
  rw [visitTreeClosureRawRefs, shape, (dropWhile_to_mark entry.modeEnds _).1,
    (dropWhile_to_mark entry.modeEnds _).2]
  dsimp only
  rw [(dropWhile_to_mark entry.nameEnds _).1]
  dsimp only
  rw [if_neg, List.take_left' id, List.drop_left' id]
  rw [List.length_append]
  omega

theorem length_bytesToHex (bytes : Bytes) :
    (bytesToHex bytes).length = 2 * bytes.length := by
  rw [← String.length_toList, toList_bytesToHex]
  induction bytes with
  | nil => rfl
  | cons byte bytes ih =>
    rw [List.flatMap_cons, List.length_append, ih, List.length_cons]
    show 2 + _ = _
    omega

variable {rest : Bytes}

/-- At a rest that is not an entry the text parser stops, unless the entry
lacks one byte: then it lists an id that is too short. -/
theorem treeChildOidsFrom_rest
    (ended : ∀ (entry : TreeEntry) (more : Bytes), rest ≠ entry.bytes ++ more)
    (fuel : Nat) :
    (LacksOneByte rest ∧ ∃ oid more, oid.length ≠ 2 * oidBytes ∧
        treeChildOidsFrom (fuel + 1) rest = oid :: more) ∨
      (¬ LacksOneByte rest ∧ treeChildOidsFrom (fuel + 1) rest = []) := by
  have head := treeHead rest
  cases head with
  | entry entry more => exact absurd rfl (ended entry more)
  | short mode name id modeEnds nameEnds short =>
    rw [treeChildOidsFrom, (dropWhile_to_mark modeEnds _).1]
    dsimp only
    rw [(dropWhile_to_mark nameEnds _).1, List.length_cons]
    by_cases last : id.length + 1 = oidBytes
    · left
      refine ⟨⟨mode, name, id, modeEnds, nameEnds, last, rfl⟩,
        bytesToHex (id.take oidBytes),
        treeChildOidsFrom fuel (List.drop (oidBytes + 1) (0x00 :: id)), ?_, ?_⟩
      · rw [length_bytesToHex, List.length_take]
        omega
      · rw [if_neg (by omega)]
        rfl
    · right
      constructor
      · rintro ⟨otherMode, otherName, otherId, otherModeEnds, otherNameEnds,
          otherLast, same⟩
        have names := congrArg
          (List.dropWhile fun byte => decide (byte ≠ 0x20)) same
        rw [(dropWhile_to_mark modeEnds _).1,
          (dropWhile_to_mark otherModeEnds _).1] at names
        have ids := congrArg
          (List.dropWhile fun byte => decide (byte ≠ 0x00))
          (List.cons.inj names).2
        rw [(dropWhile_to_mark nameEnds _).1,
          (dropWhile_to_mark otherNameEnds _).1] at ids
        rw [(List.cons.inj ids).2] at last
        exact last otherLast
      · rw [if_pos (by omega)]
  | unnamed mode name modeEnds nameEnds =>
    right
    constructor
    · rintro ⟨otherMode, otherName, otherId, otherModeEnds, _, _, same⟩
      have names := congrArg
        (List.dropWhile fun byte => decide (byte ≠ 0x20)) same
      rw [(dropWhile_to_mark modeEnds _).1,
        (dropWhile_to_mark otherModeEnds _).1] at names
      apply nameEnds
      rw [(List.cons.inj names).2]
      simp
    · rw [treeChildOidsFrom, (dropWhile_to_mark modeEnds _).1]
      dsimp only
      rw [dropWhile_without_mark nameEnds]
      rfl
  | blank mode modeEnds =>
    right
    constructor
    · rintro ⟨otherMode, otherName, otherId, _, _, _, same⟩
      apply modeEnds
      rw [same]
      simp
    · rw [treeChildOidsFrom, dropWhile_without_mark modeEnds]

theorem visitTreeClosureRawRefs_rest
    (ended : ∀ (entry : TreeEntry) (more : Bytes), rest ≠ entry.bytes ++ more)
    (fuel : Nat) : visitTreeClosureRawRefs fuel rest = [] := by
  cases fuel with
  | zero => rfl
  | succ fuel =>
    have head := treeHead rest
    rw [visitTreeClosureRawRefs]
    cases head with
    | entry entry more => exact absurd rfl (ended entry more)
    | short mode name id modeEnds nameEnds short =>
      rw [(dropWhile_to_mark modeEnds _).1]
      dsimp only
      rw [(dropWhile_to_mark nameEnds _).1]
      dsimp only
      rw [if_pos short]
    | unnamed mode name modeEnds nameEnds =>
      rw [(dropWhile_to_mark modeEnds _).1]
      dsimp only
      rw [dropWhile_without_mark nameEnds]
    | blank mode modeEnds => rw [dropWhile_without_mark modeEnds]

/-! ## Whole trees -/

theorem length_le_flatMap_bytes (entries : List TreeEntry) :
    entries.length ≤ (entries.flatMap TreeEntry.bytes).length := by
  induction entries with
  | nil => exact le_refl _
  | cons entry entries ih =>
    have positive : 0 < entry.bytes.length := by
      simp [TreeEntry.bytes]
    rw [List.flatMap_cons, List.length_append, List.length_cons]
    omega

/-- The text parser lists the entries and goes on at the rest. -/
theorem treeChildOidsFrom_split (entries : List TreeEntry) (rest : Bytes)
    (fuel : Nat) :
    treeChildOidsFrom (entries.length + fuel)
        (entries.flatMap TreeEntry.bytes ++ rest) =
      entries.map TreeEntry.oid ++ treeChildOidsFrom fuel rest := by
  induction entries with
  | nil =>
    rw [List.length_nil, Nat.zero_add]
    rfl
  | cons entry entries ih =>
    rw [List.length_cons, List.flatMap_cons, List.append_assoc,
      Nat.succ_add, treeChildOidsFrom_entry, ih]
    rfl

/-- The sidecar records the entries that are not gitlinks. -/
theorem parseTreeClosureRefs_split {payload : Bytes} {entries : List TreeEntry}
    (split : TreeSplit payload entries rest) :
    parseTreeClosureRefs payload =
      (entries.filter fun entry => decide (entry.mode ≠ gitlinkMode)).map
        TreeEntry.oid := by
  have visited : ∀ (entries : List TreeEntry) (fuel : Nat),
      visitTreeClosureRawRefs (entries.length + fuel)
          (entries.flatMap TreeEntry.bytes ++ rest) =
        ((entries.filter fun entry => decide (entry.mode ≠ gitlinkMode)).map
          fun entry => entry.id.bytes).flatten := by
    intro entries fuel
    induction entries with
    | nil => exact visitTreeClosureRawRefs_rest split.ended _
    | cons entry entries ih =>
      rw [List.length_cons, List.flatMap_cons, List.append_assoc,
        Nat.succ_add, visitTreeClosureRawRefs_entry, ih, List.filter_cons]
      by_cases gitlink : entry.mode = gitlinkMode
      · rw [if_pos gitlink, if_neg (by simp [gitlink])]
        rfl
      · rw [if_neg gitlink, if_pos (by simp [gitlink])]
        rfl
  have sized : ∀ id ∈ (entries.filter fun entry =>
      decide (entry.mode ≠ gitlinkMode)).map fun entry => entry.id.bytes,
      id.length = oidBytes := by
    intro id member
    rcases List.mem_map.mp member with ⟨entry, _, rfl⟩
    exact entry.id.length_eq
  have enough : entries.length ≤ payload.length := by
    rw [split.joined, List.length_append]
    exact (length_le_flatMap_bytes entries).trans (Nat.le_add_right _ _)
  rcases Nat.exists_eq_add_of_le enough with ⟨fuel, length⟩
  unfold parseTreeClosureRefs parseTreeClosureRefBytes
  rw [length]
  conv_lhs =>
    rw [split.joined]
  rw [visited entries fuel, logicalRefs_flatten sized, List.map_map]
  rfl

/-- Every payload is its complete entries and a rest, and the two walkers
agree on it exactly when the rest is not an entry that lacks its last byte. -/
theorem treeWalkers_agree (payload : Bytes) :
    (∃ entries rest, TreeSplit payload entries rest) ∧
      ∀ entries rest, TreeSplit payload entries rest →
        (WalkersAgree payload entries ↔ ¬ LacksOneByte rest) := by
  refine ⟨exists_treeSplit payload, ?_⟩
  intro entries rest split
  have enough : entries.length ≤ payload.length := by
    rw [split.joined, List.length_append]
    exact (length_le_flatMap_bytes entries).trans (Nat.le_add_right _ _)
  rcases Nat.exists_eq_add_of_le enough with ⟨fuel, length⟩
  have children : parseTreeChildOids payload =
      entries.map TreeEntry.oid ++ treeChildOidsFrom fuel rest := by
    unfold parseTreeChildOids
    rw [length]
    conv_lhs =>
      rw [split.joined]
    exact treeChildOidsFrom_split entries rest fuel
  have whole : ∀ oid ∈ entries.map TreeEntry.oid,
      oid.length = 2 * oidBytes := by
    intro oid member
    rcases List.mem_map.mp member with ⟨entry, _, rfl⟩
    exact (length_bytesToHex _).trans
      (congrArg (2 * ·) entry.id.length_eq)
  have agree : treeChildOidsFrom fuel rest = [] →
      WalkersAgree payload entries := by
    intro stopped
    rw [stopped, List.append_nil] at children
    exact ⟨children, children ▸ whole, parseTreeClosureRefs_split split⟩
  cases fuel with
  | zero =>
    -- every entry takes more bytes than rounds
    have nothing : rest = [] := by
      have total := congrArg List.length split.joined
      have counted := length_le_flatMap_bytes entries
      rw [List.length_append] at total
      exact List.eq_nil_of_length_eq_zero (by omega)
    apply iff_of_true (agree rfl)
    rintro ⟨mode, name, id, _, _, _, same⟩
    have empty := same.symm.trans nothing
    simp at empty
  | succ fuel =>
    rcases treeChildOidsFrom_rest split.ended fuel with
      ⟨lacks, oid, more, short, listed⟩ | ⟨lacks, stopped⟩
    · apply iff_of_false
      · intro agrees
        apply short
        apply agrees.digits
        rw [children, listed]
        simp
      · exact fun none_ => none_ lacks
    · exact iff_of_true (agree stopped) lacks

/-- A commit of a submodule. -/
def gitlink : TreeEntry where
  mode := [0x31, 0x36, 0x30, 0x30, 0x30, 0x30]
  name := [0x73]
  id := ⟨List.replicate 20 0xab, rfl⟩
  modeEnds := by decide
  nameEnds := by decide

/-- An entry that is cut off behind its name. -/
def cutEntry : Bytes := [0x31, 0x30, 0x30, 0x36, 0x34, 0x34, 0x20, 0x61]

theorem treeWalkers_agree_gitlink :
    WalkersAgree (gitlink.bytes ++ cutEntry) [gitlink] := by
  have unended : (0x00 : UInt8) ∉ cutEntry := by decide
  apply ((treeWalkers_agree (gitlink.bytes ++ cutEntry)).2 [gitlink] cutEntry
    ⟨by simp, ?_⟩).mpr
  · rintro ⟨mode, name, id, _, _, _, same⟩
    exact unended (same ▸ by simp)
  · intro entry more same
    exact unended (same ▸ by simp [TreeEntry.bytes])

/-! ## A tree without its last byte -/

/-- A tree of one entry, which has lost its last byte. -/
def cutTree : Bytes :=
  [0x31, 0x30, 0x30, 0x36, 0x34, 0x34, 0x20, 0x61, 0x00] ++
    List.replicate 19 0xab

theorem not_walkersAgree_cutTree :
    parseTreeClosureRefs cutTree = [] ∧
      parseTreeChildOids cutTree =
        [bytesToHex (List.replicate 19 0xab)] ∧
      ¬ ∀ payload, ∀ oid ∈ parseTreeChildOids payload,
        oid.length = 2 * oidBytes := by
  have listed : parseTreeChildOids cutTree =
      [bytesToHex (List.replicate 19 0xab)] := by
    decide +kernel
  refine ⟨by decide +kernel, listed, ?_⟩
  intro all
  have whole := all cutTree (bytesToHex (List.replicate 19 0xab)) (by
    rw [listed]
    exact List.mem_singleton_self _)
  rw [length_bytesToHex] at whole
  revert whole
  decide

end GitOnCloudflare.Core
