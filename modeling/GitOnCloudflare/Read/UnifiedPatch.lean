import GitOnCloudflare.Foundations.Text
import GitOnCloudflare.Read.DiffLines
import Mathlib.Data.List.Sort

/-!
# Unified patches

The changed operations of a diff are widened by their context, ranges that
touch are merged, and every range is printed as a hunk with the numbers of its
lines.
-/

namespace GitOnCloudflare.Read

open Foundations
open Foundations.CommonSubsequence
open Foundations.LineEdits

/-! ## Lines -/

/-- `text.replace(/\r\n/g, "\n")`. -/
def normalizeLineEnds : List Char → List Char
  | '\r' :: '\n' :: rest => '\n' :: normalizeLineEnds rest
  | char :: rest => char :: normalizeLineEnds rest
  | [] => []

def toPatchLines (text : String) : List String :=
  let normalized := normalizeLineEnds text.toList
  if normalized = [] then
    []
  else
    let lines := (Text.splitChars (fun char => char = '\n') normalized).map
      String.ofList
    if normalized.getLast? = some '\n' then lines.dropLast else lines

/-! ## Ranges -/

inductive ChangeType where
  | added
  | modified
  | deleted
deriving DecidableEq

def contextLines : Nat := 3

def changeIndexes (ops : List (Edit String)) : List Nat :=
  (ops.zipIdx.filter fun pair => pair.1.side ≠ .both).map Prod.snd

/-- Widen the last range or begin another one, index by index. -/
def extendRanges (total : Nat) : Span → List Nat → List Span
  | lastRange, [] => [lastRange]
  | lastRange, index :: indexes =>
    let start := index - contextLines
    let stop := min total (index + contextLines + 1)
    if start ≤ lastRange.stop then
      extendRanges total ⟨lastRange.start, max lastRange.stop stop⟩ indexes
    else
      lastRange :: extendRanges total ⟨start, stop⟩ indexes

def changeRanges (total : Nat) : List Nat → List Span
  | [] => []
  | index :: indexes =>
    extendRanges total
      ⟨index - contextLines, min total (index + contextLines + 1)⟩ indexes

/-- The number of the line at an operation, where `skipped` operations have no
line. -/
def lineStart (skipped : Side) (ops : List (Edit String)) : Nat → Nat
  | 0 => 1
  | index + 1 =>
    lineStart skipped ops index +
      if (ops[index]?.map Edit.side) = some skipped then 0 else 1

def countLines (skipped : Side) (ops : List (Edit String)) : Nat :=
  ops.foldl (fun count op => count + if op.side = skipped then 0 else 1) 0

/-! ## The patch -/

def formatUnifiedRange (start count : Nat) : String :=
  if count = 0 then
    toString (start - 1) ++ ",0"
  else if count = 1 then
    toString start
  else
    toString start ++ "," ++ toString count

def oldLabel (path : String) (changeType : ChangeType) : String :=
  if changeType = .added then "/dev/null" else "a/" ++ path

def newLabel (path : String) (changeType : ChangeType) : String :=
  if changeType = .deleted then "/dev/null" else "b/" ++ path

def patchRange (ops : List (Edit String)) (range : Span) : List String :=
  let hunkOps := slice ops range
  ("@@ -" ++
      formatUnifiedRange (lineStart .new ops range.start)
        (countLines .new hunkOps) ++ " +" ++
      formatUnifiedRange (lineStart .old ops range.start)
        (countLines .old hunkOps) ++ " @@") ::
    hunkOps.map fun op => op.side.mark ++ op.line

def buildUnifiedPatch (path : String) (changeType : ChangeType)
    (oldText newText : String) : String :=
  let ops := diffLines (toPatchLines oldText) (toPatchLines newText)
  let indexes := changeIndexes ops
  if indexes = [] then
    "--- " ++ oldLabel path changeType ++ "\n+++ " ++
      newLabel path changeType ++ "\n"
  else
    String.intercalate "\n"
      (("--- " ++ oldLabel path changeType) ::
        ("+++ " ++ newLabel path changeType) ::
          (changeRanges ops.length indexes).flatMap (patchRange ops)) ++ "\n"

/-! ## The ranges cut around the changes -/

variable {ops : List (Edit String)} {index : Nat}

theorem mem_changeIndexes :
    index ∈ changeIndexes ops ↔ IsChange ops index := by
  unfold changeIndexes IsChange
  constructor
  · intro member
    rcases List.mem_map.mp member with ⟨⟨op, place⟩, kept, rfl⟩
    rcases List.mem_filter.mp kept with ⟨found, side⟩
    exact ⟨op, List.mem_zipIdx_iff_getElem?.mp found, of_decide_eq_true side⟩
  · rintro ⟨op, found, side⟩
    apply List.mem_map.mpr
    refine ⟨(op, index), List.mem_filter.mpr ⟨?_, decide_eq_true side⟩, rfl⟩
    exact List.mem_zipIdx_iff_getElem?.mpr found

theorem changeIndexes_sorted (ops : List (Edit String)) :
    (changeIndexes ops).Pairwise (· < ·) := by
  unfold changeIndexes
  apply List.Pairwise.sublist (List.filter_sublist.map Prod.snd)
  rw [List.zipIdx_map_snd]
  exact List.pairwise_lt_range'

/-- The positions at most three away from an index. -/
def Near (total index position : Nat) : Prop :=
  index - contextLines ≤ position ∧
    position < min total (index + contextLines + 1)

/-- What the ranges behind a list of indexes are, with the last range before
them. -/
structure RangesBehind (total : Nat) (lastRange : Span) (indexes : List Nat)
    (ranges : List Span) : Prop where
  ordered : ranges.Pairwise fun earlier later => earlier.stop < later.start
  within : ∀ range ∈ ranges, range.start < range.stop ∧ range.stop ≤ total
  behind : ∀ range ∈ ranges, lastRange.start ≤ range.start
  covers : ∀ position, (∃ range ∈ ranges, range.Contains position) ↔
    lastRange.Contains position ∨
      ∃ index ∈ indexes, Near total index position

theorem extendRanges_spec {total : Nat} {lastRange : Span} {indexes : List Nat}
    (proper : lastRange.start < lastRange.stop ∧ lastRange.stop ≤ total)
    (sorted : indexes.Pairwise (· < ·)) (inside : ∀ index ∈ indexes, index < total)
    (later : ∀ index ∈ indexes, lastRange.start ≤ index - contextLines ∧
      lastRange.stop ≤ min total (index + contextLines + 1)) :
    RangesBehind total lastRange indexes
      (extendRanges total lastRange indexes) := by
  induction indexes generalizing lastRange with
  | nil =>
    constructor
    · exact List.pairwise_singleton _ _
    · intro range member
      rw [List.mem_singleton.mp member]
      exact proper
    · intro range member
      rw [List.mem_singleton.mp member]
    · intro position
      constructor
      · rintro ⟨range, member, contains⟩
        rw [List.mem_singleton.mp member] at contains
        exact .inl contains
      · rintro (contains | ⟨index, none_, _⟩)
        · exact ⟨lastRange, List.mem_singleton_self _, contains⟩
        · cases none_
  | cons index indexes ih =>
    rcases List.pairwise_cons.mp sorted with ⟨least, sorted⟩
    have here := inside index List.mem_cons_self
    have bounds := later index List.mem_cons_self
    have rest : ∀ other ∈ indexes, other < total :=
      fun other member => inside other (List.mem_cons_of_mem _ member)
    unfold extendRanges
    dsimp only
    unfold contextLines at bounds later ih ⊢
    split
    · next touches =>
        have ranges := @ih
          ⟨lastRange.start, max lastRange.stop (min total (index + 3 + 1))⟩
          ⟨by dsimp only; omega, by dsimp only; omega⟩ sorted rest (by
            intro other member
            have after := least other member
            dsimp only
            omega)
        refine ⟨ranges.ordered, ranges.within, ranges.behind, ?_⟩
        intro position
        rw [ranges.covers position]
        constructor
        · rintro (contains | ⟨other, member, near⟩)
          · rcases Nat.lt_or_ge position lastRange.stop with before | after
            · exact .inl ⟨contains.1, before⟩
            · have upper := contains.2
              dsimp only at upper
              refine .inr ⟨index, List.mem_cons_self, ?_, ?_⟩
              · unfold contextLines
                omega
              · unfold contextLines
                omega
          · exact .inr ⟨other, List.mem_cons_of_mem _ member, near⟩
        · rintro (contains | ⟨other, member, near⟩)
          · refine .inl ⟨contains.1, ?_⟩
            have upper := contains.2
            dsimp only
            omega
          · rcases List.mem_cons.mp member with rfl | member
            · rcases near with ⟨lower, upper⟩
              unfold contextLines at lower upper
              refine .inl ⟨?_, ?_⟩
              · dsimp only
                omega
              · dsimp only
                omega
            · exact .inr ⟨other, member, near⟩
    · next apart =>
        have ranges := @ih ⟨index - 3, min total (index + 3 + 1)⟩
          ⟨by dsimp only; omega, by dsimp only; omega⟩ sorted rest (by
            intro other member
            have after := least other member
            dsimp only
            omega)
        constructor
        · apply List.pairwise_cons.mpr
          refine ⟨?_, ranges.ordered⟩
          intro range member
          have behind := ranges.behind range member
          dsimp only at behind
          omega
        · intro range member
          rcases List.mem_cons.mp member with rfl | member
          · exact proper
          · exact ranges.within range member
        · intro range member
          rcases List.mem_cons.mp member with rfl | member
          · exact Nat.le_refl _
          · exact bounds.1.trans (ranges.behind range member)
        · intro position
          constructor
          · rintro ⟨range, member, contains⟩
            rcases List.mem_cons.mp member with rfl | member
            · exact .inl contains
            · rcases (ranges.covers position).mp ⟨range, member, contains⟩
                with first | ⟨other, listed, near⟩
              · exact .inr ⟨index, List.mem_cons_self, first.1, first.2⟩
              · exact .inr ⟨other, List.mem_cons_of_mem _ listed, near⟩
          · rintro (contains | ⟨other, member, near⟩)
            · exact ⟨lastRange, List.mem_cons_self, contains⟩
            · have found : ∃ range ∈ extendRanges total
                  ⟨index - 3, min total (index + 3 + 1)⟩ indexes,
                    range.Contains position := by
                apply (ranges.covers position).mpr
                rcases List.mem_cons.mp member with rfl | member
                · exact .inl ⟨near.1, near.2⟩
                · exact .inr ⟨other, member, near⟩
              rcases found with ⟨range, listed, contains⟩
              exact ⟨range, List.mem_cons_of_mem _ listed, contains⟩

theorem near_iff {total position : Nat} (inside : position < total) :
    Near total index position ↔
      position ≤ index + contextLines ∧ index ≤ position + contextLines := by
  unfold Near
  omega

theorem changeRanges_cuts (ops : List (Edit String)) :
    CutsAround contextLines ops (changeRanges ops.length (changeIndexes ops)) := by
  have sorted := changeIndexes_sorted ops
  have changes : ∀ index, index ∈ changeIndexes ops ↔ IsChange ops index :=
    fun _ => mem_changeIndexes
  have inside : ∀ index ∈ changeIndexes ops, index < ops.length := by
    intro index member
    rcases mem_changeIndexes.mp member with ⟨_, found, _⟩
    exact (List.getElem?_eq_some_iff.mp found).1
  generalize changeIndexes ops = indexes at sorted changes inside
  cases indexes with
  | nil =>
    refine ⟨List.Pairwise.nil, nofun, ?_⟩
    intro index _
    constructor
    · rintro ⟨_, none_, _⟩
      cases none_
    · rintro ⟨change, changes', _⟩
      cases (changes change).mpr changes'
  | cons index indexes =>
    rcases List.pairwise_cons.mp sorted with ⟨least, sorted⟩
    have here := inside index List.mem_cons_self
    have ranges := @extendRanges_spec ops.length
      ⟨index - contextLines, min ops.length (index + contextLines + 1)⟩
      indexes ⟨by dsimp only; omega, by dsimp only; omega⟩ sorted
      (fun other member => inside other (List.mem_cons_of_mem _ member)) (by
        intro other member
        have after := least other member
        dsimp only
        omega)
    refine ⟨ranges.ordered, ranges.within, ?_⟩
    intro position within
    have covers := ranges.covers position
    unfold changeRanges
    rw [covers]
    constructor
    · rintro (first | ⟨other, member, near⟩)
      · have near : Near ops.length index position := ⟨first.1, first.2⟩
        exact ⟨index, (changes index).mp List.mem_cons_self,
          (near_iff within).mp near⟩
      · exact ⟨other, (changes other).mp (List.mem_cons_of_mem _ member),
          (near_iff within).mp near⟩
    · rintro ⟨change, changes', near⟩
      have near := (near_iff within).mpr near
      rcases List.mem_cons.mp ((changes change).mpr changes') with rfl | member
      · exact .inl ⟨near.1, near.2⟩
      · exact .inr ⟨change, member, near⟩

/-! ## What is printed -/

theorem length_oldSide_cons (op : Edit String) (ops : List (Edit String)) :
    (oldSide (op :: ops)).length =
      (oldSide ops).length + if op.side = .new then 0 else 1 := by
  unfold oldSide
  rw [List.filter_cons]
  by_cases new : op.side = .new
  · rw [if_pos new, if_neg (by rw [new]; decide)]
    rfl
  · rw [if_neg new, if_pos (decide_eq_true new)]
    rfl

theorem length_newSide_cons (op : Edit String) (ops : List (Edit String)) :
    (newSide (op :: ops)).length =
      (newSide ops).length + if op.side = .old then 0 else 1 := by
  unfold newSide
  rw [List.filter_cons]
  by_cases old : op.side = .old
  · rw [if_pos old, if_neg (by rw [old]; decide)]
    rfl
  · rw [if_neg old, if_pos (decide_eq_true old)]
    rfl

/-- A count of lines that leaves one side out, as a sum over the operations. -/
structure CountsLines (skipped : Side) (side : List (Edit String) → List String) :
    Prop where
  nil : side [] = []
  cons : ∀ op ops, (side (op :: ops)).length =
    (side ops).length + if op.side = skipped then 0 else 1
  append : ∀ before after, side (before ++ after) = side before ++ side after

theorem countsLines_old : CountsLines .new oldSide :=
  ⟨rfl, length_oldSide_cons, oldSide_append⟩

theorem countsLines_new : CountsLines .old newSide :=
  ⟨rfl, length_newSide_cons, newSide_append⟩

variable {skipped : Side} {side : List (Edit String) → List String}

theorem CountsLines.countLines (counts : CountsLines skipped side)
    (ops : List (Edit String)) :
    Read.countLines skipped ops = (side ops).length := by
  have from_ : ∀ start, ops.foldl
      (fun count op => count + if op.side = skipped then 0 else 1) start =
        start + (side ops).length := by
    induction ops with
    | nil =>
      intro start
      rw [counts.nil]
      rfl
    | cons op ops ih =>
      intro start
      rw [List.foldl_cons, ih, counts.cons]
      omega
  rw [Read.countLines, from_, Nat.zero_add]

theorem CountsLines.lineStart (counts : CountsLines skipped side)
    (inside : index ≤ ops.length) :
    Read.lineStart skipped ops index = (side (ops.take index)).length + 1 := by
  induction index with
  | zero =>
    rw [List.take_zero, counts.nil]
    rfl
  | succ index ih =>
    have single := counts.cons ops[index] []
    rw [counts.nil, List.length_nil, Nat.zero_add] at single
    rw [Read.lineStart, ih (Nat.le_of_succ_le inside),
      List.take_succ_eq_append_getElem inside, counts.append,
      List.length_append, single, List.getElem?_eq_getElem inside,
      Option.map_some]
    simp only [Option.some.injEq]
    omega

theorem formatUnifiedRange_eq (before count : Nat) :
    formatUnifiedRange (before + 1) count = rangeText before count := rfl

/-- A printed range is a hunk, printed by the rules. -/
theorem patchRange_eq {range : Span} (inside : range.start ≤ ops.length) :
    patchRange ops range = (hunkOf ops range).lines := by
  unfold patchRange Hunk.lines
  dsimp only
  rw [countsLines_old.lineStart inside, countsLines_new.lineStart inside,
    countsLines_old.countLines, countsLines_new.countLines,
    formatUnifiedRange_eq, formatUnifiedRange_eq]
  rfl

theorem buildUnifiedPatch_eq (path : String) (changeType : ChangeType)
    (oldText newText : String) :
    let ops := diffLines (toPatchLines oldText) (toPatchLines newText)
    buildUnifiedPatch path changeType oldText newText =
      printPatch (oldLabel path changeType) (newLabel path changeType)
        ((changeRanges ops.length (changeIndexes ops)).map (hunkOf ops)) := by
  intro ops
  have cuts := changeRanges_cuts ops
  have printed :
      (changeRanges ops.length (changeIndexes ops)).flatMap (patchRange ops) =
        ((changeRanges ops.length (changeIndexes ops)).map
          (hunkOf ops)).flatMap Hunk.lines := by
    rw [List.flatMap_map]
    apply List.flatMap_congr
    intro range member
    have within := cuts.within range member
    exact patchRange_eq (by omega)
  unfold buildUnifiedPatch printPatch
  dsimp only
  rw [← printed]
  split
  · next none_ =>
      rw [show changeIndexes ops = [] from none_]
      have mark : "\n+++ " = "\n" ++ "+++ " := by decide
      unfold changeRanges
      rw [List.flatMap_nil, mark]
      simp only [String.intercalate_cons_cons, String.intercalate_singleton,
        String.append_assoc]
  · rfl

/-- The operations are edits of the two lists with as many common lines as
there can be.  The patch prints hunks of them, one behind the other, that hold
every change with the three lines around it, stand where they say and turn the
old lines into the new ones. -/
theorem unifiedPatch_correct (oldLines newLines : List String)
    (oldFits : oldLines.length ≤ 65535) :
    oldSide (diffLines oldLines newLines) = oldLines ∧
      newSide (diffLines oldLines newLines) = newLines ∧
      Longest oldLines newLines (commonCount (diffLines oldLines newLines)) ∧
      ∀ path changeType oldText newText, toPatchLines oldText = oldLines →
        toPatchLines newText = newLines →
          ∃ ranges,
            CutsAround 3 (diffLines oldLines newLines) ranges ∧
            let hunks := ranges.map (hunkOf (diffLines oldLines newLines))
            buildUnifiedPatch path changeType oldText newText =
                printPatch (oldLabel path changeType) (newLabel path changeType)
                  hunks ∧
              hunks.Pairwise Hunk.Precedes ∧
              (∀ hunk ∈ hunks, hunk.Describes oldLines newLines) ∧
              applyHunks hunks 0 oldLines = some newLines := by
  have editsOf := diffLines_spec newLines oldFits
  refine ⟨editsOf.old, editsOf.new, editsOf.longest, ?_⟩
  rintro path changeType oldText newText rfl rfl
  have cuts := changeRanges_cuts
    (diffLines (toPatchLines oldText) (toPatchLines newText))
  refine ⟨_, cuts, buildUnifiedPatch_eq path changeType oldText newText,
    cuts.hunks_ordered, ?_, ?_⟩
  · intro hunk member
    rcases List.mem_map.mp member with ⟨range, listed, rfl⟩
    have described := hunkOf_describes
      (diffLines (toPatchLines oldText) (toPatchLines newText))
      (Nat.le_of_lt (cuts.within range listed).1)
    rwa [editsOf.old, editsOf.new] at described
  · have applied := cuts.applyHunks
    rwa [editsOf.old, editsOf.new] at applied

/-- One line of three is replaced. -/
theorem unifiedPatch_correct_replaced :
    ∃ ranges : List Span,
      buildUnifiedPatch "file" .modified "a\nb\nc\n" "a\nd\nc\n" =
          printPatch "a/file" "b/file"
            (ranges.map (hunkOf (diffLines ["a", "b", "c"] ["a", "d", "c"]))) ∧
        applyHunks (ranges.map
            (hunkOf (diffLines ["a", "b", "c"] ["a", "d", "c"]))) 0
          ["a", "b", "c"] = some ["a", "d", "c"] := by
  rcases (unifiedPatch_correct ["a", "b", "c"] ["a", "d", "c"]
      (by decide)).2.2.2 "file" .modified "a\nb\nc\n" "a\nd\nc\n"
      (by decide) (by decide) with ⟨ranges, _, printed, _, _, applied⟩
  exact ⟨ranges, printed, applied⟩

end GitOnCloudflare.Read
