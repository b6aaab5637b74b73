import GitOnCloudflare.Foundations.CommonSubsequence
import GitOnCloudflare.Foundations.LineEdits
import Mathlib.Data.List.Induction

/-!
# The lines of a diff

The table of the lengths of common subsequences is filled row by row, in cells
of sixteen bits, and the directions that were taken are followed back from its
last corner.
-/

namespace GitOnCloudflare.Read

open Foundations
open Foundations.CommonSubsequence
open Foundations.LineEdits

/-! ## The table -/

/-- Where the length in a cell comes from. -/
inductive Direction where
  | common
  | above
  | beside
deriving DecidableEq

/-- The cells of one row from a column on: `diagonal` and `upper` are the cells
of the row before, `beside` is the last cell of this row. -/
def rowCells (oldLine : String) :
    List String → UInt16 → List UInt16 → UInt16 → List (UInt16 × Direction)
  | newLine :: newLines, diagonal, above :: upper, beside =>
    let cell :=
      if oldLine = newLine then
        (diagonal + 1, Direction.common)
      else if beside ≤ above then
        (above, Direction.above)
      else
        (beside, Direction.beside)
    cell :: rowCells oldLine newLines above upper cell.1
  | _, _, _, _ => []

/-- The directions of all rows, from the cells of the row before the first of
them; the column in front of the table holds zero. -/
def tableDirections (newLines : List String) :
    List String → List UInt16 → List (List Direction)
  | [], _ => []
  | oldLine :: oldLines, previous =>
    let current := rowCells oldLine newLines 0 previous 0
    current.map Prod.snd ::
      tableDirections newLines oldLines (current.map Prod.fst)

/-- Follow the directions back from a corner.  An operation that is found later
comes earlier. -/
def followBack (oldLines newLines : List String)
    (directions : List (List Direction)) :
    Nat → Nat → List (Edit String) → List (Edit String)
  | 0, 0, ops => ops
  | oldIndex + 1, 0, ops =>
    followBack oldLines newLines directions oldIndex 0
      (⟨.old, oldLines.getD oldIndex ""⟩ :: ops)
  | 0, newIndex + 1, ops =>
    followBack oldLines newLines directions 0 newIndex
      (⟨.new, newLines.getD newIndex ""⟩ :: ops)
  | oldIndex + 1, newIndex + 1, ops =>
    match (directions.getD oldIndex []).getD newIndex .above with
    | .common =>
      followBack oldLines newLines directions oldIndex newIndex
        (⟨.both, oldLines.getD oldIndex ""⟩ :: ops)
    | .beside =>
      followBack oldLines newLines directions (oldIndex + 1) newIndex
        (⟨.new, newLines.getD newIndex ""⟩ :: ops)
    | .above =>
      followBack oldLines newLines directions oldIndex (newIndex + 1)
        (⟨.old, oldLines.getD oldIndex ""⟩ :: ops)
termination_by oldIndex newIndex => oldIndex + newIndex

def diffLines (oldLines newLines : List String) : List (Edit String) :=
  if oldLines = [] ∧ newLines = [] then
    []
  else if oldLines = [] then
    newLines.map fun line => ⟨.new, line⟩
  else if newLines = [] then
    oldLines.map fun line => ⟨.old, line⟩
  else
    followBack oldLines newLines
      (tableDirections newLines oldLines (newLines.map fun _ => 0))
      oldLines.length newLines.length []

/-! ## What the table holds -/

/-- Cells that hold the lengths for a list of old lines, one for each new line
behind those before. -/
def Holds (oldLines : List String) :
    List String → List String → List UInt16 → Prop
  | _, [], cells => cells = []
  | before, newLine :: newLines, cells =>
    ∃ cell rest, cells = cell :: rest ∧
      Longest oldLines (before ++ [newLine]) cell.toNat ∧
      Holds oldLines (before ++ [newLine]) newLines rest

/-- What a direction says of the lengths at its cell. -/
def Justified (oldLines : List String) (oldLine : String)
    (newLines : List String) (newLine : String) : Direction → Prop
  | .common => oldLine = newLine
  | .above => ∃ length, Longest oldLines (newLines ++ [newLine]) length ∧
      Longest (oldLines ++ [oldLine]) (newLines ++ [newLine]) length
  | .beside => ∃ length, Longest (oldLines ++ [oldLine]) newLines length ∧
      Longest (oldLines ++ [oldLine]) (newLines ++ [newLine]) length

/-- A row of directions, each one justified. -/
def JustifiedRow (oldLines : List String) (oldLine : String) :
    List String → List String → List Direction → Prop
  | _, [], directions => directions = []
  | before, newLine :: newLines, directions =>
    ∃ direction rest, directions = direction :: rest ∧
      Justified oldLines oldLine before newLine direction ∧
      JustifiedRow oldLines oldLine (before ++ [newLine]) newLines rest

/-- No length exceeds what a cell holds. -/
theorem rowCells_spec {oldLines : List String} {oldLine : String}
    (fits : oldLines.length < 65535) {before newLines : List String}
    {diagonal beside : UInt16} {upper : List UInt16}
    (atDiagonal : Longest oldLines before diagonal.toNat)
    (atBeside : Longest (oldLines ++ [oldLine]) before beside.toNat)
    (above : Holds oldLines before newLines upper) :
    Holds (oldLines ++ [oldLine]) before newLines
        ((rowCells oldLine newLines diagonal upper beside).map Prod.fst) ∧
      JustifiedRow oldLines oldLine before newLines
        ((rowCells oldLine newLines diagonal upper beside).map Prod.snd) := by
  induction newLines generalizing before diagonal beside upper with
  | nil => exact ⟨rfl, rfl⟩
  | cons newLine newLines ih =>
    rcases above with ⟨cell, rest, rfl, atAbove, above⟩
    unfold rowCells
    dsimp only
    have step : ∀ {length : UInt16} {direction : Direction},
        Longest (oldLines ++ [oldLine]) (before ++ [newLine]) length.toNat →
          Justified oldLines oldLine before newLine direction →
            Holds (oldLines ++ [oldLine]) before (newLine :: newLines)
                (((length, direction) ::
                  rowCells oldLine newLines cell rest length).map Prod.fst) ∧
              JustifiedRow oldLines oldLine before (newLine :: newLines)
                (((length, direction) ::
                  rowCells oldLine newLines cell rest length).map
                    Prod.snd) := by
      intro length direction longest justified
      rcases ih atAbove longest above with ⟨cells, directions⟩
      exact ⟨⟨length, _, rfl, longest, cells⟩,
        ⟨direction, _, rfl, justified, directions⟩⟩
    by_cases same : oldLine = newLine
    · rw [if_pos same]
      have small := atDiagonal.le_length
      have next : (diagonal + 1).toNat = diagonal.toNat + 1 := by
        rw [UInt16.toNat_add]
        apply Nat.mod_eq_of_lt
        show diagonal.toNat + 1 < 65536
        omega
      apply step
      · rw [next, ← same]
        exact atDiagonal.concat_same oldLine
      · exact same
    · rw [if_neg same]
      have longest := atAbove.concat_ne same atBeside
      by_cases less : beside ≤ cell
      · rw [if_pos less]
        rw [Nat.max_eq_left (UInt16.le_iff_toNat_le.mp less)] at longest
        exact step longest ⟨_, atAbove, longest⟩
      · rw [if_neg less]
        have more : cell.toNat ≤ beside.toNat := by
          have not_le := mt UInt16.le_iff_toNat_le.mpr less
          omega
        rw [Nat.max_eq_right more] at longest
        exact step longest ⟨_, atBeside, longest⟩

variable {oldLines newLines : List String} {edits : List (Edit String)}
  {index length : Nat} {line : String}

theorem JustifiedRow.getD {before : List String} {oldLine : String}
    {directions : List Direction}
    (row : JustifiedRow oldLines oldLine before newLines directions)
    (inside : index < newLines.length) :
    Justified oldLines oldLine (before ++ newLines.take index)
      (newLines.getD index "") (directions.getD index .above) := by
  induction newLines generalizing before directions index with
  | nil => exact absurd inside (Nat.not_lt_zero index)
  | cons newLine newLines ih =>
    rcases row with ⟨direction, rest, rfl, justified, row⟩
    cases index with
    | zero =>
      rw [List.take_zero, List.append_nil]
      exact justified
    | succ index =>
      have later := ih row (Nat.lt_of_succ_lt_succ inside)
      rw [List.append_assoc] at later
      exact later

/-- Every direction of the table is justified. -/
theorem tableDirections_justified {newLines before oldLines : List String}
    (fits : before.length + oldLines.length ≤ 65535) {previous : List UInt16}
    (holds : Holds before [] newLines previous) {oldIndex newIndex : Nat}
    (oldInside : oldIndex < oldLines.length)
    (newInside : newIndex < newLines.length) :
    Justified (before ++ oldLines.take oldIndex) (oldLines.getD oldIndex "")
      (newLines.take newIndex) (newLines.getD newIndex "")
      (((tableDirections newLines oldLines previous).getD oldIndex []).getD
        newIndex .above) := by
  induction oldLines generalizing before previous oldIndex with
  | nil => exact absurd oldInside (Nat.not_lt_zero oldIndex)
  | cons oldLine oldLines ih =>
    rw [List.length_cons] at fits
    have zeros : (0 : UInt16).toNat = 0 := rfl
    rcases @rowCells_spec before oldLine (by omega) [] newLines 0 0 previous
        (zeros ▸ .nil_right before) (zeros ▸ .nil_right _) holds with
      ⟨current, directions⟩
    unfold tableDirections
    cases oldIndex with
    | zero =>
      rw [List.take_zero, List.append_nil]
      have row := directions.getD newInside
      rw [List.nil_append] at row
      exact row
    | succ oldIndex =>
      have fits' : (before ++ [oldLine]).length + oldLines.length ≤
          65535 := by
        rw [List.length_append, List.length_singleton]
        omega
      have later := ih fits' current (Nat.lt_of_succ_lt_succ oldInside)
      rw [List.append_assoc] at later
      exact later

/-- The row in front of the table. -/
theorem holds_zeros (before newLines : List String) :
    Holds [] before newLines (newLines.map fun _ => 0) := by
  induction newLines generalizing before with
  | nil => rfl
  | cons newLine newLines ih =>
    exact ⟨0, _, rfl, .nil_left _, ih _⟩

/-! ## What is followed back -/

theorem take_succ_getD {lines : List String} (inside : index < lines.length) :
    lines.take (index + 1) = lines.take index ++ [lines.getD index ""] := by
  rw [List.take_succ_eq_append_getElem inside, List.getD_eq_getElem?_getD,
    List.getElem?_eq_getElem inside, Option.getD_some]

/-- Edits between two lists with as many common lines as there can be. -/
structure EditsOf (oldLines newLines : List String)
    (edits : List (Edit String)) : Prop where
  old : oldSide edits = oldLines
  new : newSide edits = newLines
  longest : Longest oldLines newLines (commonCount edits)

theorem EditsOf.concat_old (editsOf : EditsOf oldLines newLines edits)
    (same : Longest oldLines newLines length)
    (longest : Longest (oldLines ++ [line]) newLines length) :
    EditsOf (oldLines ++ [line]) newLines (edits ++ [⟨.old, line⟩]) := by
  constructor
  · rw [oldSide_append, editsOf.old]
    rfl
  · rw [newSide_append, editsOf.new]
    exact List.append_nil newLines
  · rw [commonCount_append]
    rwa [same.unique editsOf.longest] at longest

theorem EditsOf.concat_new (editsOf : EditsOf oldLines newLines edits)
    (same : Longest oldLines newLines length)
    (longest : Longest oldLines (newLines ++ [line]) length) :
    EditsOf oldLines (newLines ++ [line]) (edits ++ [⟨.new, line⟩]) := by
  constructor
  · rw [oldSide_append, editsOf.old]
    exact List.append_nil oldLines
  · rw [newSide_append, editsOf.new]
    rfl
  · rw [commonCount_append]
    rwa [same.unique editsOf.longest] at longest

theorem EditsOf.concat_both (line : String)
    (editsOf : EditsOf oldLines newLines edits) :
    EditsOf (oldLines ++ [line]) (newLines ++ [line])
      (edits ++ [⟨.both, line⟩]) := by
  constructor
  · rw [oldSide_append, editsOf.old]
    rfl
  · rw [newSide_append, editsOf.new]
    rfl
  · rw [commonCount_append]
    exact editsOf.longest.concat_same line

section FollowBack

variable {oldLines newLines : List String} {directions : List (List Direction)}
  (justified : ∀ oldIndex < oldLines.length, ∀ newIndex < newLines.length,
    Justified (oldLines.take oldIndex) (oldLines.getD oldIndex "")
      (newLines.take newIndex) (newLines.getD newIndex "")
      ((directions.getD oldIndex []).getD newIndex .above))

include justified

/-- From every corner the edits of the lines in front of it are found. -/
theorem followBack_spec (oldIndex newIndex : Nat) (ops : List (Edit String))
    (oldInside : oldIndex ≤ oldLines.length)
    (newInside : newIndex ≤ newLines.length) :
    ∃ edits, followBack oldLines newLines directions oldIndex newIndex ops =
        edits ++ ops ∧
      EditsOf (oldLines.take oldIndex) (newLines.take newIndex) edits := by
  induction oldIndex, newIndex, ops using
    followBack.induct oldLines newLines directions with
  | case1 ops =>
    rw [followBack]
    exact ⟨[], rfl, rfl, rfl, .nil_left _⟩
  | case2 oldIndex ops ih =>
    rcases ih (Nat.le_of_succ_le oldInside) newInside with
      ⟨edits, found, editsOf⟩
    rw [followBack, found, take_succ_getD oldInside]
    refine ⟨edits ++ [⟨.old, _⟩], List.append_cons edits _ ops, ?_⟩
    exact editsOf.concat_old (.nil_right _) (.nil_right _)
  | case3 newIndex ops ih =>
    rcases ih oldInside (Nat.le_of_succ_le newInside) with
      ⟨edits, found, editsOf⟩
    rw [followBack, found, take_succ_getD newInside]
    refine ⟨edits ++ [⟨.new, _⟩], List.append_cons edits _ ops, ?_⟩
    exact editsOf.concat_new (.nil_left _) (.nil_left _)
  | case4 oldIndex newIndex ops direction ih =>
    rcases ih (Nat.le_of_succ_le oldInside) (Nat.le_of_succ_le newInside)
      with ⟨edits, found, editsOf⟩
    have same := justified oldIndex oldInside newIndex newInside
    rw [direction] at same
    rw [followBack, direction]
    dsimp only
    rw [found, take_succ_getD oldInside, take_succ_getD newInside, ← same]
    refine ⟨edits ++ [⟨.both, _⟩], List.append_cons edits _ ops, ?_⟩
    exact editsOf.concat_both _
  | case5 oldIndex newIndex ops direction ih =>
    rcases ih oldInside (Nat.le_of_succ_le newInside) with
      ⟨edits, found, editsOf⟩
    have same := justified oldIndex oldInside newIndex newInside
    rw [direction] at same
    rcases same with ⟨length, beside, corner⟩
    rw [← take_succ_getD oldInside] at beside corner
    rw [followBack, direction]
    dsimp only
    rw [found, take_succ_getD newInside]
    refine ⟨edits ++ [⟨.new, _⟩], List.append_cons edits _ ops, ?_⟩
    exact editsOf.concat_new beside corner
  | case6 oldIndex newIndex ops direction ih =>
    rcases ih (Nat.le_of_succ_le oldInside) newInside with
      ⟨edits, found, editsOf⟩
    have same := justified oldIndex oldInside newIndex newInside
    rw [direction] at same
    rcases same with ⟨length, above, corner⟩
    rw [← take_succ_getD newInside] at above corner
    rw [followBack, direction]
    dsimp only
    rw [found, take_succ_getD oldInside]
    refine ⟨edits ++ [⟨.old, _⟩], List.append_cons edits _ ops, ?_⟩
    exact editsOf.concat_old above corner

end FollowBack

/-- A list of lines that are all in one version. -/
theorem editsOf_new (newLines : List String) :
    EditsOf [] newLines (newLines.map fun line => ⟨.new, line⟩) := by
  induction newLines using List.reverseRecOn with
  | nil => exact ⟨rfl, rfl, .nil_left _⟩
  | append_singleton newLines line ih =>
    rw [List.map_append]
    exact ih.concat_new (.nil_left _) (.nil_left _)

theorem editsOf_old (oldLines : List String) :
    EditsOf oldLines [] (oldLines.map fun line => ⟨.old, line⟩) := by
  induction oldLines using List.reverseRecOn with
  | nil => exact ⟨rfl, rfl, .nil_left _⟩
  | append_singleton oldLines line ih =>
    rw [List.map_append]
    exact ih.concat_old (.nil_right _) (.nil_right _)

theorem diffLines_spec (newLines : List String) (fits : oldLines.length ≤ 65535) :
    EditsOf oldLines newLines (diffLines oldLines newLines) := by
  unfold diffLines
  split
  · next both =>
      rw [both.1, both.2]
      exact editsOf_new []
  split
  · next noOld =>
      rw [noOld]
      exact editsOf_new newLines
  split
  · next noNew =>
      rw [noNew]
      exact editsOf_old oldLines
  · have justified := fun oldIndex oldInside newIndex newInside =>
      @tableDirections_justified newLines [] oldLines
        (by rw [List.length_nil]; omega) _ (holds_zeros [] newLines)
        oldIndex newIndex oldInside newInside
    rcases followBack_spec justified oldLines.length newLines.length []
        (Nat.le_refl _) (Nat.le_refl _) with ⟨edits, found, editsOf⟩
    rw [found, List.append_nil]
    rwa [List.take_length, List.take_length] at editsOf

end GitOnCloudflare.Read
