import Mathlib.Data.List.Basic

/-!
# Edits of a list of lines

A list of lines that are in both versions or in one of them.  Hunks cut from it
are printed by the rules of unified diffs, and are applied to the old version.
-/

namespace GitOnCloudflare.Foundations.LineEdits

universe u

/-! ## Edits -/

inductive Side where
  | both
  | old
  | new
deriving DecidableEq

structure Edit (Line : Type u) where
  side : Side
  line : Line

variable {Line : Type u}

/-- The lines of the old version. -/
def oldSide (edits : List (Edit Line)) : List Line :=
  (edits.filter fun edit => edit.side ≠ .new).map Edit.line

/-- The lines of the new version. -/
def newSide (edits : List (Edit Line)) : List Line :=
  (edits.filter fun edit => edit.side ≠ .old).map Edit.line

/-- How many lines are in both. -/
def commonCount (edits : List (Edit Line)) : Nat :=
  edits.countP fun edit => edit.side = .both

theorem oldSide_append (before after : List (Edit Line)) :
    oldSide (before ++ after) = oldSide before ++ oldSide after := by
  unfold oldSide
  rw [List.filter_append, List.map_append]

theorem newSide_append (before after : List (Edit Line)) :
    newSide (before ++ after) = newSide before ++ newSide after := by
  unfold newSide
  rw [List.filter_append, List.map_append]

theorem commonCount_append (before after : List (Edit Line)) :
    commonCount (before ++ after) = commonCount before + commonCount after :=
  List.countP_append

/-- Lines that are all in both versions. -/
theorem oldSide_eq_newSide {edits : List (Edit Line)}
    (same : ∀ edit ∈ edits, edit.side = .both) :
    oldSide edits = newSide edits := by
  unfold oldSide newSide
  congr 1
  apply List.filter_congr
  intro edit member
  rw [same edit member]
  rfl

/-! ## Hunks -/

/-- The edits from `start` up to `stop`. -/
structure Span where
  start : Nat
  stop : Nat

def Span.Contains (span : Span) (index : Nat) : Prop :=
  span.start ≤ index ∧ index < span.stop

/-- Edits, and how many lines of either version stand before them. -/
structure Hunk (Line : Type u) where
  oldBefore : Nat
  newBefore : Nat
  edits : List (Edit Line)

def slice (edits : List (Edit Line)) (span : Span) : List (Edit Line) :=
  (edits.drop span.start).take (span.stop - span.start)

def hunkOf (edits : List (Edit Line)) (span : Span) : Hunk Line where
  oldBefore := (oldSide (edits.take span.start)).length
  newBefore := (newSide (edits.take span.start)).length
  edits := slice edits span

/-- Put the new lines of the hunks in the place of their old lines, which must
stand where the hunks say. -/
def applyHunks [DecidableEq Line] :
    List (Hunk Line) → Nat → List Line → Option (List Line)
  | [], _, lines => some lines
  | hunk :: hunks, consumed, lines =>
    if hunk.oldBefore < consumed then
      none
    else
      let gap := hunk.oldBefore - consumed
      if (oldSide hunk.edits).isPrefixOf (lines.drop gap) then
        (applyHunks hunks (hunk.oldBefore + (oldSide hunk.edits).length)
          ((lines.drop gap).drop (oldSide hunk.edits).length)).map fun rest =>
            lines.take gap ++ newSide hunk.edits ++ rest
      else
        none

def IsChange (edits : List (Edit Line)) (index : Nat) : Prop :=
  ∃ edit, edits[index]? = some edit ∧ edit.side ≠ .both

/-- Spans, apart from one another and in order, of exactly the edits that are
at most `context` away from a change. -/
structure CutsAround (context : Nat) (edits : List (Edit Line))
    (spans : List Span) : Prop where
  ordered : spans.Pairwise fun earlier later => earlier.stop < later.start
  within : ∀ span ∈ spans, span.start < span.stop ∧ span.stop ≤ edits.length
  covers : ∀ index < edits.length,
    (∃ span ∈ spans, span.Contains index) ↔
      ∃ change, IsChange edits change ∧ index ≤ change + context ∧
        change ≤ index + context

/-- The old and the new lines of a hunk stand where it says. -/
structure Hunk.Describes (hunk : Hunk Line) (oldLines newLines : List Line) :
    Prop where
  old : (oldLines.drop hunk.oldBefore).take (oldSide hunk.edits).length =
    oldSide hunk.edits
  new : (newLines.drop hunk.newBefore).take (newSide hunk.edits).length =
    newSide hunk.edits

/-- All lines of the one hunk stand before those of the other. -/
structure Hunk.Precedes (earlier later : Hunk Line) : Prop where
  old : earlier.oldBefore + (oldSide earlier.edits).length < later.oldBefore
  new : earlier.newBefore + (newSide earlier.edits).length < later.newBefore

section Cuts

variable {context : Nat} {edits : List (Edit Line)} {spans : List Span}
  {span : Span}

theorem take_append_slice (edits : List (Edit Line))
    (ordered : span.start ≤ span.stop) :
    edits.take span.start ++ slice edits span = edits.take span.stop := by
  have split : span.stop = span.start + (span.stop - span.start) := by omega
  rw [split, List.take_add]
  rfl

theorem slice_append_drop (edits : List (Edit Line))
    (ordered : span.start ≤ span.stop) :
    slice edits span ++ edits.drop span.stop = edits.drop span.start := by
  have split : span.stop = span.start + (span.stop - span.start) := by omega
  rw [split, ← List.drop_drop]
  exact List.take_append_drop _ _

theorem hunkOf_describes (edits : List (Edit Line))
    (ordered : span.start ≤ span.stop) :
    (hunkOf edits span).Describes (oldSide edits) (newSide edits) := by
  have split : edits =
      edits.take span.start ++ (slice edits span ++ edits.drop span.stop) := by
    rw [slice_append_drop edits ordered, List.take_append_drop]
  constructor
  · show ((oldSide edits).drop (oldSide (edits.take span.start)).length).take
      (oldSide (slice edits span)).length = oldSide (slice edits span)
    conv_lhs =>
      rw [split]
    rw [oldSide_append, oldSide_append, ← split, List.drop_left, List.take_left]
  · show ((newSide edits).drop (newSide (edits.take span.start)).length).take
      (newSide (slice edits span)).length = newSide (slice edits span)
    conv_lhs =>
      rw [split]
    rw [newSide_append, newSide_append, ← split, List.drop_left, List.take_left]

/-- Between two positions without a change stand common lines only. -/
theorem both_of_quiet {start stop : Nat}
    (quiet : ∀ change, IsChange edits change → start ≤ change → stop ≤ change) :
    ∀ edit ∈ (edits.drop start).take (stop - start), edit.side = .both := by
  intro edit member
  rcases List.getElem?_of_mem member with ⟨index, found⟩
  have near := (List.getElem?_eq_some_iff.mp found).1
  rw [List.length_take] at near
  rw [List.getElem?_take_of_lt (by omega), List.getElem?_drop] at found
  by_contra change
  have far := quiet (start + index) ⟨edit, found, change⟩ (Nat.le_add_right ..)
  omega

/-- The hunks behind a position turn the old lines behind it into the new
ones. -/
theorem applyHunks_behind [DecidableEq Line] {start : Nat}
    (ordered : spans.Pairwise fun earlier later => earlier.stop < later.start)
    (within : ∀ span ∈ spans, span.start < span.stop)
    (behind : ∀ span ∈ spans, start ≤ span.start)
    (reached : ∀ change, IsChange edits change → start ≤ change →
      ∃ span ∈ spans, span.Contains change) :
    applyHunks (spans.map (hunkOf edits)) (oldSide (edits.take start)).length
        (oldSide (edits.drop start)) = some (newSide (edits.drop start)) := by
  induction spans generalizing start with
  | nil =>
    have quiet : ∀ edit ∈ edits.drop start, edit.side = .both := by
      have all := @both_of_quiet _ edits start (start + edits.length)
      rw [Nat.add_sub_cancel_left, List.take_of_length_le] at all
      · apply all
        intro change changes late
        rcases reached change changes late with ⟨_, none_, _⟩
        cases none_
      · rw [List.length_drop]
        omega
    rw [List.map_nil, applyHunks, oldSide_eq_newSide quiet]
  | cons span spans ih =>
    rcases List.pairwise_cons.mp ordered with ⟨first, ordered⟩
    have early := behind span List.mem_cons_self
    have proper := within span List.mem_cons_self
    -- the lines up to the hunk are common
    have quiet : ∀ change, IsChange edits change → start ≤ change →
        span.start ≤ change := by
      intro change changes late
      rcases reached change changes late with ⟨other, member, contains⟩
      rcases List.mem_cons.mp member with rfl | later
      · exact contains.1
      · have apart := first other later
        have before := contains.1
        omega
    have common := oldSide_eq_newSide (both_of_quiet quiet)
    generalize gap_eq :
      (edits.drop start).take (span.start - start) = gap at common
    have taken : edits.take span.start = edits.take start ++ gap := by
      rw [← gap_eq, ← List.take_add]
      congr 1
      omega
    have split : edits.drop start =
        gap ++ (slice edits span ++ edits.drop span.stop) := by
      rw [slice_append_drop edits (Nat.le_of_lt proper), ← gap_eq]
      have same : span.start = start + (span.start - start) := by omega
      conv_rhs =>
        rw [same, ← List.drop_drop]
      rw [← same, List.take_append_drop]
    have placed : (hunkOf edits span).oldBefore =
        (oldSide (edits.take start)).length + (oldSide gap).length := by
      show (oldSide (edits.take span.start)).length = _
      rw [taken, oldSide_append, List.length_append]
    have ended : (oldSide (edits.take start)).length + (oldSide gap).length +
        (oldSide (slice edits span)).length =
          (oldSide (edits.take span.stop)).length := by
      rw [← take_append_slice edits (Nat.le_of_lt proper), taken, oldSide_append,
        oldSide_append, List.length_append, List.length_append]
    have rest := @ih span.stop ordered
      (fun other member => within other (List.mem_cons_of_mem _ member))
      (fun other member => Nat.le_of_lt (first other member)) (by
        intro change changes late
        rcases reached change changes (by omega) with
          ⟨other, member, contains⟩
        rcases List.mem_cons.mp member with rfl | later
        · exact absurd contains.2 (Nat.not_lt.mpr late)
        · exact ⟨other, later, contains⟩)
    have edits_eq : (hunkOf edits span).edits = slice edits span := rfl
    rw [List.map_cons, applyHunks, placed, if_neg (by omega),
      Nat.add_sub_cancel_left, split, oldSide_append, oldSide_append,
      newSide_append, newSide_append, edits_eq]
    dsimp only
    rw [List.drop_left, if_pos (List.isPrefixOf_iff_prefix.mpr
      (List.prefix_append _ _)), List.drop_left, List.take_left, ended, rest,
      Option.map_some, common, List.append_assoc]

/-- Hunks around all changes make the new lines of the old ones. -/
theorem CutsAround.applyHunks [DecidableEq Line]
    (cuts : CutsAround context edits spans) :
    applyHunks (spans.map (hunkOf edits)) 0 (oldSide edits) =
      some (newSide edits) := by
  apply @applyHunks_behind Line edits spans _ 0 cuts.ordered
  · exact fun span member => (cuts.within span member).1
  · exact fun span _ => Nat.zero_le span.start
  · rintro change ⟨edit, found, side⟩ _
    have inside := (List.getElem?_eq_some_iff.mp found).1
    exact (cuts.covers change inside).mpr
      ⟨change, ⟨edit, found, side⟩, Nat.le_add_right .., Nat.le_add_right ..⟩

/-- No change stands right behind a hunk. -/
theorem CutsAround.common_at_stop (cuts : CutsAround context edits spans)
    (member : span ∈ spans) : ¬ IsChange edits span.stop := by
  rintro ⟨edit, found, side⟩
  have inside := (List.getElem?_eq_some_iff.mp found).1
  rcases (cuts.covers span.stop inside).mpr
      ⟨span.stop, ⟨edit, found, side⟩, Nat.le_add_right .., Nat.le_add_right ..⟩
    with ⟨other, member', contains⟩
  have proper := (cuts.within span member).1
  have proper' := (cuts.within other member').1
  rcases contains with ⟨after, before⟩
  rcases List.mem_iff_getElem.mp member with ⟨here, here_lt, rfl⟩
  rcases List.mem_iff_getElem.mp member' with ⟨there, there_lt, rfl⟩
  have apart := List.pairwise_iff_getElem.mp cuts.ordered
  rcases Nat.lt_trichotomy here there with earlier | rfl | later
  · have far := apart here there here_lt there_lt earlier
    omega
  · exact Nat.lt_irrefl _ before
  · have far := apart there here there_lt here_lt later
    omega

/-- The hunks stand one behind the other in both versions. -/
theorem CutsAround.hunks_ordered (cuts : CutsAround context edits spans) :
    (spans.map (hunkOf edits)).Pairwise Hunk.Precedes := by
  rw [List.pairwise_map]
  apply List.Pairwise.imp_of_mem _ cuts.ordered
  intro earlier later member member' apart
  have proper := (cuts.within earlier member).1
  have proper' := cuts.within later member'
  have inside : earlier.stop < edits.length := by omega
  have found := List.getElem?_eq_getElem inside
  have both : edits[earlier.stop].side = .both := by
    by_contra side
    exact cuts.common_at_stop member ⟨_, found, side⟩
  have split : edits.take later.start = edits.take earlier.stop ++
      (edits[earlier.stop] :: (edits.drop (earlier.stop + 1)).take
        (later.start - (earlier.stop + 1))) := by
    have same : later.start =
        earlier.stop + 1 + (later.start - (earlier.stop + 1)) := by omega
    conv_lhs =>
      rw [same, List.take_add]
    rw [List.take_succ_eq_append_getElem inside, List.append_assoc]
    rfl
  constructor
  · show (oldSide (edits.take earlier.start)).length +
      (oldSide (slice edits earlier)).length <
        (oldSide (edits.take later.start)).length
    rw [← List.length_append, ← oldSide_append,
      take_append_slice edits (Nat.le_of_lt proper), split, oldSide_append,
      List.length_append]
    apply Nat.lt_add_of_pos_right
    unfold oldSide
    rw [List.filter_cons_of_pos (by rw [both]; rfl)]
    exact Nat.succ_pos _
  · show (newSide (edits.take earlier.start)).length +
      (newSide (slice edits earlier)).length <
        (newSide (edits.take later.start)).length
    rw [← List.length_append, ← newSide_append,
      take_append_slice edits (Nat.le_of_lt proper), split, newSide_append,
      List.length_append]
    apply Nat.lt_add_of_pos_right
    unfold newSide
    rw [List.filter_cons_of_pos (by rw [both]; rfl)]
    exact Nat.succ_pos _

end Cuts

/-! ## Printing -/

/-- A range of lines in a hunk header: no line is named by the one before, and
a single line without a count. -/
def rangeText (before count : Nat) : String :=
  if count = 0 then
    toString before ++ ",0"
  else if count = 1 then
    toString (before + 1)
  else
    toString (before + 1) ++ "," ++ toString count

def Side.mark : Side → String
  | .both => " "
  | .old => "-"
  | .new => "+"

def Hunk.lines (hunk : Hunk String) : List String :=
  ("@@ -" ++ rangeText hunk.oldBefore (oldSide hunk.edits).length ++ " +" ++
      rangeText hunk.newBefore (newSide hunk.edits).length ++ " @@") ::
    hunk.edits.map fun edit => edit.side.mark ++ edit.line

def printPatch (oldLabel newLabel : String) (hunks : List (Hunk String)) :
    String :=
  String.intercalate "\n"
    (("--- " ++ oldLabel) :: ("+++ " ++ newLabel) :: hunks.flatMap Hunk.lines) ++
      "\n"

end GitOnCloudflare.Foundations.LineEdits
