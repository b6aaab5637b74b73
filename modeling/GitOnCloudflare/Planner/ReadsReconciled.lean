import GitOnCloudflare.Planner.ActiveReads
import GitOnCloudflare.Foundations.CheckedFold
import Mathlib.Data.List.Induction

/-!
# What reconciliation accepts

The notes that are accepted, as multisets: one trailer for every pack, whole
packs with different checksums, and one read for every planned range of the
other packs.  No order of the notes matters.
-/

namespace GitOnCloudflare.Planner.ActiveReads

open Foundations
open Foundations.CheckedFold

/-! ## Sorting -/

variable {texts : List String}

/-- Sorted lists are equal just when they hold the same items. -/
theorem sorted_eq_iff {Key : Type} [LinearOrder Key]
    {left right first second : List Key} (perm : left.Perm first)
    (perm' : right.Perm second) (sorted : left.Pairwise (· ≤ ·))
    (sorted' : right.Pairwise (· ≤ ·)) : left = right ↔ first.Perm second := by
  constructor
  · intro same
    rw [same] at perm
    exact perm.symm.trans perm'
  · intro both
    apply List.Perm.eq_of_pairwise
    · intro left right _ _ before after
      exact le_antisymm before after
    · exact sorted
    · exact sorted'
    · exact perm.trans (both.trans perm'.symm)

theorem sortStrings_perm (texts : List String) : (sortStrings texts).Perm texts :=
  List.perm_insertionSort _ _

theorem sortStrings_sorted (texts : List String) :
    (sortStrings texts).Pairwise (· ≤ ·) := List.pairwise_insertionSort _ _

theorem sortStrings_eq_iff {others : List String} :
    sortStrings texts = sortStrings others ↔ texts.Perm others :=
  sorted_eq_iff (sortStrings_perm texts) (sortStrings_perm others)
    (sortStrings_sorted texts) (sortStrings_sorted others)

theorem sortReads_perm (reads : List ObservedRead) : (sortReads reads).Perm reads :=
  List.perm_insertionSort _ _

theorem sortRanges_perm (ranges : List StockRequiredRange) :
    (sortRanges ranges).Perm ranges := List.perm_insertionSort _ _

theorem keys_sortReads (reads : List ObservedRead) :
    ((sortReads reads).map ObservedRead.key).Pairwise (· ≤ ·) := by
  rw [List.pairwise_map]
  exact List.pairwise_insertionSort
    (fun left right : ObservedRead => left.key ≤ right.key) reads

theorem keys_sortRanges (ranges : List StockRequiredRange) :
    ((sortRanges ranges).map StockRequiredRange.key).Pairwise (· ≤ ·) := by
  rw [List.pairwise_map]
  apply (List.pairwise_insertionSort (fun left right : StockRequiredRange =>
    (toLex (left.key, left.requiredOid) : Lex (RangeKey × String)) ≤
      toLex (right.key, right.requiredOid)) ranges).imp
  intro left right before
  rcases Prod.Lex.toLex_le_toLex.mp before with first | ⟨same, _⟩
  · exact le_of_lt first
  · exact le_of_eq same

theorem checksums_sortReads (reads : List ObservedRead) :
    ((sortReads reads).map ObservedRead.packChecksum).Pairwise (· ≤ ·) := by
  have keys := keys_sortReads reads
  rw [List.pairwise_map] at keys ⊢
  apply keys.imp
  intro left right before
  rcases Prod.Lex.toLex_le_toLex.mp before with first | ⟨same, _⟩
  · exact le_of_lt first
  · exact le_of_eq same

variable {reads : List ObservedRead}

theorem checksums_sortReads_eq_iff :
    (sortReads reads).map ObservedRead.packChecksum = sortStrings texts ↔
      (reads.map ObservedRead.packChecksum).Perm texts :=
  sorted_eq_iff ((sortReads_perm reads).map _) (sortStrings_perm texts)
    (checksums_sortReads reads) (sortStrings_sorted texts)

theorem keys_sorted_eq_iff {ranges : List StockRequiredRange} :
    (sortReads reads).map ObservedRead.key =
        (sortRanges ranges).map StockRequiredRange.key ↔
      (reads.map ObservedRead.key).Perm (ranges.map StockRequiredRange.key) :=
  sorted_eq_iff ((sortReads_perm reads).map _) ((sortRanges_perm ranges).map _)
    (keys_sortReads reads) (keys_sortRanges ranges)

/-! ## The notes -/

section Notes

variable (packs : List BoundActivePack)

def wholeNote (read : RuntimeActivePackRead) : Option ObservedRead :=
  if read.kind = .whole then
    (checksumByKey packs read.packKey).map
      fun packChecksum => ⟨packChecksum, 0, read.returnedBytes, read.returnedBytes⟩
  else
    none

/-- What a note of the given kind shows of its pack. -/
def rangeNote (kind : RuntimeActivePackReadKind) (read : RuntimeActivePackRead) :
    Option ObservedRead :=
  match checksumByKey packs read.packKey, read.start, read.stop with
  | some packChecksum, some start, some stop =>
    if read.kind = kind then
      some ⟨packChecksum, start, stop, read.returnedBytes⟩
    else
      none
  | _, _, _ => none

/-- A note that was read to the end, of a whole pack or of its range. -/
structure Good (read : RuntimeActivePackRead) : Prop where
  active : ∃ packChecksum, checksumByKey packs read.packKey = some packChecksum
  read : read.kind = .whole ∨
    (read.kind = .trailer ∨ read.kind = .bodyRange) ∧ read.consumed = true ∧
      ∃ start stop, read.start = some start ∧ read.stop = some stop ∧
        start + read.returnedBytes = stop

def SortedReads.add (sorted : SortedReads) (read : RuntimeActivePackRead) :
    SortedReads :=
  { sorted with
    trailerReads := sorted.trailerReads ++ (rangeNote packs .trailer read).toList
    bodyReads := sorted.bodyReads ++ (rangeNote packs .bodyRange read).toList
    wholeReads := sorted.wholeReads ++ (wholeNote packs read).toList
    wholeBytes := sorted.wholeBytes +
      ((wholeNote packs read).map ObservedRead.returnedBytes).getD 0
    wholeRequests := sorted.wholeRequests + (wholeNote packs read).toList.length }

def notesOf (reads : List RuntimeActivePackRead) : SortedReads where
  trailerReads := reads.filterMap (rangeNote packs .trailer)
  bodyReads := reads.filterMap (rangeNote packs .bodyRange)
  wholeReads := reads.filterMap (wholeNote packs)
  wholeBytes := ((reads.filterMap (wholeNote packs)).map ObservedRead.returnedBytes).sum
  wholeRequests := (reads.filterMap (wholeNote packs)).length

variable {packs}
  {sorted : SortedReads} {read : RuntimeActivePackRead}
  {next : SortedReads}

theorem sortRead_mono (sorts : sortRead packs sorted read = .ok next) :
    sorted.unattributedRequests ≤ next.unattributedRequests := by
  unfold sortRead at sorts
  split at sorts
  · cases sorts
  split at sorts
  · cases sorts
    exact Nat.le_refl _
  split at sorts
  · split at sorts
    · cases sorts
    · cases sorts
      exact Nat.le_refl _
  · split at sorts
    · cases sorts
    · cases sorts
      exact Nat.le_refl _
  · cases sorts
    exact Nat.le_succ _

theorem sortRead_good (sorts : sortRead packs sorted read = .ok next)
    (attributed : next.unattributedRequests = sorted.unattributedRequests) :
    Good packs read ∧ next = sorted.add packs read := by
  unfold sortRead at sorts
  split at sorts
  · cases sorts
  next packChecksum found =>
    split at sorts
    next whole =>
      cases sorts
      refine ⟨⟨⟨packChecksum, found⟩, Or.inl whole⟩, ?_⟩
      unfold SortedReads.add wholeNote rangeNote
      rw [if_pos whole, found, whole]
      cases read.start <;> cases read.stop <;> simp
    next partly =>
      split at sorts
      next start stop kind first last =>
        split at sorts
        · cases sorts
        next whole =>
          cases sorts
          rw [not_or, not_not, Bool.not_eq_false] at whole
          refine ⟨⟨⟨packChecksum, found⟩, Or.inr ⟨Or.inl kind, whole.1, start, stop,
            first, last, whole.2⟩⟩, ?_⟩
          unfold SortedReads.add wholeNote rangeNote
          rw [if_neg partly, found, first, last, kind]
          simp
      next start stop kind first last =>
        split at sorts
        · cases sorts
        next whole =>
          cases sorts
          rw [not_or, not_not, Bool.not_eq_false] at whole
          refine ⟨⟨⟨packChecksum, found⟩, Or.inr ⟨Or.inr kind, whole.1, start, stop,
            first, last, whole.2⟩⟩, ?_⟩
          unfold SortedReads.add wholeNote rangeNote
          rw [if_neg partly, found, first, last, kind]
          simp
      · cases sorts
        exact absurd attributed (Nat.succ_ne_self _)

theorem sortRead_of_good (good : Good packs read) :
    sortRead packs sorted read = .ok (sorted.add packs read) := by
  rcases good.active with ⟨packChecksum, found⟩
  unfold sortRead SortedReads.add wholeNote rangeNote
  rw [found]
  dsimp only
  rcases good.read with whole | ⟨kind | kind, consumed, start, stop, first, last, length⟩
  · rw [if_pos whole, if_pos whole, whole]
    cases read.start <;> cases read.stop <;> simp
  · rw [first, last, kind]
    simp [consumed, length]
  · rw [first, last, kind]
    simp [consumed, length]

theorem notesOf_concat (reads : List RuntimeActivePackRead)
    (read : RuntimeActivePackRead) :
    notesOf packs (reads ++ [read]) = (notesOf packs reads).add packs read := by
  have single : ∀ note : RuntimeActivePackRead → Option ObservedRead,
      [read].filterMap note = (note read).toList := by
    intro note
    cases found : note read with
    | none => rw [List.filterMap_cons_none found]; rfl
    | some value => rw [List.filterMap_cons_some found]; rfl
  have bytes : ((wholeNote packs read).toList.map ObservedRead.returnedBytes).sum =
      ((wholeNote packs read).map ObservedRead.returnedBytes).getD 0 := by
    cases wholeNote packs read with
    | none => rfl
    | some value => exact Nat.add_zero _
  unfold notesOf SortedReads.add
  simp only [List.filterMap_append, List.map_append, List.sum_append, List.length_append,
    single, bytes]

/-- All notes are sorted without an unattributed one exactly when all are good. -/
theorem foldlM_sortRead_iff {reads : List RuntimeActivePackRead} :
    reads.foldlM (sortRead packs) {} = .ok sorted ∧ sorted.unattributedRequests = 0 ↔
      (∀ read ∈ reads, Good packs read) ∧ sorted = notesOf packs reads := by
  induction reads using List.reverseRecOn generalizing sorted with
  | nil =>
    constructor
    · rintro ⟨sorts, _⟩
      cases sorts
      exact ⟨fun _ member => absurd member List.not_mem_nil, rfl⟩
    · rintro ⟨_, rfl⟩
      exact ⟨rfl, rfl⟩
  | append_singleton reads read ih =>
    rw [List.foldlM_append, bind_eq_ok, notesOf_concat]
    constructor
    · rintro ⟨⟨middle, before, last⟩, attributed⟩
      rcases (foldlM_cons_eq_ok _ _ _ _ _).mp last with ⟨next, sorts, same⟩
      cases same
      have mono := sortRead_mono sorts
      have none : middle.unattributedRequests = 0 := by omega
      rcases ih.mp ⟨before, none⟩ with ⟨all, rfl⟩
      rcases sortRead_good sorts (attributed.trans none.symm) with ⟨good, same⟩
      refine ⟨?_, same⟩
      intro other member
      rcases List.mem_append.mp member with earlier | new
      · exact all other earlier
      · rw [List.mem_singleton.mp new]
        exact good
    · rintro ⟨all, rfl⟩
      have earlier : ∀ other ∈ reads, Good packs other := fun other member =>
        all other (List.mem_append_left _ member)
      have good := all read (List.mem_append_right _ (List.mem_singleton_self read))
      rcases ih.mpr ⟨earlier, rfl⟩ with ⟨before, none⟩
      refine ⟨⟨_, before, ?_⟩, none⟩
      apply (foldlM_cons_eq_ok _ _ _ _ _).mpr
      exact ⟨_, sortRead_of_good good, rfl⟩

/-! ## Whole packs -/

/-- The read has the length of its pack. -/
structure WholeRead (packs : List BoundActivePack) (read : ObservedRead) : Prop where
  start : read.start = 0
  found : ∃ pack, activeByChecksum packs read.packChecksum = some pack ∧
    read.stop = pack.packBytes ∧ read.returnedBytes = pack.packBytes

theorem checkWholeRead_iff {read : ObservedRead} {seen wholeChecksums : List String} :
    checkWholeRead packs seen read = .ok wholeChecksums ↔
      read.packChecksum ∉ seen ∧ WholeRead packs read ∧
        wholeChecksums = seen ++ [read.packChecksum] := by
  unfold checkWholeRead
  split
  next missing =>
    constructor
    · intro never
      cases never
    · rintro ⟨_, ⟨_, pack, found, _⟩, _⟩
      cases missing.symm.trans found
  next pack found =>
    split
    next bad =>
      constructor
      · intro never
        cases never
      · rintro ⟨new, ⟨start, other, found', stop, returned⟩, _⟩
        cases found.symm.trans found'
        rcases bad with old | wrong | wrong | wrong
        · exact absurd old new
        · exact absurd start wrong
        · exact absurd stop wrong
        · exact absurd returned wrong
    next fine =>
      simp only [not_or, not_not] at fine
      rcases fine with ⟨new, start, stop, returned⟩
      constructor
      · intro same
        cases same
        exact ⟨new, ⟨start, pack, found, stop, returned⟩, rfl⟩
      · rintro ⟨_, _, rfl⟩
        rfl

theorem foldlM_checkWholeRead_iff {seen wholeChecksums : List String} :
    reads.foldlM (checkWholeRead packs) seen = .ok wholeChecksums ↔
      (reads.map ObservedRead.packChecksum).Nodup ∧
      (∀ read ∈ reads, read.packChecksum ∉ seen ∧ WholeRead packs read) ∧
      wholeChecksums = seen ++ reads.map ObservedRead.packChecksum := by
  induction reads generalizing seen with
  | nil =>
    rw [List.map_nil, List.append_nil]
    constructor
    · intro same
      cases same
      exact ⟨List.nodup_nil, fun _ member => absurd member List.not_mem_nil, rfl⟩
    · rintro ⟨_, _, rfl⟩
      rfl
  | cons read reads ih =>
    rw [foldlM_cons_eq_ok, List.map_cons, List.nodup_cons]
    constructor
    · rintro ⟨next, checked, rest⟩
      rcases checkWholeRead_iff.mp checked with ⟨new, whole, rfl⟩
      rcases ih.mp rest with ⟨distinct, all, rfl⟩
      refine ⟨⟨?_, distinct⟩, ?_, ?_⟩
      · intro again
        rcases List.mem_map.mp again with ⟨other, member, same⟩
        apply (all other member).1
        rw [same]
        exact List.mem_append_right _ (List.mem_singleton_self _)
      · intro other member
        rcases List.mem_cons.mp member with rfl | member
        · exact ⟨new, whole⟩
        · refine ⟨fun old => (all other member).1 ?_, (all other member).2⟩
          exact List.mem_append_left _ old
      · rw [List.append_assoc]
        rfl
    · rintro ⟨⟨fresh, distinct⟩, all, rfl⟩
      rcases all read List.mem_cons_self with ⟨new, whole⟩
      refine ⟨_, checkWholeRead_iff.mpr ⟨new, whole, rfl⟩, ?_⟩
      apply ih.mpr
      refine ⟨distinct, ?_, ?_⟩
      · intro other member
        rcases all other (List.mem_cons_of_mem _ member) with ⟨unseen, whole'⟩
        refine ⟨fun old => ?_, whole'⟩
        rcases List.mem_append.mp old with old | same
        · exact unseen old
        · apply fresh
          rw [← List.mem_singleton.mp same]
          exact List.mem_map_of_mem member
      · rw [List.append_assoc]
        rfl

end Notes

/-! ## Reconciliation -/

section Reconcile

variable (packs : List BoundActivePack) (reads : List RuntimeActivePackRead)
  (ranges : List StockRequiredRange)

def wholeChecksums : List String :=
  (sortReads (notesOf packs reads).wholeReads).map ObservedRead.packChecksum

/-- The planned ranges of packs that were not read whole. -/
def requiredRanges : List StockRequiredRange :=
  ranges.filter fun range => decide (range.packChecksum ∉ wholeChecksums packs reads)

/-- The notes that reconciliation accepts. -/
structure Reconciled : Prop where
  good : ∀ read ∈ reads, Good packs read
  wholes : ∀ read ∈ (notesOf packs reads).wholeReads, WholeRead packs read
  distinct : ((notesOf packs reads).wholeReads.map ObservedRead.packChecksum).Nodup
  trailerKeys : ((reads.filter fun read => decide (read.kind = .trailer)).map
    RuntimeActivePackRead.packKey).Perm (packs.map BoundActivePack.packKey)
  trailers : ((notesOf packs reads).trailerReads.map ObservedRead.packChecksum).Perm
    (packs.map BoundActivePack.packChecksum)
  trailerBytes : ∀ read ∈ (notesOf packs reads).trailerReads, read.returnedBytes = 20
  bodies : ((notesOf packs reads).bodyReads.map ObservedRead.key).Perm
    ((requiredRanges packs reads ranges).map StockRequiredRange.key)

def reconciledOf : ReconciledActivePackReads where
  trailerReads := sortReads (notesOf packs reads).trailerReads
  requiredReads := requiredRanges packs reads ranges
  wholeReads := sortReads (notesOf packs reads).wholeReads
  trailerBytes :=
    ((sortReads (notesOf packs reads).trailerReads).map ObservedRead.returnedBytes).sum
  trailerRequests := (sortReads (notesOf packs reads).trailerReads).length
  rangeBytes := ((requiredRanges packs reads ranges).map
    fun range => range.stop - range.start).sum
  rangeRequests := (requiredRanges packs reads ranges).length
  wholeBytes := (notesOf packs reads).wholeBytes
  wholeRequests := (notesOf packs reads).wholeRequests

variable {packs reads ranges}

theorem mem_rangeNotes {kind : RuntimeActivePackReadKind} {read : ObservedRead}
    (good : ∀ read ∈ reads, Good packs read) (other : kind ≠ .whole)
    (member : read ∈ reads.filterMap (rangeNote packs kind)) :
    read.start + read.returnedBytes = read.stop := by
  rcases List.mem_filterMap.mp member with ⟨note, noted, shown⟩
  have fine := good note noted
  unfold rangeNote at shown
  split at shown
  next packChecksum start stop _ first last =>
    split at shown
    next same =>
      cases shown
      rcases fine.read with whole | ⟨_, _, start', stop', first', last', length⟩
      · exact absurd (same.symm.trans whole) other
      · cases first.symm.trans first'
        cases last.symm.trans last'
        exact length
    · cases shown
  · cases shown

/-- The length that belongs to a range. -/
def keyLength (key : RangeKey) : Nat :=
  (ofLex (ofLex key).2).2 - (ofLex (ofLex key).2).1

theorem bodies_eq_iff (good : ∀ read ∈ reads, Good packs read) :
    (sortReads (notesOf packs reads).bodyReads).map
        (fun read => (read.key, read.returnedBytes)) =
      (sortRanges (requiredRanges packs reads ranges)).map
        (fun range => (range.key, range.stop - range.start)) ↔
    ((notesOf packs reads).bodyReads.map ObservedRead.key).Perm
      ((requiredRanges packs reads ranges).map StockRequiredRange.key) := by
  rw [← keys_sorted_eq_iff]
  have reading : (sortReads (notesOf packs reads).bodyReads).map
      (fun read => (read.key, read.returnedBytes)) =
      ((sortReads (notesOf packs reads).bodyReads).map ObservedRead.key).map
        fun key => (key, keyLength key) := by
    rw [List.map_map]
    apply List.map_congr_left
    intro read member
    have length := mem_rangeNotes good (by decide)
      ((sortReads_perm (notesOf packs reads).bodyReads).mem_iff.mp member)
    have exactly : read.returnedBytes = keyLength read.key := by
      change read.returnedBytes = read.stop - read.start
      omega
    rw [Function.comp_apply, exactly]
  have planned : (sortRanges (requiredRanges packs reads ranges)).map
      (fun range => (range.key, range.stop - range.start)) =
      ((sortRanges (requiredRanges packs reads ranges)).map
        StockRequiredRange.key).map fun key => (key, keyLength key) := by
    rw [List.map_map]
    rfl
  have injective : Function.Injective fun key : RangeKey =>
      (key, keyLength key) := by
    intro first second same
    exact (Prod.mk.inj same).1
  rw [reading, planned]
  exact (List.map_injective_iff.mpr injective).eq_iff

theorem reconcile_iff {result : ReconciledActivePackReads} :
    reconcileActivePackReads packs reads ranges = .ok result ↔
      Reconciled packs reads ranges ∧ result = reconciledOf packs reads ranges := by
  unfold reconcileActivePackReads
  constructor
  · intro accepted
    rcases bind_eq_ok.mp accepted with ⟨sorted, sorts, accepted⟩
    split at accepted
    · cases accepted
    next attributed =>
      rcases foldlM_sortRead_iff.mp ⟨sorts, not_not.mp attributed⟩ with ⟨good, rfl⟩
      rcases bind_eq_ok.mp accepted with ⟨checksums, checked, accepted⟩
      rcases foldlM_checkWholeRead_iff.mp checked with ⟨distinct, wholes, rfl⟩
      dsimp only at accepted
      rw [List.nil_append] at accepted
      split at accepted
      · cases accepted
      next keys =>
        split at accepted
        · cases accepted
        next trailers =>
          split at accepted
          · cases accepted
          next bodies =>
            cases accepted
            rw [not_not] at keys bodies
            rw [not_or, not_not] at trailers
            rcases trailers with ⟨checksums, short⟩
            have perm := sortReads_perm (notesOf packs reads).wholeReads
            have perm' := sortReads_perm (notesOf packs reads).trailerReads
            refine ⟨⟨good, ?_, ?_, ?_, ?_, ?_, ?_⟩, rfl⟩
            · intro read member
              exact (wholes read (perm.mem_iff.mpr member)).2
            · exact (perm.map _).nodup_iff.mp distinct
            · exact (sortStrings_eq_iff.mp keys).symm
            · exact checksums_sortReads_eq_iff.mp checksums
            · intro read member
              by_contra never
              exact short ⟨read, perm'.mem_iff.mpr member, never⟩
            · exact (bodies_eq_iff good).mp bodies
  · rintro ⟨reconciled, rfl⟩
    have perm := sortReads_perm (notesOf packs reads).wholeReads
    have perm' := sortReads_perm (notesOf packs reads).trailerReads
    rcases foldlM_sortRead_iff.mpr ⟨reconciled.good, rfl⟩ with ⟨sorts, attributed⟩
    apply bind_eq_ok.mpr
    refine ⟨_, sorts, ?_⟩
    rw [if_neg (not_not.mpr attributed)]
    apply bind_eq_ok.mpr
    refine ⟨wholeChecksums packs reads, ?_, ?_⟩
    · apply foldlM_checkWholeRead_iff.mpr
      refine ⟨(perm.map _).nodup_iff.mpr reconciled.distinct, ?_, rfl⟩
      intro read member
      exact ⟨List.not_mem_nil, reconciled.wholes read (perm.mem_iff.mp member)⟩
    · have bodies := (bodies_eq_iff reconciled.good).mpr reconciled.bodies
      unfold requiredRanges at bodies
      dsimp only
      rw [if_neg (not_not.mpr (sortStrings_eq_iff.mpr reconciled.trailerKeys.symm)),
        if_neg, if_neg (not_not.mpr bodies)]
      · rfl
      · rintro (checksums | ⟨read, member, short⟩)
        · exact checksums (checksums_sortReads_eq_iff.mpr reconciled.trailers)
        · exact short (reconciled.trailerBytes read (perm'.mem_iff.mp member))

end Reconcile

end GitOnCloudflare.Planner.ActiveReads
