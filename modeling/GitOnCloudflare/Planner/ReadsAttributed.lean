import GitOnCloudflare.Planner.ReadsReconciled

/-!
# What the notes are attributed to

Every note that is accepted is of a trailer, of one planned range, or of a
whole pack, and the result names each of them once.  So the totals of the
result are the bytes of the notes of each kind.
-/

namespace GitOnCloudflare.Planner.ActiveReads

open Foundations

/-! ## Attributions -/

/-- A read with the kind it is attributed to. -/
abbrev Attribution := RuntimeActivePackReadKind × Option ObservedRead

/-- What a note shows of its pack. -/
def attribution (packs : List BoundActivePack) (read : RuntimeActivePackRead) :
    Attribution :=
  (read.kind, (wholeNote packs read).or (rangeNote packs read.kind read))

def attributionsOf (trailers bodies wholes : List ObservedRead) : List Attribution :=
  (trailers.map fun read => (.trailer, some read)) ++
    (bodies.map fun read => (.bodyRange, some read)) ++
      wholes.map fun read => (.whole, some read)

def Attribution.bytes (kind : RuntimeActivePackReadKind) (shown : Attribution) :
    Nat :=
  if shown.1 = kind then (shown.2.map ObservedRead.returnedBytes).getD 0 else 0

def rangeRead (range : StockRequiredRange) : ObservedRead :=
  ⟨range.packChecksum, range.start, range.stop, range.stop - range.start⟩

/-- The reads of the result, each under its kind. -/
def ReconciledActivePackReads.attributions (result : ReconciledActivePackReads) :
    List Attribution :=
  attributionsOf result.trailerReads (result.requiredReads.map rangeRead)
    result.wholeReads

def ReconciledActivePackReads.bytes (result : ReconciledActivePackReads) :
    RuntimeActivePackReadKind → Nat
  | .trailer => result.trailerBytes
  | .bodyRange => result.rangeBytes
  | .whole => result.wholeBytes
  | .unattributed => 0

section Attributions

variable {packs : List BoundActivePack}
  {trailers bodies wholes : List ObservedRead}
  {reads : List RuntimeActivePackRead}

theorem attributionsOf_perm {trailers' bodies' wholes' : List ObservedRead}
    (first : trailers.Perm trailers') (second : bodies.Perm bodies')
    (third : wholes.Perm wholes') :
    (attributionsOf trailers bodies wholes).Perm
      (attributionsOf trailers' bodies' wholes') :=
  ((first.map _).append (second.map _)).append (third.map _)

/-- An accepted note shows one read, of its own kind. -/
inductive Shows (packs : List BoundActivePack) (read : RuntimeActivePackRead)
    (shown : ObservedRead) : Prop where
  | trailer (kind : read.kind = .trailer)
      (trailers : rangeNote packs .trailer read = some shown)
      (bodies : rangeNote packs .bodyRange read = none)
      (wholes : wholeNote packs read = none)
  | bodyRange (kind : read.kind = .bodyRange)
      (trailers : rangeNote packs .trailer read = none)
      (bodies : rangeNote packs .bodyRange read = some shown)
      (wholes : wholeNote packs read = none)
  | whole (kind : read.kind = .whole)
      (trailers : rangeNote packs .trailer read = none)
      (bodies : rangeNote packs .bodyRange read = none)
      (wholes : wholeNote packs read = some shown)

variable {read : RuntimeActivePackRead}

theorem rangeNote_other {kind : RuntimeActivePackReadKind}
    (other : read.kind ≠ kind) : rangeNote packs kind read = none := by
  unfold rangeNote
  split
  · exact if_neg other
  · rfl

theorem Good.shows (good : Good packs read) :
    ∃ shown, Shows packs read shown ∧ shown.returnedBytes = read.returnedBytes := by
  rcases good.active with ⟨packChecksum, found⟩
  rcases good.read with whole | ⟨kind, _, start, stop, first, last, _⟩
  · refine ⟨⟨packChecksum, 0, read.returnedBytes, read.returnedBytes⟩, ?_, rfl⟩
    apply Shows.whole whole
    · exact rangeNote_other (by rw [whole]; decide)
    · exact rangeNote_other (by rw [whole]; decide)
    · unfold wholeNote
      rw [if_pos whole, found]
      rfl
  · have partly : read.kind ≠ .whole := by
      intro whole
      rcases kind with kind | kind <;> cases kind.symm.trans whole
    have wholes : wholeNote packs read = none := if_neg partly
    have shown : rangeNote packs read.kind read =
        some ⟨packChecksum, start, stop, read.returnedBytes⟩ := by
      unfold rangeNote
      rw [found, first, last]
      exact if_pos rfl
    refine ⟨⟨packChecksum, start, stop, read.returnedBytes⟩, ?_, rfl⟩
    rcases kind with kind | kind
    · rw [kind] at shown
      exact .trailer kind shown (rangeNote_other (by rw [kind]; decide)) wholes
    · rw [kind] at shown
      exact .bodyRange kind (rangeNote_other (by rw [kind]; decide)) shown wholes

theorem Shows.attribution_eq {shown : ObservedRead}
    (shows : Shows packs read shown) :
    attribution packs read = (read.kind, some shown) := by
  unfold attribution
  cases shows with
  | trailer kind trailers _ wholes =>
    rw [wholes, kind, trailers]
    rfl
  | bodyRange kind _ bodies wholes =>
    rw [wholes, kind, bodies]
    rfl
  | whole kind _ _ wholes =>
    rw [wholes]
    rfl

/-- Every note that is accepted is sorted once. -/
theorem attributions_notesOf (good : ∀ read ∈ reads, Good packs read) :
    (reads.map (attribution packs)).Perm (attributionsOf
      (notesOf packs reads).trailerReads (notesOf packs reads).bodyReads
        (notesOf packs reads).wholeReads) := by
  induction reads with
  | nil => exact List.Perm.nil
  | cons read reads ih =>
    have rest := ih fun other member => good other (List.mem_cons_of_mem _ member)
    rcases (good read List.mem_cons_self).shows with ⟨shown, shows, _⟩
    rw [List.map_cons, shows.attribution_eq]
    apply (rest.cons _).trans
    unfold notesOf attributionsOf
    dsimp only
    cases shows with
    | trailer kind trailers bodies wholes =>
      rw [List.filterMap_cons_some trailers, List.filterMap_cons_none bodies,
        List.filterMap_cons_none wholes, kind]
      exact List.Perm.refl _
    | bodyRange kind trailers bodies wholes =>
      rw [List.filterMap_cons_none trailers, List.filterMap_cons_some bodies,
        List.filterMap_cons_none wholes, kind, List.map_cons, List.append_assoc,
        List.append_assoc, List.cons_append]
      exact List.perm_middle.symm
    | whole kind trailers bodies wholes =>
      rw [List.filterMap_cons_none trailers, List.filterMap_cons_none bodies,
        List.filterMap_cons_some wholes, kind, List.map_cons]
      exact List.perm_middle.symm

theorem attribution_bytes (good : ∀ read ∈ reads, Good packs read)
    (kind : RuntimeActivePackReadKind) :
    ((reads.map (attribution packs)).map (Attribution.bytes kind)).sum =
      (reads.map fun read => if read.kind = kind then read.returnedBytes else 0).sum := by
  rw [List.map_map]
  congr 1
  apply List.map_congr_left
  intro read member
  rcases (good read member).shows with ⟨shown, shows, bytes⟩
  rw [Function.comp_apply, shows.attribution_eq, ← bytes]
  rfl

theorem attributionsOf_bytes (kind : RuntimeActivePackReadKind) :
    ((attributionsOf trailers bodies wholes).map (Attribution.bytes kind)).sum =
      match kind with
      | .trailer => (trailers.map ObservedRead.returnedBytes).sum
      | .bodyRange => (bodies.map ObservedRead.returnedBytes).sum
      | .whole => (wholes.map ObservedRead.returnedBytes).sum
      | .unattributed => 0 := by
  unfold attributionsOf
  rw [List.map_append, List.map_append, List.sum_append, List.sum_append,
    List.map_map, List.map_map, List.map_map]
  cases kind <;> simp [Function.comp_def, Attribution.bytes]

end Attributions

/-! ## The result -/

/-- The result attributes every note to one read, and has one trailer for each
pack, the planned ranges of the packs that were not read whole, and one read of
each whole pack. -/
structure Attributed (packs : List BoundActivePack)
    (reads : List RuntimeActivePackRead) (ranges : List StockRequiredRange)
    (result : ReconciledActivePackReads) : Prop where
  once : (reads.map (attribution packs)).Perm result.attributions
  trailers : ((reads.filter fun read => decide (read.kind = .trailer)).map
    RuntimeActivePackRead.packKey).Perm (packs.map BoundActivePack.packKey)
  trailerBytes : ∀ read ∈ result.trailerReads, read.returnedBytes = 20
  planned : result.requiredReads = ranges.filter fun range =>
    decide (range.packChecksum ∉ result.wholeReads.map ObservedRead.packChecksum)
  distinct : (result.wholeReads.map ObservedRead.packChecksum).Nodup
  wholes : ∀ read ∈ result.wholeReads, WholeRead packs read
  bytes : ∀ kind, result.bytes kind =
    (reads.map fun read => if read.kind = kind then read.returnedBytes else 0).sum
  requests : reads.length =
    result.trailerRequests + result.rangeRequests + result.wholeRequests

section Result

variable {packs : List BoundActivePack} {reads : List RuntimeActivePackRead}
  {ranges : List StockRequiredRange}

/-- A body read and the planned range of its key have the same bytes. -/
theorem Reconciled.bodies_perm (reconciled : Reconciled packs reads ranges) :
    (notesOf packs reads).bodyReads.Perm
      ((requiredRanges packs reads ranges).map rangeRead) := by
  have restored := reconciled.bodies.map fun key : RangeKey =>
    (⟨(ofLex key).1, (ofLex (ofLex key).2).1, (ofLex (ofLex key).2).2,
      keyLength key⟩ : ObservedRead)
  rw [List.map_map, List.map_map] at restored
  have same : (notesOf packs reads).bodyReads =
      (notesOf packs reads).bodyReads.map ((fun key : RangeKey =>
        (⟨(ofLex key).1, (ofLex (ofLex key).2).1, (ofLex (ofLex key).2).2,
          keyLength key⟩ : ObservedRead)) ∘ ObservedRead.key) := by
    conv_lhs => rw [← List.map_id (notesOf packs reads).bodyReads]
    apply List.map_congr_left
    intro read member
    have length := mem_rangeNotes reconciled.good (by decide) member
    have exactly : read.returnedBytes = keyLength read.key := by
      change read.returnedBytes = read.stop - read.start
      omega
    rcases read with ⟨packChecksum, start, stop, returnedBytes⟩
    rw [id, Function.comp_apply, ← exactly]
    rfl
  rw [same]
  exact restored

theorem Reconciled.attributed (reconciled : Reconciled packs reads ranges) :
    Attributed packs reads ranges (reconciledOf packs reads ranges) := by
  have once : (reads.map (attribution packs)).Perm
      (reconciledOf packs reads ranges).attributions := by
    apply (attributions_notesOf reconciled.good).trans
    exact attributionsOf_perm (sortReads_perm _).symm reconciled.bodies_perm
      (sortReads_perm _).symm
  have wholes := sortReads_perm (notesOf packs reads).wholeReads
  constructor
  · exact once
  · exact reconciled.trailerKeys
  · intro read member
    exact reconciled.trailerBytes read ((sortReads_perm _).mem_iff.mp member)
  · rfl
  · exact (wholes.map _).nodup_iff.mpr reconciled.distinct
  · intro read member
    exact reconciled.wholes read (wholes.mem_iff.mp member)
  · intro kind
    rw [← attribution_bytes reconciled.good, (once.map _).sum_nat]
    unfold ReconciledActivePackReads.attributions
    rw [attributionsOf_bytes]
    cases kind with
    | trailer => rfl
    | bodyRange =>
      dsimp only
      rw [List.map_map]
      rfl
    | whole => exact ((wholes.map _).sum_nat).symm
    | unattributed => rfl
  · have lengths := once.length_eq
    unfold ReconciledActivePackReads.attributions attributionsOf at lengths
    simp only [List.length_append, List.length_map] at lengths
    rw [lengths]
    change _ = _ + _ + (notesOf packs reads).wholeReads.length
    rw [← wholes.length_eq]
    rfl

end Result

end GitOnCloudflare.Planner.ActiveReads
