import GitOnCloudflare.Pack.Layout
import GitOnCloudflare.Pack.Reemission

/-!
# Layout soundness

A table whose rows can be ordered and laid out is emitted as it was laid out:
every row starts at its offset, its header has its computed length, every
distance leads back to the start of its base, and the whole stream has the
reported length.
-/

namespace GitOnCloudflare.Pack

namespace SelectionTable

variable {table : SelectionTable}

/-! ## Bases come first -/

/-- In this order the base of every row stands before the row. -/
def BasesFirst (table : SelectionTable) (order : List Nat) : Prop :=
  ∀ before sel after, order = before ++ sel :: after →
    ∀ base, table.baseSlots sel = some base → base ∈ before

/-- The base of a row, if it has one, is among the emitted rows. -/
def Ready (table : SelectionTable) (order : List Nat) (sel : Nat) : Prop :=
  ∀ base, table.baseSlots sel = some base → base ∈ order

/-- What holds each time the heap is asked for a row. -/
structure Draining
    (table : SelectionTable)
    (indegree : Nat → Nat)
    (heap order : List Nat) : Prop where
  distinct : (order ++ heap).Nodup
  rows : ∀ sel ∈ order ++ heap, sel < table.count
  ready : ∀ sel ∈ order ++ heap, table.Ready order sel
  bounded : ∀ sel, indegree sel ≤ 1
  waits : ∀ sel < table.count, indegree sel = 0 ↔ table.Ready order sel
  sorted : table.BasesFirst order

variable {sel : Nat} {order before after : List Nat} {lengths : Nat → UInt16}
  {readStates : Nat → Option PackReadState}

theorem BasesFirst.concat (sorted : table.BasesFirst order)
    (ready : table.Ready order sel) : table.BasesFirst (order ++ [sel]) := by
  intro before other after split base found
  rcases List.eq_nil_or_concat after with rfl | ⟨rest, last, rfl⟩
  · obtain ⟨rfl, same⟩ := List.append_inj' split rfl
    cases same
    exact ready base found
  · rw [List.concat_eq_append, ← List.cons_append, ← List.append_assoc]
      at split
    obtain ⟨rfl, _⟩ := List.append_inj' split rfl
    exact sorted before other rest rfl base found

variable {base fuel : Nat} {indegree : Nat → Nat} {ordered : SelectionTable}
  {header : Bytes}

theorem mem_children :
    sel ∈ table.children base ↔
      sel < table.count ∧ table.baseSlots sel = some base := by
  simp [children]

theorem children_nodup (table : SelectionTable) (base : Nat) :
    (table.children base).Nodup := by
  unfold children
  exact ((List.reverse_perm _).nodup_iff).mpr (List.nodup_range.filter _)

/-- Releasing rows that wait for one base each puts all of them on the
heap. -/
theorem releaseChildren_spec {children : List Nat} (heap : List Nat)
    (distinct : children.Nodup) (bounded : ∀ sel, indegree sel ≤ 1) :
    let released := table.releaseChildren children indegree heap
    released.2.Perm (children ++ heap) ∧
      ∀ sel, released.1 sel = if sel ∈ children then 0 else indegree sel := by
  induction children generalizing indegree heap with
  | nil => exact ⟨.refl _, fun _ => by simp [releaseChildren]⟩
  | cons child rest ih =>
    obtain ⟨absent, restDistinct⟩ := List.nodup_cons.mp distinct
    have lowered : indegree child - 1 = 0 := by
      have := bounded child
      omega
    have boundedLowered :
        ∀ sel, Function.update indegree child (indegree child - 1) sel ≤
          1 := by
      intro sel
      by_cases same : sel = child
      · subst same
        rw [Function.update_self]
        omega
      · rw [Function.update_of_ne same]
        exact bounded sel
    unfold releaseChildren
    dsimp only
    rw [Function.update_self, if_pos lowered]
    obtain ⟨perm, counts⟩ :=
      ih (BinaryHeap.push table.comesBefore heap child) restDistinct
        boundedLowered
    refine ⟨?_, ?_⟩
    · refine perm.trans ?_
      refine (List.Perm.append_left rest
        (BinaryHeap.push_perm _ heap child)).trans ?_
      exact List.perm_middle
    · intro sel
      rw [counts sel]
      by_cases same : sel = child
      · subst same
        rw [Function.update_self, lowered]
        simp
      · rw [Function.update_of_ne same]
        simp [same]

theorem Draining.step {indegree : Nat → Nat} {heap rest order : List Nat}
    {sel : Nat} (draining : Draining table indegree heap order)
    (popped : heap.Perm (sel :: rest)) :
    let released := table.releaseChildren (table.children sel) indegree rest
    Draining table released.1 released.2 (order ++ [sel]) := by
  obtain ⟨distinct, rows, ready, bounded, waits, sorted⟩ := draining
  have shifted : (order ++ heap).Perm ((order ++ [sel]) ++ rest) := by
    rw [List.append_assoc]
    exact List.Perm.append_left order popped
  have members :
      ∀ other, other ∈ (order ++ [sel]) ++ rest ↔ other ∈ order ++ heap :=
    fun other => shifted.mem_iff.symm
  have fresh : sel ∉ order := by
    have apart := shifted.nodup_iff.mp distinct
    have first := (List.nodup_append.mp apart).1
    intro old
    exact (List.nodup_append.mp first).2.2 sel old sel
      List.mem_cons_self rfl
  have waiting :
      ∀ child ∈ table.children sel, child ∉ (order ++ [sel]) ++ rest := by
    intro child member present
    obtain ⟨_, found⟩ := mem_children.mp member
    exact fresh (ready child ((members child).mp present) sel found)
  obtain ⟨perm, counts⟩ :=
    releaseChildren_spec rest (children_nodup table sel) bounded
  have arranged :
      (order ++ [sel] ++
          (table.releaseChildren (table.children sel) indegree rest).2).Perm
        (table.children sel ++ (order ++ [sel] ++ rest)) := by
    refine (List.Perm.append_left _ perm).trans ?_
    rw [← List.append_assoc]
    refine (List.Perm.append_right rest List.perm_append_comm).trans ?_
    rw [List.append_assoc]
  have grown :
      ∀ other, table.Ready order other →
        table.Ready (order ++ [sel]) other :=
    fun _ held base found => List.mem_append_left _ (held base found)
  refine ⟨?_, ?_, ?_, ?_, ?_, ?_⟩
  · refine arranged.nodup_iff.mpr (List.nodup_append.mpr
      ⟨children_nodup table sel, shifted.nodup_iff.mp distinct, ?_⟩)
    rintro child member _ other rfl
    exact waiting child member other
  · intro other member
    rcases List.mem_append.mp (arranged.mem_iff.mp member) with child | old
    · exact (mem_children.mp child).1
    · exact rows other ((members other).mp old)
  · intro other member
    rcases List.mem_append.mp (arranged.mem_iff.mp member) with child | old
    · intro base found
      cases (mem_children.mp child).2.symm.trans found
      exact List.mem_append_right _ List.mem_cons_self
    · exact grown other (ready other ((members other).mp old))
  · intro other
    rw [counts other]
    split
    · exact Nat.zero_le 1
    · exact bounded other
  · intro other inside
    rw [counts other]
    split
    · next child =>
      refine ⟨fun _ base found => ?_, fun _ => rfl⟩
      cases (mem_children.mp child).2.symm.trans found
      exact List.mem_append_right _ List.mem_cons_self
    · next notChild =>
      rw [waits other inside]
      refine ⟨grown other, fun held base found => ?_⟩
      rcases List.mem_append.mp (held base found) with old | new
      · exact old
      · rw [List.mem_singleton] at new
        subst new
        exact absurd (mem_children.mpr ⟨inside, found⟩) notChild
  · refine sorted.concat (ready sel ?_)
    refine (members sel).mp ?_
    exact List.mem_append_left _
      (List.mem_append_right _ List.mem_cons_self)

/-- The rows that were emitted are distinct and in order. -/
theorem drainHeap_sound {heap result : List Nat}
    (draining : Draining table indegree heap order)
    (drained : table.drainHeap fuel indegree heap order = some result) :
    result.Nodup ∧ (∀ sel ∈ result, sel < table.count) ∧
      table.BasesFirst result := by
  induction fuel generalizing indegree heap order with
  | zero =>
    unfold drainHeap at drained
    split at drained
    · cases drained
      exact ⟨(List.nodup_append.mp draining.distinct).1,
        fun sel member =>
          draining.rows sel (List.mem_append_left _ member),
        draining.sorted⟩
    · cases drained
  | succ fuel ih =>
    unfold drainHeap at drained
    split at drained
    · cases drained
      exact ⟨(List.nodup_append.mp draining.distinct).1,
        fun sel member =>
          draining.rows sel (List.mem_append_left _ member),
        draining.sorted⟩
    · next sel rest popped =>
      exact ih (draining.step (BinaryHeap.pop_perm popped)) drained

theorem draining_start (table : SelectionTable) :
    Draining table table.initialIndegree
      (BinaryHeap.heapify table.comesBefore
        ((List.range table.count).filter fun sel =>
          table.initialIndegree sel = 0))
      [] := by
  have perm :=
    BinaryHeap.heapify_perm table.comesBefore
      ((List.range table.count).filter fun sel =>
        table.initialIndegree sel = 0)
  have root :
      ∀ sel, table.initialIndegree sel = 0 ↔ table.Ready [] sel := by
    intro sel
    unfold initialIndegree Ready
    cases table.baseSlots sel with
    | none => simp
    | some base => simp
  refine ⟨?_, ?_, ?_, ?_, fun sel _ => root sel, ?_⟩
  · rw [List.nil_append]
    exact perm.nodup_iff.mpr (List.nodup_range.filter _)
  · intro sel member
    rw [List.nil_append] at member
    have inside := perm.mem_iff.mp member
    exact List.mem_range.mp (List.mem_filter.mp inside).1
  · intro sel member
    rw [List.nil_append] at member
    have inside := perm.mem_iff.mp member
    exact (root sel).mp (by simpa using (List.mem_filter.mp inside).2)
  · intro sel
    unfold initialIndegree
    split <;> decide
  · intro before sel after split
    simp at split

/-- A built output order holds every row once, bases first, and changes
nothing else. -/
theorem buildOutputOrder_sound (built : table.buildOutputOrder = some ordered) :
    ordered = { table with outputOrder := ordered.outputOrder } ∧
      ordered.outputOrder.Perm (List.range table.count) ∧
      table.BasesFirst ordered.outputOrder := by
  unfold buildOutputOrder at built
  dsimp only at built
  split at built
  · cases built
  · next order drained =>
    split at built
    · next complete =>
      cases built
      obtain ⟨distinct, rows, sorted⟩ :=
        drainHeap_sound (draining_start table) drained
      refine ⟨rfl, ?_, sorted⟩
      have inside : order ⊆ List.range table.count :=
        fun sel member => List.mem_range.mpr (rows sel member)
      exact (List.subperm_of_subset distinct inside).perm_of_length_le
        (by rw [List.length_range, complete])
    · cases built

/-! ## Positions -/

/-- The emitted size of a row under given header lengths. -/
def rowSize (table : SelectionTable) (lengths : Nat → UInt16) (sel : Nat) :
    Nat :=
  (lengths sel).toNat + table.payloadLens sel

theorem placeRows_cursor (lengths : Nat → UInt16) (order : List Nat)
    (cursor : Nat) (positions : Nat → Nat) :
    (table.placeRows lengths order cursor positions).2 =
      cursor + (order.map (table.rowSize lengths)).sum := by
  induction order generalizing cursor positions with
  | nil => rfl
  | cons sel rest ih =>
    unfold placeRows
    rw [ih, List.map_cons, List.sum_cons]
    unfold rowSize
    omega

theorem placeRows_other {other : Nat} (absent : other ∉ order) (cursor : Nat)
    (positions : Nat → Nat) :
    (table.placeRows lengths order cursor positions).1 other =
      positions other := by
  induction order generalizing cursor positions with
  | nil => rfl
  | cons sel rest ih =>
    rw [List.mem_cons, not_or] at absent
    unfold placeRows
    rw [ih absent.2, Function.update_of_ne absent.1]

/-- A row is placed behind the rows before it. -/
theorem placeRows_position (distinct : (before ++ sel :: after).Nodup)
    (cursor : Nat) (positions : Nat → Nat) :
    (table.placeRows lengths (before ++ sel :: after) cursor positions).1
        sel =
      cursor + (before.map (table.rowSize lengths)).sum := by
  induction before generalizing cursor positions with
  | nil =>
    rw [List.nil_append] at distinct ⊢
    unfold placeRows
    rw [placeRows_other (List.nodup_cons.mp distinct).1,
      Function.update_self]
    rfl
  | cons first before ih =>
    rw [List.cons_append, List.nodup_cons] at distinct
    rw [List.cons_append]
    unfold placeRows
    rw [ih distinct.2, List.map_cons, List.sum_cons]
    unfold rowSize
    omega

/-! ## Stable lengths -/

/-- The rows that have no distance have their one header length. -/
def FixedLengths (table : SelectionTable) (lengths : Nat → UInt16) : Prop :=
  ∀ sel ∈ table.outputOrder, table.hasDistance sel = false →
    ∀ positions, (lengths sel).toNat = table.headerLenAt positions sel

theorem headerLenAt_fixed (member : sel ∈ table.outputOrder)
    (fixed : table.hasDistance sel = false) (first second : Nat → Nat) :
    table.headerLenAt first sel = table.headerLenAt second sel ∧
      table.headerLenAt first sel < 2 ^ 16 := by
  have varint := (table.sizeVarLens sel).toNat_lt
  unfold hasDistance at fixed
  unfold headerLenAt
  by_cases offset : table.typeCodes sel = 6
  · cases found : table.baseSlots sel with
    | none =>
      simp only [offset, if_true]
      exact ⟨trivial, by omega⟩
    | some base => simp [member, offset, found] at fixed
  · simp only [offset, if_false]
    split <;> exact ⟨trivial, by omega⟩

theorem fixedLengths_seed (table : SelectionTable) :
    table.FixedLengths table.seedHeaderLens := by
  intro sel member fixed positions
  obtain ⟨same, small⟩ :=
    headerLenAt_fixed member fixed table.offsets positions
  unfold seedHeaderLens
  rw [if_pos member, UInt16.toNat_ofNat', Nat.mod_eq_of_lt small]
  exact same

theorem FixedLengths.resize (fixed : table.FixedLengths lengths)
    (positions : Nat → Nat) :
    table.FixedLengths (table.resizeHeaders positions lengths) := by
  intro sel member none_ others
  unfold resizeHeaders
  rw [none_]
  exact fixed sel member none_ others

/-- A laid out table: rows one after another, each with the header length its
position asks for. -/
structure LaidOut (table laidOut : SelectionTable) : Prop where
  same :
    laidOut =
      { table with
        outputOffsets := laidOut.outputOffsets
        outputHeaderLens := laidOut.outputHeaderLens }
  lengths :
    ∀ sel ∈ table.outputOrder,
      (laidOut.outputHeaderLens sel).toNat =
        table.headerLenAt laidOut.outputOffsets sel
  positions :
    ∀ before sel after, table.outputOrder = before ++ sel :: after →
      laidOut.outputOffsets sel =
        12 + (before.map (table.rowSize laidOut.outputHeaderLens)).sum
  bounded :
    12 + (table.outputOrder.map
      (table.rowSize laidOut.outputHeaderLens)).sum ≤ 0xffffffff

theorem stabilize_sound {previous : Nat → Nat} {laidOut : SelectionTable}
    (distinct : table.outputOrder.Nodup) (fixed : table.FixedLengths lengths)
    (stable : table.stabilize fuel lengths previous = some laidOut) :
    LaidOut table laidOut := by
  induction fuel generalizing lengths previous with
  | zero => cases stable
  | succ fuel ih =>
    unfold stabilize at stable
    dsimp only at stable
    split at stable
    · exact ih (fixed.resize _) stable
    · next settled =>
      split at stable
      · cases stable
      · next inRange =>
        cases stable
        rw [placeRows_cursor, Nat.not_lt] at inRange
        refine ⟨rfl, ?_, ?_, inRange⟩
        · intro sel member
          dsimp only
          by_cases measured : table.hasDistance sel = true
          · unfold lengthsChanged at settled
            rw [List.any_eq_true, not_exists] at settled
            have unchanged := settled sel
            simp only [member, measured, Bool.true_and, true_and,
              decide_eq_true_iff, not_not] at unchanged
            exact unchanged.symm
          · exact fixed sel member (by simpa using measured) _
        · intro before sel after split
          dsimp only
          rw [split] at distinct ⊢
          exact placeRows_position distinct 12 previous

/-! ## Emission -/

/-- The payload of a row has the recorded length. -/
def PayloadPresent (table : SelectionTable)
    (readStates : Nat → Option PackReadState) (sel : Nat) : Prop :=
  (∃ synthetic, table.syntheticPayloads sel = some synthetic ∧
      synthetic.length = table.payloadLens sel) ∨
    table.syntheticPayloads sel = none ∧
      ∃ state, readStates (table.packSlots sel) = some state ∧
        table.payloadLens sel ≤
          state.bytes.length -
            (table.offsets sel + (table.headerLens sel).toNat)

/-- The bytes of a header before its distance: one varint, which the scanner
accepts too, of the delta's type. -/
structure StartsOffset (varint : Bytes) : Prop where
  whole : IsVarint varint
  scans : ∃ size, ScansSize varint size
  typed : headType varint = 6

/-- A row that can be emitted: its varint is stored, its base is known, the
stored varint of a delta is one, and its payload has the recorded length. -/
structure RowReady
    (table : SelectionTable)
    (readStates : Nat → Option PackReadState)
    (sel : Nat) : Prop where
  nonempty : table.sizeVarLens sel ≠ 0
  inBuffer :
    table.typeCodes sel ≠ 6 → table.typeCodes sel ≠ 7 →
      (table.rowVarint sel).length = (table.sizeVarLens sel).toNat
  offsetBase :
    table.typeCodes sel = 6 → (table.baseSlots sel).isSome = true
  referenceBase : table.typeCodes sel = 7 → table.baseOidRaw.isSome = true
  decodes : table.typeCodes sel = 6 → StartsOffset (table.paddedVarint sel)
  payload : table.PayloadPresent readStates sel

/-- The emitted payload has the recorded length just when it is present. -/
theorem payloadPresent_iff :
    table.PayloadPresent readStates sel ↔
      (¬((readStates (table.packSlots sel)).isNone = true ∧
          table.syntheticPayloads sel = none)) ∧
        ∃ payload,
          table.emitPackPayload sel (readStates (table.packSlots sel)) =
              .ok payload ∧
            payload.length = table.payloadLens sel := by
  have slice :
      ∀ (bytes : Bytes) (start length : Nat),
        (subarray bytes start length).length = length ↔
          length ≤ bytes.length - start := by
    intro bytes start length
    unfold subarray
    rw [List.length_take, List.length_drop]
    omega
  unfold PayloadPresent emitPackPayload
  cases synthetic : table.syntheticPayloads sel with
  | some payload => simp
  | none =>
    cases readStates (table.packSlots sel) with
    | none => simp
    | some state =>
      cases state with
      | wholePack bytes =>
        simp only [reduceCtorEq, false_and, exists_false, true_and,
          false_or, Option.isNone_some, Bool.false_eq_true,
          not_false_eq_true, Option.some.injEq, exists_eq_left',
          Except.ok.injEq, slice, PackReadState.bytes]
      | windows bytes =>
        simp only [reduceCtorEq, false_and, exists_false, true_and,
          false_or, Option.isNone_some, Bool.false_eq_true,
          not_false_eq_true, Option.some.injEq, exists_eq_left',
          PackReadState.bytes]
        constructor
        · intro inside
          rw [if_pos inside]
          exact ⟨_, rfl, (slice _ _ _).mpr inside⟩
        · rintro ⟨payload, emitted, length⟩
          split at emitted
          · next inside => exact inside
          · cases emitted

/-- The header of a row has the length it is measured with just when its
varint is stored and its base is known. -/
theorem headerMeasured_iff :
    (∃ header, table.buildEntryHeaderBytes sel = some header ∧
        header.length = table.headerLenAt table.outputOffsets sel) ↔
      table.sizeVarLens sel ≠ 0 ∧
        (table.typeCodes sel ≠ 6 → table.typeCodes sel ≠ 7 →
          (table.rowVarint sel).length = (table.sizeVarLens sel).toNat) ∧
        (table.typeCodes sel = 6 → (table.baseSlots sel).isSome = true) ∧
        (table.typeCodes sel = 7 → table.baseOidRaw.isSome = true) := by
  unfold buildEntryHeaderBytes headerLenAt
  by_cases empty : table.sizeVarLens sel = 0
  · simp [empty]
  · by_cases offset : table.typeCodes sel = 6
    · cases found : table.baseSlots sel with
      | none => simp [empty, offset]
      | some base =>
        simp [empty, offset, length_paddedVarint,
          ofsDeltaDistanceLength_eq]
    · by_cases reference : table.typeCodes sel = 7
      · cases found : table.baseOidRaw with
        | none => simp [empty, reference]
        | some bases =>
          simp [empty, reference, length_paddedVarint,
            (bases sel).length_eq]
      · simp [empty, offset, reference]

theorem emitEntry_ok_iff {payload : Bytes} :
    table.emitEntry readStates sel = .ok (header, payload) ↔
      (¬((readStates (table.packSlots sel)).isNone = true ∧
          table.syntheticPayloads sel = none)) ∧
        table.buildEntryHeaderBytes sel = some header ∧
        table.emitPackPayload sel (readStates (table.packSlots sel)) =
          .ok payload := by
  unfold emitEntry
  dsimp only
  split
  · next missing => simp [missing]
  · next readable =>
    cases table.buildEntryHeaderBytes sel with
    | none => simp
    | some built =>
      cases table.emitPackPayload sel
          (readStates (table.packSlots sel)) with
      | error failure => simp
      | ok slice =>
        simp only [Except.ok.injEq, Prod.mk.injEq, Option.some.injEq]
        exact ⟨fun same => ⟨readable, same⟩, fun same => same.2⟩

/-- A ready row is emitted with a header of the length it was laid out
with. -/
theorem RowReady.emitted (ready : RowReady table readStates sel) :
    ∃ header payload,
      table.emitEntry readStates sel = .ok (header, payload) ∧
        table.buildEntryHeaderBytes sel = some header ∧
        header.length = table.headerLenAt table.outputOffsets sel ∧
        payload.length = table.payloadLens sel := by
  obtain ⟨readable, payload, emitted, payloadLength⟩ :=
    payloadPresent_iff.mp ready.payload
  obtain ⟨header, built, headerLength⟩ :=
    headerMeasured_iff.mpr
      ⟨ready.nonempty, ready.inBuffer, ready.offsetBase, ready.referenceBase⟩
  exact ⟨header, payload, emitEntry_ok_iff.mpr ⟨readable, built, emitted⟩,
    built, headerLength, payloadLength⟩

/-- Laying out changes nothing a row is made of. -/
theorem RowReady.laidOut {laidOut : SelectionTable}
    (layout : LaidOut table laidOut) (ready : RowReady table readStates sel) :
    RowReady laidOut readStates sel := by
  rw [layout.same]
  exact { ready with }

/-- The entries of ready rows, in order. -/
theorem emitEntries_ready (ready : ∀ sel ∈ order, RowReady table readStates sel) :
    ∃ entry : Nat → Bytes × Bytes,
      table.emitEntries readStates order = .ok (order.map entry) ∧
        ∀ sel ∈ order, table.emitEntry readStates sel = .ok (entry sel) := by
  let entry : Nat → Bytes × Bytes := fun sel =>
    match table.emitEntry readStates sel with
    | .ok emitted => emitted
    | .error _ => ([], [])
  have emitted :
      ∀ sel ∈ order, table.emitEntry readStates sel = .ok (entry sel) := by
    intro sel member
    obtain ⟨header, payload, found, _⟩ := (ready sel member).emitted
    show _ = Except.ok (match table.emitEntry readStates sel with
      | .ok emitted => emitted
      | .error _ => ([], []))
    rw [found]
  refine ⟨entry, ?_, emitted⟩
  clear_value entry
  induction order with
  | nil => rfl
  | cons sel rest ih =>
    unfold emitEntries
    rw [emitted sel List.mem_cons_self]
    dsimp only
    rw [ih (fun other member => ready other (List.mem_cons_of_mem _ member))
      (fun other member => emitted other (List.mem_cons_of_mem _ member))]
    rfl

theorem length_entryBytes {entry : Nat → Bytes × Bytes} {size : Nat → Nat}
    (sized :
      ∀ sel ∈ order, (entry sel).1.length + (entry sel).2.length = size sel) :
    (entryBytes (order.map entry)).length = (order.map size).sum := by
  induction order with
  | nil => rfl
  | cons sel rest ih =>
    have first := sized sel List.mem_cons_self
    have later := ih fun other member =>
      sized other (List.mem_cons_of_mem _ member)
    unfold entryBytes at later ⊢
    rw [List.map_cons, List.flatMap_cons, List.length_append,
      List.length_append, later, List.map_cons, List.sum_cons, first]

theorem entryBytes_split (before after : List Nat) (sel : Nat)
    (entry : Nat → Bytes × Bytes) :
    entryBytes ((before ++ sel :: after).map entry) =
      entryBytes (before.map entry) ++
        ((entry sel).1 ++ ((entry sel).2 ++ entryBytes (after.map entry))) := by
  unfold entryBytes
  rw [List.map_append, List.map_cons, List.flatMap_append,
    List.flatMap_cons, List.append_assoc]

theorem length_buildPackHeader (objectCount : Nat) :
    (buildPackHeader objectCount).length = 12 :=
  rfl

/-! ## The layout of the stream -/

/-- Row `sel` of a stream: where it starts, what it is, and where its
distance leads. -/
structure RowPlaced
    (laidOut : SelectionTable)
    (readStates : Nat → Option PackReadState)
    (stream : Bytes)
    (sel : Nat) : Prop where
  placed :
    ∃ before header payload after,
      stream = before ++ (header ++ (payload ++ after)) ∧
        before.length = laidOut.outputOffsets sel ∧
        laidOut.emitEntry readStates sel = .ok (header, payload) ∧
        header.length = (laidOut.outputHeaderLens sel).toNat ∧
        payload.length = laidOut.payloadLens sel
  distance :
    laidOut.typeCodes sel = 6 →
      ∃ base distance varint size,
        laidOut.baseSlots sel = some base ∧ base < laidOut.count ∧
          0 < distance ∧
          laidOut.outputOffsets base + distance =
            laidOut.outputOffsets sel ∧
          readPackHeaderExFromBuf stream (laidOut.outputOffsets sel) =
            some ⟨6, varint, (laidOut.outputHeaderLens sel).toNat, none,
              some distance⟩ ∧
          parseEntryHeader stream (laidOut.outputOffsets sel) =
            .ok (some ⟨6, size, (laidOut.outputHeaderLens sel).toNat, none,
              some distance⟩)

/-- A row is never empty, so a base starts before its deltas. -/
theorem LaidOut.base_before {laidOut : SelectionTable}
    (layout : LaidOut table laidOut)
    (order : table.outputOrder = before ++ sel :: after)
    (earlier : base ∈ before)
    (nonempty : 0 < (laidOut.outputHeaderLens base).toNat) :
    laidOut.outputOffsets base < laidOut.outputOffsets sel := by
  obtain ⟨first, middle, rfl⟩ := List.append_of_mem earlier
  have basePosition :=
    layout.positions first base (middle ++ sel :: after)
      (by rw [order]; simp)
  have position := layout.positions _ sel after order
  rw [basePosition, position, List.map_append, List.map_cons,
    List.sum_append, List.sum_cons]
  unfold rowSize
  omega

theorem LaidOut.offset_lt {laidOut : SelectionTable}
    (layout : LaidOut table laidOut)
    (order : table.outputOrder = before ++ sel :: after) :
    laidOut.outputOffsets sel < 2 ^ 32 := by
  have bounded := layout.bounded
  rw [order, List.map_append, List.sum_append] at bounded
  rw [layout.positions before sel after order]
  omega

theorem headerLenAt_pos (ready : RowReady table readStates sel)
    (positions : Nat → Nat) : 0 < table.headerLenAt positions sel := by
  have nonempty : (table.sizeVarLens sel).toNat ≠ 0 :=
    fun zero => ready.nonempty (UInt8.toNat_inj.mp zero)
  unfold headerLenAt
  dsimp only
  repeat' split
  all_goals omega

/-- The distance of a row leads back to the start of its base. -/
theorem LaidOut.distance_leads {laidOut : SelectionTable} {leading rest : Bytes}
    (layout : LaidOut table laidOut)
    (ready : ∀ other ∈ table.outputOrder, RowReady laidOut readStates other)
    (sorted : table.BasesFirst table.outputOrder)
    (order : table.outputOrder = before ++ sel :: after)
    (inside : ∀ other ∈ table.outputOrder, other < laidOut.count)
    (start : leading.length = laidOut.outputOffsets sel)
    (built : laidOut.buildEntryHeaderBytes sel = some header)
    (headerLength : header.length = (laidOut.outputHeaderLens sel).toNat)
    (offset : laidOut.typeCodes sel = 6) :
    ∃ base distance varint size,
      laidOut.baseSlots sel = some base ∧ base < laidOut.count ∧
        0 < distance ∧
        laidOut.outputOffsets base + distance = laidOut.outputOffsets sel ∧
        readPackHeaderExFromBuf (leading ++ (header ++ rest))
            (laidOut.outputOffsets sel) =
          some ⟨6, varint, (laidOut.outputHeaderLens sel).toNat, none,
            some distance⟩ ∧
        parseEntryHeader (leading ++ (header ++ rest))
            (laidOut.outputOffsets sel) =
          .ok (some ⟨6, size, (laidOut.outputHeaderLens sel).toNat, none,
            some distance⟩) := by
  have rowReady : RowReady laidOut readStates sel :=
    ready sel (by rw [order]; exact List.mem_append_right _ List.mem_cons_self)
  obtain ⟨base, found⟩ :=
    Option.isSome_iff_exists.mp (rowReady.offsetBase offset)
  obtain ⟨varint, ⟨size, scans⟩, typed⟩ := rowReady.decodes offset
  have baseSlots : table.baseSlots sel = some base := by
    rw [layout.same] at found
    exact found
  have baseBefore : base ∈ before :=
    sorted before sel after order base baseSlots
  have baseMember : base ∈ table.outputOrder := by
    rw [order]
    exact List.mem_append_left _ baseBefore
  have baseStarts :
      laidOut.outputOffsets base < laidOut.outputOffsets sel := by
    refine layout.base_before order baseBefore ?_
    rw [layout.lengths base baseMember]
    have positive :=
      headerLenAt_pos (ready base baseMember) laidOut.outputOffsets
    rw [layout.same] at positive
    exact positive
  have range : laidOut.outputOffsets sel < 2 ^ 32 := layout.offset_lt order
  obtain ⟨distance, leads⟩ := Nat.exists_eq_add_of_lt baseStarts
  have gap :
      (laidOut.outputOffsets sel : Int) - laidOut.outputOffsets base =
        ((distance + 1 : Nat) : Int) := by
    rw [leads]
    push_cast
    ring
  have parts :
      header =
        laidOut.paddedVarint sel ++
          encodeOfsDeltaDistance ((distance + 1 : Nat) : Int) := by
    unfold buildEntryHeaderBytes at built
    rw [if_neg rowReady.nonempty, if_pos offset, found, Option.map_some, gap] at built
    exact (Option.some.inj built).symm
  have decoded :=
    read_ofsDelta leading rest varint scans typed
      (Nat.succ_pos distance) (by omega)
  have headerLen :
      (laidOut.outputHeaderLens sel).toNat =
        (laidOut.paddedVarint sel).length +
          (encodeOfsDeltaDistance ((distance + 1 : Nat) : Int)).length := by
    rw [← headerLength, parts, List.length_append]
  refine ⟨base, distance + 1, laidOut.paddedVarint sel, size, found,
    inside base baseMember, Nat.succ_pos _, by omega, ?_, ?_⟩
  · rw [parts, List.append_assoc, ← start, headerLen]
    exact decoded.1
  · rw [parts, List.append_assoc, ← start, headerLen]
    exact decoded.2

/-- A laid out table of ready rows in base-first order is emitted as laid
out. -/
theorem emitted_as_laidOut (sha1 : Bytes → RawOid) {laidOut : SelectionTable}
    (ready : ∀ sel < table.count, RowReady table readStates sel)
    (order : table.outputOrder.Perm (List.range table.count))
    (sorted : table.BasesFirst table.outputOrder)
    (layout : LaidOut table laidOut) :
    ∃ stream,
      laidOut.createRewriteStream sha1 readStates = .ok stream ∧
        stream.length = laidOut.packBytes ∧
        ∀ sel < table.count, RowPlaced laidOut readStates stream sel := by
  have count : laidOut.count = table.count := by rw [layout.same]
  have outputOrder : laidOut.outputOrder = table.outputOrder := by
    rw [layout.same]
  have payloadLens : laidOut.payloadLens = table.payloadLens := by
    rw [layout.same]
  have inside : ∀ sel, sel ∈ table.outputOrder ↔ sel < table.count :=
    fun sel => order.mem_iff.trans List.mem_range
  have readyLaidOut :
      ∀ sel ∈ table.outputOrder, RowReady laidOut readStates sel :=
    fun sel member => (ready sel ((inside sel).mp member)).laidOut layout
  have lengths :
      ∀ sel ∈ table.outputOrder,
        (laidOut.outputHeaderLens sel).toNat =
          laidOut.headerLenAt laidOut.outputOffsets sel := by
    intro sel member
    rw [layout.lengths sel member, layout.same]
    rfl
  obtain ⟨entry, entries, emitted⟩ := emitEntries_ready readyLaidOut
  have sized :
      ∀ sel ∈ table.outputOrder,
        laidOut.buildEntryHeaderBytes sel = some (entry sel).1 ∧
          (entry sel).1.length = (laidOut.outputHeaderLens sel).toNat ∧
          (entry sel).2.length = laidOut.payloadLens sel := by
    intro sel member
    obtain ⟨header, payload, found, built, headerLength, payloadLength⟩ :=
      (readyLaidOut sel member).emitted
    have same := Except.ok.inj ((emitted sel member).symm.trans found)
    rw [same]
    exact ⟨built, headerLength.trans (lengths sel member).symm,
      payloadLength⟩
  have measured :
      ∀ sel ∈ table.outputOrder,
        (entry sel).1.length + (entry sel).2.length =
          table.rowSize laidOut.outputHeaderLens sel := by
    intro sel member
    rw [(sized sel member).2.1, (sized sel member).2.2, payloadLens]
    rfl
  let body :=
    buildPackHeader laidOut.count ++
      entryBytes (table.outputOrder.map entry)
  refine ⟨body ++ (sha1 body).bytes, ?_, ?_, ?_⟩
  · unfold createRewriteStream
    rw [outputOrder, entries]
  · have total :
        (table.outputOrder.map
            (table.rowSize laidOut.outputHeaderLens)).sum =
          ((List.range table.count).map
            (table.rowSize laidOut.outputHeaderLens)).sum :=
      (order.map _).sum_nat
    rw [List.length_append, (sha1 body).length_eq]
    show (buildPackHeader laidOut.count ++
      entryBytes (table.outputOrder.map entry)).length + 20 = _
    rw [List.length_append, length_buildPackHeader,
      length_entryBytes measured, total]
    unfold packBytes
    rw [count, payloadLens]
    show 12 + _ + 20 = 12 + 20 + _
    unfold rowSize
    omega
  · intro sel row
    have member := (inside sel).mpr row
    obtain ⟨before, after, split⟩ := List.append_of_mem member
    have earlier :
        ∀ other ∈ before, other ∈ table.outputOrder := by
      intro other here
      rw [split]
      exact List.mem_append_left _ here
    let leading :=
      buildPackHeader laidOut.count ++ entryBytes (before.map entry)
    let trailing :=
      entryBytes (after.map entry) ++ (sha1 body).bytes
    have stream :
        body ++ (sha1 body).bytes =
          leading ++ ((entry sel).1 ++ ((entry sel).2 ++ trailing)) := by
      show buildPackHeader laidOut.count ++
          entryBytes (table.outputOrder.map entry) ++ (sha1 body).bytes =
        buildPackHeader laidOut.count ++ entryBytes (before.map entry) ++
          ((entry sel).1 ++ ((entry sel).2 ++
            (entryBytes (after.map entry) ++ (sha1 body).bytes)))
      rw [split, entryBytes_split]
      simp only [List.append_assoc]
    have start : leading.length = laidOut.outputOffsets sel := by
      rw [layout.positions before sel after split]
      show (buildPackHeader laidOut.count ++
        entryBytes (before.map entry)).length = _
      rw [List.length_append, length_buildPackHeader,
        length_entryBytes fun other here => measured other (earlier other here)]
    obtain ⟨built, headerLength, payloadLength⟩ := sized sel member
    refine ⟨⟨leading, (entry sel).1, (entry sel).2, trailing, stream, start,
      emitted sel member, headerLength, payloadLength⟩, ?_⟩
    intro offset
    rw [stream]
    exact layout.distance_leads readyLaidOut sorted split
      (fun other here => by rw [count]; exact (inside other).mp here) start
      built headerLength offset

/-- The stream of a laid out table is what its layout says. -/
def EmittedAsLaidOut (sha1 : Bytes → RawOid) (laidOut : SelectionTable)
    (readStates : Nat → Option PackReadState) : Prop :=
  ∃ stream,
    laidOut.createRewriteStream sha1 readStates = .ok stream ∧
      stream.length = laidOut.packBytes ∧
      ∀ sel < laidOut.count, RowPlaced laidOut readStates stream sel

theorem length_encodeOfsDeltaDistance {distance : Nat} (positive : 0 < distance)
    (small : distance < 2 ^ 32) :
    (encodeOfsDeltaDistance (distance : Int)).length =
      (distanceGroups distance).length := by
  rw [← ofsDeltaDistanceLength_eq]
  unfold ofsDeltaDistanceLength toUint32
  rw [if_neg (by omega), countGroups_eq, Nat.zero_add, Int.toNat_natCast,
    Nat.mod_eq_of_lt small]

/-- A row that is where its layout says was ready. -/
theorem RowPlaced.ready {laidOut : SelectionTable} {stream : Bytes}
    (layout : LaidOut table laidOut) (member : sel ∈ table.outputOrder)
    (row : RowPlaced laidOut readStates stream sel) :
    RowReady laidOut readStates sel := by
  obtain ⟨before, header, payload, after, parts, start, emitted,
    headerLength, payloadLength⟩ := row.placed
  obtain ⟨readable, built, slice⟩ := emitEntry_ok_iff.mp emitted
  have measured :
      header.length = laidOut.headerLenAt laidOut.outputOffsets sel := by
    rw [headerLength, layout.lengths sel member, layout.same]
    rfl
  obtain ⟨nonempty, inBuffer, offsetBase, referenceBase⟩ :=
    headerMeasured_iff.mp ⟨header, built, measured⟩
  refine ⟨nonempty, inBuffer, offsetBase, referenceBase, ?_,
    payloadPresent_iff.mpr ⟨readable, payload, slice, payloadLength⟩⟩
  intro offset
  obtain ⟨base, distance, varint, size, found, _, positive, leads, read,
    parsed⟩ := row.distance offset
  obtain ⟨decoded, agrees⟩ := agreesWithScan parsed
  have same := Option.some.inj (agrees.read.symm.trans read)
  subst same
  obtain ⟨typed, length⟩ := readPackHeader_offset read
  have small : distance < 2 ^ 32 := by
    obtain ⟨earlier, later, order⟩ := List.append_of_mem member
    have range := layout.offset_lt order
    omega
  have gap :
      (laidOut.outputOffsets sel : Int) - laidOut.outputOffsets base =
        (distance : Int) := by
    omega
  have headerParts :
      header =
        laidOut.paddedVarint sel ++
          encodeOfsDeltaDistance (distance : Int) := by
    unfold buildEntryHeaderBytes at built
    rw [if_neg nonempty, if_pos offset, found, Option.map_some, gap] at built
    exact (Option.some.inj built).symm
  -- A distance has one encoding, so the varint that was read is as long as
  -- the stored one.
  have sameLength :
      varint.length = (laidOut.paddedVarint sel).length := by
    have total := headerLength
    rw [headerParts, List.length_append,
      length_encodeOfsDeltaDistance positive small, length] at total
    omega
  have sameVarint : varint = laidOut.paddedVarint sel := by
    calc varint
        = (stream.drop (laidOut.outputOffsets sel)).take varint.length :=
          agrees.bytes
      _ = laidOut.paddedVarint sel := by
          rw [parts, ← start, List.drop_left, headerParts,
            List.append_assoc, sameLength, List.take_left]
  rw [← sameVarint]
  exact ⟨agrees.varint, ⟨size, agrees.size⟩, typed⟩

/-- A row is ready before it is laid out if it is ready afterwards. -/
theorem RowReady.beforeLayout {laidOut : SelectionTable}
    (layout : LaidOut table laidOut) (ready : RowReady laidOut readStates sel) :
    RowReady table readStates sel := by
  rw [layout.same] at ready
  exact { ready with }

/-- Where ordering and laying out succeed, all rows come out ready. -/
theorem rowReady_of_emitted {sha1 : Bytes → RawOid} {laidOut : SelectionTable}
    (built : table.buildOutputOrder = some ordered)
    (computed : ordered.computeHeaderLengths = some laidOut)
    (emitted : laidOut.EmittedAsLaidOut sha1 readStates)
    (row : sel < table.count) : RowReady table readStates sel := by
  obtain ⟨stream, _, _, placed⟩ := emitted
  obtain ⟨same, order, _⟩ := buildOutputOrder_sound built
  have layout : LaidOut ordered laidOut :=
    stabilize_sound (order.nodup_iff.mpr List.nodup_range)
      (fixedLengths_seed ordered) computed
  have inside : sel < laidOut.count := by
    rw [layout.same, same]
    exact row
  have ready : RowReady ordered readStates sel :=
    ((placed sel inside).ready layout
      (order.mem_iff.mpr (List.mem_range.mpr row))).beforeLayout layout
  rw [same] at ready
  exact { ready with }

/-- Once ordering and laying out succeed, the stream is what the layout says
just when every row is ready. -/
theorem rewrite_layout (sha1 : Bytes → RawOid)
    (readStates : Nat → Option PackReadState) {ordered laidOut : SelectionTable}
    (built : table.buildOutputOrder = some ordered)
    (computed : ordered.computeHeaderLengths = some laidOut) :
    laidOut.EmittedAsLaidOut sha1 readStates ↔
      ∀ sel < table.count, RowReady table readStates sel := by
  refine ⟨fun emitted _ row => rowReady_of_emitted built computed emitted row,
    fun ready => ?_⟩
  obtain ⟨same, order, sorted⟩ := buildOutputOrder_sound built
  have count : ordered.count = table.count := by rw [same]
  have distinct : ordered.outputOrder.Nodup :=
    order.nodup_iff.mpr List.nodup_range
  have layout : LaidOut ordered laidOut :=
    stabilize_sound distinct (fixedLengths_seed ordered) computed
  have readyOrdered :
      ∀ sel < ordered.count, RowReady ordered readStates sel := by
    intro sel row
    rw [count] at row
    rw [same]
    exact { ready sel row with }
  have sortedOrdered : ordered.BasesFirst ordered.outputOrder := by
    intro before sel after split base found
    refine sorted before sel after split base ?_
    rw [same] at found
    exact found
  have laidOutCount : laidOut.count = ordered.count := by rw [layout.same]
  unfold EmittedAsLaidOut
  rw [laidOutCount]
  rw [← count] at order
  exact emitted_as_laidOut sha1 readyOrdered order sortedOrdered layout

/-- A blob and a delta against it, selected from one pack. -/
def blobAndDelta : SelectionTable :=
  { allocateSelectionTable 16 with
    count := 2
    offsets := fun sel => if sel = 0 then 12 else 21
    typeCodes := fun sel => if sel = 0 then 3 else 6
    headerLens := fun sel => if sel = 0 then 1 else 2
    payloadLens := fun sel => if sel = 0 then 8 else 12
    sizeVarBuf := [48, 0, 0, 0, 0, 101, 0, 0, 0, 0]
    sizeVarLens := fun _ => 1
    baseSlots := fun sel => if sel = 1 then some 0 else none }

theorem blobAndDelta_ready (sel : Nat) (row : sel < blobAndDelta.count) :
    RowReady blobAndDelta
      (fun _ => some (.wholePack (List.replicate 64 0))) sel := by
  have cases_ : sel = 0 ∨ sel = 1 := by
    have small : sel < 2 := row
    omega
  rcases cases_ with rfl | rfl
  · exact
      { nonempty := by decide +kernel
        inBuffer := by decide +kernel
        offsetBase := by decide +kernel
        referenceBase := by decide +kernel
        decodes := fun offset => absurd offset (by decide +kernel)
        payload := Or.inr ⟨rfl, _, rfl, by decide +kernel⟩ }
  · have varint : blobAndDelta.paddedVarint 1 = [101] := by decide +kernel
    exact
      { nonempty := by decide +kernel
        inBuffer := by decide +kernel
        offsetBase := by decide +kernel
        referenceBase := by decide +kernel
        decodes := fun _ => by
          rw [varint]
          exact ⟨by unfold IsVarint; decide +kernel,
            ⟨5, 101, [], rfl, by decide, by decide +kernel⟩,
            by decide +kernel⟩
        payload := Or.inr ⟨rfl, _, rfl, by decide +kernel⟩ }

theorem rewrite_layout_blobAndDelta :
    ∃ ordered laidOut,
      blobAndDelta.buildOutputOrder = some ordered ∧
        ordered.computeHeaderLengths = some laidOut ∧
        laidOut.EmittedAsLaidOut (fun _ => zeroOid)
          (fun _ => some (.wholePack (List.replicate 64 0))) := by
  have both :
      (blobAndDelta.buildOutputOrder.bind computeHeaderLengths).isSome =
        true := by
    decide +kernel
  obtain ⟨laidOut, found⟩ := Option.isSome_iff_exists.mp both
  obtain ⟨ordered, built, computed⟩ := Option.bind_eq_some_iff.mp found
  exact ⟨ordered, laidOut, built, computed,
    (rewrite_layout (fun _ => zeroOid) _ built computed).mpr
      blobAndDelta_ready⟩

/-! ## A size padded past its row -/

/-- The empty blob, a delta against it, and the blob `b` with its size padded
to six bytes. -/
def paddedDeltaBytes : Bytes :=
  [80, 65, 67, 75, 0, 0, 0, 2, 0, 0, 0, 3,
    48, 120, 156, 3, 0, 0, 0, 0, 1,
    100, 9, 120, 156, 99, 96, 100, 76, 4, 0, 0, 106, 0, 100,
    177, 128, 128, 128, 128, 0, 120, 156, 75, 2, 0, 0, 99, 0, 99,
    214, 235, 101, 40, 237, 68, 157, 227, 69, 214, 153, 189, 206, 51, 135,
    119, 3, 12, 124, 119]

/-- How much the inflater consumes of the payloads of this pack. -/
def paddedDeltaInflated (payload : Bytes) : Option Nat :=
  if payload.take 3 = [120, 156, 3] then
    some 8
  else if payload.take 3 = [120, 156, 99] then
    some 12
  else
    some 9

def paddedDeltaPack : SourcePack paddedDeltaInflated where
  state := .wholePack paddedDeltaBytes
  entries :=
    [⟨12, ⟨3, 0, 1, none, none⟩, 21⟩, ⟨21, ⟨6, 4, 2, none, some 9⟩, 35⟩,
      ⟨35, ⟨3, 1, 6, none, none⟩, 50⟩]
  scanned := by decide +kernel

/-- The padded blob, the delta and the blob it is against, in this order; the
headers are read by offset, and the padded one is read last. -/
def paddedDelta : SelectionTable :=
  let rows :=
    (((allocateSelectionTable 16).addRow ⟨0, 2, 35, 50, zeroOid⟩).addRow
      ⟨0, 1, 21, 35, zeroOid⟩).addRow ⟨0, 0, 12, 21, zeroOid⟩
  let base :=
    stored (rows.storeSelectionHeader 2 12 21 ⟨3, [48], 1, none, none⟩)
  let delta :=
    stored (base.storeSelectionHeader 1 21 35 ⟨6, [100], 2, none, some 9⟩)
  let padded :=
    stored
      (delta.storeSelectionHeader 0 35 50
        ⟨3, [177, 128, 128, 128, 128, 0], 6, none, none⟩)
  { padded with
    baseSlots := Function.update padded.baseSlots 1 (some 2) }

/-- The last byte of the padded size is the first of the delta's header, which
then has no type. -/
theorem rewrite_layout_not_padded :
    ¬∀ (table ordered laidOut : SelectionTable),
      table.buildOutputOrder = some ordered →
        ordered.computeHeaderLengths = some laidOut →
          laidOut.EmittedAsLaidOut (fun _ => zeroOid)
            (fun _ => some paddedDeltaPack.state) := by
  intro kept
  have both :
      (paddedDelta.buildOutputOrder.bind computeHeaderLengths).isSome =
        true := by
    decide +kernel
  obtain ⟨laidOut, found⟩ := Option.isSome_iff_exists.mp both
  obtain ⟨ordered, built, computed⟩ := Option.bind_eq_some_iff.mp found
  have ready :=
    rowReady_of_emitted built computed
      (kept paddedDelta ordered laidOut built computed)
      (show 1 < paddedDelta.count by decide +kernel)
  have typed : headType (paddedDelta.paddedVarint 1) = 6 :=
    (ready.decodes (by decide +kernel)).typed
  revert typed
  decide +kernel

end SelectionTable

end GitOnCloudflare.Pack
