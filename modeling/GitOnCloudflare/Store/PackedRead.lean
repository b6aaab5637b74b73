import GitOnCloudflare.Pack.DeltaResolution

/-!
# Reading packed objects

A read looks for an id in the packs of the catalog, in their order, and takes
the first row it finds.  The row of a delta leads on: to a row of the same
pack, or to another read.  Rows that are being read are remembered, and a row
that comes up again ends the read.
-/

namespace GitOnCloudflare.Store

open Pack

/-! ## The catalog -/

/-- A row of an index with what its bytes hold. -/
structure PackedEntry (Oid : Type) where
  oid : Oid
  offset : Nat
  kind : EntryKind Oid
  payload : Bytes

/-- A pack with its index.  The search for an id hits some row with the id,
when there is one. -/
structure IndexedPackSource (Oid : Type) where
  entries : List (PackedEntry Oid)
  findOidIndex : Oid → Option Nat
  hits : ∀ {oid row}, findOidIndex oid = some row →
    ∃ entry, entries[row]? = some entry ∧ entry.oid = oid
  misses : ∀ {oid}, findOidIndex oid = none →
    ∀ entry ∈ entries, entry.oid ≠ oid

structure PackedObjectCandidate where
  packSlot : Nat
  objectIndex : Nat
deriving DecidableEq

section Catalog

variable {Oid : Type} (packs : List (IndexedPackSource Oid))

/-- The first pack that has the id, from a slot on. -/
def findFrom (oid : Oid) :
    Nat → List (IndexedPackSource Oid) → Option PackedObjectCandidate
  | _, [] => none
  | packSlot, source :: sources =>
    match source.findOidIndex oid with
    | some objectIndex => some ⟨packSlot, objectIndex⟩
    | none => findFrom oid (packSlot + 1) sources

def findObject (oid : Oid) : Option PackedObjectCandidate :=
  findFrom oid 0 packs

def entryAt (candidate : PackedObjectCandidate) : Option (PackedEntry Oid) :=
  (packs[candidate.packSlot]?).bind fun source =>
    source.entries[candidate.objectIndex]?

/-- The row of the same pack at an offset. -/
def baseAtOffset (candidate : PackedObjectCandidate) (baseOffset : Nat) :
    Option PackedObjectCandidate :=
  (packs[candidate.packSlot]?).bind fun source =>
    (source.entries.findIdx? fun entry =>
      decide (entry.offset = baseOffset)).map fun objectIndex =>
        ⟨candidate.packSlot, objectIndex⟩

/-- Where the row of a delta leads; a whole object leads nowhere. -/
def baseCandidate (candidate : PackedObjectCandidate) :
    EntryKind Oid → Option PackedObjectCandidate
  | .full _ => none
  | .ofsDelta baseOffset => baseAtOffset packs candidate baseOffset
  | .refDelta baseOid => findObject packs baseOid

end Catalog

/-- What a read comes to: it throws, or finds nothing, or an object. -/
abbrev ReadResult := Except String (Option GitObject)

/-- The base of a delta came back. -/
def applyToBase (delta : Bytes) (base : Option GitObject) : ReadResult :=
  match base with
  | none => .ok none
  | some object =>
    (applyGitDelta object.payload delta none).map fun payload =>
      some ⟨object.type, payload⟩

def recursionCycle : String := "pack object recursion cycle"

section Reading

variable {Oid : Type} (packs : List (IndexedPackSource Oid))

/-- A read without a memo.  `visited` are the rows being read; the fuel bounds
the depth. -/
def materializeCandidate :
    Nat → List PackedObjectCandidate → PackedObjectCandidate → ReadResult
  | 0, _, _ => .error "materialize: out of fuel"
  | fuel + 1, visited, candidate =>
    if candidate ∈ visited then
      .error recursionCycle
    else
      match entryAt packs candidate with
      | none => .ok none
      | some entry =>
        match entry.kind with
        | .full type => .ok (some ⟨type, entry.payload⟩)
        | kind =>
          match baseCandidate packs candidate kind with
          | none => .ok none
          | some base =>
            (materializeCandidate fuel (candidate :: visited)
              base).bind (applyToBase entry.payload)

def readObject (fuel : Nat) (oid : Oid) : ReadResult :=
  match findObject packs oid with
  | none => .ok none
  | some candidate => materializeCandidate packs fuel [] candidate

end Reading

/-! ## Chains -/

variable {length : Nat} {object : GitObject}
  {other : Nat} {result : GitObject} {Oid : Type}

section Chains

variable {Oid : Type} (packs : List (IndexedPackSource Oid))

/-- A row with a delta chain of some length through first copies, and its
object. -/
inductive FirstCopyChain : Nat → PackedObjectCandidate → GitObject → Prop
  | full {candidate : PackedObjectCandidate} {entry : PackedEntry Oid}
      {type : GitObjectType}
      (at_ : entryAt packs candidate = some entry)
      (whole : entry.kind = .full type) :
      FirstCopyChain 0 candidate ⟨type, entry.payload⟩
  | delta {length : Nat} {candidate base : PackedObjectCandidate}
      {entry : PackedEntry Oid} {object result : GitObject}
      (at_ : entryAt packs candidate = some entry)
      (leads : baseCandidate packs candidate entry.kind = some base)
      (chain : FirstCopyChain length base object)
      (applied : applyToBase entry.payload (some object) =
        .ok (some result)) :
      FirstCopyChain (length + 1) candidate result

/-- An id with an entry somewhere whose delta chain ends; every base on the
way may be any copy. -/
inductive SomeCopyChain : PackedObjectCandidate → GitObject → Prop
  | full {candidate : PackedObjectCandidate} {entry : PackedEntry Oid}
      {type : GitObjectType}
      (at_ : entryAt packs candidate = some entry)
      (whole : entry.kind = .full type) :
      SomeCopyChain candidate ⟨type, entry.payload⟩
  | ofsDelta {candidate base : PackedObjectCandidate}
      {entry : PackedEntry Oid} {object result : GitObject}
      {baseOffset : Nat}
      (at_ : entryAt packs candidate = some entry)
      (kind : entry.kind = .ofsDelta baseOffset)
      (leads : baseAtOffset packs candidate baseOffset = some base)
      (chain : SomeCopyChain base object)
      (applied : applyToBase entry.payload (some object) =
        .ok (some result)) :
      SomeCopyChain candidate result
  | refDelta {candidate base : PackedObjectCandidate}
      {entry copy : PackedEntry Oid} {object result : GitObject}
      {baseOid : Oid}
      (at_ : entryAt packs candidate = some entry)
      (kind : entry.kind = .refDelta baseOid)
      (copyAt : entryAt packs base = some copy)
      (same : copy.oid = baseOid)
      (chain : SomeCopyChain base object)
      (applied : applyToBase entry.payload (some object) =
        .ok (some result)) :
      SomeCopyChain candidate result

variable {packs}
  {candidate base : PackedObjectCandidate} {entry : PackedEntry Oid}

theorem baseCandidate_full {kind : EntryKind Oid} {type : GitObjectType}
    (whole : kind = .full type)
    (leads : baseCandidate packs candidate kind = some base) : False := by
  subst whole
  cases leads

/-- What a row with a chain holds. -/
theorem FirstCopyChain.inversion
    (chain : FirstCopyChain packs length candidate object)
    (at_ : entryAt packs candidate = some entry) :
    (∃ type, entry.kind = .full type ∧ length = 0 ∧
      object = ⟨type, entry.payload⟩) ∨
    ∃ base shorter below,
      baseCandidate packs candidate entry.kind = some base ∧
      length = shorter + 1 ∧ FirstCopyChain packs shorter base below ∧
      applyToBase entry.payload (some below) = .ok (some object) := by
  cases chain with
  | full at' whole =>
    have same := Option.some.inj (at_.symm.trans at')
    subst same
    exact .inl ⟨_, whole, rfl, rfl⟩
  | delta at' leads chain applied =>
    have same := Option.some.inj (at_.symm.trans at')
    subst same
    exact .inr ⟨_, _, _, leads, rfl, chain, applied⟩

/-- A row leads to one object, in one number of steps. -/
theorem FirstCopyChain.unique
    (chain : FirstCopyChain packs length candidate object)
    (again : FirstCopyChain packs other candidate result) :
    length = other ∧ object = result := by
  induction chain generalizing other result with
  | full at_ whole =>
    cases again with
    | full at' whole' =>
      have same := Option.some.inj (at_.symm.trans at')
      subst same
      rw [whole] at whole'
      cases whole'
      exact ⟨rfl, rfl⟩
    | delta at' leads _ _ =>
      have same := Option.some.inj (at_.symm.trans at')
      subst same
      exact (baseCandidate_full whole leads).elim
  | delta at_ leads _ applied ih =>
    cases again with
    | full at' whole' =>
      have same := Option.some.inj (at_.symm.trans at')
      subst same
      exact (baseCandidate_full whole' leads).elim
    | delta at' leads' chain' applied' =>
      have same := Option.some.inj (at_.symm.trans at')
      subst same
      have base := Option.some.inj (leads.symm.trans leads')
      subst base
      rcases ih chain' with ⟨rfl, rfl⟩
      exact ⟨rfl, Option.some.inj (Except.ok.inj
        (applied.symm.trans applied'))⟩

/-- If a row has a chain, then so has the row below, and a shorter one. -/
def Below (packs : List (IndexedPackSource Oid))
    (lower upper : PackedObjectCandidate) : Prop :=
  ∀ length object, FirstCopyChain packs length upper object →
    ∃ shorter below, shorter < length ∧
      FirstCopyChain packs shorter lower below

theorem Below.of_leads (at_ : entryAt packs candidate = some entry)
    (leads : baseCandidate packs candidate entry.kind = some base) :
    Below packs base candidate := by
  intro length object chain
  cases chain with
  | full at' whole =>
    have same := Option.some.inj (at_.symm.trans at')
    subst same
    exact (baseCandidate_full whole leads).elim
  | delta at' leads' chain' _ =>
    have same := Option.some.inj (at_.symm.trans at')
    subst same
    have base := Option.some.inj (leads.symm.trans leads')
    subst base
    exact ⟨_, _, Nat.lt_succ_self _, chain'⟩

theorem Below.trans {low middle high : PackedObjectCandidate}
    (lower : Below packs low middle) (upper : Below packs middle high) :
    Below packs low high := by
  intro length object chain
  rcases upper _ _ chain with ⟨_, _, less, middleChain⟩
  rcases lower _ _ middleChain with ⟨_, _, lesser, lowChain⟩
  exact ⟨_, _, Nat.lt_trans lesser less, lowChain⟩

/-- The rows above stay above when a promise goes down a row. -/
theorem rows_below {rows : List PackedObjectCandidate}
    (at_ : entryAt packs candidate = some entry)
    (leads : baseCandidate packs candidate entry.kind = some base)
    (above : ∀ upper ∈ rows, Below packs candidate upper) :
    ∀ upper ∈ candidate :: rows, Below packs base upper := by
  intro upper member
  have step := Below.of_leads at_ leads
  rcases List.mem_cons.mp member with rfl | older
  · exact step
  · exact step.trans (above upper older)

/-- A row with a chain is not below itself. -/
theorem FirstCopyChain.not_below
    (chain : FirstCopyChain packs length candidate object) :
    ¬ Below packs candidate candidate := by
  intro below
  rcases below _ _ chain with ⟨_, _, less, again⟩
  exact Nat.ne_of_lt less (again.unique chain).1

/-- The rows being read are all above. -/
theorem FirstCopyChain.not_mem
    (chain : FirstCopyChain packs length candidate object)
    {visited : List PackedObjectCandidate}
    (above : ∀ upper ∈ visited, Below packs candidate upper) :
    candidate ∉ visited :=
  fun member => chain.not_below (above candidate member)

/-- Enough fuel reads a row with a chain. -/
theorem FirstCopyChain.materialize
    (chain : FirstCopyChain packs length candidate object)
    {visited : List PackedObjectCandidate}
    (above : ∀ upper ∈ visited, Below packs candidate upper) {fuel : Nat}
    (enough : length < fuel) :
    materializeCandidate packs fuel visited candidate =
      .ok (some object) := by
  induction chain generalizing visited fuel with
  | full at_ whole =>
    cases fuel with
    | zero => exact absurd enough (Nat.not_lt_zero _)
    | succ fuel =>
      have fresh := (FirstCopyChain.full at_ whole).not_mem above
      unfold materializeCandidate
      rw [if_neg fresh, at_]
      dsimp only
      rw [whole]
  | @delta length candidate base entry _ result at_ leads chain applied ih =>
    cases fuel with
    | zero => exact absurd enough (Nat.not_lt_zero _)
    | succ fuel =>
      have fresh := (chain.delta at_ leads applied).not_mem above
      have read := @ih (candidate :: visited)
        (rows_below at_ leads above) fuel (by omega)
      unfold materializeCandidate
      rw [if_neg fresh, at_]
      dsimp only
      split
      next type whole => exact (baseCandidate_full whole leads).elim
      next kind _ =>
        rw [leads]
        dsimp only
        rw [read]
        exact applied

end Chains

/-- The first copy of an id has a chain. -/
def FirstCopy {Oid : Type} (packs : List (IndexedPackSource Oid))
    (oid : Oid) (length : Nat) (object : GitObject) : Prop :=
  ∃ candidate, findObject packs oid = some candidate ∧
    FirstCopyChain packs length candidate object

/-- A read without a memo returns the object. -/
theorem FirstCopy.readObject {packs : List (IndexedPackSource Oid)} {oid : Oid}
    (first : FirstCopy packs oid length object) {fuel : Nat}
    (enough : length < fuel) :
    Store.readObject packs fuel oid = .ok (some object) := by
  rcases first with ⟨candidate, found, chain⟩
  unfold Store.readObject
  rw [found]
  exact chain.materialize
    (fun _ member => absurd member List.not_mem_nil) enough

theorem FirstCopy.unique {packs : List (IndexedPackSource Oid)} {oid : Oid}
    (first : FirstCopy packs oid length object)
    (again : FirstCopy packs oid other result) :
    length = other ∧ object = result := by
  rcases first with ⟨candidate, found, chain⟩
  rcases again with ⟨other, foundAgain, chainAgain⟩
  have same := Option.some.inj (found.symm.trans foundAgain)
  subst same
  exact chain.unique chainAgain

end GitOnCloudflare.Store
