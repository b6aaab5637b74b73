import GitOnCloudflare.Pack.ResolutionComplete

/-!
# When delta resolution is exact

A resolution is exact when it succeeds for the packs whose every entry has a
finite chain, and returns the objects that the chains denote.
-/

namespace GitOnCloudflare.Pack

open Relation

namespace ResolveOptions

variable {Oid : Type} {objectCount : Nat} [DecidableEq Oid]

/-- Success exactly for packs whose chains are finite, and then the ids, the
types and the references of the denoted objects. -/
structure ResolvesExactly (opts : ResolveOptions Oid objectCount) : Prop
    where
  succeeds :
    (∃ table, opts.resolveDeltasAndWriteIdx = .ok table) ↔ opts.AllDenote
  faithful : ∀ table, opts.resolveDeltasAndWriteIdx = .ok table →
    opts.Faithful table

variable {opts : ResolveOptions Oid objectCount}

omit [DecidableEq Oid] in
/-- A faithful table has a chain for every entry. -/
theorem Faithful.allDenote {table : ResolvedTable Oid objectCount}
    (faithful : opts.Faithful table) :
    opts.AllDenote := by
  intro index
  rcases faithful index with ⟨object, denotes, _⟩
  exact ⟨object, denotes⟩

/-- A resolution that succeeds for the packs with finite chains is exact. -/
theorem resolvesExactly_of_succeeds (addressed : opts.ContentAddressed)
    (succeeds : opts.AllDenote →
      ∃ table, opts.resolveDeltasAndWriteIdx = .ok table) :
    opts.ResolvesExactly := by
  refine ⟨?_, fun _ resolved => resolve_faithful addressed resolved⟩
  constructor
  · rintro ⟨table, resolved⟩
    exact (resolve_faithful addressed resolved).allDenote
  · exact succeeds

/-- What is returned is always faithful, and the resolution is exact unless
all chains are finite and some entry is published while an entry on its own
chain of bases still waits for its id. -/
theorem resolvesExactly_of_untangled (opts : ResolveOptions Oid objectCount)
    (addressed : opts.ContentAddressed) :
    (∀ table, opts.resolveDeltasAndWriteIdx = .ok table →
      opts.Faithful table) ∧
    ((opts.AllDenote → opts.Untangled) → opts.ResolvesExactly) := by
  refine ⟨fun _ resolved => resolve_faithful addressed resolved, ?_⟩
  intro untangled
  apply resolvesExactly_of_succeeds addressed
  intro all
  exact resolveDeltasAndWriteIdx_total addressed all
    fun deltas mixed state index publishes _ =>
      untangled all deltas mixed state index publishes

/-! ## A base that comes later in the pack -/

/-- An object on a single byte. -/
def byteBlob (byte : UInt8) : GitObject := ⟨.blob, [byte]⟩

/-- A chain of two REF_DELTA entries in front of the entry it ends in, whose
own base is outside the pack. -/
def lateBaseScan : ScanResult GitObject 3 where
  entry := fun index =>
    match index with
    | 0 => ⟨12, .refDelta (byteBlob 8), [1, 1, 1, 7], 1⟩
    | 1 => ⟨40, .refDelta (byteBlob 7), [1, 1, 1, 9], 1⟩
    | 2 => ⟨68, .refDelta (byteBlob 5), [1, 1, 1, 8], 1⟩
  ascending := by decide
  backward := by
    intro index baseOffset kind
    match index with
    | 0 => cases kind
    | 1 => cases kind
    | 2 => cases kind

def lateBase (lruBudget : Nat) : ResolveOptions GitObject 3 where
  scanResult := lateBaseScan
  computeOidBytes := id
  bytesToHex := fun _ => ""
  readExternalBaseObject := fun oid =>
    if oid = byteBlob 5 then some (byteBlob 5) else none
  lruBudget := lruBudget
  maxObjectBytes := none

theorem lateBase_addressed (lruBudget : Nat) :
    (lateBase lruBudget).ContentAddressed := by
  refine ⟨Function.injective_id, ?_⟩
  intro oid object found
  have split : (if oid = byteBlob 5 then some (byteBlob 5) else none) =
      some object := found
  split at split
  · next same =>
    cases split
    exact same.symm
  · cases split

/-- No entry denotes the base that is outside. -/
theorem lateBase_acyclic (lruBudget : Nat) (entry : Fin 3) :
    ¬ (lateBase lruBudget).ReencodesOwnBase entry := by
  have last : (lateBase lruBudget).Denotes 2 (byteBlob 8) :=
    .external rfl rfl ⟨rfl, rfl, rfl⟩
  have first : (lateBase lruBudget).Denotes 0 (byteBlob 7) :=
    .refDelta rfl last ⟨rfl, rfl, rfl⟩
  have second : (lateBase lruBudget).Denotes 1 (byteBlob 9) :=
    .refDelta rfl first ⟨rfl, rfl, rfl⟩
  have nobody : ∀ base, ¬ (lateBase lruBudget).HoldsOid base (byteBlob 5) := by
    rintro base ⟨object, denotes, same⟩
    have other : object ≠ byteBlob 5 := by
      match base with
      | 0 =>
        rw [denotes.unique (lateBase_addressed lruBudget) first]
        decide
      | 1 =>
        rw [denotes.unique (lateBase_addressed lruBudget) second]
        decide
      | 2 =>
        rw [denotes.unique (lateBase_addressed lruBudget) last]
        decide
    exact other same
  rintro ⟨⟨oid, kind, found, _⟩, path⟩
  have outside : oid = byteBlob 5 := by
    by_contra different
    have missing : (lateBase lruBudget).readExternalBaseObject oid = none :=
      if_neg different
    rw [missing] at found
    cases found
  subst outside
  rcases TransGen.head'_iff.mp path with ⟨base, first, _⟩
  rcases first with offset | ⟨other, named, holds, _⟩
  · cases kind.symm.trans offset
  · cases kind.symm.trans named
    exact nobody base holds

theorem resolvesExactly_of_untangled_lateBase :
    (∀ table, (lateBase 0).resolveDeltasAndWriteIdx = .ok table →
      (lateBase 0).Faithful table) ∧ (lateBase 0).ResolvesExactly := by
  rcases resolvesExactly_of_untangled (lateBase 0) (lateBase_addressed 0) with
    ⟨faithful, exact_⟩
  exact ⟨faithful, exact_ fun _ =>
    untangled_of_acyclic (lateBase_addressed 0) (lateBase_acyclic 0)⟩

/-! ## A base that is encoded again -/

/-- Two entries on the same external base; the first one is that base
again. -/
def reencodedScan : ScanResult GitObject 2 where
  entry := fun index =>
    match index with
    | 0 => ⟨12, .refDelta (byteBlob 7), [1, 1, 1, 7], 1⟩
    | 1 => ⟨40, .refDelta (byteBlob 7), [1, 1, 1, 8], 1⟩
  ascending := by decide
  backward := by
    intro index baseOffset kind
    match index with
    | 0 => cases kind
    | 1 => cases kind

def reencoded : ResolveOptions GitObject 2 where
  scanResult := reencodedScan
  computeOidBytes := id
  bytesToHex := fun _ => ""
  readExternalBaseObject := fun oid =>
    if oid = byteBlob 7 then some (byteBlob 7) else none
  lruBudget := 0
  maxObjectBytes := none

theorem reencoded_allDenote : reencoded.AllDenote := by
  intro index
  match index with
  | 0 =>
    refine ⟨byteBlob 7, .external rfl rfl ?_⟩
    exact ⟨rfl, rfl, rfl⟩
  | 1 =>
    refine ⟨byteBlob 8, .external rfl rfl ?_⟩
    exact ⟨rfl, rfl, rfl⟩

theorem reencoded_addressed : reencoded.ContentAddressed := by
  refine ⟨Function.injective_id, ?_⟩
  intro oid object found
  have split : (if oid = byteBlob 7 then some (byteBlob 7) else none) =
      some object := found
  split at split
  · next same =>
    cases split
    exact same.symm
  · cases split

/-- The second entry reads the first one back, which by then is its own
base. -/
theorem reencoded_not_resolvesExactly :
    reencoded.ContentAddressed ∧ reencoded.AllDenote ∧
      ¬ reencoded.ResolvesExactly := by
  refine ⟨reencoded_addressed, reencoded_allDenote, ?_⟩
  intro exact_
  rcases exact_.succeeds.mpr reencoded_allDenote with ⟨table, resolved⟩
  have failed :
      reencoded.resolveDeltasAndWriteIdx.toOption.isSome = false := by
    decide +kernel
  rw [resolved] at failed
  cases failed

end ResolveOptions

end GitOnCloudflare.Pack
