import GitOnCloudflare.Foundations.CheckedFold
import GitOnCloudflare.Pack.DeltaResolution
import Mathlib.Logic.Relation

/-!
# The object a delta chain denotes

An entry denotes an object when it is stored whole, or when its program
applies to an object that its base denotes.  The base of an OFS_DELTA entry is
the entry at its base offset; the base of a REF_DELTA entry is any entry with
the base id, or the external object of that id.
-/

namespace GitOnCloudflare.Pack

open Foundations
open Relation

namespace ResolveOptions

variable {Oid : Type} {objectCount : Nat}
  (opts : ResolveOptions Oid objectCount)

/-- The program of an entry turns one object into another. -/
structure Applies (index : Fin objectCount) (base result : GitObject) :
    Prop where
  applied :
    applyGitDelta base.payload (opts.entry index).payload
      opts.maxObjectBytes = .ok result.payload
  sized : result.payload.length = (opts.entry index).decompressedSize
  typed : result.type = base.type

/-- A finite chain of bases that ends in a whole entry or in an external
base, with every program applying. -/
inductive Denotes : Fin objectCount → GitObject → Prop where
  | full {index : Fin objectCount} {object : GitObject} :
      opts.fullObject index = some object → Denotes index object
  | ofsDelta {index base : Fin objectCount} {object result : GitObject} :
      opts.kind index = .ofsDelta (opts.offset base) →
        Denotes base object → opts.Applies index object result →
          Denotes index result
  | refDelta {index base : Fin objectCount} {object result : GitObject} :
      opts.kind index = .refDelta (opts.computeOidBytes object) →
        Denotes base object → opts.Applies index object result →
          Denotes index result
  | external {index : Fin objectCount} {baseOid : Oid}
      {object result : GitObject} :
      opts.kind index = .refDelta baseOid →
        opts.readExternalBaseObject baseOid = some object →
          opts.Applies index object result → Denotes index result

/-- A finite chain that ends in a whole entry of the pack. -/
inductive DenotesInside : Fin objectCount → GitObject → Prop where
  | full {index : Fin objectCount} {object : GitObject} :
      opts.fullObject index = some object → DenotesInside index object
  | ofsDelta {index base : Fin objectCount} {object result : GitObject} :
      opts.kind index = .ofsDelta (opts.offset base) →
        DenotesInside base object → opts.Applies index object result →
          DenotesInside index result
  | refDelta {index base : Fin objectCount} {object result : GitObject} :
      opts.kind index = .refDelta (opts.computeOidBytes object) →
        DenotesInside base object → opts.Applies index object result →
          DenotesInside index result

/-- What content addressing promises: an id belongs to one object, and the
store returns the object of the id it is asked for. -/
structure ContentAddressed : Prop where
  injective : Function.Injective opts.computeOidBytes
  external : ∀ oid object,
    opts.readExternalBaseObject oid = some object →
      opts.computeOidBytes object = oid

/-- The object that the base of an entry holds. -/
inductive BaseObject (index : Fin objectCount) (object : GitObject) : Prop
    where
  | ofsDelta (base : Fin objectCount) :
      opts.kind index = .ofsDelta (opts.offset base) →
        opts.Denotes base object → BaseObject index object
  | refDelta :
      opts.kind index = .refDelta (opts.computeOidBytes object) →
        BaseObject index object

variable {opts}

/-! ## Programs -/

variable {index : Fin objectCount} {object result : GitObject}

theorem fullObject_kind (full : opts.fullObject index = some object) :
    opts.kind index = .full object.type := by
  unfold fullObject at full
  split at full
  · next type same =>
    cases full
    exact same
  · cases full

theorem refBaseOid_eq_some {oid : Oid} :
    opts.refBaseOid index = some oid ↔ opts.kind index = .refDelta oid := by
  unfold refBaseOid
  cases opts.kind index with
  | full => simp
  | ofsDelta => simp
  | refDelta baseOid => simp

variable {base first second : GitObject}

theorem Applies.unique (left : opts.Applies index base first)
    (right : opts.Applies index base second) : first = second := by
  have payloads : first.payload = second.payload :=
    Except.ok.inj (left.applied.symm.trans right.applied)
  have types : first.type = second.type := left.typed.trans right.typed.symm
  cases first
  cases second
  cases payloads
  cases types
  rfl

theorem applyEntryDelta_eq_ok {label : String} :
    opts.applyEntryDelta label index base = .ok result ↔
      opts.Applies index base result := by
  unfold applyEntryDelta
  rw [CheckedFold.bind_eq_ok]
  constructor
  · rintro ⟨payload, applied, checked⟩
    split at checked
    · cases checked
    · next sized =>
      cases checked
      exact ⟨applied, not_not.mp sized, rfl⟩
  · intro applies
    refine ⟨result.payload, applies.applied, ?_⟩
    rw [if_neg (not_not.mpr applies.sized), ← applies.typed]

/-! ## One object per entry -/

theorem offset_injective : Function.Injective opts.offset :=
  opts.scanResult.ascending.injective

/-- An entry denotes at most one object. -/
theorem Denotes.unique (addressed : opts.ContentAddressed)
    (left : opts.Denotes index first) (right : opts.Denotes index second) :
    first = second := by
  induction left generalizing second with
  | full whole =>
    cases right with
    | full other => exact Option.some.inj (whole.symm.trans other)
    | ofsDelta kind => cases (fullObject_kind whole).symm.trans kind
    | refDelta kind => cases (fullObject_kind whole).symm.trans kind
    | external kind => cases (fullObject_kind whole).symm.trans kind
  | ofsDelta kind _ applies ih =>
    cases right with
    | full whole => cases (fullObject_kind whole).symm.trans kind
    | ofsDelta other denotes applied =>
      have offsets := EntryKind.ofsDelta.inj (kind.symm.trans other)
      cases offset_injective offsets
      cases ih denotes
      exact applies.unique applied
    | refDelta other => cases kind.symm.trans other
    | external other => cases kind.symm.trans other
  | refDelta kind _ applies _ =>
    cases right with
    | full whole => cases (fullObject_kind whole).symm.trans kind
    | ofsDelta other => cases kind.symm.trans other
    | refDelta other _ applied =>
      have oids := EntryKind.refDelta.inj (kind.symm.trans other)
      cases addressed.injective oids
      exact applies.unique applied
    | external other found applied =>
      have oids := EntryKind.refDelta.inj (kind.symm.trans other)
      rw [← addressed.external _ _ found] at oids
      cases addressed.injective oids
      exact applies.unique applied
  | external kind found applies =>
    cases right with
    | full whole => cases (fullObject_kind whole).symm.trans kind
    | ofsDelta other => cases kind.symm.trans other
    | refDelta other _ applied =>
      have oids := EntryKind.refDelta.inj (kind.symm.trans other)
      rw [← addressed.external _ _ found] at oids
      cases addressed.injective oids
      exact applies.unique applied
    | external other again applied =>
      cases kind.symm.trans other
      cases found.symm.trans again
      exact applies.unique applied

/-- A delta entry that denotes an object has a base, and its program applies
to whatever object its base holds. -/
theorem Denotes.applies_of_base (addressed : opts.ContentAddressed)
    (denotes : opts.Denotes index result) (base : opts.BaseObject index object) :
    opts.Applies index object result := by
  cases base with
  | ofsDelta base kind held =>
    cases denotes with
    | full whole => cases (fullObject_kind whole).symm.trans kind
    | ofsDelta other denoted applied =>
      have offsets := EntryKind.ofsDelta.inj (kind.symm.trans other)
      cases offset_injective offsets
      cases denoted.unique addressed held
      exact applied
    | refDelta other => cases kind.symm.trans other
    | external other => cases kind.symm.trans other
  | refDelta kind =>
    cases denotes with
    | full whole => cases (fullObject_kind whole).symm.trans kind
    | ofsDelta other => cases kind.symm.trans other
    | refDelta other _ applied =>
      have oids := EntryKind.refDelta.inj (kind.symm.trans other)
      cases addressed.injective oids
      exact applied
    | external other found applied =>
      have oids := EntryKind.refDelta.inj (kind.symm.trans other)
      rw [← addressed.external _ _ found] at oids
      cases addressed.injective oids
      exact applied

/-! ## Possible bases -/

variable (opts) in
/-- Some entry denotes an object with this id. -/
def HoldsOid (index : Fin objectCount) (oid : Oid) : Prop :=
  ∃ object, opts.Denotes index object ∧ opts.computeOidBytes object = oid

variable (opts) in
/-- A whole entry has this id. -/
def WholeHolder (oid : Oid) : Prop :=
  ∃ index object, opts.fullObject index = some object ∧
    opts.computeOidBytes object = oid

variable (opts) in
/-- The entries an entry may take its base from: by offset, or by id.  By id
a delta entry counts only when no whole entry has the id. -/
def PossibleBase (index base : Fin objectCount) : Prop :=
  opts.kind index = .ofsDelta (opts.offset base) ∨
    ∃ oid, opts.kind index = .refDelta oid ∧ opts.HoldsOid base oid ∧
      ((opts.fullObject base).isSome ∨ ¬ opts.WholeHolder oid)

variable (opts) in
/-- Some entry has this id by a chain that stays in the pack. -/
def InsideHolder (oid : Oid) : Prop :=
  ∃ index object, opts.DenotesInside index object ∧
    opts.computeOidBytes object = oid

variable (opts) in
/-- The base of a REF_DELTA entry is found outside the pack only. -/
def ExternalRoot (index : Fin objectCount) : Prop :=
  ∃ oid, opts.kind index = .refDelta oid ∧
    (opts.readExternalBaseObject oid).isSome ∧ ¬ opts.InsideHolder oid

variable (opts) in
/-- The pack holds the external base of a REF_DELTA entry again, in an entry
whose own chain may lead through that REF_DELTA entry. -/
def ReencodesOwnBase (index : Fin objectCount) : Prop :=
  opts.ExternalRoot index ∧ TransGen opts.PossibleBase index index

theorem DenotesInside.denotes (inside : opts.DenotesInside index object) :
    opts.Denotes index object := by
  induction inside with
  | full whole => exact .full whole
  | ofsDelta kind _ applies ih => exact .ofsDelta kind ih applies
  | refDelta kind _ applies ih => exact .refDelta kind ih applies

/-- Whatever object a possible base denotes, the entry is a delta against
it. -/
theorem PossibleBase.baseObject (addressed : opts.ContentAddressed)
    {base : Fin objectCount} (possible : opts.PossibleBase index base)
    (denotes : opts.Denotes base object) : opts.BaseObject index object := by
  rcases possible with kind | ⟨oid, kind, ⟨held, denoted, same⟩, _⟩
  · exact .ofsDelta base kind denotes
  · cases denoted.unique addressed denotes
    subst same
    exact .refDelta kind

theorem BaseObject.denotes (base : opts.BaseObject index object)
    (held : (∃ entry, opts.Denotes entry object) ∨
      opts.readExternalBaseObject (opts.computeOidBytes object) =
        some object) (applies : opts.Applies index object result) :
    opts.Denotes index result := by
  cases base with
  | ofsDelta base kind denotes => exact .ofsDelta kind denotes applies
  | refDelta kind =>
    rcases held with ⟨entry, denotes⟩ | found
    · exact .refDelta kind denotes applies
    · exact .external kind found applies

end ResolveOptions

end GitOnCloudflare.Pack
