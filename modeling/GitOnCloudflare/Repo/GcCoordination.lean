import GitOnCloudflare.Repo.RefClosure

/-!
# Receives beside a running garbage collection

A collection that has fixed its source packs lets receives proceed.  A
receive proves, before its durable intent, that its new objects do not become
reachable through a source pack only, or else keeps the whole source; its ref
update advances the versions the collection accounts for.
-/

namespace GitOnCloudflare.Repo

open Foundations
open Receive

/-- The operation has fixed its source and neither committed nor ended. -/
def GcOperation.ownsSource (operation : GcOperation) : Bool :=
  operation.snapshot.isSome && operation.commit.isNone &&
    operation.phase ≠ .complete && operation.phase ≠ .blocked

def gcOwnsSource (operation : Option GcOperation) : Bool :=
  operation.any GcOperation.ownsSource

def gcOwnsMaintenance (operation : Option GcOperation) : Bool :=
  operation.any fun current =>
    current.snapshot.isSome && current.phase ≠ .complete &&
      current.phase ≠ .blocked

structure GcReceiveProtection where
  operationId : String
  refsVersion : Nat
  reason : Option GcRetentionReason

/-- Ids a staged pack needs outside itself to be decoded. -/
def externalBases (packs : List PackRefView) (stagedKey : Option String) :
    List String :=
  (packs.filter fun pack => some pack.packKey = stagedKey).flatMap
    fun pack =>
      (pack.objects.filterMap PackObjectView.baseOid).filter fun base =>
        base ∉ pack.objects.map PackObjectView.oid

/-- The decision of the guard once every view is loaded. -/
def gcReceiveRetention (sourceKeys : List String) (packs : List PackRefView)
    (stagedKey : Option String) (wants haves : List String) :
    Option GcRetentionReason :=
  let sourceOids :=
    (packs.filter fun pack => pack.packKey ∈ sourceKeys).flatMap fun pack =>
      pack.objects.map PackObjectView.oid
  match computeNeededFromPackRefs packs
      (wants ++ externalBases packs stagedKey) haves with
  | none => some .metadataUnavailable
  | some needed =>
    if needed.any fun oid => oid ∈ sourceOids then
      some .newSourceReachability
    else
      none

/-- The keys whose metadata the guard loads: the staged pack and the active
catalog. -/
def gcReceivePackKeys (catalog : PackCatalog) (stagedKey : Option String) :
    List String :=
  let rows := (listActivePackCatalog catalog).map PackCatalogRow.packKey
  match stagedKey with
  | some key => if key ∈ rows then rows else key :: rows
  | none => rows

def prepareGcReceiveProtection (refs : List Ref) (refsVersion : Nat)
    (commands : List ReceiveCommand) (stagedKey : Option String) :
    RepoProgram (Option GcReceiveProtection) := do
  let repo ← get
  match repo.gcOperation with
  | none => return none
  | some operation =>
    match operation.ownsSource, operation.coordination,
        operation.snapshot with
    | true, some coordination, some snapshot =>
      let proof : GcReceiveProtection :=
        ⟨operation.id, refsVersion, none⟩
      let wants :=
        (commands.map ReceiveCommand.newOid).filter fun oid =>
          !isZeroOid oid
      if coordination.retainedSourcePackKeys ≠ [] then
        return some proof
      else if wants = [] ∧ stagedKey = none then
        return some proof
      else
        let views ←
          r2PackRefViews (gcReceivePackKeys repo.packCatalog stagedKey)
        match views with
        | none =>
          return some { proof with reason := some .metadataUnavailable }
        | some packs =>
          return some
            { proof with
              reason :=
                gcReceiveRetention
                  (snapshot.sourcePacks.map PackCatalogRow.packKey)
                  packs stagedKey wants (refs.map Ref.oid) }
    | _, _, _ => return none

/-- Keep the whole source of the operation, with the reason. -/
def GcOperation.retainSource (operation : GcOperation)
    (coordination : GcCoordination) (reason : GcRetentionReason) :
    GcOperation :=
  { operation with
    coordination :=
      some
        { coordination with
          retainedSourcePackKeys :=
            (operation.snapshot.map fun snapshot =>
              snapshot.sourcePacks.map PackCatalogRow.packKey).getD []
          conservativeRetentionReason := some reason } }

def retainGcReceiveProtection (repo : RepoState) (token : String)
    (proof : Option GcReceiveProtection) : Except RepoFailure RepoState :=
  match proof with
  | none => .ok repo
  | some proof =>
    match repo.gcOperation with
    | none => .error .gcProtectionChanged
    | some operation =>
      match operation.coordination with
      | none => .error .gcProtectionChanged
      | some coordination =>
        if operation.id ≠ proof.operationId ||
            operation.commit.isSome ||
            (repo.receiveLease.map RepoLease.token) ≠ some token ||
            repo.refsVersion ≠ proof.refsVersion then
          .error .gcProtectionChanged
        else
          match proof.reason with
          | none => .ok repo
          | some reason =>
            .ok
              (repo.setGcOperation
                (some (operation.retainSource coordination reason)))

/-- The versions a collection accounts for after one accepted receive. -/
def GcCoordination.advance (coordination : GcCoordination)
    (nextRefsVersion : Nat) (nextPacksetVersion : Option Nat)
    (expectedPinVersion nextPinVersion : Nat) : GcCoordination :=
  { coordination with
    refsVersion := nextRefsVersion
    packsetVersion := nextPacksetVersion.getD coordination.packsetVersion
    snapshotPinVersion :=
      if coordination.snapshotPinVersion = expectedPinVersion then
        nextPinVersion
      else
        coordination.snapshotPinVersion
    acceptedReceives := coordination.acceptedReceives + 1 }

def advanceGcReceiveVersions (repo : RepoState)
    (expectedRefsVersion nextRefsVersion : Nat)
    (nextPacksetVersion : Option Nat) (expectedPinVersion nextPinVersion : Nat) :
    Except RepoFailure RepoState :=
  match repo.gcOperation with
  | none => .ok repo
  | some operation =>
    match operation.ownsSource, operation.coordination with
    | true, some coordination =>
      if coordination.refsVersion = nextRefsVersion then
        .ok repo
      else if coordination.refsVersion ≠ expectedRefsVersion ||
          nextPacksetVersion.any fun next =>
            coordination.packsetVersion + 1 ≠ next then
        .error .gcVersionsDiverged
      else
        .ok
          (repo.setGcOperation
            (some
              { operation with
                coordination :=
                  some
                    (coordination.advance nextRefsVersion
                      nextPacksetVersion expectedPinVersion
                      nextPinVersion) }))
    | _, _ => .ok repo

end GitOnCloudflare.Repo
