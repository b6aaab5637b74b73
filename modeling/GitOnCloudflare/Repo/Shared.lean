import GitOnCloudflare.Repo.GcCoordination

/-!
# Lease lifetimes, keys and schedule helpers

The constants and the small storage helpers that the catalog modules share.
-/

namespace GitOnCloudflare.Repo

open Foundations

/-! ## Lifetimes in milliseconds -/

def receiveLeaseTtlMs : Nat := 30 * 60000

def compactLeaseTtlMs : Nat := 20 * 60000

def expiredWriterDrainMs : Nat := 5 * 60000

def leaseRetryAfterSeconds : Nat := 10

def compactionActivityQuietMs : Nat := 15000

def compactionMaxDeferralMs : Nat := 60000

/-- Earliest safe start: after a quiet window, but never beyond the hard
deferral. -/
def compactionStartAt (wantedAt pendingSince : Nat) : Nat :=
  min (wantedAt + compactionActivityQuietMs)
    (pendingSince + compactionMaxDeferralMs)

/-! ## Keys -/

def doPrefix (doId : String) : String := "do/" ++ doId

def r2PackKey (root name : String) : String :=
  root ++ "/objects/pack/" ++ name

/-- Replace a final `.pack`. -/
def replacePackSuffix (packKey suffix : String) : String :=
  if Text.endsWith packKey ".pack" then
    String.ofList (packKey.toList.take (packKey.toList.length - 5)) ++ suffix
  else
    packKey

def packIndexKey (packKey : String) : String :=
  replacePackSuffix packKey ".idx"

def packRefsKey (packKey : String) : String :=
  replacePackSuffix packKey ".refs"

/-! ## Leases and the compaction schedule -/

def RepoLease.live (lease : RepoLease) (now : Nat) : Prop :=
  now < lease.expiresAt

instance (lease : RepoLease) (now : Nat) : Decidable (lease.live now) :=
  inferInstanceAs (Decidable (now < lease.expiresAt))

def activeLeaseOrUndefined (lease : Option RepoLease) (now : Nat) :
    Option RepoLease :=
  lease.filter fun held => held.live now

def activeStockReceivePreparationLeases (leases : List RepoLease) (now : Nat) :
    List RepoLease :=
  leases.filter fun lease => lease.live now

def listActiveNativeReceiveOperations (repo : RepoState) :
    List NativeReceiveOperation :=
  (repo.nativeReceiveOperationIndex.filterMap
    repo.nativeReceiveOperation).filter fun operation =>
      !isNativeReceiveTerminal operation.state

def listActiveStockReceiveOperations (repo : RepoState) :
    List NativeReceiveOperation :=
  (listActiveNativeReceiveOperations repo).filter fun operation =>
    operation.stockReceive

/-- Record the latest activity without moving the first pending deadline. -/
def markCompactionActivity (activityAt : Nat) : RepoProgram Unit := do
  put fun repo => repo.setCompactionWantedAt (some activityAt)
  let repo ← get
  if repo.compactionPendingSince = none then
    put fun repo => repo.setCompactionPendingSince (some activityAt)

def clearCompactionSchedule : RepoProgram Unit := do
  put fun repo => repo.setCompactionWantedAt none
  put fun repo => repo.setCompactionPendingSince none

def bumpPacksetVersion : RepoProgram Nat := do
  let repo ← get
  put fun repo => repo.setPacksetVersion (repo.packsetVersion + 1)
  return repo.packsetVersion + 1

end GitOnCloudflare.Repo
