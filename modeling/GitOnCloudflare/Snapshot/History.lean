import GitOnCloudflare.Snapshot.RecordChange

/-!
# One history of refs behind the snapshot record

Every ref update raises the refs version by one, and every sequence number in
the snapshot record is a refs version: an accepted write takes the version it
creates, a reconciled head either that number or the version at which it finds
its ref.  So all heads, journal entries and pointers read off one history of
ref lists, which no call may name but which every call extends.
-/

namespace GitOnCloudflare.Snapshot

open Foundations
open Receive
open Repo

/-- `oid` is where `ref` was at an earlier version of the refs. -/
def PublishedAt (history : Nat → List Ref) (version : Nat) (ref : String)
    (sequence : Nat) (oid : String) : Prop :=
  sequence ≤ version ∧ authoritativeOid (history sequence) ref = oid

variable {history : Nat → List Ref} {refs : List Ref}
  {commands : List ReceiveCommand}

theorem PublishedAt.functional {version : Nat} :
    ∀ ref sequence oid other, PublishedAt history version ref sequence oid →
      PublishedAt history version ref sequence other → oid = other :=
  fun _ _ _ _ first second => first.2.symm.trans second.2

/-- The snapshot record of a repository reads off the history. -/
structure Recorded (history : Nat → List Ref) (repo : RepoState) : Prop where
  now : history repo.refsVersion = repo.refs
  pointers :
    Registers.RecordedIn (PublishedAt history repo.refsVersion)
      (pointers repo)
  heads :
    ∀ ref head, repo.acceptedWriteHead ref = some head →
      PublishedAt history repo.refsVersion ref head.sequence head.afterSha
  journal :
    ∀ id entry, repo.acceptedWriteJournal id = some entry →
      entry.sequence = id.sequence ∧ entry.fact.ref = id.ref ∧
        PublishedAt history repo.refsVersion id.ref id.sequence
          entry.fact.afterSha

/-- One history continues another from a version on. -/
structure Continues
    (history extended : Nat → List Ref)
    (before after : RepoState) : Prop where
  version : before.refsVersion ≤ after.refsVersion
  past : ∀ version ≤ before.refsVersion, extended version = history version

theorem Continues.published {history extended : Nat → List Ref}
    {before after : RepoState}
    (continues : Continues history extended before after) {ref oid : String}
    {sequence : Nat}
    (published : PublishedAt history before.refsVersion ref sequence oid) :
    PublishedAt extended after.refsVersion ref sequence oid := by
  refine ⟨published.1.trans continues.version, ?_⟩
  rw [continues.past sequence published.1]
  exact published.2

/-! ## Changes of the record under one version -/

variable {offers : List PointerOffer} {before after repo : RepoState}
  {fact : AcceptedWriteFact}

theorem Recorded.change {pinned : String → String → Prop}
    (recorded : Recorded history before)
    (offered :
      ∀ offer ∈ offers,
        PublishedAt history before.refsVersion offer.key offer.stamp
          offer.value)
    (changed :
      RecordChange (PublishedAt history before.refsVersion) pinned offers
        before after) : Recorded history after := by
  rcases recorded.pointers.offerAll PublishedAt.functional offered with
    ⟨next, accepted, kept⟩
  rw [changed.pointers, Option.some.injEq] at accepted
  subst accepted
  constructor
  · rw [changed.refsVersion, changed.refs]
    exact recorded.now
  · rw [changed.refsVersion]
    exact kept
  · intro ref head found
    rw [changed.refsVersion]
    rcases changed.heads ref head found with old | fresh
    · exact recorded.heads ref head old
    · exact fresh
  · intro id entry found
    rw [changed.refsVersion]
    rcases changed.journal id entry found with
      ⟨old, present, sequence, fact⟩ | fresh
    · rw [← sequence, ← fact]
      exact recorded.journal id old present
    · exact fresh

/-- Offers read off the history meet no conflict. -/
theorem Recorded.accepts (recorded : Recorded history repo)
    (offered :
      ∀ offer ∈ offers,
        PublishedAt history repo.refsVersion offer.key offer.stamp
          offer.value) : (Snapshot.pointers repo).offerAll offers ≠ none := by
  rcases recorded.pointers.offerAll PublishedAt.functional offered with
    ⟨next, accepted, -⟩
  rw [accepted]
  exact Option.some_ne_none next

/-- The sequence number a reconciler finds for a ref names the version at
which the ref is where it finds it. -/
theorem Recorded.refSequence (recorded : Recorded history repo) (ref : String) :
    PublishedAt history repo.refsVersion ref (refSequence repo ref)
      (authoritativeOid repo.refs ref) := by
  have present :
      PublishedAt history repo.refsVersion ref repo.refsVersion
        (authoritativeOid repo.refs ref) := by
    refine ⟨le_rfl, ?_⟩
    rw [recorded.now]
  unfold Repo.refSequence
  cases found : repo.acceptedWriteHead ref with
  | none => exact present
  | some head =>
    dsimp only
    split
    · next same =>
        rw [← same]
        exact recorded.heads ref head found
    · exact present

/-- Storing the refs of the next version, or the same refs again. -/
theorem Recorded.stored (recorded : Recorded history before)
    (heads : after.acceptedWriteHead = before.acceptedWriteHead)
    (journal : after.acceptedWriteJournal = before.acceptedWriteJournal)
    (current : after.snapshotCurrent = before.snapshotCurrent)
    (version :
      after.refsVersion = before.refsVersion + 1 ∨
        after.refsVersion = before.refsVersion ∧ after.refs = before.refs) :
    Continues history (Function.update history after.refsVersion after.refs)
        before after ∧
      Recorded (Function.update history after.refsVersion after.refs)
        after := by
  have continues :
      Continues history (Function.update history after.refsVersion after.refs)
        before after := by
    rcases version with next | ⟨same, refs⟩
    · refine ⟨by omega, fun earlier below => ?_⟩
      rw [Function.update_of_ne (by omega)]
    · refine ⟨same.ge, fun earlier below => ?_⟩
      rw [same, refs, ← recorded.now, Function.update_eq_self]
  refine ⟨continues, Function.update_self .., ?_, ?_, ?_⟩
  · intro ref held found
    have sameNow : Snapshot.pointers after = Snapshot.pointers before := by
      unfold Snapshot.pointers
      rw [current]
    rw [sameNow] at found
    exact continues.published (recorded.pointers ref held found)
  · intro ref head found
    rw [heads] at found
    exact continues.published (recorded.heads ref head found)
  · intro id entry found
    rw [journal] at found
    rcases recorded.journal id entry found with ⟨sequence, ref, published⟩
    exact ⟨sequence, ref, continues.published published⟩

/-! ## Where the commands of a push leave its refs -/

theorem getD_outcome (command : ReceiveCommand) :
    command.outcome.getD zeroOid = command.newOid := by
  unfold ReceiveCommand.outcome
  by_cases zero : isZeroOid command.newOid
  · rw [if_pos zero]
    exact (decide_eq_true_iff.mp zero).symm
  · rw [if_neg zero]
    rfl

/-- A transition ends where the ref ends. -/
theorem transition_reaches (commands : List ReceiveCommand) (refMap : RefMap)
    (transitions : KeyedList RefTransition.ref)
    (reached :
      ∀ ref transition, transitions.find? ref = some transition →
        (refMap.oid ref).getD zeroOid = transition.afterSha) :
    ∀ ref transition,
      (commands.foldl noteTransition transitions).find? ref =
          some transition →
        (RefMap.oid (commands.foldl applyReceiveCommand refMap) ref).getD
            zeroOid = transition.afterSha := by
  induction commands generalizing refMap transitions with
  | nil => exact reached
  | cons command commands ih =>
    apply ih
    intro ref transition found
    rw [oid_applyReceiveCommand]
    have written
        (noted : RefTransition)
        (named : noted.ref = command.ref)
        (ends : noted.afterSha = command.newOid)
        (present :
          (transitions.upsert noted).find? ref = some transition) :
        (if command.ref = ref then command.outcome
          else refMap.oid ref).getD zeroOid = transition.afterSha := by
      rw [KeyedList.find?_upsert, named] at present
      by_cases same : command.ref = ref
      · rw [if_pos same] at present ⊢
        cases present
        rw [getD_outcome, ends]
      · rw [if_neg same] at present ⊢
        exact reached ref transition present
    unfold noteTransition at found
    cases known : transitions.find? command.ref with
    | none =>
      rw [known] at found
      exact written ⟨command.ref, command.oldOid, command.newOid⟩ rfl rfl
        found
    | some existing =>
      rw [known] at found
      exact written { existing with afterSha := command.newOid }
        (KeyedList.find?_eq_some_iff.mp known).2 rfl found

theorem authoritativeOid_of_transition {ref : String}
    {transition : RefTransition}
    (found :
      (commands.foldl noteTransition KeyedList.empty).find? ref =
        some transition) :
    authoritativeOid (applyReceiveCommands refs commands) ref =
      transition.afterSha :=
  transition_reaches commands (KeyedList.ofList refs) KeyedList.empty nofun
    ref transition found

theorem authoritativeOid_of_matching {facts : List AcceptedWriteFact}
    (matching : acceptedWritesMatchCommands commands facts = true)
    (member : fact ∈ facts) :
    authoritativeOid (applyReceiveCommands refs commands) fact.ref = fact.afterSha := by
  unfold acceptedWritesMatchCommands at matching
  simp only [Bool.and_eq_true, List.all_eq_true] at matching
  have checked := matching.2 fact member
  cases found :
      (commands.foldl noteTransition KeyedList.empty).find? fact.ref with
  | none => simp [found] at checked
  | some transition =>
    simp only [found, Bool.and_eq_true, decide_eq_true_eq] at checked
    rw [authoritativeOid_of_transition found, checked.2]

theorem authoritativeOid_of_intentFact {context : AcceptedWriteContext}
    (member : fact ∈ acceptedWriteFactsForCommands context commands) :
    authoritativeOid (applyReceiveCommands refs commands) fact.ref = fact.afterSha := by
  have listed :
      fact.transition ∈
        (commands.foldl noteTransition KeyedList.empty).items := by
    rw [← map_transition_foldl context commands KeyedList.empty
      KeyedList.empty rfl]
    exact List.mem_map_of_mem (List.mem_of_mem_filter member)
  exact authoritativeOid_of_transition
    (KeyedList.find?_eq_some_iff.mpr ⟨listed, rfl⟩)

end GitOnCloudflare.Snapshot
