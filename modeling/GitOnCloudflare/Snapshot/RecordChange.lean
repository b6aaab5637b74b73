import GitOnCloudflare.Foundations.StampedRegister
import GitOnCloudflare.Repo.SnapshotProjection
import GitOnCloudflare.Repo.StockReceiveAuthority
import GitOnCloudflare.Repo.WriteRecord

/-!
# What one call can do to the snapshot record

The snapshot record is the accepted-write heads, the journal, the pins and
the current pointers.  Each transaction that touches it offers a list of
sequence-stamped commits to the pointer registers and writes heads and
entries of one sequence number; `RecordChange` says exactly that, and every
function below is given by the change it makes or the conflict it meets.
-/

namespace GitOnCloudflare.Snapshot

open Foundations
open Receive
open Repo

abbrev PointerOffer := Offer String Nat String

/-- The current pointers as registers over refs. -/
def pointers (repo : RepoState) : Registers String Nat String :=
  fun ref =>
    (repo.snapshotCurrent ref).map fun current =>
      ⟨current.sequence, current.commitSha⟩

/--
`written ref sequence oid` bounds the heads and journal entries a change may
write, `pinned commitSha treeSha` the pins.
-/
structure RecordChange
    (written : String → Nat → String → Prop)
    (pinned : String → String → Prop)
    (offers : List PointerOffer)
    (before after : RepoState) : Prop where
  refs : after.refs = before.refs
  refsVersion : after.refsVersion = before.refsVersion
  heads :
    ∀ ref head, after.acceptedWriteHead ref = some head →
      before.acceptedWriteHead ref = some head ∨
        written ref head.sequence head.afterSha
  journal :
    ∀ id entry, after.acceptedWriteJournal id = some entry →
      (∃ old, before.acceptedWriteJournal id = some old ∧
          old.sequence = entry.sequence ∧ old.fact = entry.fact) ∨
        (entry.sequence = id.sequence ∧ entry.fact.ref = id.ref ∧
          written id.ref id.sequence entry.fact.afterSha)
  pins :
    ∀ commitSha pin, after.snapshotPins.find? commitSha = some pin →
      before.snapshotPins.find? commitSha = some pin ∨
        pinned commitSha pin.treeSha
  pointers :
    (pointers before).offerAll offers = some (pointers after)

/-- Everything but the pins is where it was. -/
structure SameRecord (before after : RepoState) : Prop where
  refs : after.refs = before.refs
  refsVersion : after.refsVersion = before.refsVersion
  heads : after.acceptedWriteHead = before.acceptedWriteHead
  journal : after.acceptedWriteJournal = before.acceptedWriteJournal
  current : after.snapshotCurrent = before.snapshotCurrent

theorem SameRecord.refl (repo : RepoState) : SameRecord repo repo :=
  ⟨rfl, rfl, rfl, rfl, rfl⟩

variable {before after repo : RepoState} {sequence : Nat}
  {middle : RepoState} {written : String → Nat → String → Prop}
  {pinned : String → String → Prop} {now : Nat}

theorem SameRecord.trans (early : SameRecord before middle)
    (late : SameRecord middle after) : SameRecord before after where
  refs := late.refs.trans early.refs
  refsVersion := late.refsVersion.trans early.refsVersion
  heads := late.heads.trans early.heads
  journal := late.journal.trans early.journal
  current := late.current.trans early.current

section Rules

variable {written : String → Nat → String → Prop}
variable {pinned : String → String → Prop}

theorem RecordChange.refl (repo : RepoState) :
    RecordChange written pinned [] repo repo where
  refs := rfl
  refsVersion := rfl
  heads := fun _ _ found => Or.inl found
  journal := fun _ entry found => Or.inl ⟨entry, found, rfl, rfl⟩
  pins := fun _ _ found => Or.inl found
  pointers := rfl

variable {first second : List PointerOffer}

theorem RecordChange.trans
    (early : RecordChange written pinned first before middle)
    (late : RecordChange written pinned second middle after) :
    RecordChange written pinned (first ++ second) before after where
  refs := late.refs.trans early.refs
  refsVersion := late.refsVersion.trans early.refsVersion
  heads := by
    intro ref head found
    rcases late.heads ref head found with old | fresh
    · exact early.heads ref head old
    · exact Or.inr fresh
  journal := by
    intro id entry found
    rcases late.journal id entry found with ⟨old, kept, sequence, fact⟩ | fresh
    · rcases early.journal id old kept with ⟨first, start, same, equal⟩ | fresh
      · exact Or.inl ⟨first, start, same.trans sequence, equal.trans fact⟩
      · rw [sequence, fact] at fresh
        exact Or.inr fresh
    · exact Or.inr fresh
  pins := by
    intro commitSha pin found
    rcases late.pins commitSha pin found with old | fresh
    · exact early.pins commitSha pin old
    · exact Or.inr fresh
  pointers := by
    rw [Registers.offerAll_append, early.pointers]
    exact late.pointers

/-- A change of the pins only. -/
theorem RecordChange.of_same (same : SameRecord before after)
    (pins :
      ∀ commitSha pin, after.snapshotPins.find? commitSha = some pin →
        before.snapshotPins.find? commitSha = some pin ∨
          pinned commitSha pin.treeSha) :
    RecordChange written pinned [] before after where
  refs := same.refs
  refsVersion := same.refsVersion
  heads := by
    intro ref head found
    rw [same.heads] at found
    exact Or.inl found
  journal := by
    intro id entry found
    rw [same.journal] at found
    exact Or.inl ⟨entry, found, rfl, rfl⟩
  pins := pins
  pointers := by
    unfold Snapshot.pointers
    rw [same.current]
    rfl

/-- The outcome of a function on the record: a change with its offers, or a
failure, which is the pointer conflict only if some offers conflict. -/
def Changes (written : String → Nat → String → Prop)
    (pinned : String → String → Prop) (offers : List PointerOffer)
    (before : RepoState) : Except RepoFailure RepoState → Prop
  | .ok after => RecordChange written pinned offers before after
  | .error failure =>
    failure = .snapshotCurrentConflict →
      (pointers before).offerAll offers = none

theorem Changes.bind {step : Except RepoFailure RepoState}
    {next : RepoState → Except RepoFailure RepoState}
    (early : Changes written pinned first before step)
    (late :
      ∀ middle, step = .ok middle →
        Changes written pinned second middle (next middle)) :
    Changes written pinned (first ++ second) before (step.bind next) := by
  cases taken : step with
  | error failure =>
    rw [taken] at early
    intro conflict
    rw [Registers.offerAll_append, early conflict]
    rfl
  | ok middle =>
    rw [taken] at early
    have rest := late middle taken
    revert rest
    simp only [Except.bind]
    cases next middle with
    | ok after => exact early.trans
    | error failure =>
      intro refused conflict
      rw [Registers.offerAll_append, early.pointers]
      exact refused conflict

end Rules

/-! ## The pointer -/

theorem advanceSnapshotCurrent_changes {written : String → Nat → String → Prop}
    {pinned : String → String → Prop} (repo : RepoState)
    (ref commitSha : String) (sequence updatedAt : Nat) :
    Changes written pinned [⟨ref, sequence, commitSha⟩] repo
      ((advanceSnapshotCurrent repo ref commitSha sequence updatedAt).map
        Prod.snd) := by
  have moved :
      RecordChange written pinned [] repo repo := .refl repo
  have advanced
      (accepted :
        Registers.accept (pointers repo ref) ⟨sequence, commitSha⟩ =
          some ⟨sequence, commitSha⟩) :
      RecordChange written pinned [⟨ref, sequence, commitSha⟩] repo
        { repo with
          snapshotCurrent :=
            Function.update repo.snapshotCurrent ref
              (some ⟨ref, commitSha, sequence, updatedAt⟩) } := by
    refine { moved with pointers := ?_ }
    simp only [Registers.offerAll, Registers.offer, Offer.stamped, accepted,
      Option.map_some, Option.bind_some]
    congr 1
    funext other
    unfold pointers
    by_cases same : other = ref
    · subst same
      simp
    · simp [same]
  unfold advanceSnapshotCurrent
  cases held : repo.snapshotCurrent ref with
  | none =>
    refine advanced ?_
    simp [pointers, held, Registers.accept]
  | some current =>
    dsimp only
    split_ifs with newer conflict
    · refine advanced ?_
      simp [pointers, held, Registers.accept, newer]
    · intro _
      have refused :
          Registers.accept (pointers repo ref) ⟨sequence, commitSha⟩ =
            none :=
        Registers.accept_eq_none_iff.mpr
          ⟨⟨current.sequence, current.commitSha⟩, by simp [pointers, held],
            conflict.1.symm, conflict.2⟩
      simp [Registers.offerAll, Registers.offer, Offer.stamped, refused]
    · refine { moved with pointers := ?_ }
      have kept :
          Registers.accept (pointers repo ref) ⟨sequence, commitSha⟩ =
            some ⟨current.sequence, current.commitSha⟩ := by
        simp only [pointers, held, Option.map_some, Registers.accept, newer,
          if_false]
        rw [if_neg conflict]
      simp only [Registers.offerAll, Registers.offer, Offer.stamped, kept,
        Option.map_some, Option.bind_some]
      congr 1
      funext other
      by_cases same : other = ref
      · subst same
        simp [pointers, held]
      · simp [same]

/-! ## The pin -/

/-- The pin of a commit can be retained: its tree is a valid object id and no
other tree is pinned. -/
def pinFits (repo : RepoState) (input : SnapshotPinInput) : Bool :=
  isValidPinnedObjectSha input.treeSha &&
    (repo.snapshotPins.find? input.commitSha).all fun existing =>
      existing.treeSha = input.treeSha

/-- The repository with the pin of a commit installed and materialized. -/
def pinRepo (repo : RepoState) (sequence : Nat) (fact : SnapshotPinFact)
    (input : SnapshotPinInput) : RepoState :=
  recordMaterialization (installPin repo sequence fact input) sequence fact
    input

theorem retainSnapshotPin_eq {repo : RepoState} {sequence : Nat}
    {fact : SnapshotPinFact} {input : SnapshotPinInput}
    (same : fact.commitSha = input.commitSha) :
    retainSnapshotPin repo sequence fact input =
      if pinFits repo input then
        if input.advanceCurrent then
          (advanceSnapshotCurrent (pinRepo repo sequence fact input) fact.ref
            fact.commitSha sequence input.materializedAt).map fun moved =>
              (true, moved.2)
        else
          .ok (true, pinRepo repo sequence fact input)
      else
        .ok (false, repo) := by
  unfold retainSnapshotPin pinFits pinRepo
  rw [same]
  cases valid : isValidPinnedObjectSha input.treeSha with
  | false => simp
  | true =>
    have taken :
        ((repo.snapshotPins.find? input.commitSha).any fun existing =>
            existing.treeSha ≠ input.treeSha ||
              existing.commitSha ≠ input.commitSha) =
          !(repo.snapshotPins.find? input.commitSha).all
            fun existing => existing.treeSha = input.treeSha := by
      cases found : repo.snapshotPins.find? input.commitSha with
      | none => rfl
      | some existing =>
        have key := (KeyedList.find?_eq_some_iff.mp found).2
        simp [key]
    rw [taken]
    cases (repo.snapshotPins.find? input.commitSha).all
        fun existing => existing.treeSha = input.treeSha with
    | false => simp
    | true =>
      simp only [ne_eq, not_true_eq_false, decide_false, Bool.not_true,
        Bool.or_self, Bool.false_eq_true, if_false, Bool.and_self,
        if_true]
      split
      · split
        · next moved => rw [moved]; rfl
        · next failed => rw [failed]; rfl
      · rfl

theorem find?_pinRepo (repo : RepoState) (sequence : Nat)
    (fact : SnapshotPinFact) (input : SnapshotPinInput) (commitSha : String) :
    (pinRepo repo sequence fact input).snapshotPins.find? commitSha =
        repo.snapshotPins.find? commitSha ∨
      commitSha = fact.commitSha ∧
        ∃ pin, (pinRepo repo sequence fact input).snapshotPins.find?
            commitSha = some pin ∧
          repo.snapshotPins.find? commitSha = none ∧
          pin.treeSha = input.treeSha := by
  unfold pinRepo recordMaterialization installPin
  cases found : repo.snapshotPins.find? fact.commitSha with
  | some existing => exact Or.inl rfl
  | none =>
    by_cases same : commitSha = fact.commitSha
    · subst same
      exact Or.inr
        ⟨rfl, _, (KeyedList.find?_upsert _ _ _).trans (if_pos rfl), found,
          rfl⟩
    · refine Or.inl ?_
      simp [Ne.symm same]

theorem pinRepo_same (repo : RepoState) (sequence : Nat)
    (fact : SnapshotPinFact) (input : SnapshotPinInput) :
    SameRecord repo (pinRepo repo sequence fact input) := by
  unfold pinRepo recordMaterialization installPin
  cases repo.snapshotPins.find? fact.commitSha with
  | none => exact ⟨rfl, rfl, rfl, rfl, rfl⟩
  | some existing => exact ⟨rfl, rfl, rfl, rfl, rfl⟩

theorem pinRepo_change (repo : RepoState) (sequence : Nat)
    (fact : SnapshotPinFact) (input : SnapshotPinInput)
    (may : pinned fact.commitSha input.treeSha) :
    RecordChange written pinned [] repo
      (pinRepo repo sequence fact input) := by
  apply RecordChange.of_same (pinRepo_same repo sequence fact input)
  intro commitSha pin found
  rcases find?_pinRepo repo sequence fact input commitSha with
    same | ⟨rfl, fresh, present, -, tree⟩
  · rw [same] at found
    exact Or.inl found
  · rw [present, Option.some.injEq] at found
    subst found
    rw [← tree] at may
    exact Or.inr may

/-- The offer of a retained pin. -/
def pinOffers (repo : RepoState) (sequence : Nat) (ref : String)
    (input : SnapshotPinInput) : List PointerOffer :=
  if pinFits repo input && input.advanceCurrent then
    [⟨ref, sequence, input.commitSha⟩]
  else
    []

variable {fact : SnapshotPinFact} {input : ProjectionInput}

theorem retainSnapshotPin_changes {input : SnapshotPinInput}
    (same : fact.commitSha = input.commitSha)
    (may : pinned input.commitSha input.treeSha) :
    Changes written pinned (pinOffers repo sequence fact.ref input) repo
      ((retainSnapshotPin repo sequence fact input).map Prod.snd) := by
  have installed :
      RecordChange written pinned [] repo
        (pinRepo repo sequence fact input) :=
    pinRepo_change repo sequence fact input (by rwa [same])
  rw [retainSnapshotPin_eq same]
  unfold pinOffers
  cases pinFits repo input with
  | false => exact .refl repo
  | true =>
    cases input.advanceCurrent with
    | false => exact installed
    | true =>
      have moved :=
        @advanceSnapshotCurrent_changes written pinned
          (pinRepo repo sequence fact input) fact.ref fact.commitSha
          sequence input.materializedAt
      rw [same] at moved ⊢
      simp only [Bool.and_self, if_true]
      revert moved
      cases advanceSnapshotCurrent (pinRepo repo sequence fact input)
          fact.ref input.commitSha sequence input.materializedAt with
      | ok result =>
        intro moved
        exact installed.trans moved
      | error failure =>
        intro moved conflict
        have refused := moved conflict
        have start :
            pointers repo = pointers (pinRepo repo sequence fact input) :=
          Option.some.inj installed.pointers
        rw [start]
        exact refused

/-! ## The facts of a ref update -/

theorem ok_of_map_ok {Value Image : Type} {result : Except RepoFailure Value}
    {image : Value → Image} {mapped : Image}
    (done : result.map image = .ok mapped) :
    ∃ value, result = .ok value ∧ image value = mapped := by
  cases result with
  | error failure => cases done
  | ok value => exact ⟨value, rfl, Except.ok.inj done⟩

section Facts

variable {written : String → Nat → String → Prop}
variable {pinned : String → String → Prop}

theorem putAcceptedWriteHead_change (repo : RepoState) (sequence : Nat)
    (fact : AcceptedWriteFact) (may : written fact.ref sequence fact.afterSha) :
    RecordChange written pinned [] repo
      (putAcceptedWriteHead repo sequence fact) := by
  have same :
      RecordChange written pinned [] repo repo := .refl repo
  refine { same with heads := ?_ }
  intro ref head found
  change
    Function.update repo.acceptedWriteHead fact.ref
      (some ⟨fact.ref, fact.beforeSha, fact.afterSha, sequence⟩) ref =
        some head at found
  by_cases equal : ref = fact.ref
  · subst equal
    rw [Function.update_self, Option.some.injEq] at found
    subst found
    exact Or.inr may
  · rw [Function.update_of_ne equal] at found
    exact Or.inl found

variable {acceptedAt : Nat} {fact : AcceptedWriteFact}
  {snapshotPin : Option SnapshotPinInput} {journal : Bool}

theorem journalAcceptedWrite_changes
    (may : written fact.ref sequence fact.afterSha) :
    Changes written pinned [] repo
      (journalAcceptedWrite repo sequence acceptedAt fact) := by
  unfold journalAcceptedWrite
  cases repo.acceptedWriteJournal ⟨sequence, fact.ref⟩ with
  | none =>
    have same :
        RecordChange written pinned [] repo repo := .refl repo
    refine { same with journal := ?_ }
    intro id entry found
    change
      Function.update repo.acceptedWriteJournal ⟨sequence, fact.ref⟩
        (some ⟨sequence, fact, acceptedAt, none⟩) id = some entry at found
    by_cases equal : id = ⟨sequence, fact.ref⟩
    · subst equal
      rw [Function.update_self, Option.some.injEq] at found
      subst found
      exact Or.inr ⟨rfl, rfl, may⟩
    · rw [Function.update_of_ne equal] at found
      exact Or.inl ⟨entry, found, rfl, rfl⟩
  | some existing =>
    dsimp only
    split
    · intro conflict
      cases conflict
    · exact .refl repo

/-- The offer of the pin a push installs beside one fact. -/
def factOffers (repo : RepoState) (sequence : Nat)
    (snapshotPin : Option SnapshotPinInput) (fact : AcceptedWriteFact) :
    List PointerOffer :=
  match snapshotPin with
  | some input =>
    if fact.afterSha = input.commitSha then
      pinOffers repo sequence fact.ref input
    else
      []
  | none => []

theorem pinAcceptedWrite_changes
    (may :
      ∀ input, snapshotPin = some input →
        pinned input.commitSha input.treeSha) :
    Changes written pinned (factOffers repo sequence snapshotPin fact) repo
      ((pinAcceptedWrite repo sequence snapshotPin fact).map Prod.snd) := by
  unfold pinAcceptedWrite factOffers
  cases snapshotPin with
  | none => exact .refl repo
  | some input =>
    by_cases publishes : fact.afterSha = input.commitSha
    · simp only [publishes, if_true]
      have same : fact.pinFact.commitSha = input.commitSha := publishes
      exact retainSnapshotPin_changes same (may input rfl)
    · simp only [publishes, if_false]
      exact .refl repo

theorem recordAcceptedWrite_changes
    (mayWrite : written fact.ref sequence fact.afterSha)
    (mayPin :
      ∀ input, snapshotPin = some input →
        pinned input.commitSha input.treeSha) :
    Changes written pinned (factOffers repo sequence snapshotPin fact) repo
      ((recordAcceptedWrite repo sequence acceptedAt journal snapshotPin
        fact).map Prod.snd) := by
  have steps :
      (recordAcceptedWrite repo sequence acceptedAt journal snapshotPin
          fact).map Prod.snd =
        (Except.ok (putAcceptedWriteHead repo sequence fact)).bind fun headed =>
          ((pinAcceptedWrite headed sequence snapshotPin fact).map
            Prod.snd).bind fun middle =>
              if journal then
                journalAcceptedWrite middle sequence acceptedAt fact
              else
                .ok middle := by
    unfold recordAcceptedWrite
    simp only [Except.bind]
    cases pinAcceptedWrite (putAcceptedWriteHead repo sequence fact) sequence
        snapshotPin fact with
    | error failure => rfl
    | ok result =>
      cases journal with
      | false => rfl
      | true =>
        simp only [Except.map, if_true]
        cases journalAcceptedWrite result.2 sequence acceptedAt fact <;>
          rfl
  have headed :
      Changes written pinned [] repo
        (.ok (putAcceptedWriteHead repo sequence fact)) :=
    putAcceptedWriteHead_change repo sequence fact mayWrite
  rw [steps]
  refine headed.bind fun start put => ?_
  cases put
  have pin :
      Changes written pinned (factOffers repo sequence snapshotPin fact)
        (putAcceptedWriteHead repo sequence fact)
        ((pinAcceptedWrite (putAcceptedWriteHead repo sequence fact) sequence
          snapshotPin fact).map Prod.snd) :=
    pinAcceptedWrite_changes mayPin
  have rest :=
    pin.bind fun middle _ =>
      show Changes written pinned [] middle
          (if journal then
            journalAcceptedWrite middle sequence acceptedAt fact
          else
            .ok middle) from by
        cases journal with
        | false => exact .refl middle
        | true => exact journalAcceptedWrite_changes mayWrite
  rw [List.append_nil] at rest
  exact rest

theorem pinFits_iff (repo : RepoState) (input : SnapshotPinInput) :
    pinFits repo input = true ↔ PinAccepts repo input := by
  unfold pinFits PinAccepts
  cases repo.snapshotPins.find? input.commitSha with
  | none => simp
  | some existing => simp

/-- Recording one fact leaves it open whether the pin of the push fits. -/
theorem factOffers_recorded {last : RepoState} {retained : Bool}
    (recorded :
      recordAcceptedWrite repo sequence acceptedAt journal snapshotPin fact =
        .ok (retained, last)) :
    factOffers last sequence snapshotPin =
      factOffers repo sequence snapshotPin := by
  have step := (recordAcceptedWrite_ok recorded).1
  funext other
  unfold factOffers
  cases snapshotPin with
  | none => rfl
  | some input =>
    have fits : pinFits last input = pinFits repo input := by
      rw [Bool.eq_iff_iff, pinFits_iff, pinFits_iff]
      exact step.accepts input rfl
    dsimp only
    unfold pinOffers
    rw [fits]

variable {facts : List AcceptedWriteFact}

theorem recordAcceptedWriteFacts_changes
    (mayWrite : ∀ fact ∈ facts, written fact.ref sequence fact.afterSha)
    (mayPin :
      ∀ input, snapshotPin = some input →
        pinned input.commitSha input.treeSha) (repo : RepoState) :
    Changes written pinned
      (facts.flatMap (factOffers repo sequence snapshotPin)) repo
      ((recordAcceptedWriteFacts sequence acceptedAt journal snapshotPin facts
        repo).map Prod.snd) := by
  induction facts generalizing repo with
  | nil => exact .refl repo
  | cons fact facts ih =>
    have steps :
        (recordAcceptedWriteFacts sequence acceptedAt journal snapshotPin
            (fact :: facts) repo).map Prod.snd =
          ((recordAcceptedWrite repo sequence acceptedAt journal snapshotPin
              fact).map Prod.snd).bind fun middle =>
            (recordAcceptedWriteFacts sequence acceptedAt journal
              snapshotPin facts middle).map Prod.snd := by
      rw [recordAcceptedWriteFacts]
      cases recordAcceptedWrite repo sequence acceptedAt journal snapshotPin
          fact with
      | error failure => rfl
      | ok result =>
        simp only [Except.map, Except.bind]
        cases recordAcceptedWriteFacts sequence acceptedAt journal
          snapshotPin facts result.2 <;> rfl
    rw [steps, List.flatMap_cons]
    refine
      (recordAcceptedWrite_changes (mayWrite fact List.mem_cons_self)
        mayPin).bind fun middle taken => ?_
    rcases ok_of_map_ok taken with ⟨result, recorded, rfl⟩
    rw [← factOffers_recorded recorded]
    exact ih (fun other member =>
      mayWrite other (List.mem_cons_of_mem fact member)) _

theorem recordAcceptedWrites_changes
    (mayWrite : ∀ fact ∈ facts, written fact.ref sequence fact.afterSha)
    (mayPin :
      ∀ input, snapshotPin = some input →
        pinned input.commitSha input.treeSha) (repo : RepoState) :
    Changes written pinned
      (facts.flatMap (factOffers repo sequence snapshotPin)) repo
      ((recordAcceptedWrites repo sequence facts acceptedAt journal
        snapshotPin).map Prod.snd) := by
  unfold recordAcceptedWrites
  split
  · next empty =>
      subst empty
      exact .refl repo
  · split
    · intro conflict
      cases conflict
    · exact recordAcceptedWriteFacts_changes mayWrite mayPin repo

end Facts

/-! ## The projections -/

theorem hasActiveProjectionLease_same (repo : RepoState) (now : Nat)
    (token : Option String) :
    SameRecord repo (hasActiveProjectionLease repo now token).2 ∧
      (hasActiveProjectionLease repo now token).2.snapshotPins =
        repo.snapshotPins := by
  unfold hasActiveProjectionLease
  cases token with
  | none => exact ⟨.refl repo, rfl⟩
  | some token =>
    dsimp only
    split
    · exact ⟨.refl repo, rfl⟩
    · exact ⟨⟨rfl, rfl, rfl, rfl, rfl⟩, rfl⟩

theorem projectionLease_same (repo : RepoState) (now : Nat)
    (input : ProjectionInput) :
    SameRecord repo (projectionLease repo now input).2 ∧
      (projectionLease repo now input).2.snapshotPins =
        repo.snapshotPins := by
  unfold projectionLease
  split
  · exact ⟨.refl repo, rfl⟩
  · exact hasActiveProjectionLease_same repo now input.readerToken

theorem pinProjection_eq (same : fact.commitSha = input.commitSha) :
    pinProjection repo now sequence fact input =
      .ok
        (if input.commitSha = zeroOid then
          (.ok false, repo)
        else if !isValidPinnedObjectSha input.treeSha then
          (.error .invalidSnapshot, repo)
        else
          if !(projectionLease repo now input).1 then
            (.error .projectionLeaseExpired,
              (projectionLease repo now input).2)
          else if pinFits repo input.pin then
            (.ok
                ((projectionLease repo now input).2.materializedSnapshot
                  input.commitSha).isNone,
              pinRepo (projectionLease repo now input).2 sequence fact
                input.pin)
          else
            (.error .invalidSnapshot, (projectionLease repo now input).2)) := by
  have fits :
      pinFits (projectionLease repo now input).2 input.pin =
        pinFits repo input.pin := by
    unfold pinFits
    rw [(projectionLease_same repo now input).2]
  have retained :=
    @retainSnapshotPin_eq (projectionLease repo now input).2 sequence fact
      input.pin same
  rw [fits] at retained
  unfold pinProjection
  dsimp only
  rw [retained]
  split_ifs with deletion invalid expired fit advances
  · rfl
  · rfl
  · rfl
  · cases advances
  · rfl
  · rfl

/-- The pin of a projection leaves the heads, the journal and the pointers
alone, and installs at most the tree of the projected commit. -/
theorem pinProjection_ok {repo after : RepoState} {sequence : Nat}
    {verdict : Except ProjectionRefusal Bool}
    (same : fact.commitSha = input.commitSha)
    (done : pinProjection repo now sequence fact input = .ok (verdict, after)) :
    SameRecord repo after ∧
      ∀ commitSha pin, after.snapshotPins.find? commitSha = some pin →
        repo.snapshotPins.find? commitSha = some pin ∨
          (commitSha = input.commitSha ∧ input.commitSha ≠ zeroOid ∧
            pin.treeSha = input.treeSha) := by
  have leased := projectionLease_same repo now input
  rw [pinProjection_eq same] at done
  split_ifs at done with deletion invalid expired fits
  · cases done
    exact ⟨.refl repo, fun _ _ found => Or.inl found⟩
  · cases done
    exact ⟨.refl repo, fun _ _ found => Or.inl found⟩
  · cases done
    refine ⟨leased.1, fun commitSha pin found => ?_⟩
    rw [leased.2] at found
    exact Or.inl found
  · cases done
    refine ⟨leased.1.trans (pinRepo_same _ sequence fact input.pin), ?_⟩
    intro commitSha pin found
    rcases find?_pinRepo (projectionLease repo now input).2 sequence fact
        input.pin commitSha with
      kept | ⟨rfl, fresh, present, -, tree⟩
    · rw [kept, leased.2] at found
      exact Or.inl found
    · rw [present, Option.some.injEq] at found
      subst found
      exact Or.inr ⟨same, deletion, tree⟩
  · cases done
    refine ⟨leased.1, fun commitSha pin found => ?_⟩
    rw [leased.2] at found
    exact Or.inl found

/-- The offers a projection delivers: none when it is refused. -/
def ProjectionResult.offers (result : ProjectionResult)
    (offers : List PointerOffer) : List PointerOffer :=
  match result with
  | .projected _ => offers
  | .refused _ => []

/-- A projection delivers its offers, or changes no pointer; it meets the
conflict only if its offers conflict. -/
def Delivers (written : String → Nat → String → Prop)
    (pinned : String → String → Prop) (offers : List PointerOffer)
    (before : RepoState) :
    Except RepoFailure (ProjectionResult × RepoState) → Prop
  | .ok (result, after) =>
    RecordChange written pinned (ProjectionResult.offers result offers)
      before after
  | .error failure =>
    failure = .snapshotCurrentConflict →
      (pointers before).offerAll offers = none

section Projections

variable {written : String → Nat → String → Prop}
variable {pinned : String → String → Prop}

theorem projectPointer_delivers {ref : String} {created : Bool}
    (prepared : RecordChange written pinned [] before repo) :
    Delivers written pinned [⟨ref, sequence, input.commitSha⟩] before
      (projectPointer repo ref sequence created input) := by
  have moved :=
    @advanceSnapshotCurrent_changes written pinned repo ref input.commitSha
      sequence input.materializedAt
  unfold projectPointer
  revert moved
  cases advanceSnapshotCurrent repo ref input.commitSha sequence
      input.materializedAt with
  | ok result => exact fun moved => prepared.trans moved
  | error failure =>
    intro moved conflict
    have start : pointers before = pointers repo :=
      Option.some.inj prepared.pointers
    rw [start]
    exact moved conflict

theorem markMaterialized_change {entryId : AcceptedWriteJournalId}
    {entry : AcceptedWriteJournalEntry}
    (found : before.acceptedWriteJournal entryId = some entry)
    (prepared : RecordChange written pinned [] before repo)
    (materializedAt : Nat) :
    RecordChange written pinned [] before
      (markMaterialized repo entryId entry materializedAt) := by
  unfold markMaterialized
  split
  · refine { prepared with journal := ?_ }
    intro id other present
    change
      Function.update repo.acceptedWriteJournal entryId
        (some { entry with materializedAt := some materializedAt }) id =
          some other at present
    by_cases same : id = entryId
    · subst same
      rw [Function.update_self, Option.some.injEq] at present
      subst present
      exact Or.inl ⟨entry, found, rfl, rfl⟩
    · rw [Function.update_of_ne same] at present
      exact prepared.journal id other present
  · exact prepared

/-- What the delivery of a journal entry offers. -/
def entryOffers (repo : RepoState) (entryId : AcceptedWriteJournalId) :
    List PointerOffer :=
  ((repo.acceptedWriteJournal entryId).map fun entry =>
    ⟨entry.fact.ref, entry.sequence, entry.fact.afterSha⟩).toList

variable {current : World}

theorem projectAcceptedWriteState_delivers {args : ProjectAcceptedWriteArgs}
    (may : args.commitSha ≠ zeroOid → pinned args.commitSha args.treeSha) :
    Delivers written pinned (entryOffers current.repo args.entryId)
      current.repo (projectAcceptedWriteState current args) := by
  unfold projectAcceptedWriteState
  dsimp only
  split
  · exact .refl current.repo
  · cases found : current.repo.acceptedWriteJournal args.entryId with
    | none =>
      intro conflict
      cases conflict
    | some entry =>
      dsimp only
      split
      · intro conflict
        cases conflict
      · next matching =>
          rw [ne_eq, not_not] at matching
          have offered :
              entryOffers current.repo args.entryId =
                [⟨entry.fact.ref, entry.sequence, args.commitSha⟩] := by
            unfold entryOffers
            rw [found, ← matching]
            rfl
          cases done :
              pinProjection current.repo current.now entry.sequence
                entry.fact.pinFact args.toProjectionInput with
          | error failure =>
            rw [pinProjection_eq matching] at done
            cases done
          | ok result =>
            rcases result with ⟨verdict, middle⟩
            rcases pinProjection_ok matching done with ⟨same, pins⟩
            have prepared :
                RecordChange written pinned [] current.repo middle := by
              apply RecordChange.of_same same
              intro commitSha pin present
              rcases pins commitSha pin present with
                old | ⟨rfl, nonzero, tree⟩
              · exact Or.inl old
              · rw [tree]
                exact Or.inr (may nonzero)
            cases verdict with
            | error reason => exact prepared
            | ok created =>
              rw [offered]
              exact projectPointer_delivers
                (markMaterialized_change found prepared
                  args.materializedAt)

theorem projectReconciledHeadState_delivers {args : ProjectReconciledHeadArgs}
    (may : args.commitSha ≠ zeroOid → pinned args.commitSha args.treeSha) :
    Delivers written pinned [⟨args.ref, args.sequence, args.commitSha⟩]
      current.repo (projectReconciledHeadState current args) := by
  unfold projectReconciledHeadState
  dsimp only
  split
  · exact .refl current.repo
  · split
    · exact .refl current.repo
    · cases done :
          pinProjection current.repo current.now args.sequence
            (reconciledPinFact args.ref args.commitSha)
            args.toProjectionInput with
      | error failure =>
        rw [pinProjection_eq rfl] at done
        cases done
      | ok result =>
        rcases result with ⟨verdict, middle⟩
        rcases pinProjection_ok rfl done with ⟨same, pins⟩
        have prepared :
            RecordChange written pinned [] current.repo middle := by
          apply RecordChange.of_same same
          intro commitSha pin present
          rcases pins commitSha pin present with old | ⟨rfl, nonzero, tree⟩
          · exact Or.inl old
          · rw [tree]
            exact Or.inr (may nonzero)
        cases verdict with
        | error reason => exact prepared
        | ok created => exact projectPointer_delivers prepared

end Projections

end GitOnCloudflare.Snapshot
