import GitOnCloudflare.Repo.ReceiveFinalize

/-!
# Compare-and-swap of a push

Validation judges every command against the refs before the push, while
application is sequential.  The two agree on the first command of each ref;
a command that repeats a ref is judged against the value before the push and
the last one decides.  A rejected push changes no ref, no HEAD, no version
and no catalog row.
-/

namespace GitOnCloudflare.Receive

open Foundations
open Repo

/-- The object id a ref list holds for a name. -/
def refOid (refs : List Ref) (name : String) : Option String :=
  (refs.find? fun ref => ref.name = name).map Ref.oid

/-- One command on a plain ref list: remove, replace in place, or append. -/
def updateRefs (refs : List Ref) (command : ReceiveCommand) : List Ref :=
  if isZeroOid command.newOid then
    refs.filter fun ref => ref.name ≠ command.ref
  else if command.ref ∈ refs.map Ref.name then
    refs.map fun ref =>
      if ref.name = command.ref then ⟨command.ref, command.newOid⟩ else ref
  else
    refs ++ [⟨command.ref, command.newOid⟩]

/-- The ref is exactly at the old object id, absent for the zero id. -/
def FindsExactly (current : Option String) (command : ReceiveCommand) : Prop :=
  if isZeroOid command.oldOid then
    current = none
  else
    current = some command.oldOid

instance (current : Option String) (command : ReceiveCommand) :
    Decidable (FindsExactly current command) := by
  unfold FindsExactly
  infer_instance

variable {refs : List Ref} {current : World} {args : FinalizeReceiveArgs}

theorem refOid_eq_oid (distinct : (refs.map Ref.name).Nodup) (name : String) :
    refOid refs name = RefMap.oid (KeyedList.ofList refs) name := by
  unfold refOid RefMap.oid KeyedList.find? KeyedList.findItem
  rw [KeyedList.items_ofList distinct]

theorem updateRefs_eq (distinct : (refs.map Ref.name).Nodup)
    (command : ReceiveCommand) :
    applyReceiveCommands refs [command] = updateRefs refs command := by
  have items : (KeyedList.ofList refs : RefMap).items = refs :=
    KeyedList.items_ofList distinct
  simp only [applyReceiveCommands, List.foldl_cons, List.foldl_nil,
    applyReceiveCommand, updateRefs]
  by_cases zero : isZeroOid command.newOid = true
  · simp only [zero, if_true, KeyedList.erase, items]
  · simp only [zero, Bool.false_eq_true, if_false, KeyedList.upsert, items]
    by_cases present : command.ref ∈ refs.map Ref.name
    · rw [if_pos present]
      exact KeyedList.upsertItem_of_mem distinct present
    · rw [if_neg present]
      exact KeyedList.upsertItem_of_not_mem present

/-- The map-based application is the sequential update of the list. -/
theorem applyReceiveCommands_eq_updateRefs
    (distinct : (refs.map Ref.name).Nodup) (commands : List ReceiveCommand) :
    applyReceiveCommands refs commands = commands.foldl updateRefs refs := by
  induction commands using List.reverseRecOn with
  | nil => exact KeyedList.items_ofList distinct
  | append_singleton commands command ih =>
    rw [applyReceiveCommands_append,
      updateRefs_eq (nodup_applyReceiveCommands refs commands),
      List.foldl_append, ih]
    rfl

variable {commands : List ReceiveCommand}

/-- A ref no earlier command names still has its value before the push. -/
theorem refOid_applyReceiveCommands_of_not_mem
    (distinct : (refs.map Ref.name).Nodup) {name : String}
    (absent : name ∉ commands.map ReceiveCommand.ref) :
    refOid (applyReceiveCommands refs commands) name = refOid refs name := by
  rw [refOid_eq_oid (nodup_applyReceiveCommands refs commands),
    refOid_eq_oid distinct, applyReceiveCommands, ofList_items,
    oid_foldl_of_not_mem absent]

/-! ## Rejected pushes -/

/-- Two repositories agree on refs, HEAD, ref version and catalog. -/
def SameAuthority (first second : RepoState) : Prop :=
  second.refs = first.refs ∧ second.head = first.head ∧
    second.refsVersion = first.refsVersion ∧
    second.packCatalog = first.packCatalog

/-- The two answers of a call that rejects a push. -/
def FinalizeReceiveResult.rejects : FinalizeReceiveResult → Prop
  | .committed _ => False
  | .refConflict _ _ => True
  | .leaseMismatch _ => True

section Rejection

variable {honest : (request : R2Request) → R2Answer request → World → Prop}
variable {rely : World → World → Prop}
variable {failed : RepoFailure → World → Prop}

/-- A push that does not validate is answered without a change. -/
theorem prepareFinalizeIntent_rejects {origin : RepoState}
    (same : SameAuthority origin current.repo)
    (rejected :
      (validateReceiveCommands current.repo.refs args.commands).all
        (fun status => status.ok) = false) :
    (prepareFinalizeIntent args).Ensures honest
      (fun _ after => SameAuthority origin after.repo) rely
      (fun value last =>
        SameAuthority origin last.repo ∧
          ∃ result, value = .inl result ∧
            FinalizeReceiveResult.rejects result)
      failed current := by
  have cleared :
      SameAuthority origin
        (current.withRepo (current.repo.setReceiveLease none)).repo :=
    same
  unfold prepareFinalizeIntent
  simp only [Program.bind_eq_bind, Program.ensures_bind, ensures_world,
    rejected]
  split
  · simp only [clearMatchingReceiveLease, Program.bind_eq_bind,
      Program.ensures_bind, ensures_get]
    split
    · exact ⟨cleared, cleared, _, rfl, trivial⟩
    · exact ⟨same, _, rfl, trivial⟩
  · split
    · exact ⟨cleared, cleared, _, rfl, trivial⟩
    · exact ⟨cleared, cleared, _, rfl, trivial⟩

theorem finalizeReceiveState_rejects
    (noIntent : current.repo.receiveFinalizeIntent args.token = none)
    (noOutcome : current.repo.receiveOutcome args.token = none)
    (rejected :
      (validateReceiveCommands current.repo.refs args.commands).all
        (fun status => status.ok) = false) :
    (finalizeReceiveState args).Ensures honest
      (fun _ after => SameAuthority current.repo after.repo) rely
      (fun value last =>
        SameAuthority current.repo last.repo ∧
          FinalizeReceiveResult.rejects value)
      failed current := by
  unfold finalizeReceiveState
  simp only [Program.bind_eq_bind, Program.ensures_bind, ensures_get,
    noIntent, noOutcome, holdReceiveCompletionFence,
    ensures_repoTransaction]
  by_cases fence :
      current.repo.fenceAllows current.now args.token false = true
  · simp only [Option.isSome_none, Bool.or_self, fence, if_true]
    refine ⟨⟨rfl, rfl, rfl, rfl⟩, ?_⟩
    simp only [Bool.not_true, Bool.false_eq_true, if_false,
      Program.ensures_bind]
    have fenced :
        SameAuthority current.repo
          (current.withRepo
            (current.repo.setReceiveLease
              (some (current.repo.fenceLease current.now args.token)))).repo :=
      ⟨rfl, rfl, rfl, rfl⟩
    refine
      (prepareFinalizeIntent_rejects fenced rejected).mono
        (fun _ _ kept => kept) ?_ (fun _ _ failure => failure)
    rintro value last ⟨same, result, rfl, rejects⟩
    exact ⟨same, rejects⟩
  · simp only [Option.isSome_none, Bool.or_self, fence]
    exact ⟨⟨rfl, rfl, rfl, rfl⟩, ⟨rfl, rfl, rfl, rfl⟩, trivial⟩

end Rejection

/-! ## The law of a push -/

theorem findsExpected_refs_of_all_ok (distinct : (refs.map Ref.name).Nodup)
    (accepted :
      (validateReceiveCommands refs commands).all (fun status => status.ok) =
        true) {command : ReceiveCommand} (member : command ∈ commands) :
    FindsExpected (refOid refs command.ref) command := by
  rw [refOid_eq_oid distinct]
  exact
    (validateReceiveCommands_all_ok_iff refs commands).mp accepted command
      member

/-- However far a rejected push runs, it keeps the refs, HEAD, the ref
version and the catalog, and it answers with a rejection. -/
theorem rejected_runs {last : World}
    {result : Option (Except RepoFailure FinalizeReceiveResult)}
    (noIntent : current.repo.receiveFinalizeIntent args.token = none)
    (noOutcome : current.repo.receiveOutcome args.token = none)
    (rejected :
      (validateReceiveCommands current.repo.refs args.commands).all
        (fun status => status.ok) = false)
    (ran : RunsAlone (finalizeReceiveState args) current last result) :
    SameAuthority current.repo last.repo ∧
      ∀ answer, result = some answer →
        ∃ value, answer = .ok value ∧ FinalizeReceiveResult.rejects value := by
  have ensured :
      (finalizeReceiveState args).Ensures AnyAnswer
        (fun _ after => SameAuthority current.repo after.repo) ClockDrift
        (fun value last =>
          SameAuthority current.repo last.repo ∧
            FinalizeReceiveResult.rejects value)
        (fun _ _ => False) current :=
    finalizeReceiveState_rejects noIntent noOutcome rejected
  have outcome :=
    Program.Ensures.runs
      (fun reached => SameAuthority current.repo reached.repo)
      ran ensured ⟨rfl, rfl, rfl, rfl⟩ (fun _ _ _ kept => kept)
      (fun before after same drifted => by rw [drifted.1]; exact same)
  refine ⟨outcome.1, ?_⟩
  rintro answer rfl
  cases answer with
  | ok value => exact ⟨value, rfl, outcome.2.2⟩
  | error failure => exact outcome.2.elim

/--
The compare-and-swap law of a push.  When every status is `ok`, each command
expects what its ref held before the push, the first command of each ref
finds exactly that at its turn, and the result is the sequential update with
distinct names.  When some status is not `ok`, a call that has no durable
intent or outcome keeps the refs, HEAD, the ref version and the catalog.
-/
theorem push_compare_and_swap (refs : List Ref)
    (distinct : (refs.map Ref.name).Nodup) (commands : List ReceiveCommand) :
    ((validateReceiveCommands refs commands).all (fun status => status.ok) =
        true →
      (∀ before command after, commands = before ++ command :: after →
        FindsExpected (refOid refs command.ref) command ∧
          (command.ref ∉ before.map ReceiveCommand.ref →
            FindsExpected
              (refOid (before.foldl updateRefs refs) command.ref)
              command)) ∧
        applyReceiveCommands refs commands =
          commands.foldl updateRefs refs ∧
        ((applyReceiveCommands refs commands).map Ref.name).Nodup) ∧
      ((validateReceiveCommands refs commands).all (fun status => status.ok) =
          false →
        ∀ (args : FinalizeReceiveArgs) (current last : World)
          (result : Option (Except RepoFailure FinalizeReceiveResult)),
          args.commands = commands →
          current.repo.refs = refs →
          current.repo.receiveFinalizeIntent args.token = none →
          current.repo.receiveOutcome args.token = none →
          RunsAlone (finalizeReceiveState args) current last result →
          SameAuthority current.repo last.repo ∧
            ∀ answer, result = some answer →
              ∃ value, answer = .ok value ∧
                FinalizeReceiveResult.rejects value) := by
  constructor
  · intro accepted
    refine ⟨?_, applyReceiveCommands_eq_updateRefs distinct commands,
      nodup_applyReceiveCommands refs commands⟩
    intro before command after split
    have expected : FindsExpected (refOid refs command.ref) command :=
      findsExpected_refs_of_all_ok distinct accepted (by simp [split])
    refine ⟨expected, fun first => ?_⟩
    rw [← applyReceiveCommands_eq_updateRefs distinct before,
      refOid_applyReceiveCommands_of_not_mem distinct first]
    exact expected
  · intro rejected args current last result sameCommands sameRefs noIntent
      noOutcome ran
    subst sameCommands sameRefs
    exact rejected_runs noIntent noOutcome rejected ran

/-- A repository with one ref. -/
def oneRef : List Ref :=
  [⟨"refs/heads/main", "aaaa"⟩]

theorem push_compare_and_swap_oneRef :
    (oneRef.map Ref.name).Nodup ∧
      applyReceiveCommands oneRef
          [⟨zeroOid, "bbbb", "refs/heads/next"⟩] =
        [⟨"refs/heads/main", "aaaa"⟩, ⟨"refs/heads/next", "bbbb"⟩] := by
  have distinct : (oneRef.map Ref.name).Nodup := by decide
  refine ⟨distinct, ?_⟩
  have law :=
    (push_compare_and_swap oneRef distinct
      [⟨zeroOid, "bbbb", "refs/heads/next"⟩]).1 (by decide)
  rw [law.2.1]
  decide

/-- The request lines of a push that names one ref twice. -/
def repeatedRefLines : List String :=
  ["aaaa bbbb refs/heads/main", "aaaa cccc refs/heads/main"]

/-- The request line of a push that writes its old id in capitals. -/
def capitalOidLines : List String :=
  ["AAAA bbbb refs/heads/main"]

/--
The stronger reading fails: a repeated ref is admitted with every status `ok`
although its second command does not find its old id at its turn, and even
without repeated refs an old id matches up to letter case only.
-/
theorem push_not_stepwise_exact :
    ¬ (∀ (refs : List Ref) (lines : List String),
        (refs.map Ref.name).Nodup →
        (∀ command ∈ (parseReceiveRequest lines).commands,
          isValidRefName command.ref = true) →
        (validateReceiveCommands refs
            (parseReceiveRequest lines).commands).all
          (fun status => status.ok) = true →
        ∀ before command after,
          (parseReceiveRequest lines).commands =
              before ++ command :: after →
            FindsExactly
              (refOid (before.foldl updateRefs refs) command.ref)
              command) ∧
      ¬ (∀ (refs : List Ref) (lines : List String),
        (refs.map Ref.name).Nodup →
        ((parseReceiveRequest lines).commands.map
          ReceiveCommand.ref).Nodup →
        (validateReceiveCommands refs
            (parseReceiveRequest lines).commands).all
          (fun status => status.ok) = true →
        ∀ before command after,
          (parseReceiveRequest lines).commands =
              before ++ command :: after →
            FindsExactly
              (refOid (before.foldl updateRefs refs) command.ref)
              command) := by
  constructor
  · intro law
    have second :=
      law oneRef repeatedRefLines (by decide) (by decide) (by decide)
        [⟨"aaaa", "bbbb", "refs/heads/main"⟩]
        ⟨"aaaa", "cccc", "refs/heads/main"⟩ [] (by decide)
    revert second
    decide
  · intro law
    have first :=
      law oneRef capitalOidLines (by decide) (by decide) (by decide) []
        ⟨"AAAA", "bbbb", "refs/heads/main"⟩ [] (by decide)
    revert first
    decide

end GitOnCloudflare.Receive
