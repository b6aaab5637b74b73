import GitOnCloudflare.Compaction.PassRuns
import GitOnCloudflare.Compaction.WorkerSteps

/-!
# Runs of compaction workers

Workers begin passes, stage packs and commit them, in any number at a time,
while receives activate packs of their own.  A call of a worker may be served
long after the worker has given it up.  A worker that fails, is put off or gets
no answer deletes what it has staged.
-/

namespace GitOnCloudflare.Compaction

open Foundations
open Repo

/-! ## The system -/

/-- What has become of the commit call of a worker.  `written` says whether the
call wrote the row of the staged pack. -/
inductive CommitCall where
  | unsent
  | sent
  | served (written : Prop)
      (answer : Option (Except RepoFailure CommitCompactionResult))

/-- The call has written its row. -/
def CommitCall.Written : CommitCall → Prop
  | .served written _ => written
  | _ => False

/-- A worker that holds a lease, the upload it would delete, and its call. -/
structure Worker where
  pass : CompactionPass
  stagedUpload : Option StagedCompaction
  call : CommitCall := .unsent

/-- The repository, the workers by the tokens of their leases, the calls that
are under way, and the keys of the packs whose artifacts are in the bucket or
were deleted by a worker. -/
structure WorkerSystem where
  world : World
  tokens : Set String
  workers : String → Option Worker
  calls : String → Option CommitCompactionArgs
  bucket : Set String
  deleted : Set String

namespace WorkerSystem

/-- A worker begins with this token. -/
def begins (system : WorkerSystem) (token : String) (last : World)
    (pass : CompactionPass) : WorkerSystem :=
  { system with
    world := last
    tokens := insert token system.tokens
    workers := Function.update system.workers token (some ⟨pass, none, .unsent⟩) }

/-- The worker uploads its pack. -/
def uploads (system : WorkerSystem) (token : String) (worker : Worker)
    (staged : StagedCompaction) : WorkerSystem :=
  { system with
    workers := Function.update system.workers token
      (some { worker with stagedUpload := some staged })
    bucket := insert staged.packKey system.bucket }

/-- The worker sends its call. -/
def sends (system : WorkerSystem) (token : String) (worker : Worker)
    (staged : StagedCompaction) : WorkerSystem :=
  { system with
    workers := Function.update system.workers token
      (some { worker with call := .sent })
    calls := Function.update system.calls token (some (worker.pass.args staged)) }

/-- The call has been served, and its worker, if it is still there, can hear of
it. -/
def served (system : WorkerSystem) (token : String) (last : World)
    (written : Prop)
    (answer : Option (Except RepoFailure CommitCompactionResult)) :
    WorkerSystem :=
  { system with
    world := last
    workers := Function.update system.workers token
      ((system.workers token).map fun worker =>
        { worker with call := .served written answer })
    calls := Function.update system.calls token none }

/-- The worker ends and leaves its upload where it is. -/
def ended (system : WorkerSystem) (token : String) : WorkerSystem :=
  { system with workers := Function.update system.workers token none }

/-- `cleanupStagedCompaction`, and the end of the worker. -/
def cleanedUp (system : WorkerSystem) (root token : String) : WorkerSystem :=
  { system with
    workers := Function.update system.workers token none
    bucket := system.bucket \ {compactionPackKey root token}
    deleted := insert (compactionPackKey root token) system.deleted }

section

variable (system : WorkerSystem) (token : String) (worker : Worker)
  (staged : StagedCompaction)

theorem begins_self (last : World) (pass : CompactionPass) :
    (system.begins token last pass).workers token = some ⟨pass, none, .unsent⟩ :=
  Function.update_self ..

theorem uploads_self : (system.uploads token worker staged).workers token =
    some { worker with stagedUpload := some staged } :=
  Function.update_self ..

theorem sends_self : (system.sends token worker staged).workers token =
    some { worker with call := .sent } :=
  Function.update_self ..

theorem sends_call : (system.sends token worker staged).calls token =
    some (worker.pass.args staged) :=
  Function.update_self ..

theorem served_self {last : World} {written : Prop}
    {answer : Option (Except RepoFailure CommitCompactionResult)}
    (works : system.workers token = some worker) :
    (system.served token last written answer).workers token =
      some { worker with call := .served written answer } := by
  have here : (system.served token last written answer).workers token =
      (system.workers token).map fun worker =>
        { worker with call := .served written answer } :=
    Function.update_self ..
  rw [here, works]
  rfl

end

end WorkerSystem

/-- No row of the key is active. -/
def Unwritten (key : String) (world : World) : Prop :=
  ∀ row, IsActive world.repo.packCatalog row → row.packKey ≠ key

/-- How a worker may miss what its call does. -/
inductive Miss where
  | lostAnswer
  | lateCommit

/-- `allows` says whether a worker may get an error for a call that has written
its row, and whether a call may write its row once its worker has ended. -/
inductive WorkerStep (root : String) (allows : Miss → Prop)
    (system : WorkerSystem) : WorkerSystem → Prop where
  | begun {token : String} {pass : CompactionPass} {last : World}
      (fresh : token ∉ system.tokens)
      (ran : RunsAlone (beginCompactionState token) system.world last
        (some (.ok (.ok pass)))) :
      WorkerStep root allows system (system.begins token last pass)
  -- there is no work, or the worker hears of no lease
  | notBegun {token : String} {last : World}
      {result : Option (Except RepoFailure BeginCompactionResult)}
      (fresh : token ∉ system.tokens)
      (ran : RunsAlone (beginCompactionState token) system.world last result) :
      WorkerStep root allows system
        { system with world := last, tokens := insert token system.tokens }
  | staged {token : String} {worker : Worker} {staged : StagedCompaction}
      (works : system.workers token = some worker)
      (unstaged : worker.stagedUpload = none)
      (named : staged.packKey =
        compactionPackKey root worker.pass.lease.token) :
      WorkerStep root allows system (system.uploads token worker staged)
  | gaveUp {token : String} {worker : Worker}
      (works : system.workers token = some worker)
      (unstaged : worker.stagedUpload = none) :
      WorkerStep root allows system (system.ended token)
  -- an upload that fails, an index that is not written
  | failed {token : String} {worker : Worker}
      (works : system.workers token = some worker)
      (unsent : worker.call = .unsent) :
      WorkerStep root allows system (system.cleanedUp root token)
  | sent {token : String} {worker : Worker} {staged : StagedCompaction}
      (works : system.workers token = some worker)
      (uploaded : worker.stagedUpload = some staged)
      (unsent : worker.call = .unsent) :
      WorkerStep root allows system (system.sends token worker staged)
  -- the repository serves the call, whether its worker still waits or not
  | served {token : String} {args : CommitCompactionArgs} {cut : Option Nat}
      {last : World} {answer : Option (Except RepoFailure CommitCompactionResult)}
      (sent : system.calls token = some args)
      (served : Served args system.world cut last answer)
      (allowed : system.workers token = none →
        WritesRow args cut system.world → allows .lateCommit) :
      WorkerStep root allows system
        (system.served token last (WritesRow args cut system.world) answer)
  | committed {token : String} {worker : Worker} {written : Prop}
      {commit : CommittedCompaction}
      (works : system.workers token = some worker)
      (answered : worker.call = .served written (some (.ok (.committed commit)))) :
      WorkerStep root allows system (system.ended token)
  | putOff {token : String} {worker : Worker} {written : Prop}
      {reason : CommitRetryReason} {message : String}
      (works : system.workers token = some worker)
      (answered : worker.call =
        .served written (some (.ok (.retry reason message)))) :
      WorkerStep root allows system (system.cleanedUp root token)
  -- the worker gets an error, whether its call was served, is still under way
  -- or never arrives
  | errored {token : String} {worker : Worker}
      (works : system.workers token = some worker)
      (called : worker.call ≠ .unsent)
      (allowed : worker.call.Written → allows .lostAnswer) :
      WorkerStep root allows system (system.cleanedUp root token)
  | receiveUploaded {token : String} :
      WorkerStep root allows system
        { system with
          bucket := insert (receivePackKey root token) system.bucket }
  | received {token : String} {intent : ReceiveFinalizeIntent}
      {pack : StagedPack} {result : Option (Except RepoFailure Bool)}
      {last : World} (staged : intent.stagedPack = some pack)
      (named : pack.packKey = receivePackKey root token)
      (uploaded : pack.packKey ∈ system.bucket)
      (ran : RunsAlone (activateStagedPack intent) system.world last result) :
      WorkerStep root allows system { system with world := last }
  -- leases, requests, refs, the clock, and packs with other names
  | elsewhere {last : World}
      (activates : Activates
        { key | key ∈ system.bucket ∧ ∀ token, key ≠ compactionPackKey root token }
        system.world last) :
      WorkerStep root allows system { system with world := last }

/-- A worker hears of its call or ends before it, unless the call writes no
row. -/
def Heard : Miss → Prop := fun _ => False

/-! ## The invariant -/

/-- What holds of a worker that is at work. -/
structure WorkerHolds (root : String) (system : WorkerSystem) (token : String)
    (worker : Worker) : Prop where
  token_eq : worker.pass.lease.token = token
  drawn : token ∈ system.tokens
  unwritten : ¬ worker.call.Written →
    Unwritten (compactionPackKey root token) system.world
  staged : ∀ staged, worker.stagedUpload = some staged →
    staged.packKey = compactionPackKey root token ∧
      staged.packKey ∈ system.bucket
  retried : ∀ written reason message,
    worker.call = .served written (some (.ok (.retry reason message))) →
      ¬ written

/-- What holds of a call that is under way. -/
structure CallHolds (root : String) (system : WorkerSystem) (token : String)
    (args : CommitCompactionArgs) : Prop where
  named : args.stagedPack.packKey = compactionPackKey root token
  drawn : token ∈ system.tokens
  waits : ∀ worker, system.workers token = some worker →
    worker.call = .sent ∧ compactionPackKey root token ∈ system.bucket

/-- The artifacts of active rows are there, and a deleted pack is gone together
with its worker. -/
structure WorkerInvariant (root : String) (system : WorkerSystem) : Prop where
  stored : ∀ row, IsActive system.world.repo.packCatalog row →
    row.packKey ∈ system.bucket
  drawn : ∀ row token, IsActive system.world.repo.packCatalog row →
    row.packKey = compactionPackKey root token → token ∈ system.tokens
  workers : ∀ {token worker}, system.workers token = some worker →
    WorkerHolds root system token worker
  calls : ∀ {token args}, system.calls token = some args →
    CallHolds root system token args
  gone : ∀ key ∈ system.deleted, key ∉ system.bucket ∧
    ∃ token ∈ system.tokens, key = compactionPackKey root token ∧
      system.workers token = none

variable {args : CommitCompactionArgs} {last : World}

section Steps

variable {root : String} {system : WorkerSystem} {token : String}
  {worker : Worker}
  {workers : String → Option Worker} {other : String}

/-- A worker that is still at work, once another one has ended. -/
theorem update_none
    (works : Function.update workers token none other = some worker) :
    other ≠ token ∧ workers other = some worker := by
  by_cases here : other = token
  · subst here
    rw [Function.update_self] at works
    cases works
  · rw [Function.update_of_ne here] at works
    exact ⟨here, works⟩

theorem update_none_of_none (idle : workers other = none) :
    Function.update workers token none other = none := by
  by_cases here : other = token
  · subst here
    exact Function.update_self ..
  · rw [Function.update_of_ne here]
    exact idle

/-- A worker is the one that was put there, or was there before. -/
theorem update_cases {new : Option Worker}
    (works : Function.update workers token new other = some worker) :
    (other = token ∧ new = some worker) ∨
      (other ≠ token ∧ workers other = some worker) := by
  by_cases here : other = token
  · subst here
    rw [Function.update_self] at works
    exact .inl ⟨rfl, works⟩
  · rw [Function.update_of_ne here] at works
    exact .inr ⟨here, works⟩

/-- Rows with other names come to be active. -/
theorem WorkerInvariant.activates {keys : Set String} {last : World}
    (invariant : WorkerInvariant root system)
    (others : ∀ key ∈ keys, key ∈ system.bucket ∧
      ∀ token, key ≠ compactionPackKey root token)
    (activates : Activates keys system.world last) :
    WorkerInvariant root { system with world := last } where
  stored row active := by
    rcases activates row active with earlier | key
    · exact invariant.stored row earlier
    · exact (others _ key).1
  drawn row token active same := by
    rcases activates row active with earlier | key
    · exact invariant.drawn row token earlier same
    · exact absurd same ((others _ key).2 token)
  workers works := by
    have holds := invariant.workers works
    refine { holds with unwritten := ?_ }
    intro silent row active
    rcases activates row active with earlier | key
    · exact holds.unwritten silent row earlier
    · exact (others _ key).2 _
  calls sent := { invariant.calls sent with }
  gone := invariant.gone

/-- A token is drawn. -/
theorem WorkerInvariant.draw (invariant : WorkerInvariant root system) :
    WorkerInvariant root
      { system with tokens := insert token system.tokens } where
  stored := invariant.stored
  drawn row other active same :=
    .inr (invariant.drawn row other active same)
  workers works := by
    have holds := invariant.workers works
    exact { holds with drawn := .inr holds.drawn }
  calls sent := by
    have holds := invariant.calls sent
    exact { holds with drawn := .inr holds.drawn }
  gone key member := by
    rcases invariant.gone key member with ⟨absent, other, drawn, same, idle⟩
    exact ⟨absent, other, .inr drawn, same, idle⟩

/-- A worker goes on, and what it uploads is in the bucket. -/
theorem WorkerInvariant.put {next : WorkerSystem}
    (invariant : WorkerInvariant root system)
    (world : next.world = system.world) (tokens : system.tokens ⊆ next.tokens)
    (workers : next.workers = Function.update system.workers token (some worker))
    (others : ∀ other args, other ≠ token → next.calls other = some args →
      system.calls other = some args)
    (own : ∀ args, next.calls token = some args → CallHolds root next token args)
    (grows : system.bucket ⊆ next.bucket)
    (new : ∀ key ∈ next.bucket,
      key ∈ system.bucket ∨ key = compactionPackKey root token)
    (deleted : next.deleted = system.deleted)
    (present : compactionPackKey root token ∉ system.deleted)
    (holds : WorkerHolds root next token worker) :
    WorkerInvariant root next where
  stored row active := by
    rw [world] at active
    exact grows (invariant.stored row active)
  drawn row other active same := by
    rw [world] at active
    exact tokens (invariant.drawn row other active same)
  workers works := by
    rw [workers] at works
    rcases update_cases works with ⟨rfl, same⟩ | ⟨_, still⟩
    · cases same
      exact holds
    · have earlier := invariant.workers still
      refine ⟨earlier.token_eq, tokens earlier.drawn, ?_, ?_, earlier.retried⟩
      · rw [world]
        exact earlier.unwritten
      · intro upload found
        rcases earlier.staged upload found with ⟨named, inside⟩
        exact ⟨named, grows inside⟩
  calls {other args} sent := by
    by_cases here : other = token
    · subst here
      exact own args sent
    · have call := invariant.calls (others other args here sent)
      refine ⟨call.named, tokens call.drawn, ?_⟩
      intro worker' works
      rw [workers, Function.update_of_ne here] at works
      rcases call.waits worker' works with ⟨waiting, inside⟩
      exact ⟨waiting, grows inside⟩
  gone key member := by
    rw [deleted] at member
    rcases invariant.gone key member with ⟨absent, other, drawn, same, idle⟩
    have different : other ≠ token := by
      rintro rfl
      rw [same] at member
      exact present member
    refine ⟨?_, other, tokens drawn, same, ?_⟩
    · intro inside
      rcases new key inside with there | here
      · exact absent there
      · rw [here] at member
        exact present member
    · rw [workers, Function.update_of_ne different]
      exact idle

/-- What a worker at work would delete has not been deleted. -/
theorem WorkerInvariant.present (invariant : WorkerInvariant root system)
    (works : system.workers token = some worker) :
    compactionPackKey root token ∉ system.deleted := by
  intro member
  rcases invariant.gone _ member with ⟨_, other, _, same, idle⟩
  rw [← compactionPackKey_inj same, works] at idle
  cases idle

/-- A worker begins with a new token. -/
theorem WorkerInvariant.begin {pass : CompactionPass}
    (invariant : WorkerInvariant root system) (fresh : token ∉ system.tokens)
    (own : pass.lease.token = token) :
    WorkerInvariant root (system.begins token system.world pass) := by
  have drawn : ∀ {other}, compactionPackKey root token =
      compactionPackKey root other → other ∉ system.tokens := by
    intro other same there
    rw [← compactionPackKey_inj same] at there
    exact fresh there
  refine @WorkerInvariant.put root system token ⟨pass, none, .unsent⟩ _ invariant
    rfl (Set.subset_insert _ _) rfl (fun _ _ _ sent => sent) ?_
    (fun _ member => member) (fun _ member => .inl member) rfl ?_ ?_
  · intro args sent
    exact absurd (invariant.calls sent).drawn fresh
  · intro member
    rcases invariant.gone _ member with ⟨_, other, there, same, _⟩
    exact drawn same there
  · refine ⟨own, .inl rfl, ?_, nofun, nofun⟩
    intro _ row active same
    exact fresh (invariant.drawn row token active same)

variable {staged : StagedCompaction}

theorem WorkerInvariant.stage (invariant : WorkerInvariant root system)
    (works : system.workers token = some worker)
    (named : staged.packKey = compactionPackKey root worker.pass.lease.token) :
    WorkerInvariant root (system.uploads token worker staged) := by
  have holds := invariant.workers works
  rw [holds.token_eq] at named
  refine @WorkerInvariant.put root system token
    { worker with stagedUpload := some staged } _ invariant
    rfl (fun _ member => member) rfl (fun _ _ _ sent => sent) ?_
    (Set.subset_insert _ _) ?_ rfl (invariant.present works) ?_
  · intro args sent
    have call := invariant.calls sent
    rcases call.waits worker works with ⟨waiting, inside⟩
    refine ⟨call.named, call.drawn, fun other same => ?_⟩
    rw [system.uploads_self token worker staged] at same
    cases same
    exact ⟨waiting, .inr inside⟩
  · rintro key (here | there)
    · exact .inr (here.trans named)
    · exact .inl there
  · refine ⟨holds.token_eq, holds.drawn, holds.unwritten, ?_, holds.retried⟩
    rintro _ ⟨⟩
    exact ⟨named, .inl rfl⟩

/-- A call is sent. -/
theorem WorkerInvariant.send (invariant : WorkerInvariant root system)
    (works : system.workers token = some worker)
    (uploaded : worker.stagedUpload = some staged)
    (unsent : worker.call = .unsent) :
    WorkerInvariant root (system.sends token worker staged) := by
  have holds := invariant.workers works
  rcases holds.staged staged uploaded with ⟨named, inside⟩
  refine @WorkerInvariant.put root system token { worker with call := .sent } _
    invariant rfl (fun _ member => member) rfl ?_ ?_ (fun _ member => member)
    (fun _ member => .inl member) rfl (invariant.present works) ?_
  · intro other args different sent
    change Function.update system.calls token _ other = _ at sent
    rw [Function.update_of_ne different] at sent
    exact sent
  · intro args sent
    rw [system.sends_call token worker staged] at sent
    cases sent
    refine ⟨named, holds.drawn, fun other same => ?_⟩
    rw [system.sends_self token worker staged] at same
    cases same
    exact ⟨rfl, named ▸ inside⟩
  · refine ⟨holds.token_eq, holds.drawn, ?_, holds.staged, nofun⟩
    intro _
    apply holds.unwritten
    rw [unsent]
    exact fun written => written

/-- The repository serves a call.  One that writes its row has a worker that
waits for it. -/
theorem WorkerInvariant.serve {cut : Option Nat}
    {answer : Option (Except RepoFailure CommitCompactionResult)}
    (invariant : WorkerInvariant root system)
    (sent : system.calls token = some args)
    (served : Served args system.world cut last answer)
    (waits : WritesRow args cut system.world → system.workers token ≠ none) :
    WorkerInvariant root
      (system.served token last (WritesRow args cut system.world) answer) := by
  have call := invariant.calls sent
  have active : ∀ row, IsActive last.repo.packCatalog row →
      IsActive system.world.repo.packCatalog row ∨
        row.packKey = compactionPackKey root token ∧
          WritesRow args cut system.world := by
    intro row active
    by_cases writes : WritesRow args cut system.world
    · rcases served.activates row active with earlier | named
      · exact .inl earlier
      · exact .inr ⟨(Set.mem_singleton_iff.mp named).trans call.named, writes⟩
    · rcases served.activates_none writes row active with earlier | none
      · exact .inl earlier
      · exact none.elim
  refine ⟨?_, ?_, ?_, ?_, ?_⟩
  · intro row there
    rcases active row there with earlier | ⟨named, writes⟩
    · exact invariant.stored row earlier
    · rcases Option.ne_none_iff_exists'.mp (waits writes) with ⟨worker, works⟩
      rw [named]
      exact (call.waits worker works).2
  · intro row other there same
    rcases active row there with earlier | ⟨named, _⟩
    · exact invariant.drawn row other earlier same
    · rw [← compactionPackKey_inj (named.symm.trans same)]
      exact call.drawn
  · intro other worker works
    rcases update_cases works with ⟨rfl, same⟩ | ⟨different, still⟩
    · rcases Option.map_eq_some_iff.mp same with ⟨before, waited, rfl⟩
      have holds := invariant.workers waited
      refine ⟨holds.token_eq, holds.drawn, ?_, holds.staged, ?_⟩
      · intro silent row there
        rcases active row there with earlier | ⟨_, writes⟩
        · refine holds.unwritten ?_ row earlier
          rw [(call.waits before waited).1]
          exact fun written => written
        · exact absurd writes silent
      · rintro _ _ _ ⟨⟩
        exact served.retry_stops
    · have holds := invariant.workers still
      refine { holds with unwritten := ?_ }
      intro silent row there same
      rcases active row there with earlier | ⟨named, _⟩
      · exact holds.unwritten silent row earlier same
      · exact different (compactionPackKey_inj (same.symm.trans named))
  · intro other args' sent'
    change Function.update system.calls token none other = _ at sent'
    by_cases here : other = token
    · subst here
      rw [Function.update_self] at sent'
      cases sent'
    · rw [Function.update_of_ne here] at sent'
      have others := invariant.calls sent'
      refine { others with waits := ?_ }
      intro worker works
      change Function.update system.workers token _ other = _ at works
      rw [Function.update_of_ne here] at works
      exact others.waits worker works
  · intro key member
    rcases invariant.gone key member with ⟨absent, other, drawn, same, idle⟩
    refine ⟨absent, other, drawn, same, ?_⟩
    change Function.update system.workers token _ other = _
    by_cases here : other = token
    · subst here
      rw [Function.update_self, idle]
      rfl
    · rw [Function.update_of_ne here]
      exact idle

/-- A worker ends and leaves its upload where it is. -/
theorem WorkerInvariant.end_ (invariant : WorkerInvariant root system) :
    WorkerInvariant root (system.ended token) where
  stored := invariant.stored
  drawn := invariant.drawn
  workers works := { invariant.workers (update_none works).2 with }
  calls sent := by
    have call := invariant.calls sent
    refine { call with waits := ?_ }
    intro other works
    exact call.waits other (update_none works).2
  gone key member := by
    rcases invariant.gone key member with ⟨absent, other, drawn, same, idle⟩
    exact ⟨absent, other, drawn, same, update_none_of_none idle⟩

/-- A worker ends and deletes its upload, whose row is not active. -/
theorem WorkerInvariant.cleanUp (invariant : WorkerInvariant root system)
    (works : system.workers token = some worker)
    (unwritten : Unwritten (compactionPackKey root token) system.world) :
    WorkerInvariant root (system.cleanedUp root token) where
  stored row active := ⟨invariant.stored row active, unwritten row active⟩
  drawn := invariant.drawn
  workers works' := by
    rcases update_none works' with ⟨different, still⟩
    have holds := invariant.workers still
    refine { holds with staged := ?_ }
    intro staged found
    rcases holds.staged staged found with ⟨named, inside⟩
    refine ⟨named, inside, fun same => ?_⟩
    rw [Set.mem_singleton_iff, named] at same
    exact different (compactionPackKey_inj same)
  calls sent := by
    have call := invariant.calls sent
    refine { call with waits := ?_ }
    intro other works'
    rcases update_none works' with ⟨different, still⟩
    rcases call.waits other still with ⟨waiting, inside⟩
    exact ⟨waiting, inside, fun same => different (compactionPackKey_inj same)⟩
  gone key member := by
    rcases member with rfl | member
    · exact ⟨fun inside => inside.2 rfl, token, (invariant.workers works).drawn,
        rfl, Function.update_self ..⟩
    · rcases invariant.gone key member with ⟨absent, other, drawn, same, idle⟩
      exact ⟨fun inside => absent inside.1, other, drawn, same,
        update_none_of_none idle⟩

theorem WorkerInvariant.next {next : WorkerSystem}
    (invariant : WorkerInvariant root system)
    (step : WorkerStep root Heard system next) : WorkerInvariant root next := by
  cases step with
  | begun fresh ran =>
    rcases (beginCompactionState_settles _ _).of_run ran with
      ⟨plan, _, rfl, rfl⟩
    have same := @WorkerInvariant.activates _ _ ∅ _ invariant nofun
      ((beginCompactionState_activates _).of_run ran)
    exact same.begin fresh rfl
  | notBegun fresh ran =>
    have same := @WorkerInvariant.activates _ _ ∅ _ invariant nofun
      ((beginCompactionState_activates _).of_run ran)
    exact same.draw
  | staged works unstaged named => exact invariant.stage works named
  | gaveUp works unstaged => exact invariant.end_
  | failed works unsent =>
    apply invariant.cleanUp works
    apply (invariant.workers works).unwritten
    rw [unsent]
    exact fun written => written
  | sent works uploaded unsent => exact invariant.send works uploaded unsent
  | served sent served allowed =>
    exact invariant.serve sent served fun writes none => allowed none writes
  | committed works answered => exact invariant.end_
  | putOff works answered =>
    have holds := invariant.workers works
    apply invariant.cleanUp works
    apply holds.unwritten
    rw [answered]
    exact holds.retried _ _ _ answered
  | errored works called allowed =>
    exact invariant.cleanUp works ((invariant.workers works).unwritten allowed)
  | @receiveUploaded token =>
    refine ⟨fun row active => .inr (invariant.stored row active),
      invariant.drawn, fun works => ?_, fun sent => ?_, fun key member => ?_⟩
    · have holds := invariant.workers works
      refine { holds with staged := ?_ }
      intro upload found
      exact ⟨(holds.staged upload found).1, .inr (holds.staged upload found).2⟩
    · have call := invariant.calls sent
      refine { call with waits := ?_ }
      intro worker works
      exact ⟨(call.waits worker works).1, .inr (call.waits worker works).2⟩
    · rcases invariant.gone key member with ⟨absent, other, drawn, same, idle⟩
      refine ⟨?_, other, drawn, same, idle⟩
      rintro (here | there)
      · rw [same] at here
        exact compactionPackKey_ne_receivePackKey root token other here.symm
      · exact absent there
  | received staged named uploaded ran =>
    apply invariant.activates _
      ((activateStagedPack_activates staged).of_run ran)
    rintro _ rfl
    refine ⟨uploaded, fun other => ?_⟩
    rw [named]
    exact compactionPackKey_ne_receivePackKey root _ other
  | elsewhere activates =>
    exact invariant.activates (fun _ member => member) activates

/-- A deletion is for good. -/
theorem WorkerStep.deleted_subset {allows : Miss → Prop}
    {next : WorkerSystem} (step : WorkerStep root allows system next) :
    system.deleted ⊆ next.deleted := by
  cases step with
  | failed => exact Set.subset_insert _ _
  | putOff => exact Set.subset_insert _ _
  | errored => exact Set.subset_insert _ _
  | begun => exact fun _ member => member
  | notBegun => exact fun _ member => member
  | staged => exact fun _ member => member
  | gaveUp => exact fun _ member => member
  | sent => exact fun _ member => member
  | served => exact fun _ member => member
  | committed => exact fun _ member => member
  | receiveUploaded => exact fun _ member => member
  | received => exact fun _ member => member
  | elsewhere => exact fun _ member => member

theorem WorkerInvariant.reaches {start last : WorkerSystem}
    (reached : Relation.ReflTransGen (WorkerStep root Heard) start last)
    (invariant : WorkerInvariant root start) : WorkerInvariant root last := by
  induction reached with
  | refl => exact invariant
  | tail _ step ih => exact ih.next step

end Steps

/-! ## Live packs -/

/-- What a worker has deleted has no active row, and the artifacts of every
active row are in the bucket. -/
structure LivePacksKept (system : WorkerSystem) : Prop where
  dead : ∀ key ∈ system.deleted, Unwritten key system.world
  stored : ∀ row, IsActive system.world.repo.packCatalog row →
    row.packKey ∈ system.bucket

variable {root : String} {system : WorkerSystem}

theorem WorkerInvariant.livePacksKept (invariant : WorkerInvariant root system) :
    LivePacksKept system where
  dead key member row active same := by
    apply (invariant.gone key member).1
    rw [← same]
    exact invariant.stored row active
  stored := invariant.stored

/-- Nothing was deleted, no worker is at work, no call is under way, the
artifacts of the active rows are in the bucket, and a token that names an active
row was drawn. -/
structure AtRest (root : String) (system : WorkerSystem) : Prop where
  idle : ∀ token, system.workers token = none
  silent : ∀ token, system.calls token = none
  deleted : system.deleted = ∅
  stored : ∀ row, IsActive system.world.repo.packCatalog row →
    row.packKey ∈ system.bucket
  drawn : ∀ row token, IsActive system.world.repo.packCatalog row →
    row.packKey = compactionPackKey root token → token ∈ system.tokens

theorem AtRest.invariant (rest : AtRest root system) :
    WorkerInvariant root system where
  stored := rest.stored
  drawn := rest.drawn
  workers works := by
    rw [rest.idle] at works
    cases works
  calls sent := by
    rw [rest.silent] at sent
    cases sent
  gone key member := by
    rw [rest.deleted] at member
    exact member.elim

/-- A call that passes its checks and runs to its end makes its pack live. -/
theorem WorkerInvariant.written {token : String}
    {result : Except RepoFailure CommitCompactionResult}
    (invariant : WorkerInvariant root system)
    (sent : system.calls token = some args)
    (unwritten : Unwritten (compactionPackKey root token) system.world)
    (unopposed : Unopposed args system.world)
    (ran : RunsAlone (commitCompactionState args) system.world last
      (some result)) : ¬ Unwritten (compactionPackKey root token) last := by
  have named := (invariant.calls sent).named
  intro silent
  refine silent _ (unopposed.active ?_ ran) named
  intro row active same
  exact unwritten row active (same.trans named)

/-- Live packs are kept in every run in which no worker gets an error for a call
that has written its row and no call writes its row once its worker has ended.
What is deleted stays deleted.  A call that runs to its end deletes a live pack
by an error behind it, or makes a deleted pack live, just where it passes its
checks. -/
theorem compaction_keeps_live_packs (root : String) (start last : WorkerSystem)
    (rest : AtRest root start)
    (reached : Relation.ReflTransGen (WorkerStep root Heard) start last) :
    LivePacksKept last ∧
      (∀ next, WorkerStep root Heard last next →
        last.deleted ⊆ next.deleted) ∧
      ∀ token args world result,
        last.calls token = some args →
          RunsAlone (commitCompactionState args) last.world world
              (some result) →
            ((last.workers token).isSome = true →
              (LivePacksKept ((last.served token world
                  (Unopposed args last.world) (some result)).cleanedUp root
                    token) ↔
                ¬ Unopposed args last.world)) ∧
            (compactionPackKey root token ∈ last.deleted →
              (LivePacksKept (last.served token world
                  (Unopposed args last.world) (some result)) ↔
                ¬ Unopposed args last.world)) := by
  have invariant := WorkerInvariant.reaches reached rest.invariant
  refine ⟨invariant.livePacksKept, fun _ step => step.deleted_subset, ?_⟩
  intro token args world result sent ran
  have served := Served.ended ran
  have writes : WritesRow args none last.world ↔ Unopposed args last.world :=
    ⟨fun writes => writes.1, fun unopposed => ⟨unopposed, nofun⟩⟩
  have kept : ¬ Unopposed args last.world → WorkerInvariant root
      (last.served token world (Unopposed args last.world) (some result)) := by
    intro opposed
    rw [← writes] at opposed
    have served := invariant.serve sent served fun writes => absurd writes opposed
    rw [propext writes] at served
    exact served
  constructor
  · intro works
    rcases Option.isSome_iff_exists.mp works with ⟨worker, works⟩
    have holds := invariant.workers works
    have unwritten : Unwritten (compactionPackKey root token) last.world := by
      apply holds.unwritten
      rw [((invariant.calls sent).waits worker works).1]
      exact fun written => written
    constructor
    · intro live unopposed
      exact invariant.written sent unwritten unopposed ran (live.dead _ (.inl rfl))
    · intro opposed
      have invariant := kept opposed
      have answered := @WorkerSystem.served_self last token worker world
        (Unopposed args last.world) (some result) works
      exact (invariant.cleanUp answered
        ((invariant.workers answered).unwritten opposed)).livePacksKept
  · intro deleted
    constructor
    · intro live unopposed
      exact invariant.written sent (invariant.livePacksKept.dead _ deleted)
        unopposed ran (live.dead _ deleted)
    · exact fun opposed => (kept opposed).livePacksKept

/-! ## Two runs -/

/-- Five packs that a receive has left, and a request. -/
def fivePacks : WorkerSystem where
  world := requested fiveReceives
  tokens := ∅
  workers := fun _ => none
  calls := fun _ => none
  bucket := { key | key ∈ fiveReceives.map PackCatalogRow.packKey }
  deleted := ∅

theorem fivePacks_overflow : ¬ WithinTiers fivePacks.world := by
  intro within
  exact absurd (within 0) (by decide +kernel)

theorem atRest_fivePacks : AtRest "repo" fivePacks := by
  have listed : ∀ row ∈ listActivePackCatalog fivePacks.world.repo.packCatalog,
      row.packKey ∈ fiveReceives.map PackCatalogRow.packKey ∧
        row.packKey.toList.length = 1 := by
    decide +kernel
  refine ⟨fun _ => rfl, fun _ => rfl, rfl, ?_, ?_⟩
  · intro row active
    exact (listed row (mem_listActivePackCatalog.mpr active)).1
  · intro row token active same
    have one := (listed row (mem_listActivePackCatalog.mpr active)).2
    rw [same] at one
    unfold compactionPackKey r2PackKey at one
    simp only [String.toList_append, List.length_append] at one
    have root : "repo".toList.length = 4 := by decide
    omega

/-- The pack that the five are merged into. -/
def fiveMerged : StagedCompaction :=
  ⟨compactionPackKey "repo" "token", 400, 100, 4⟩

/-- The pass of the worker with the five packs. -/
def fivePass (plan : CompactionPlan) : CompactionPass :=
  passOf "token" fivePacks.world plan

/-- The worker has merged the five packs. -/
def fivePacksMerged (plan : CompactionPlan) : WorkerSystem :=
  (fivePacks.begins "token"
    (fivePacks.world.withRepo
      (fivePacks.world.repo.setCompactLease (some (fivePass plan).lease)))
    (fivePass plan)).uploads "token" ⟨fivePass plan, none, .unsent⟩ fiveMerged

/-- The worker has sent its call. -/
def fivePacksSent (plan : CompactionPlan) : WorkerSystem :=
  (fivePacksMerged plan).sends "token" ⟨fivePass plan, some fiveMerged, .unsent⟩
    fiveMerged

theorem fivePacksSent_worker (plan : CompactionPlan) :
    (fivePacksSent plan).workers "token" =
      some ⟨fivePass plan, some fiveMerged, .sent⟩ :=
  WorkerSystem.sends_self ..

theorem fivePacksSent_call (plan : CompactionPlan) :
    (fivePacksSent plan).calls "token" =
      some ((fivePass plan).args fiveMerged) :=
  WorkerSystem.sends_call ..

/-- A worker sends its call, which no check stops. -/
theorem fivePacksSent_reached : ∃ plan,
    (∀ allows, Relation.ReflTransGen (WorkerStep "repo" allows) fivePacks
      (fivePacksSent plan)) ∧
      Unopposed ((fivePass plan).args fiveMerged) (fivePacksSent plan).world := by
  rcases (quiet_requested fiveReceives).begins fivePacks_overflow "token" with
    ⟨plan, selected, began⟩
  refine ⟨plan, fun allows => ?_,
    (quiet_requested fiveReceives).unopposed selected fiveMerged⟩
  have begun := Relation.ReflTransGen.single
    (@WorkerStep.begun "repo" allows fivePacks _ _ _ nofun began)
  have staged := begun.tail
    (@WorkerStep.staged _ _ _ "token" _ fiveMerged
      (WorkerSystem.begins_self ..) rfl rfl)
  exact staged.tail
    (@WorkerStep.sent _ _ _ "token" _ fiveMerged
      (WorkerSystem.uploads_self ..) rfl rfl)

/-- A worker gets an error while its call is under way, and deletes its pack. -/
theorem compaction_keeps_live_packs_fivePacks :
    ∃ last, Relation.ReflTransGen (WorkerStep "repo" Heard) fivePacks last ∧
      compactionPackKey "repo" "token" ∈ last.deleted ∧
      (last.calls "token").isSome = true ∧ LivePacksKept last := by
  rcases fivePacksSent_reached with ⟨plan, sent, _⟩
  have reached := (sent Heard).tail
    (@WorkerStep.errored _ _ _ "token" _ (fivePacksSent_worker plan) nofun
      fun written => written)
  refine ⟨_, reached, .inl rfl, ?_,
    (compaction_keeps_live_packs "repo" _ _ atRest_fivePacks reached).1⟩
  exact congrArg Option.isSome (fivePacksSent_call plan)

/-- The answer of a call that has committed is lost, and the worker deletes a
live pack.  Or the worker gives its call up first, deletes the pack, and the
call commits behind that. -/
theorem lost_answer_deletes_live_pack :
    AtRest "repo" fivePacks ∧
      (∃ last,
        Relation.ReflTransGen (WorkerStep "repo" (· = .lostAnswer)) fivePacks
            last ∧
          ¬ LivePacksKept last) ∧
      ∃ last,
        Relation.ReflTransGen (WorkerStep "repo" (· = .lateCommit)) fivePacks
            last ∧
          ¬ LivePacksKept last := by
  rcases fivePacksSent_reached with ⟨plan, sent, unopposed⟩
  rcases (commitCompactionState_settles ((fivePass plan).args fiveMerged)
      (fivePacksSent plan).world).exists_run with ⟨result, after, ran, _⟩
  have invariant := atRest_fivePacks.invariant.reaches (sent Heard)
  have unwritten : Unwritten (compactionPackKey "repo" "token")
      (fivePacksSent plan).world :=
    (invariant.workers (fivePacksSent_worker plan)).unwritten
      fun written => written
  have live := invariant.written (fivePacksSent_call plan) unwritten unopposed ran
  refine ⟨atRest_fivePacks, ?_, ?_⟩
  · have served := (sent (· = .lostAnswer)).tail
      (@WorkerStep.served _ _ _ "token" _ none _ _ (fivePacksSent_call plan)
        (.ended ran) (by
          intro none
          rw [fivePacksSent_worker] at none
          cases none))
    have lost := served.tail
      (@WorkerStep.errored _ _ _ "token" _
        (WorkerSystem.served_self _ _ _ (fivePacksSent_worker plan)) nofun
        fun _ => rfl)
    exact ⟨_, lost, fun kept => live (kept.dead _ (.inl rfl))⟩
  · have errored := (sent (· = .lateCommit)).tail
      (@WorkerStep.errored _ _ _ "token" _ (fivePacksSent_worker plan) nofun
        fun written => written.elim)
    have late := errored.tail
      (@WorkerStep.served _ _ _ "token" _ none _ _ (fivePacksSent_call plan)
        (.ended ran) fun _ _ => rfl)
    exact ⟨_, late, fun kept => live (kept.dead _ (.inl rfl))⟩

end GitOnCloudflare.Compaction
