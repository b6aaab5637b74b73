import GitOnCloudflare.Planner.Publication

/-!
# Plans that are kept

A conditional put gives every key at most one attempt that has created it.  So
long as no cleanup deletes what another attempt has found, the objects of
every returned plan stay in the bucket.
-/

namespace GitOnCloudflare.Planner

open Foundations
open Pack
open Repo (packIndexKey packRefsKey replacePackSuffix)

/-! ## Temporary keys -/

theorem replacePackSuffix_planning (stem suffix : String) :
    replacePackSuffix (stem ++ ".planning.pack") suffix =
        stem ++ (".planning" ++ suffix) ∨
      replacePackSuffix (stem ++ ".planning.pack") suffix =
        stem ++ ".planning.pack" := by
  unfold replacePackSuffix
  split
  · left
    apply String.toList_injective
    have whole : (stem ++ ".planning.pack").toList =
        stem.toList ++ ".planning".toList ++ ".pack".toList := by
      rw [String.toList_append, List.append_assoc]
      rfl
    have length : (stem ++ ".planning.pack").toList.length - 5 =
        (stem.toList ++ ".planning".toList).length := by
      rw [whole, List.length_append]
      rfl
    rw [String.toList_append, String.toList_ofList, length, whole,
      List.take_left, String.toList_append, String.toList_append,
      List.append_assoc]
  · exact .inr rfl

theorem stem_ne {stem first second : String} (different : first ≠ second) :
    stem ++ first ≠ stem ++ second := by
  intro same
  apply different
  have lists := congrArg String.toList same
  rw [String.toList_append, String.toList_append] at lists
  exact String.toList_injective (List.append_cancel_left lists)

theorem stockReceivePlanKeys_ok {inputRequestKey inputSha256 : String}
    {keys : PlanKeys}
    (derived : stockReceivePlanKeys inputRequestKey inputSha256 = .ok keys) :
    ∃ stem : String,
      keys = ⟨stem ++ ".planning.pack", stem ++ ".prerequisite.pack",
        stem ++ ".closure.json"⟩ := by
  unfold stockReceivePlanKeys at derived
  split at derived
  · cases derived
    exact ⟨_, rfl⟩
  · cases derived

variable {key : String} {artifact : Artifact} {slot : Nat} {put : Put}
  {batches : List (List Artifact)} {owned : List String}
  {after : PlannerWorld}

namespace PublicationTarget

variable {target : PublicationTarget}

/-- The temporaries are not among the artifacts of a plan. -/
theorem Plans.named (plans : target.Plans batches) :
    ∀ batch ∈ batches, ∀ artifact ∈ batch,
      artifact.key ∉ target.temporaryKeys := by
  cases plans with
  | direct manifest pack idx refs requested =>
    intro batch _ artifact _
    unfold temporaryKeys
    rw [if_pos requested]
    exact List.not_mem_nil
  | container prerequisite manifest =>
    rcases stockReceivePlanKeys_ok target.derived with ⟨stem, keys⟩
    have other : ∀ suffix : String, suffix ≠ ".planning.pack" →
        suffix ≠ ".planning" ++ ".idx" → suffix ≠ ".planning" ++ ".refs" →
          stem ++ suffix ∉ target.temporaryKeys := by
      intro suffix pack idx refs
      unfold temporaryKeys
      split
      · exact List.not_mem_nil
      · rw [keys]
        intro among
        rcases List.mem_cons.mp among with same | among
        · exact stem_ne pack same
        rcases List.mem_cons.mp among with same | among
        · rcases replacePackSuffix_planning stem ".idx" with index | index
          · exact stem_ne idx (same.trans index)
          · exact stem_ne pack (same.trans index)
        · have same := List.mem_singleton.mp among
          rcases replacePackSuffix_planning stem ".refs" with sidecar | sidecar
          · exact stem_ne refs (same.trans sidecar)
          · exact stem_ne pack (same.trans sidecar)
    intro batch member artifact inside
    rcases List.mem_cons.mp member with rfl | member
    · cases List.mem_singleton.mp inside
      rw [keys]
      exact other _ (by decide) (by decide) (by decide)
    · cases List.mem_singleton.mp member
      cases List.mem_singleton.mp inside
      rw [keys]
      exact other _ (by decide) (by decide) (by decide)

/-- A cleanup deletes temporaries and what the attempt has created. -/
theorem mem_cleanupKeys (listed : key ∈ target.cleanupKeys owned) :
    key ∈ target.temporaryKeys ∨ key ∈ owned := by
  rcases List.mem_append.mp listed with temporary | among
  · exact .inl temporary
  · exact .inr (List.mem_of_mem_filter among)

end PublicationTarget

/-! ## The keys of an attempt -/

namespace PlanAttempt

variable {target : PublicationTarget} {attempt : PlanAttempt}

/-- The keys that only this attempt deletes. -/
def mine (attempt : PlanAttempt) (target : PublicationTarget) : List String :=
  match attempt.phase with
  | .publishing | .returned =>
    attempt.ownedImmutableKeys ++ attempt.createdKeys
  | .cleaning keys =>
    keys.filter fun key => decide (key ∉ target.temporaryKeys)
  | .failed => []

/-- No temporary is among the keys of the attempt. -/
structure Named (attempt : PlanAttempt) (target : PublicationTarget) :
    Prop where
  batches : ∀ batch ∈ attempt.batches, ∀ artifact ∈ batch,
    artifact.key ∉ target.temporaryKeys
  puts : ∀ put ∈ attempt.puts, put.artifact.key ∉ target.temporaryKeys
  owned : ∀ key ∈ attempt.ownedImmutableKeys, key ∉ target.temporaryKeys
  published : ∀ artifact ∈ attempt.published,
    artifact.key ∉ target.temporaryKeys

theorem mem_createdKeys :
    key ∈ attempt.createdKeys ↔
      ∃ put ∈ attempt.puts, put.state = .created ∧ put.artifact.key = key := by
  unfold createdKeys
  rw [List.mem_map]
  constructor
  · rintro ⟨put, among, named⟩
    rw [List.mem_filter, decide_eq_true_iff] at among
    exact ⟨put, among.1, among.2, named⟩
  · rintro ⟨put, member, created, named⟩
    exact ⟨put, List.mem_filter.mpr ⟨member, decide_eq_true created⟩, named⟩

theorem mem_fulfilled :
    artifact ∈ attempt.fulfilled ↔ artifact ∈ attempt.published ∨
      ∃ put ∈ attempt.puts, put.state.fulfilled = true ∧
        put.artifact = artifact := by
  unfold fulfilled
  rw [List.mem_append, List.mem_map]
  apply or_congr_right
  constructor
  · rintro ⟨put, among, same⟩
    exact ⟨put, (List.mem_filter.mp among).1, (List.mem_filter.mp among).2,
      same⟩
  · rintro ⟨put, member, done, same⟩
    exact ⟨put, List.mem_filter.mpr ⟨member, done⟩, same⟩

theorem Named.createdKeys (named : attempt.Named target)
    (created : key ∈ attempt.createdKeys) : key ∉ target.temporaryKeys := by
  rcases mem_createdKeys.mp created with ⟨put, member, _, rfl⟩
  exact named.puts put member

theorem Named.fulfilled (named : attempt.Named target)
    (done : artifact ∈ attempt.fulfilled) :
    artifact.key ∉ target.temporaryKeys := by
  rcases mem_fulfilled.mp done with published | ⟨put, member, _, rfl⟩
  · exact named.published artifact published
  · exact named.puts put member

theorem mine_of_live (live : attempt.Live) :
    attempt.mine target =
      attempt.ownedImmutableKeys ++ attempt.createdKeys := by
  unfold mine
  rcases live with phase | phase
  · rw [phase]
  · rw [phase]

theorem Named.mine (named : attempt.Named target)
    (listed : key ∈ attempt.mine target) : key ∉ target.temporaryKeys := by
  unfold PlanAttempt.mine at listed
  split at listed
  · rcases List.mem_append.mp listed with owned | created
    · exact named.owned key owned
    · exact named.createdKeys created
  · rcases List.mem_append.mp listed with owned | created
    · exact named.owned key owned
    · exact named.createdKeys created
  · exact of_decide_eq_true (List.mem_filter.mp listed).2
  · cases listed

/-! ## What the steps do to the keys -/

theorem named_start (plans : target.Plans batches) :
    (start batches).Named target :=
  ⟨plans.named, nofun, nofun, nofun⟩

theorem Named.begin (named : attempt.Named target) {batch : List Artifact}
    {rest : List (List Artifact)} (next : attempt.batches = batch :: rest) :
    (attempt.begin batch rest).Named target where
  batches := by
    intro later member
    apply named.batches later
    rw [next]
    exact List.mem_cons_of_mem _ member
  puts := by
    intro put member
    rcases List.mem_map.mp member with ⟨artifact, inside, rfl⟩
    apply named.batches batch _ artifact inside
    rw [next]
    exact List.mem_cons_self
  owned := named.owned
  published := named.published

theorem Named.setPut (named : attempt.Named target) {old : Put}
    (running : attempt.puts[slot]? = some old) (state : PutState) :
    (attempt.setPut slot ⟨old.artifact, state⟩).Named target where
  batches := named.batches
  puts := by
    intro put member
    rcases List.mem_or_eq_of_mem_set member with before | rfl
    · exact named.puts put before
    · exact named.puts old (List.mem_of_getElem? running)
  owned := named.owned
  published := named.published

theorem Named.setPhase (named : attempt.Named target) (phase : AttemptPhase) :
    { attempt with phase := phase }.Named target :=
  ⟨named.batches, named.puts, named.owned, named.published⟩

theorem Named.settle (named : attempt.Named target) :
    (attempt.settle target).Named target := by
  have owned : ∀ key ∈ attempt.ownedImmutableKeys ++ attempt.createdKeys,
      key ∉ target.temporaryKeys := by
    intro key listed
    rcases List.mem_append.mp listed with owned | created
    · exact named.owned key owned
    · exact named.createdKeys created
  unfold PlanAttempt.settle
  dsimp only
  split
  · exact ⟨named.batches, nofun, owned, named.published⟩
  · refine ⟨named.batches, nofun, owned, ?_⟩
    intro artifact member
    rcases List.mem_append.mp member with before | now
    · exact named.published artifact before
    · rcases List.mem_map.mp now with ⟨put, inside, rfl⟩
      exact named.puts put inside

theorem mem_mine_setPut (publishing : attempt.phase = .publishing)
    (listed : key ∈ (attempt.setPut slot put).mine target) :
    key ∈ attempt.mine target ∨
      put.state = .created ∧ key = put.artifact.key := by
  have live : (attempt.setPut slot put).Live := .inl publishing
  rw [mine_of_live live] at listed
  rw [mine_of_live (.inl publishing)]
  rcases List.mem_append.mp listed with owned | created
  · exact .inl (List.mem_append_left _ owned)
  · rcases mem_createdKeys.mp created with ⟨other, member, done, rfl⟩
    rcases List.mem_or_eq_of_mem_set member with before | rfl
    · left
      apply List.mem_append_right
      exact mem_createdKeys.mpr ⟨other, before, done, rfl⟩
    · exact .inr ⟨done, rfl⟩

theorem mem_fulfilled_setPut
    (done : artifact ∈ (attempt.setPut slot put).fulfilled) :
    artifact ∈ attempt.fulfilled ∨
      put.state.fulfilled = true ∧ artifact = put.artifact := by
  rcases mem_fulfilled.mp done with published | ⟨other, member, state, rfl⟩
  · exact .inl (mem_fulfilled.mpr (.inl published))
  · rcases List.mem_or_eq_of_mem_set member with before | rfl
    · exact .inl (mem_fulfilled.mpr (.inr ⟨other, before, state, rfl⟩))
    · exact .inr ⟨state, rfl⟩

theorem mem_mine_clean
    (listed : key ∈ (attempt.clean (target.cleanupKeys owned)).mine target) :
    key ∈ owned := by
  rcases List.mem_filter.mp listed with ⟨among, outside⟩
  apply (PublicationTarget.mem_cleanupKeys among).resolve_left
  exact of_decide_eq_true outside

theorem mem_mine_settle (publishing : attempt.phase = .publishing)
    (listed : key ∈ (attempt.settle target).mine target) :
    key ∈ attempt.mine target := by
  rw [mine_of_live (.inl publishing)]
  unfold settle at listed
  dsimp only at listed
  split at listed
  · exact mem_mine_clean listed
  · unfold mine at listed
    dsimp only at listed
    rw [publishing] at listed
    rcases List.mem_append.mp listed with owned | created
    · exact owned
    · cases created

theorem mem_fulfilled_settle
    (all : ∀ put ∈ attempt.puts, put.state.settled = true)
    (live : (attempt.settle target).Live)
    (done : artifact ∈ (attempt.settle target).fulfilled) :
    artifact ∈ attempt.fulfilled := by
  unfold settle at live done
  dsimp only at live done
  split at live
  · rcases live with phase | phase
    · cases phase
    · cases phase
  · next none_ =>
    rw [if_neg none_] at done
    rw [mem_fulfilled] at done ⊢
    rcases done with published | ⟨put, member, _⟩
    · rcases List.mem_append.mp published with before | now
      · exact .inl before
      · right
        rcases List.mem_map.mp now with ⟨put, inside, rfl⟩
        refine ⟨put, inside, ?_, rfl⟩
        have ended := all put inside
        have accepted : put.state ≠ .rejected := fun rejected =>
          none_ (List.any_eq_true.mpr
            ⟨put, inside, decide_eq_true rejected⟩)
        cases state : put.state with
        | created => rfl
        | adopted => rfl
        | rejected => exact absurd state accepted
        | pending =>
          rw [state] at ended
          cases ended
        | present =>
          rw [state] at ended
          cases ended
    · cases member

end PlanAttempt

/-! ## The invariant -/

/-- What cleanups that spare the finds of others keep. -/
structure PlannerInvariant (target : PublicationTarget)
    (world : PlannerWorld) : Prop where
  named : ∀ {id attempt}, world.attempts id = some attempt →
    attempt.Named target
  held : ∀ {id attempt key}, world.attempts id = some attempt →
    key ∈ attempt.mine target → world.bucket key ≠ none
  sole : ∀ {first second one two key}, world.attempts first = some one →
    world.attempts second = some two → key ∈ one.mine target →
      key ∈ two.mine target → first = second
  kept : ∀ {id attempt}, world.attempts id = some attempt → attempt.Live →
    ∀ artifact ∈ attempt.fulfilled, target.Holds world artifact

section Invariant

variable {target : PublicationTarget} {world : PlannerWorld}

/-- How a step of one attempt may change the object under a key: it creates
it, or it deletes its own. -/
def Touches (target : PublicationTarget) (world : PlannerWorld) (id : Nat)
    (key : String) : Prop :=
  world.bucket key = none ∨ key ∈ target.temporaryKeys ∨
    (∃ attempt, world.attempts id = some attempt ∧
      key ∈ attempt.mine target) ∧ Spares world (.removed id key)

variable {id : Nat} {attempt : PlanAttempt}

/-- No other attempt loses an object. -/
theorem PlannerInvariant.others (invariant : PlannerInvariant target world)
    {other : Nat} (different : other ≠ id)
    (found : world.attempts other = some attempt) :
    (∀ key ∈ attempt.mine target, ¬ Touches target world id key) ∧
      (attempt.Live → ∀ artifact ∈ attempt.fulfilled,
        ¬ Touches target world id artifact.key) := by
  have mine : ∀ key ∈ attempt.mine target,
      ¬ Touches target world id key := by
    rintro key listed (absent | temporary | ⟨⟨owner, owns, among⟩, _⟩)
    · exact invariant.held found listed absent
    · exact (invariant.named found).mine listed temporary
    · exact different (invariant.sole found owns listed among)
  refine ⟨mine, ?_⟩
  intro live artifact done
  by_cases own : artifact.key ∈ attempt.mine target
  · exact mine artifact.key own
  · rintro (absent | temporary | ⟨_, spared⟩)
    · rcases invariant.kept found live artifact done with ⟨object, held, _⟩
      cases held.symm.trans absent
    · exact (invariant.named found).fulfilled done temporary
    · rw [PlanAttempt.mine_of_live live] at own
      exact spared other attempt different found live
        ⟨List.mem_map.mpr ⟨artifact, done, rfl⟩, own⟩

/-- One attempt takes a step, and the others keep what they have. -/
theorem PlannerInvariant.step (invariant : PlannerInvariant target world)
    {id : Nat} {bucket : String → Option BucketObject} {attempt : PlanAttempt}
    (named : attempt.Named target)
    (mine : ∀ key ∈ attempt.mine target, bucket key ≠ none ∧
      (world.bucket key = none ∨ ∃ before,
        world.attempts id = some before ∧ key ∈ before.mine target))
    (kept : attempt.Live → ∀ artifact ∈ attempt.fulfilled,
      target.Holds ⟨bucket, world.attempts⟩ artifact)
    (frame : ∀ key, bucket key = world.bucket key ∨ Touches target world id key) :
    PlannerInvariant target
      ((⟨bucket, world.attempts⟩ : PlannerWorld).setAttempt id attempt) := by
  have split_ : ∀ {other now},
      Function.update world.attempts id (some attempt) other = some now →
        other = id ∧ now = attempt ∨
          other ≠ id ∧ world.attempts other = some now := by
    intro other now found
    by_cases same : other = id
    · subst same
      rw [Function.update_self] at found
      cases found
      exact .inl ⟨rfl, rfl⟩
    · rw [Function.update_of_ne same] at found
      exact .inr ⟨same, found⟩
  -- an attempt has in common with another only what neither has created
  have apart : ∀ {other now key}, other ≠ id →
      world.attempts other = some now → key ∈ attempt.mine target →
        key ∈ now.mine target → False := by
    intro other now key different found own listed
    rcases (mine key own).2 with absent | ⟨before, was, among⟩
    · exact invariant.held found listed absent
    · exact different (invariant.sole found was listed among)
  refine ⟨?_, ?_, ?_, ?_⟩
  · intro other now found
    rcases split_ found with ⟨rfl, rfl⟩ | ⟨_, was⟩
    · exact named
    · exact invariant.named was
  · intro other now key found listed
    rcases split_ found with ⟨rfl, rfl⟩ | ⟨different, was⟩
    · exact (mine key listed).1
    · show bucket key ≠ none
      rw [(frame key).resolve_right
        ((invariant.others different was).1 key listed)]
      exact invariant.held was listed
  · intro first second one two key foundOne foundTwo listedOne listedTwo
    rcases split_ foundOne with ⟨rfl, rfl⟩ | ⟨differentOne, wasOne⟩
    · rcases split_ foundTwo with ⟨rfl, rfl⟩ | ⟨differentTwo, wasTwo⟩
      · rfl
      · exact (apart differentTwo wasTwo listedOne listedTwo).elim
    · rcases split_ foundTwo with ⟨rfl, rfl⟩ | ⟨differentTwo, wasTwo⟩
      · exact (apart differentOne wasOne listedTwo listedOne).elim
      · exact invariant.sole wasOne wasTwo listedOne listedTwo
  · intro other now found live artifact done
    rcases split_ found with ⟨rfl, rfl⟩ | ⟨different, was⟩
    · exact kept live artifact done
    · rcases invariant.kept was live artifact done with ⟨object, held, same⟩
      refine ⟨object, ?_, same⟩
      show bucket artifact.key = some object
      rw [(frame artifact.key).resolve_right
        ((invariant.others different was).2 live artifact done)]
      exact held

/-- A new object leaves those that are there. -/
theorem Holds.setObject {object : Option BucketObject}
    (absent : world.bucket key = none) (holds : target.Holds world artifact) :
    target.Holds (world.setObject key object) artifact := by
  rcases holds with ⟨stored, held, same⟩
  refine ⟨stored, ?_, same⟩
  have different : artifact.key ≠ key := by
    rintro rfl
    cases held.symm.trans absent
  exact (Function.update_of_ne different ..).trans held

/-- One attempt takes a step, and the bucket stays as it is. -/
theorem PlannerInvariant.still (invariant : PlannerInvariant target world)
    (named : attempt.Named target)
    (mine : ∀ key ∈ attempt.mine target, ∃ before,
      world.attempts id = some before ∧ key ∈ before.mine target)
    (kept : attempt.Live → ∀ artifact ∈ attempt.fulfilled,
      target.Holds world artifact) :
    PlannerInvariant target (world.setAttempt id attempt) := by
  apply @PlannerInvariant.step target world invariant id world.bucket
    attempt named _ kept (fun _ => .inl rfl)
  intro key listed
  rcases mine key listed with ⟨before, was, among⟩
  exact ⟨invariant.held was among, .inr ⟨before, was, among⟩⟩

/-- A put stores its artifact, whatever is answered. -/
theorem PlannerInvariant.stored (invariant : PlannerInvariant target world)
    (found : world.attempts id = some attempt)
    (publishing : attempt.phase = .publishing)
    (running : attempt.puts[slot]? = some ⟨artifact, .pending⟩)
    (absent : world.bucket artifact.key = none) (state : PutState) :
    PlannerInvariant target
      ((world.setObject artifact.key
        (some (target.stored artifact))).setAttempt id
          (attempt.setPut slot ⟨artifact, state⟩)) := by
  apply @PlannerInvariant.step target world invariant id
    (Function.update world.bucket artifact.key
      (some (target.stored artifact)))
    (attempt.setPut slot ⟨artifact, state⟩)
    ((invariant.named found).setPut running state)
  · intro key listed
    rcases PlanAttempt.mem_mine_setPut publishing listed with
      before | ⟨_, rfl⟩
    · have held := invariant.held found before
      have different : key ≠ artifact.key := by
        rintro rfl
        exact held absent
      rw [Function.update_of_ne different]
      exact ⟨held, .inr ⟨attempt, found, before⟩⟩
    · rw [Function.update_self]
      exact ⟨nofun, .inl absent⟩
  · intro _ other done
    rcases PlanAttempt.mem_fulfilled_setPut done with before | ⟨_, rfl⟩
    · apply Holds.setObject absent
      exact invariant.kept found (.inl publishing) other before
    · exact ⟨target.stored other, Function.update_self .., rfl, rfl⟩
  · intro key
    by_cases same : key = artifact.key
    · subst same
      exact .inr (.inl absent)
    · exact .inl (Function.update_of_ne same ..)

/-- A put is answered that stored nothing: what it found counts only where it
is the artifact. -/
theorem PlannerInvariant.answered (invariant : PlannerInvariant target world)
    (found : world.attempts id = some attempt)
    (publishing : attempt.phase = .publishing)
    (running : attempt.puts[slot]? = some put) (state : PutState)
    (other : state ≠ .created)
    (kept : state.fulfilled = true → target.Holds world put.artifact) :
    PlannerInvariant target
      (world.setAttempt id (attempt.setPut slot ⟨put.artifact, state⟩)) := by
  apply invariant.still ((invariant.named found).setPut running state)
  · intro key listed
    rcases PlanAttempt.mem_mine_setPut publishing listed with
      before | ⟨created, _⟩
    · exact ⟨attempt, found, before⟩
    · exact (other created).elim
  · intro _ artifact done
    rcases PlanAttempt.mem_fulfilled_setPut done with
      before | ⟨fulfilled, rfl⟩
    · exact invariant.kept found (.inl publishing) artifact before
    · exact kept fulfilled

theorem PlannerInvariant.next (invariant : PlannerInvariant target world)
    {event : PlannerEvent} {after : PlannerWorld} (spared : Spares world event)
    (step : PlannerStep target world event after) :
    PlannerInvariant target after := by
  cases step with
  | @entered id batches fresh plans =>
    apply invariant.still (PlanAttempt.named_start plans)
    · exact nofun
    · exact fun _ => nofun
  | @began id attempt batch rest found publishing idle following =>
    have live : (attempt.begin batch rest).Live := .inl publishing
    have none_ : (attempt.begin batch rest).createdKeys = [] := by
      apply List.eq_nil_iff_forall_not_mem.mpr
      intro key created
      rcases PlanAttempt.mem_createdKeys.mp created with
        ⟨put, member, state, _⟩
      rcases List.mem_map.mp member with ⟨artifact, _, rfl⟩
      cases state
    apply invariant.still ((invariant.named found).begin following)
    · intro key listed
      rw [PlanAttempt.mine_of_live live, none_, List.append_nil] at listed
      refine ⟨attempt, found, ?_⟩
      rw [PlanAttempt.mine_of_live (.inl publishing)]
      exact List.mem_append_left _ listed
    · intro _ artifact done
      apply invariant.kept found (.inl publishing)
      rw [PlanAttempt.mem_fulfilled] at done ⊢
      rcases done with published | ⟨put, member, state, _⟩
      · exact .inl published
      · rcases List.mem_map.mp member with ⟨other, _, rfl⟩
        cases state
  | @created id slot attempt artifact found publishing running absent =>
    exact invariant.stored found publishing running absent .created
  | @lost id slot attempt artifact found publishing running absent =>
    exact invariant.stored found publishing running absent .rejected
  | @met id slot attempt artifact found publishing running held =>
    apply invariant.answered found publishing running .present nofun
    exact nofun
  | @adopted id slot attempt artifact object found publishing running held
      accepted =>
    apply invariant.answered found publishing running .adopted nofun
    intro _
    unfold PublicationTarget.accepts at accepted
    rw [Bool.and_eq_true, Bool.and_eq_true, decide_eq_true_iff,
      decide_eq_true_iff] at accepted
    exact ⟨object, held, accepted.1.1, of_decide_eq_true accepted.2⟩
  | @rejected id slot attempt put found publishing running open_ =>
    apply invariant.answered found publishing running .rejected nofun
    exact nofun
  | @settled id attempt found publishing ran all =>
    apply invariant.still (invariant.named found).settle
    · intro key listed
      exact ⟨attempt, found, PlanAttempt.mem_mine_settle publishing listed⟩
    · intro live artifact done
      apply invariant.kept found (.inl publishing)
      exact PlanAttempt.mem_fulfilled_settle all live done
  | @threw id attempt found publishing idle early =>
    apply invariant.still ((invariant.named found).setPhase _)
    · intro key listed
      refine ⟨attempt, found, ?_⟩
      rw [PlanAttempt.mine_of_live (.inl publishing)]
      exact List.mem_append_left _ (PlanAttempt.mem_mine_clean listed)
    · rintro (phase | phase)
      · cases phase
      · cases phase
  | @returned id attempt found publishing idle last =>
    apply invariant.still ((invariant.named found).setPhase _)
    · intro key listed
      refine ⟨attempt, found, ?_⟩
      rw [PlanAttempt.mine_of_live (.inl publishing)]
      exact listed
    · intro _ artifact done
      exact invariant.kept found (.inl publishing) artifact done
  | @removed id attempt keys key found cleaning listed =>
    have mine : ∀ other,
        other ∈ keys → other ∉ target.temporaryKeys →
          other ∈ attempt.mine target := by
      intro other among outside
      unfold PlanAttempt.mine
      rw [cleaning]
      exact List.mem_filter.mpr ⟨among, decide_eq_true outside⟩
    apply @PlannerInvariant.step target world invariant id
      (Function.update world.bucket key none)
      (attempt.clean (keys.filter fun other => decide (other ≠ key)))
      ((invariant.named found).setPhase _)
    · intro other among
      rcases List.mem_filter.mp among with ⟨among, outside⟩
      rcases List.mem_filter.mp among with ⟨among, different⟩
      have own := mine other among (of_decide_eq_true outside)
      rw [Function.update_of_ne (of_decide_eq_true different)]
      exact ⟨invariant.held found own, .inr ⟨attempt, found, own⟩⟩
    · rintro (phase | phase)
      · cases phase
      · cases phase
    · intro other
      by_cases same : other = key
      · subst same
        by_cases temporary : other ∈ target.temporaryKeys
        · exact .inr (.inr (.inl temporary))
        · exact .inr (.inr (.inr
            ⟨⟨attempt, found, mine other listed temporary⟩, spared⟩))
      · exact .inl (Function.update_of_ne same ..)
  | @kept id attempt keys key found cleaning listed =>
    apply invariant.still ((invariant.named found).setPhase _)
    · intro other among
      rcases List.mem_filter.mp among with ⟨among, outside⟩
      refine ⟨attempt, found, ?_⟩
      unfold PlanAttempt.mine
      rw [cleaning]
      exact List.mem_filter.mpr ⟨List.mem_of_mem_filter among, outside⟩
    · rintro (phase | phase)
      · cases phase
      · cases phase
  | @stopped id attempt found running =>
    apply invariant.still ((invariant.named found).setPhase _)
    · exact nofun
    · rintro (phase | phase)
      · cases phase
      · cases phase
  | @staged key temporary object =>
    have same : ∀ other, other ∉ target.temporaryKeys →
        Function.update world.bucket key object other =
          world.bucket other := by
      intro other outside
      apply Function.update_of_ne
      rintro rfl
      exact outside temporary
    refine ⟨invariant.named, ?_, invariant.sole, ?_⟩
    · intro id attempt other found listed
      show Function.update world.bucket key object other ≠ none
      rw [same other ((invariant.named found).mine listed)]
      exact invariant.held found listed
    · intro id attempt found live artifact done
      rcases invariant.kept found live artifact done with
        ⟨stored, held, equal⟩
      refine ⟨stored, ?_, equal⟩
      show Function.update world.bucket key object artifact.key = _
      rw [same artifact.key ((invariant.named found).fulfilled done)]
      exact held

theorem plannerInvariant_of_empty (fresh : ∀ id, world.attempts id = none) :
    PlannerInvariant target world := by
  refine ⟨?_, ?_, ?_, ?_⟩
  · intro id attempt found
    cases (fresh id).symm.trans found
  · intro id attempt key found
    cases (fresh id).symm.trans found
  · intro first second one two key found
    cases (fresh first).symm.trans found
  · intro id attempt found
    cases (fresh id).symm.trans found

theorem PlannerInvariant.reaches (invariant : PlannerInvariant target world)
    (run : PlannerReaches target Spares world after) :
    PlannerInvariant target after := by
  induction run with
  | refl => exact invariant
  | tail _ last ih =>
    rcases last with ⟨event, spared, step⟩
    exact ih.next spared step

theorem PlannerInvariant.plansKept (invariant : PlannerInvariant target world) :
    PlansKept target world := by
  intro id attempt found returned artifact published
  apply invariant.kept found (.inr returned)
  exact PlanAttempt.mem_fulfilled.mpr (.inl published)

/-- Attempts of one receive keep each other's plans as long as no cleanup
deletes what another attempt has found; deleting what a returned plan names
breaks that plan. -/
theorem plansKept_of_spares (fresh : ∀ id, world.attempts id = none) :
    (∀ after, PlannerReaches target Spares world after →
      PlansKept target after) ∧
    ∀ before after id key, PlannerStep target before (.removed id key) after →
      ∀ other attempt, before.attempts other = some attempt →
        attempt.phase = .returned →
          key ∈ attempt.published.map Artifact.key →
            ¬ PlansKept target after := by
  constructor
  · intro after run
    exact ((plannerInvariant_of_empty fresh).reaches run).plansKept
  · intro before after id key step other attempt found returned named kept
    rcases List.mem_map.mp named with ⟨artifact, published, rfl⟩
    cases step with
    | @removed _ cleaned keys _ owns cleaning listed =>
      have different : other ≠ id := by
        rintro rfl
        cases owns.symm.trans found
        cases cleaning.symm.trans returned
      have still : Function.update before.attempts id
          (some (cleaned.clean (keys.filter fun other =>
            decide (other ≠ artifact.key)))) other = some attempt :=
        (Function.update_of_ne different ..).trans found
      rcases kept other attempt still returned artifact published with
        ⟨object, held, _⟩
      have gone : Function.update before.bucket artifact.key none
          artifact.key = some object := held
      rw [Function.update_self] at gone
      cases gone

end Invariant

/-! ## Two attempts -/

/-- A push whose plan goes to the container. -/
def pushTarget : PublicationTarget where
  inputRequestKey := "push.request"
  inputRequestSha256 := "00"
  outputPackKey := "output.pack"
  outputIdxKey := "output.idx"
  outputRefsKey := "output.refs"
  directPackRequested := true
  digest := fun bytes =>
    String.ofList (bytes.map fun byte => Char.ofNat byte.toNat)
  keys :=
    { temporaryPackKey := "push-00.planning.pack"
      prerequisitePackKey := "push-00.prerequisite.pack"
      closureManifestKey := "push-00.closure.json" }
  derived := by decide +kernel

def emptyWorld : PlannerWorld := ⟨fun _ => none, fun _ => none⟩

theorem PlannerReaches.take {target : PublicationTarget}
    {allowed : PlannerWorld → PlannerEvent → Prop}
    {before world after : PlannerWorld} {event : PlannerEvent}
    (run : PlannerReaches target allowed before world)
    (allows : allowed world event) (step : PlannerStep target world event after) :
    PlannerReaches target allowed before after :=
  run.tail ⟨event, allows, step⟩

theorem PlannerReaches.other {target : PublicationTarget}
    {before world : PlannerWorld}
    (run : PlannerReaches target Spares before world)
    (step : PlannerStep target world .other after) :
    PlannerReaches target Spares before after :=
  @PlannerReaches.take _ _ _ _ _ .other run trivial step

theorem plansKept_of_spares_returned :
    ∃ after attempt, PlannerReaches pushTarget Spares emptyWorld after ∧
      after.attempts 0 = some attempt ∧ attempt.phase = .returned ∧
        PlansKept pushTarget after := by
  have start : PlannerReaches pushTarget Spares emptyWorld emptyWorld :=
    Relation.ReflTransGen.refl
  have run := ((((((start.other
      (@PlannerStep.entered _ _ 0 _ rfl (.container [1] [2]))).other
      (@PlannerStep.began _ _ 0 _ _ _ rfl rfl rfl rfl)).other
      (@PlannerStep.created _ _ 0 0 _ _ rfl rfl rfl rfl)).other
      (@PlannerStep.settled _ _ 0 _ rfl rfl (by decide) (by decide))).other
      (@PlannerStep.began _ _ 0 _ _ _ rfl rfl rfl rfl)).other
      (@PlannerStep.created _ _ 0 0 _ _ rfl rfl rfl rfl)).other
      (@PlannerStep.settled _ _ 0 _ rfl rfl (by decide) (by decide))
  have last := run.other (@PlannerStep.returned _ _ 0 _ rfl rfl rfl rfl)
  exact ⟨_, _, last, rfl, rfl,
    (plansKept_of_spares fun _ => rfl).1 _ last⟩

/-- The second attempt finds the prerequisite pack of the first one and
returns; the first one fails to put its manifest and cleans up. -/
theorem not_plansKept_found :
    ∃ after, PlannerReaches pushTarget (fun _ _ => True) emptyWorld after ∧
      ¬ PlansKept pushTarget after := by
  have start : PlannerReaches pushTarget (fun _ _ => True) emptyWorld
      emptyWorld := Relation.ReflTransGen.refl
  have first := (((start.take trivial
      (@PlannerStep.entered _ _ 0 _ rfl (.container [1] [2]))).take trivial
      (@PlannerStep.began _ _ 0 _ _ _ rfl rfl rfl rfl)).take trivial
      (@PlannerStep.created _ _ 0 0 _ _ rfl rfl rfl rfl)).take trivial
      (@PlannerStep.settled _ _ 0 _ rfl rfl (by decide) (by decide))
  have second := ((((((((first.take trivial
      (@PlannerStep.entered _ _ 1 _ rfl (.container [1] [2]))).take trivial
      (@PlannerStep.began _ _ 1 _ _ _ rfl rfl rfl rfl)).take trivial
      (@PlannerStep.met _ _ 1 0 _ _ rfl rfl rfl (by decide))).take trivial
      (@PlannerStep.adopted _ _ 1 0 _ _ _ rfl rfl rfl rfl
        (by decide))).take trivial
      (@PlannerStep.settled _ _ 1 _ rfl rfl (by decide) (by decide))).take
        trivial (@PlannerStep.began _ _ 1 _ _ _ rfl rfl rfl rfl)).take trivial
      (@PlannerStep.created _ _ 1 0 _ _ rfl rfl rfl rfl)).take trivial
      (@PlannerStep.settled _ _ 1 _ rfl rfl (by decide) (by decide))).take
        trivial (@PlannerStep.returned _ _ 1 _ rfl rfl rfl rfl)
  have last := (((second.take trivial
      (@PlannerStep.began _ _ 0 _ _ _ rfl rfl rfl rfl)).take trivial
      (@PlannerStep.rejected _ _ 0 0 _ _ rfl rfl rfl rfl)).take trivial
      (@PlannerStep.settled _ _ 0 _ rfl rfl (by decide) (by decide))).take
        trivial (@PlannerStep.removed _ _ 0 _ _ "push-00.prerequisite.pack"
          rfl rfl (by decide))
  refine ⟨_, last, ?_⟩
  intro kept
  rcases kept 1 _ rfl rfl ⟨"push-00.prerequisite.pack", [1]⟩ (by decide) with
    ⟨object, held, _⟩
  cases held

end GitOnCloudflare.Planner
