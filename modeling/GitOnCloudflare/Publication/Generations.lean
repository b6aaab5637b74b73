import GitOnCloudflare.Foundations.EventRun
import GitOnCloudflare.Receive.StockBundle

/-!
# Publication of repository generations

A generation is a number and the packs of a repository.  Its manifest is put
once under a key of its own, and an index names the manifest of the newest
generation.  Workers publish at the same time, and each replaces the index only
when it still is what the worker read.
-/

namespace GitOnCloudflare.Publication

open Foundations
open Receive.StockBundle

/-! ## The objects in the bucket -/

structure GenerationIndex where
  generation : Nat
  manifestKey : String
  updatedAt : Nat
deriving DecidableEq

structure GenerationManifest where
  generation : Nat
  packs : List String

/-- The text of a manifest. -/
def GenerationManifest.encodeJson (manifest : GenerationManifest) : String :=
  String.ofList
    (jsonObject
      [ jsonMember "schemaVersion" (jsonNumber 1),
        jsonMember "generation" (jsonNumber manifest.generation),
        jsonMember "packs"
          (jsonArray (manifest.packs.map fun packKey =>
            jsonObject [jsonMember "packKey" (quote packKey)])) ])

def repositoryGenerationManifestKey (root : String) (generation : Nat) :
    String :=
  root ++ "/generations/" ++ toString generation ++ ".json"

/-- The objects that publication reads and puts.  A conditional put compares
the index with the one that was read. -/
structure GenerationBucket where
  manifests : String → Option GenerationManifest
  index : Option GenerationIndex

/-! ## One call -/

def generationPublishAttempts : Nat := 4

inductive PublishOutcome where
  | published
  | superseded
deriving DecidableEq

inductive PublishFailure where
  | manifestBytes
  | manifestContent
  | indexNotConverged
deriving DecidableEq

/-- The request that a call sends next, or how it ended. -/
inductive PublishPhase where
  | putManifest
  | getManifest
  | getIndex (attempt : Nat)
  | casIndex (attempt : Nat) (current : Option GenerationIndex)
  | returned (outcome : PublishOutcome)
  | threw (failure : PublishFailure)
deriving DecidableEq

structure PublishCall where
  generation : Nat
  activePackKeys : List String
  phase : PublishPhase

namespace PublishCall

def manifest (call : PublishCall) : GenerationManifest :=
  ⟨call.generation, call.activePackKeys⟩

def at_ (call : PublishCall) (phase : PublishPhase) : PublishCall :=
  { call with phase := phase }

/-- The answer to a read of the manifest that is there already. -/
def compareManifest (call : PublishCall) (existing : Option GenerationManifest) :
    PublishPhase :=
  match existing with
  | none => .threw .manifestBytes
  | some existing =>
    if existing.encodeJson.utf8ByteSize ≠
        call.manifest.encodeJson.utf8ByteSize then
      .threw .manifestBytes
    else if existing.encodeJson ≠ call.manifest.encodeJson then
      .threw .manifestContent
    else
      .getIndex 1

/-- The answer to a read of the index. -/
def compareIndex (call : PublishCall) (root : String) (attempt : Nat)
    (current : Option GenerationIndex) : PublishPhase :=
  match current with
  | none => .casIndex attempt none
  | some index =>
    if call.generation < index.generation then
      .returned .superseded
    else if index.generation = call.generation ∧
        index.manifestKey =
          repositoryGenerationManifestKey root call.generation then
      .returned .published
    else
      .casIndex attempt (some index)

/-- One request of `publishRepositoryGeneration` and what follows from its
answer; `none` once the call has ended. -/
def advance (root : String) (now : Nat) (call : PublishCall)
    (bucket : GenerationBucket) : Option (PublishCall × GenerationBucket) :=
  let manifestKey := repositoryGenerationManifestKey root call.generation
  match call.phase with
  | .putManifest =>
    if bucket.manifests manifestKey = none then
      some
        (call.at_ (.getIndex 1),
          { bucket with
            manifests :=
              Function.update bucket.manifests manifestKey
                (some call.manifest) })
    else
      some (call.at_ .getManifest, bucket)
  | .getManifest =>
    some
      (call.at_ (call.compareManifest (bucket.manifests manifestKey)), bucket)
  | .getIndex attempt =>
    some (call.at_ (call.compareIndex root attempt bucket.index), bucket)
  | .casIndex attempt current =>
    if bucket.index = current then
      some
        (call.at_ (.returned .published),
          { bucket with
            index := some ⟨call.generation, manifestKey, now⟩ })
    else if attempt < generationPublishAttempts then
      some (call.at_ (.getIndex (attempt + 1)), bucket)
    else
      some (call.at_ (.threw .indexNotConverged), bucket)
  | .returned _ => none
  | .threw _ => none

/-- A call that is about to send its first request. -/
def start (generation : Nat) (activePackKeys : List String) : PublishCall :=
  ⟨generation, activePackKeys, .putManifest⟩

end PublishCall

/-! ## Calls in any number -/

structure Publications where
  bucket : GenerationBucket
  calls : List PublishCall

/-- A call starts, or one of the calls goes on.  A call that is interrupted
does not go on. -/
inductive PublicationEvent where
  | start (generation : Nat) (activePackKeys : List String)
  | advance (slot now : Nat)

def Publications.step (root : String) (system : Publications) :
    PublicationEvent → Option Publications
  | .start generation activePackKeys =>
    some
      { system with
        calls := system.calls ++ [.start generation activePackKeys] }
  | .advance slot now =>
    (system.calls[slot]?).bind fun call =>
      (call.advance root now system.bucket).map fun next =>
        { bucket := next.2, calls := system.calls.set slot next.1 }

def Publications.empty : Publications := ⟨⟨fun _ => none, none⟩, []⟩

/-! ## What a call has found in the bucket -/

variable {root : String} {bucket before after : GenerationBucket}
  {call : PublishCall}

theorem repositoryGenerationManifestKey_inj {first second : Nat}
    (same : repositoryGenerationManifestKey root first =
      repositoryGenerationManifestKey root second) : first = second := by
  unfold repositoryGenerationManifestKey at same
  have numbered := (String.append_left_inj _).mp same
  exact StringBytes.toString_nat_inj ((String.append_right_inj _).mp numbered)

/-- Every manifest is under the key of its generation. -/
def GenerationBucket.Keyed (root : String) (bucket : GenerationBucket) : Prop :=
  ∀ generation manifest,
    bucket.manifests (repositoryGenerationManifestKey root generation) =
        some manifest →
      manifest.generation = generation

/-- The index names a manifest of its generation. -/
def GenerationBucket.Named (root : String) (bucket : GenerationBucket) : Prop :=
  ∀ index, bucket.index = some index →
    index.manifestKey = repositoryGenerationManifestKey root index.generation ∧
      ∃ manifest, bucket.manifests index.manifestKey = some manifest ∧
        manifest.generation = index.generation

/-- A generation at or above this one is in the index. -/
def GenerationBucket.Reached (bucket : GenerationBucket) (generation : Nat) :
    Prop :=
  ∃ index, bucket.index = some index ∧ generation ≤ index.generation

/-- What a later bucket keeps. -/
structure GenerationBucket.Grows (before after : GenerationBucket) : Prop where
  manifests : ∀ key manifest, before.manifests key = some manifest →
    after.manifests key = some manifest
  reached : ∀ generation, before.Reached generation → after.Reached generation

namespace GenerationBucket

theorem Grows.refl (bucket : GenerationBucket) : bucket.Grows bucket :=
  ⟨fun _ _ stored => stored, fun _ reached => reached⟩

theorem Grows.trans {first second third : GenerationBucket}
    (one : first.Grows second) (two : second.Grows third) : first.Grows third :=
  ⟨fun key manifest stored => two.manifests key manifest
      (one.manifests key manifest stored),
    fun generation reached => two.reached generation
      (one.reached generation reached)⟩

/-- The manifest of a call is put. -/
theorem Grows.of_put {bucket : GenerationBucket} {key : String}
    {manifest : GenerationManifest} (free : bucket.manifests key = none) :
    bucket.Grows
      { bucket with
        manifests := Function.update bucket.manifests key (some manifest) } := by
  constructor
  · intro other stored found
    have differs : other ≠ key := by
      intro same
      rw [same, free] at found
      cases found
    exact (Function.update_of_ne differs _ _).trans found
  · intro generation reached
    exact reached

/-- The index is replaced by one that is not older. -/
theorem Grows.of_index {index : GenerationIndex}
    (newer : ∀ current, bucket.index = some current →
      current.generation ≤ index.generation) :
    bucket.Grows { bucket with index := some index } := by
  constructor
  · intro key manifest stored
    exact stored
  · intro generation reached
    rcases reached with ⟨current, found, covered⟩
    exact ⟨index, rfl, covered.trans (newer current found)⟩

end GenerationBucket

/-- What a call knows by where it is. -/
def PublishCall.Knows (root : String) (bucket : GenerationBucket)
    (call : PublishCall) : Prop :=
  match call.phase with
  | .putManifest => True
  | .getManifest =>
    (bucket.manifests
      (repositoryGenerationManifestKey root call.generation)).isSome
  | .getIndex _ =>
    (bucket.manifests
      (repositoryGenerationManifestKey root call.generation)).isSome
  | .casIndex _ current =>
    (bucket.manifests
        (repositoryGenerationManifestKey root call.generation)).isSome ∧
      ∀ index, current = some index → index.generation ≤ call.generation
  | .returned _ => bucket.Reached call.generation
  | .threw _ => True

theorem PublishCall.Knows.grows (knows : call.Knows root before)
    (grows : before.Grows after) : call.Knows root after := by
  have kept :
      (before.manifests
          (repositoryGenerationManifestKey root call.generation)).isSome →
        (after.manifests
          (repositoryGenerationManifestKey root call.generation)).isSome := by
    intro stored
    rcases Option.isSome_iff_exists.mp stored with ⟨manifest, found⟩
    rw [grows.manifests _ _ found]
    rfl
  unfold PublishCall.Knows at knows ⊢
  cases phase : call.phase with
  | putManifest => trivial
  | getManifest =>
    rw [phase] at knows
    exact kept knows
  | getIndex attempt =>
    rw [phase] at knows
    exact kept knows
  | casIndex attempt current =>
    rw [phase] at knows
    exact ⟨kept knows.1, knows.2⟩
  | returned outcome =>
    rw [phase] at knows
    exact grows.reached _ knows
  | threw failure => trivial

/-- What one request leaves behind. -/
structure PublishCall.Advanced (root : String) (call next : PublishCall)
    (before after : GenerationBucket) : Prop where
  generation : next.generation = call.generation
  activePackKeys : next.activePackKeys = call.activePackKeys
  keyed : after.Keyed root
  named : after.Named root
  grows : before.Grows after
  knows : next.Knows root after

theorem PublishCall.compareIndex_knows {attempt : Nat}
    (stored : (bucket.manifests
      (repositoryGenerationManifestKey root call.generation)).isSome) :
    (call.at_ (call.compareIndex root attempt bucket.index)).Knows root
      bucket := by
  unfold PublishCall.compareIndex
  cases found : bucket.index with
  | none => exact ⟨stored, fun index none => by cases none⟩
  | some index =>
    dsimp only
    split_ifs with older same
    · exact ⟨index, found, older.le⟩
    · exact ⟨index, found, same.1.ge⟩
    · refine ⟨stored, ?_⟩
      intro current here
      cases here
      exact Nat.le_of_not_lt older

theorem PublishCall.compareManifest_cases (call : PublishCall)
    (existing : Option GenerationManifest) :
    (∃ failure, call.compareManifest existing = .threw failure) ∨
      existing.isSome ∧ call.compareManifest existing = .getIndex 1 := by
  unfold PublishCall.compareManifest
  cases existing with
  | none => exact .inl ⟨_, rfl⟩
  | some existing =>
    dsimp only
    by_cases size : existing.encodeJson.utf8ByteSize ≠
        call.manifest.encodeJson.utf8ByteSize
    · exact .inl ⟨_, if_pos size⟩
    by_cases content : existing.encodeJson ≠ call.manifest.encodeJson
    · exact .inl ⟨_, (if_neg size).trans (if_pos content)⟩
    · exact .inr ⟨rfl, (if_neg size).trans (if_neg content)⟩

theorem PublishCall.compareManifest_knows :
    (call.at_ (call.compareManifest (bucket.manifests
      (repositoryGenerationManifestKey root call.generation)))).Knows root
        bucket := by
  rcases call.compareManifest_cases (bucket.manifests
      (repositoryGenerationManifestKey root call.generation)) with
    ⟨failure, threw⟩ | ⟨stored, same⟩
  · rw [threw]
    exact True.intro
  · rw [same]
    exact stored

theorem GenerationBucket.Named.grows (named : before.Named root)
    (grows : before.Grows after) (same : after.index = before.index) :
    after.Named root := by
  intro index found
  rw [same] at found
  rcases named index found with ⟨key, manifest, stored, generation⟩
  exact ⟨key, manifest, grows.manifests _ _ stored, generation⟩

theorem PublishCall.advance_advanced {now : Nat} {next : PublishCall}
    (keyed : before.Keyed root) (named : before.Named root)
    (knows : call.Knows root before)
    (advanced : call.advance root now before = some (next, after)) :
    call.Advanced root next before after := by
  unfold PublishCall.advance at advanced
  unfold PublishCall.Knows at knows
  cases phase : call.phase with
  | putManifest =>
    rw [phase] at advanced
    dsimp only at advanced
    split at advanced
    · next free =>
      cases advanced
      have grows := @GenerationBucket.Grows.of_put before _ call.manifest free
      refine ⟨rfl, rfl, ?_, named.grows grows rfl, grows, ?_⟩
      · intro generation manifest stored
        by_cases same : generation = call.generation
        · subst same
          dsimp only at stored
          rw [Function.update_self] at stored
          cases stored
          rfl
        · dsimp only at stored
          rw [Function.update_of_ne fun key =>
            same (repositoryGenerationManifestKey_inj key)] at stored
          exact keyed generation manifest stored
      · exact Option.isSome_iff_exists.mpr ⟨_, Function.update_self ..⟩
    · next held =>
      cases advanced
      refine ⟨rfl, rfl, keyed, named, .refl _, ?_⟩
      exact Option.isSome_iff_ne_none.mpr held
  | getManifest =>
    rw [phase] at advanced
    dsimp only at advanced
    rcases Prod.mk.inj (Option.some.inj advanced) with ⟨rfl, rfl⟩
    exact ⟨rfl, rfl, keyed, named, .refl _, compareManifest_knows⟩
  | getIndex attempt =>
    rw [phase] at advanced knows
    dsimp only at advanced
    rcases Prod.mk.inj (Option.some.inj advanced) with ⟨rfl, rfl⟩
    exact ⟨rfl, rfl, keyed, named, .refl _, compareIndex_knows knows⟩
  | casIndex attempt current =>
    rw [phase] at advanced knows
    dsimp only at advanced
    split at advanced
    · next unchanged =>
      cases advanced
      rcases Option.isSome_iff_exists.mp knows.1 with ⟨manifest, stored⟩
      refine ⟨rfl, rfl, keyed, ?_, .of_index ?_, _, rfl, Nat.le_refl _⟩
      · intro index found
        cases found
        exact ⟨rfl, manifest, stored, keyed _ _ stored⟩
      · intro index found
        exact knows.2 index (unchanged.symm.trans found)
    · split at advanced
      · cases advanced
        exact ⟨rfl, rfl, keyed, named, .refl _, knows.1⟩
      · cases advanced
        exact ⟨rfl, rfl, keyed, named, .refl _, trivial⟩
  | returned outcome =>
    rw [phase] at advanced
    cases advanced
  | threw failure =>
    rw [phase] at advanced
    cases advanced

/-! ## Runs -/

structure Publications.Holds (root : String) (system : Publications) : Prop where
  keyed : system.bucket.Keyed root
  named : system.bucket.Named root
  knows : ∀ call ∈ system.calls, call.Knows root system.bucket

theorem Publications.holds_empty (root : String) :
    Publications.empty.Holds root where
  keyed := fun _ _ stored => by cases stored
  named := fun _ found => by cases found
  knows := fun _ member => absurd member List.not_mem_nil

theorem Publications.Holds.step {root : String} {system next : Publications}
    {event : PublicationEvent} (holds : system.Holds root)
    (stepped : system.step root event = some next) :
    next.Holds root ∧ system.bucket.Grows next.bucket := by
  cases event with
  | start generation activePackKeys =>
    cases stepped
    refine ⟨⟨holds.keyed, holds.named, ?_⟩, .refl _⟩
    intro call member
    rcases List.mem_append.mp member with earlier | fresh
    · exact holds.knows call earlier
    · cases List.mem_singleton.mp fresh
      trivial
  | advance slot now =>
    rcases Option.bind_eq_some_iff.mp stepped with ⟨call, placed, moved⟩
    rcases Option.map_eq_some_iff.mp moved with ⟨⟨later, bucket⟩, advanced, rfl⟩
    have result := PublishCall.advance_advanced holds.keyed holds.named
      (holds.knows call (List.mem_of_getElem? placed)) advanced
    refine ⟨⟨result.keyed, result.named, ?_⟩, result.grows⟩
    intro other member
    rcases List.mem_or_eq_of_mem_set member with earlier | rfl
    · exact (holds.knows other earlier).grows result.grows
    · exact result.knows

theorem Publications.Holds.run {system last : Publications}
    {events : List PublicationEvent} (holds : system.Holds root)
    (ran : EventRun.run (Publications.step root) system events = some last) :
    last.Holds root ∧ system.bucket.Grows last.bucket := by
  refine @EventRun.run_preserves _ _ _
    (fun reached =>
      Publications.Holds root reached ∧ system.bucket.Grows reached.bucket)
    ?_ _ _ _ ran ⟨holds, .refl _⟩
  intro middle event next stepped sofar
  rcases sofar.1.step stepped with ⟨held, grows⟩
  exact ⟨held, sofar.2.trans grows⟩

/-- What publication promises between two moments of a run. -/
structure PublicationKept (root : String) (before after : Publications) : Prop where
  index : ∀ index, before.bucket.index = some index →
    ∃ later, after.bucket.index = some later ∧
      index.generation ≤ later.generation
  named : after.bucket.Named root
  manifests : ∀ key manifest, before.bucket.manifests key = some manifest →
    after.bucket.manifests key = some manifest
  returned : ∀ call ∈ before.calls, ∀ outcome,
    call.phase = .returned outcome →
      ∃ index, after.bucket.index = some index ∧
        call.generation ≤ index.generation

theorem publications_monotone {before after : Publications}
    {events later : List PublicationEvent}
    (reached : EventRun.run (Publications.step root) .empty events = some before)
    (ran : EventRun.run (Publications.step root) before later = some after) :
    PublicationKept root before after := by
  have held := ((Publications.holds_empty root).run reached).1
  rcases held.run ran with ⟨last, grows⟩
  refine ⟨?_, last.named, grows.manifests, ?_⟩
  · intro index found
    exact grows.reached _ ⟨index, found, Nat.le_refl _⟩
  · intro call member outcome ended
    have knows := held.knows call member
    unfold PublishCall.Knows at knows
    rw [ended] at knows
    exact grows.reached _ knows

end GitOnCloudflare.Publication
