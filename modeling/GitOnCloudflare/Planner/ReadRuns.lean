import GitOnCloudflare.Planner.ReadsReconciled

/-!
# Notes of a planner's run

In every run a request has one note at most, made when it was sent and finished
when its body had the expected length, and every visited node is in the pack
that is first of its checksum.  When the plan is complete the notes are the
finished ones of exactly the wanted requests.
-/

namespace GitOnCloudflare.Planner.ActiveReads

open Foundations

/-! ## Packs -/

variable {pack : BoundActivePack} {candidate : PackedObjectCandidate}
  {job : ReadJob}
  {other : BoundActivePack} {packs : List BoundActivePack} {oid : String}
  {node : PackedObjectCandidate} {read : RuntimeActivePackRead}

theorem ActivePacks.eq_of_key (active : ActivePacks)
    (first : pack ∈ active.packs) (second : other ∈ active.packs)
    (same : pack.packKey = other.packKey) : pack = other :=
  List.inj_on_of_nodup_map active.keys first second same

theorem ActivePacks.checksumByKey_eq (active : ActivePacks)
    (member : pack ∈ active.packs) :
    checksumByKey active.packs pack.packKey = some pack.packChecksum := by
  unfold checksumByKey findKey
  cases found : active.packs.find? fun other =>
      decide (other.packKey = pack.packKey) with
  | none =>
    have missed := List.find?_eq_none.mp found pack member
    exact absurd (decide_eq_true rfl) missed
  | some other =>
    have kept := List.find?_some found
    have same : other.packKey = pack.packKey := decide_eq_true_iff.mp kept
    rw [active.eq_of_key (List.mem_of_find?_eq_some found) member same]
    rfl

/-- The pack with the first key among the packs of its checksum. -/
structure Leads (packs : List BoundActivePack) (pack : BoundActivePack) :
    Prop where
  active : pack ∈ packs
  first : ∀ other ∈ packs, other.packChecksum = pack.packChecksum →
    pack.packKey ≤ other.packKey

theorem ActivePacks.eq_of_leads (active : ActivePacks)
    (leads : Leads active.packs pack) (leads' : Leads active.packs other)
    (same : pack.packChecksum = other.packChecksum) : pack = other := by
  apply active.eq_of_key leads.active leads'.active
  exact le_antisymm (leads.first other leads'.active same.symm)
    (leads'.first pack leads.active same)

/-- A node whose entry is one of a leading pack. -/
structure Placed (packs : List BoundActivePack)
    (node : PackedObjectCandidate) : Prop where
  leads : Leads packs node.pack
  listed : node.entry ∈ node.pack.entries

theorem mem_collectPackedObjectCandidates :
    candidate ∈ collectPackedObjectCandidates packs oid ↔
      candidate.pack ∈ packs ∧ candidate.entry ∈ candidate.pack.entries ∧
        candidate.entry.oid = oid := by
  unfold collectPackedObjectCandidates
  rw [List.mem_flatMap]
  constructor
  · rintro ⟨pack, inside, made⟩
    rcases List.mem_map.mp made with ⟨entry, listed, rfl⟩
    rcases List.mem_filter.mp listed with ⟨member, same⟩
    exact ⟨inside, member, of_decide_eq_true same⟩
  · rintro ⟨inside, member, same⟩
    refine ⟨candidate.pack, inside, List.mem_map.mpr ⟨candidate.entry, ?_, rfl⟩⟩
    exact List.mem_filter.mpr ⟨member, decide_eq_true same⟩

/-- A candidate that is selected is in a leading pack. -/
theorem ActivePacks.placed_selected (active : ActivePacks)
    (selected : selectCandidate active.packs oid = some candidate) :
    Placed active.packs candidate := by
  unfold selectCandidate at selected
  have sorted := List.pairwise_insertionSort
    (fun left right : PackedObjectCandidate =>
      candidateOrder left ≤ candidateOrder right)
    (collectPackedObjectCandidates active.packs oid)
  have perm := List.perm_insertionSort
    (fun left right : PackedObjectCandidate =>
      candidateOrder left ≤ candidateOrder right)
    (collectPackedObjectCandidates active.packs oid)
  have member := perm.mem_iff.mp (List.mem_of_head? selected)
  rcases mem_collectPackedObjectCandidates.mp member with ⟨inside, listed, named⟩
  refine ⟨⟨inside, ?_⟩, listed⟩
  intro other inside' same
  -- A pack of the same content has a copy of the object too.
  have copied : (⟨other, candidate.entry⟩ : PackedObjectCandidate) ∈
      collectPackedObjectCandidates active.packs oid := by
    apply mem_collectPackedObjectCandidates.mpr
    refine ⟨inside', ?_, named⟩
    rw [(active.content other inside' candidate.pack inside same).2]
    exact listed
  have ranked := perm.mem_iff.mpr copied
  cases list : (collectPackedObjectCandidates active.packs oid).insertionSort
      fun left right => candidateOrder left ≤ candidateOrder right with
  | nil =>
    rw [list] at selected
    cases selected
  | cons first rest =>
    rw [list] at selected sorted ranked
    cases selected
    rcases List.mem_cons.mp ranked with equal | later
    · exact le_of_eq (congrArg (fun node => node.pack.packKey) equal).symm
    · have before := (List.pairwise_cons.mp sorted).1 _ later
      have packs : packOrder candidate.pack ≤ packOrder other := by
        rcases Prod.Lex.toLex_le_toLex.mp before with less | ⟨equal, _⟩
        · exact le_of_lt less
        · exact le_of_eq equal
      rcases Prod.Lex.toLex_le_toLex.mp packs with less | ⟨_, keys⟩
      · exact absurd same.symm (ne_of_lt less)
      · exact keys

theorem placed_offset {offset : Nat} (placed : Placed packs node)
    (made : makeOffsetCandidate node.pack offset = some candidate) :
    Placed packs candidate := by
  unfold makeOffsetCandidate at made
  rcases Option.map_eq_some_iff.mp made with ⟨entry, listed, rfl⟩
  exact ⟨placed.leads, List.mem_of_find?_eq_some listed⟩

theorem ActivePacks.placed_base (active : ActivePacks)
    (placed : Placed active.packs node)
    (based : baseCandidate active.packs node = some candidate) :
    Placed active.packs candidate := by
  unfold baseCandidate at based
  cases base : node.entry.base with
  | full =>
    rw [base] at based
    cases based
  | ofsDelta baseOffset =>
    rw [base] at based
    exact placed_offset placed based
  | refDelta baseOid =>
    rw [base] at based
    exact active.placed_selected based

/-! ## Notes -/

/-- The bytes of the answer to a request. -/
def ReadJob.length : ReadJob → Nat
  | .trailer _ => 20
  | .entry candidate => candidate.entry.nextOffset - candidate.entry.offset
  | .whole pack => pack.packBytes

/-- The note of a request that was answered in full. -/
def finished (job : ReadJob) : RuntimeActivePackRead :=
  { observeGet job.pack job.range with
    consumed := true
    returnedBytes := job.length }

/-- A request of an active pack, for an entry that the pack has. -/
def Proper (packs : List BoundActivePack) (job : ReadJob) : Prop :=
  job.pack ∈ packs ∧
    ∀ candidate, job = .entry candidate →
      candidate.entry ∈ candidate.pack.entries

def ReadJob.kind : ReadJob → RuntimeActivePackReadKind
  | .trailer _ => .trailer
  | .entry _ => .bodyRange
  | .whole _ => .whole

/-- Where the requested range starts and stops. -/
def ReadJob.ends : ReadJob → Option (Nat × Nat)
  | .trailer pack => some (pack.packBytes - 20, pack.packBytes)
  | .entry candidate => some (candidate.entry.offset, candidate.entry.nextOffset)
  | .whole _ => none

section Proper

variable {active : ActivePacks} {job : ReadJob}

/-- A request is noted under its own kind. -/
theorem Proper.observed (proper : Proper active.packs job) :
    observeGet job.pack job.range =
      { packKey := job.pack.packKey
        start := job.ends.map Prod.fst
        stop := job.ends.map Prod.snd
        kind := job.kind } := by
  rcases proper with ⟨member, listed⟩
  cases job with
  | trailer pack =>
    have sized := active.sized pack member
    have ends : pack.packBytes - 20 + 20 = pack.packBytes := by omega
    unfold ReadJob.range observeGet ReadJob.pack
    dsimp only
    rw [if_neg (by decide), ends, if_pos ⟨rfl, rfl⟩]
    rfl
  | entry candidate =>
    rcases active.inside _ member _ (listed candidate rfl) with ⟨ascending, inside⟩
    have ends : candidate.entry.offset +
        (candidate.entry.nextOffset - candidate.entry.offset) =
          candidate.entry.nextOffset := by omega
    unfold ReadJob.range observeGet ReadJob.pack
    unfold ReadJob.pack at inside
    dsimp only at inside ⊢
    rw [if_neg (by omega), ends, if_neg (by omega), if_pos inside]
    rfl
  | whole pack => rfl

theorem Proper.expectedLength_eq (proper : Proper active.packs job) :
    expectedLength job.pack (observeGet job.pack job.range) = some job.length := by
  rw [proper.observed]
  cases job with
  | trailer pack =>
    have sized := active.sized pack proper.1
    unfold expectedLength ReadJob.kind ReadJob.ends ReadJob.length
    dsimp only [Option.map_some]
    congr 1
    omega
  | entry candidate => rfl
  | whole pack => rfl

/-- A body that is kept finishes the note. -/
theorem Proper.recordBody_some (proper : Proper active.packs job)
    {returnedBytes : Nat}
    (recorded : recordBody job.pack (observeGet job.pack job.range)
      returnedBytes = some read) :
    returnedBytes = job.length ∧ read = finished job := by
  unfold recordBody at recorded
  rw [proper.expectedLength_eq] at recorded
  split at recorded
  · cases recorded
  · next full =>
    cases recorded
    rw [Option.any_some, decide_eq_true_iff, not_not] at full
    unfold finished
    rw [full]
    exact ⟨rfl, rfl⟩

end Proper

theorem observeGet_consumed (pack : BoundActivePack)
    (range : Option (Nat × Nat)) : (observeGet pack range).consumed = false := by
  unfold observeGet
  split
  · rfl
  · split
    · rfl
    · rfl

/-! ## Runs -/

/-- What holds of a run at any time. -/
structure Sound (packs : List BoundActivePack) (wholeKeys : List String)
    (run : PlannerRun) : Prop where
  placed : ∀ node ∈ run.nodes, Placed packs node
  distinct : (run.nodes.map internalPhysicalNodeId).Nodup
  once : (run.reads.map Prod.fst).Nodup
  wanted : ∀ entry ∈ run.reads, Wanted packs wholeKeys run entry.1
  noted : ∀ entry ∈ run.reads,
    entry.2 = observeGet entry.1.pack entry.1.range ∨ entry.2 = finished entry.1

section Steps

variable {packs : List BoundActivePack} {wholeKeys : List String}
  {run next : PlannerRun}

theorem sound_start : Sound packs wholeKeys {} := by
  constructor
  · intro _ member
    cases member
  · exact List.nodup_nil
  · exact List.nodup_nil
  · intro _ member
    cases member
  · intro _ member
    cases member

theorem visit_cases (visited : visit run candidate = some next) :
    next = run ∨
      next = { run with nodes := run.nodes ++ [candidate] } ∧
        internalPhysicalNodeId candidate ∉ run.nodes.map internalPhysicalNodeId := by
  unfold visit at visited
  split at visited
  next missing =>
    cases visited
    refine Or.inr ⟨rfl, ?_⟩
    intro again
    rcases List.mem_map.mp again with ⟨node, member, same⟩
    exact List.find?_eq_none.mp missing node member (decide_eq_true same)
  next existing _ =>
    split at visited
    · cases visited
      exact Or.inl rfl
    · cases visited

theorem wanted_visited (wanted : Wanted packs wholeKeys run job) :
    Wanted packs wholeKeys { run with nodes := run.nodes ++ [candidate] } job := by
  rcases wanted with trailer | ⟨node, member, same⟩
  · exact Or.inl trailer
  · exact Or.inr ⟨node, List.mem_append_left _ member, same⟩

theorem Sound.visit (sound : Sound packs wholeKeys run)
    (placed : Placed packs candidate)
    (visited : visit run candidate = some next) :
    Sound packs wholeKeys next := by
  rcases visit_cases visited with rfl | ⟨rfl, fresh⟩
  · exact sound
  constructor
  · intro node member
    rcases List.mem_append.mp member with old | new
    · exact sound.placed node old
    · rw [List.mem_singleton.mp new]
      exact placed
  · rw [List.map_append]
    apply List.nodup_append.mpr
    refine ⟨sound.distinct, List.nodup_singleton _, ?_⟩
    rintro name old _ new rfl
    rw [List.map_singleton, List.mem_singleton] at new
    rw [new] at old
    exact fresh old
  · exact sound.once
  · intro entry member
    exact wanted_visited (sound.wanted entry member)
  · exact sound.noted

theorem noteOf_some (found : run.noteOf job = some read) :
    (job, read) ∈ run.reads := by
  unfold PlannerRun.noteOf at found
  rcases Option.map_eq_some_iff.mp found with ⟨entry, kept, rfl⟩
  have named := List.find?_some kept
  have same : entry.1 = job := decide_eq_true_iff.mp named
  rw [← same]
  exact List.mem_of_find?_eq_some kept

theorem noteOf_none (missing : run.noteOf job = none) :
    job ∉ run.reads.map Prod.fst := by
  unfold PlannerRun.noteOf at missing
  intro again
  rcases List.mem_map.mp again with ⟨entry, member, same⟩
  exact List.find?_eq_none.mp (Option.map_eq_none_iff.mp missing) entry member
    (decide_eq_true same)

theorem Sound.get (sound : Sound packs wholeKeys run)
    (wanted : Wanted packs wholeKeys run job) (missing : run.noteOf job = none) :
    Sound packs wholeKeys
      { run with reads := run.reads ++ [(job, observeGet job.pack job.range)] } := by
  constructor
  · exact sound.placed
  · exact sound.distinct
  · rw [List.map_append]
    apply List.nodup_append.mpr
    refine ⟨sound.once, List.nodup_singleton _, ?_⟩
    rintro name old _ new rfl
    rw [List.map_singleton, List.mem_singleton] at new
    rw [new] at old
    exact noteOf_none missing old
  · intro entry member
    rcases List.mem_append.mp member with old | new
    · exact sound.wanted entry old
    · rw [List.mem_singleton.mp new]
      exact wanted
  · intro entry member
    rcases List.mem_append.mp member with old | new
    · exact sound.noted entry old
    · rw [List.mem_singleton.mp new]
      exact Or.inl rfl

theorem Sound.without (sound : Sound packs wholeKeys run) (job : ReadJob) :
    Sound packs wholeKeys (run.without job) := by
  constructor
  · exact sound.placed
  · exact sound.distinct
  · exact sound.once.sublist (List.filter_sublist.map Prod.fst)
  · intro entry member
    exact sound.wanted entry (List.mem_of_mem_filter member)
  · intro entry member
    exact sound.noted entry (List.mem_of_mem_filter member)

theorem setNote_fst (job : ReadJob) (read : RuntimeActivePackRead) :
    (run.setNote job read).reads.map Prod.fst = run.reads.map Prod.fst := by
  unfold PlannerRun.setNote
  rw [List.map_map]
  apply List.map_congr_left
  intro entry _
  rw [Function.comp_apply]
  split
  next same => exact same.symm
  next => rfl

theorem Sound.setNote (sound : Sound packs wholeKeys run) (job : ReadJob) :
    Sound packs wholeKeys (run.setNote job (finished job)) := by
  constructor
  · exact sound.placed
  · exact sound.distinct
  · rw [setNote_fst]
    exact sound.once
  · intro entry member
    have named := List.mem_map_of_mem (f := Prod.fst) member
    rw [setNote_fst] at named
    rcases List.mem_map.mp named with ⟨old, inside, same⟩
    rw [← same]
    exact sound.wanted old inside
  · intro entry member
    rcases List.mem_map.mp member with ⟨old, inside, rfl⟩
    split
    next => exact Or.inr rfl
    next => exact sound.noted old inside

end Steps

section Active

variable {active : ActivePacks} {wholeKeys : List String} {run next : PlannerRun}

/-- A wanted request is one of an active pack. -/
theorem Sound.proper (sound : Sound active.packs wholeKeys run)
    (wanted : Wanted active.packs wholeKeys run job) :
    Proper active.packs job := by
  rcases wanted with ⟨pack, member, rfl⟩ | ⟨node, member, rfl⟩
  · refine ⟨member, ?_⟩
    intro candidate same
    cases same
  · have placed := sound.placed node member
    unfold nodeJob
    split
    · refine ⟨placed.leads.active, ?_⟩
      intro candidate same
      cases same
    · refine ⟨placed.leads.active, ?_⟩
      intro candidate same
      cases same
      exact placed.listed

theorem Sound.step {event : PlannerEvent}
    (sound : Sound active.packs wholeKeys run)
    (stepped : step active.packs wholeKeys run event = some next) :
    Sound active.packs wholeKeys next := by
  cases event with
  | visitRoot oid =>
    rcases Option.bind_eq_some_iff.mp stepped with ⟨candidate, selected, visited⟩
    exact sound.visit (active.placed_selected selected) visited
  | visitBase node =>
    unfold ActiveReads.step at stepped
    dsimp only at stepped
    split at stepped
    next ready =>
      rcases Option.bind_eq_some_iff.mp stepped with ⟨candidate, based, visited⟩
      have placed := active.placed_base (sound.placed node ready.1) based
      exact sound.visit placed visited
    next => cases stepped
  | get job =>
    unfold ActiveReads.step at stepped
    dsimp only at stepped
    split at stepped
    next asked =>
      cases stepped
      exact sound.get asked.1 asked.2
    next => cases stepped
  | fails job =>
    unfold ActiveReads.step at stepped
    dsimp only at stepped
    split at stepped
    · cases stepped
    · split at stepped
      · cases stepped
        exact sound.without job
      · cases stepped
  | body job returnedBytes =>
    unfold ActiveReads.step at stepped
    dsimp only at stepped
    split at stepped
    · cases stepped
    next read found =>
      split at stepped
      · cases stepped
      next waiting =>
        have member := noteOf_some found
        have proper := sound.proper (sound.wanted _ member)
        split at stepped
        next kept recorded =>
          cases stepped
          rcases sound.noted _ member with asked | done
          · dsimp only at asked
            rw [asked] at recorded
            rw [(proper.recordBody_some recorded).2]
            exact sound.setNote job
          · dsimp only at done
            rw [done] at waiting
            exact absurd rfl waiting
        next =>
          split at stepped
          · cases stepped
            exact sound.without job
          · cases stepped

theorem sound_run {events : List PlannerEvent}
    (ran : EventRun.run (ActiveReads.step active.packs wholeKeys) {} events = some run) :
    Sound active.packs wholeKeys run :=
  EventRun.run_preserves (fun stepped sound => sound.step stepped) ran sound_start

/-- Every request that is wanted was answered in full. -/
def Completed (packs : List BoundActivePack) (wholeKeys : List String)
    (run : PlannerRun) : Prop :=
  ∀ job, Wanted packs wholeKeys run job →
    ∃ read, run.noteOf job = some read ∧ read.consumed = true

/-- The notes of a complete plan are the finished ones of the wanted requests. -/
theorem Sound.completed (sound : Sound active.packs wholeKeys run)
    (completed : Completed active.packs wholeKeys run) :
    run.reads.map Prod.snd = (run.reads.map Prod.fst).map finished ∧
      ∀ job, job ∈ run.reads.map Prod.fst ↔ Wanted active.packs wholeKeys run job := by
  constructor
  · rw [List.map_map]
    apply List.map_congr_left
    intro entry member
    rcases completed entry.1 (sound.wanted entry member) with ⟨read, found, consumed⟩
    have same := List.inj_on_of_nodup_map sound.once (noteOf_some found) member rfl
    have answered : entry.2.consumed = true := by
      rw [← same]
      exact consumed
    rcases sound.noted entry member with asked | done
    · rw [asked, observeGet_consumed] at answered
      cases answered
    · exact done
  · intro job
    constructor
    · intro member
      rcases List.mem_map.mp member with ⟨entry, inside, rfl⟩
      exact sound.wanted entry inside
    · intro wanted
      rcases completed job wanted with ⟨read, found, _⟩
      exact List.mem_map_of_mem (noteOf_some found)

end Active

end GitOnCloudflare.Planner.ActiveReads
