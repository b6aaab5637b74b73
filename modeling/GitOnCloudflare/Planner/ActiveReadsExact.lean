import GitOnCloudflare.Planner.ReadRuns
import GitOnCloudflare.Planner.ReadsAttributed

/-!
# Reconciliation of a complete plan

The notes of a complete plan are sorted by the requests they are of: a trailer
of each pack, one entry for each node, and whole packs that lead.  So they are
accepted, and the totals are the bytes of the bodies that were kept.
Conversely the notes that are accepted are those of the result, each once.
-/

namespace GitOnCloudflare.Planner.ActiveReads

open Foundations

/-! ## The notes by their requests -/

def ReadJob.trailerPack : ReadJob → Option BoundActivePack
  | .trailer pack => some pack
  | _ => none

def ReadJob.candidate : ReadJob → Option PackedObjectCandidate
  | .entry candidate => some candidate
  | _ => none

def ReadJob.wholePack : ReadJob → Option BoundActivePack
  | .whole pack => some pack
  | _ => none

def trailerRead (pack : BoundActivePack) : ObservedRead :=
  ⟨pack.packChecksum, pack.packBytes - 20, pack.packBytes, 20⟩

def entryRead (node : PackedObjectCandidate) : ObservedRead :=
  ⟨node.pack.packChecksum, node.entry.offset, node.entry.nextOffset,
    node.entry.nextOffset - node.entry.offset⟩

def wholeRead (pack : BoundActivePack) : ObservedRead :=
  ⟨pack.packChecksum, 0, pack.packBytes, pack.packBytes⟩

section Notes

variable {active : ActivePacks} {job : ReadJob}

theorem Proper.finished_eq (proper : Proper active.packs job) :
    finished job =
      { packKey := job.pack.packKey
        start := job.ends.map Prod.fst
        stop := job.ends.map Prod.snd
        returnedBytes := job.length
        consumed := true
        kind := job.kind } := by
  unfold finished
  rw [proper.observed]

theorem Proper.trailerNote (proper : Proper active.packs job) :
    rangeNote active.packs .trailer (finished job) =
      job.trailerPack.map trailerRead := by
  unfold rangeNote
  rw [proper.finished_eq]
  dsimp only
  rw [active.checksumByKey_eq proper.1]
  cases job <;> rfl

theorem Proper.bodyNote (proper : Proper active.packs job) :
    rangeNote active.packs .bodyRange (finished job) =
      job.candidate.map entryRead := by
  unfold rangeNote
  rw [proper.finished_eq]
  dsimp only
  rw [active.checksumByKey_eq proper.1]
  cases job <;> rfl

theorem Proper.wholeNote (proper : Proper active.packs job) :
    wholeNote active.packs (finished job) = job.wholePack.map wholeRead := by
  unfold ActiveReads.wholeNote
  rw [proper.finished_eq]
  dsimp only
  rw [active.checksumByKey_eq proper.1]
  cases job <;> rfl

theorem Proper.good (proper : Proper active.packs job) :
    Good active.packs (finished job) := by
  rw [proper.finished_eq]
  refine ⟨⟨_, active.checksumByKey_eq proper.1⟩, ?_⟩
  cases job with
  | trailer pack =>
    have sized := active.sized pack proper.1
    refine Or.inr ⟨Or.inl rfl, rfl, _, _, rfl, rfl, ?_⟩
    unfold ReadJob.length
    dsimp only
    omega
  | entry candidate =>
    have inside := active.inside _ proper.1 _ (proper.2 candidate rfl)
    refine Or.inr ⟨Or.inr rfl, rfl, _, _, rfl, rfl, ?_⟩
    unfold ReadJob.length
    unfold ReadJob.pack at inside
    dsimp only at inside ⊢
    omega
  | whole pack => exact Or.inl rfl

variable {jobs : List ReadJob}

theorem filterMap_finished {Shown Picked : Type}
    {note : RuntimeActivePackRead → Option Shown}
    {pick : ReadJob → Option Picked} {shows : Picked → Shown}
    (each : ∀ job ∈ jobs, note (finished job) = (pick job).map shows) :
    (jobs.map finished).filterMap note = (jobs.filterMap pick).map shows := by
  rw [List.filterMap_map, List.map_filterMap]
  apply List.filterMap_congr
  intro job member
  exact each job member

/-- The keys of the trailers that were noted. -/
theorem trailerKeys_finished (proper : ∀ job ∈ jobs, Proper active.packs job) :
    ((jobs.map finished).filter fun read => decide (read.kind = .trailer)).map
        RuntimeActivePackRead.packKey =
      (jobs.filterMap ReadJob.trailerPack).map BoundActivePack.packKey := by
  rw [List.filter_map, List.map_map, List.map_filterMap, ← List.filterMap_eq_map,
    List.filterMap_filter]
  apply List.filterMap_congr
  intro job member
  have noted := (proper job member).finished_eq
  simp only [Function.comp_apply, noted]
  cases job <;> rfl

end Notes

/-! ## The wanted requests -/

theorem insertionSort_sorts (nodes : List PackedObjectCandidate) :
    (sortPhysicalNodes nodes).Perm nodes := List.perm_insertionSort _ _

variable {ranges : List StockRequiredRange}

theorem plannedRanges_perm {packs : List BoundActivePack}
    {nodes : List PackedObjectCandidate}
    (distinct : (nodes.map internalPhysicalNodeId).Nodup)
    (planned : plannedRanges packs nodes = .ok ranges) :
    ranges.Perm (nodes.map plannedRange) := by
  unfold plannedRanges at planned
  split at planned
  · cases planned
  next all =>
    cases planned
    apply List.Perm.map
    exact DependencyOrder.serveAll_perm insertionSort_sorts distinct
      (not_not.mp all)

section Wanted

variable {active : ActivePacks} {wholeKeys : List String} {run : PlannerRun}
  {jobs : List ReadJob}

theorem trailers_wanted (once : jobs.Nodup)
    (wanted : ∀ job, job ∈ jobs ↔ Wanted active.packs wholeKeys run job) :
    (jobs.filterMap ReadJob.trailerPack).Perm active.packs := by
  apply (List.perm_ext_iff_of_nodup ?_ active.keys.of_map).mpr
  · intro pack
    rw [List.mem_filterMap]
    constructor
    · rintro ⟨job, member, picked⟩
      cases job with
      | trailer other =>
        cases picked
        rcases (wanted _).mp member with ⟨_, inside, same⟩ | ⟨node, _, same⟩
        · cases same
          exact inside
        · unfold nodeJob at same
          split at same <;> cases same
      | entry candidate => cases picked
      | whole other => cases picked
    · intro inside
      exact ⟨.trailer pack, (wanted _).mpr (Or.inl ⟨pack, inside, rfl⟩), rfl⟩
  · apply once.filterMap
    intro job other pack picked picked'
    cases job <;> cases picked
    cases other <;> cases picked'
    rfl

theorem entries_wanted (once : jobs.Nodup)
    (sound : Sound active.packs wholeKeys run)
    (wanted : ∀ job, job ∈ jobs ↔ Wanted active.packs wholeKeys run job) :
    (jobs.filterMap ReadJob.candidate).Perm
      (run.nodes.filter fun node => decide (node.pack.packKey ∉ wholeKeys)) := by
  apply (List.perm_ext_iff_of_nodup ?_ (sound.distinct.of_map.filter _)).mpr
  · intro node
    rw [List.mem_filterMap, List.mem_filter, decide_eq_true_iff]
    constructor
    · rintro ⟨job, member, picked⟩
      cases job with
      | trailer other => cases picked
      | entry candidate =>
        cases picked
        rcases (wanted _).mp member with ⟨_, _, same⟩ | ⟨other, inside, same⟩
        · cases same
        · unfold nodeJob at same
          split at same
          · cases same
          next partly =>
            cases same
            exact ⟨inside, partly⟩
      | whole other => cases picked
    · rintro ⟨inside, partly⟩
      refine ⟨.entry node, (wanted _).mpr (Or.inr ⟨node, inside, ?_⟩), rfl⟩
      unfold nodeJob
      rw [if_neg partly]
  · apply once.filterMap
    intro job other node picked picked'
    cases job <;> cases picked
    cases other <;> cases picked'
    rfl

variable {pack : BoundActivePack} {node : PackedObjectCandidate}

theorem mem_wholes
    (wanted : ∀ job, job ∈ jobs ↔ Wanted active.packs wholeKeys run job) :
    pack ∈ jobs.filterMap ReadJob.wholePack ↔
      pack.packKey ∈ wholeKeys ∧ ∃ node ∈ run.nodes, node.pack = pack := by
  rw [List.mem_filterMap]
  constructor
  · rintro ⟨job, member, picked⟩
    cases job with
    | trailer other => cases picked
    | entry candidate => cases picked
    | whole other =>
      cases picked
      rcases (wanted _).mp member with ⟨_, _, same⟩ | ⟨node, inside, same⟩
      · cases same
      · unfold nodeJob at same
        split at same
        next whole =>
          cases same
          exact ⟨whole, node, inside, rfl⟩
        · cases same
  · rintro ⟨whole, node, inside, rfl⟩
    refine ⟨.whole node.pack, (wanted _).mpr (Or.inr ⟨node, inside, ?_⟩), rfl⟩
    unfold nodeJob
    rw [if_pos whole]

theorem wholes_distinct (once : jobs.Nodup)
    (sound : Sound active.packs wholeKeys run)
    (wanted : ∀ job, job ∈ jobs ↔ Wanted active.packs wholeKeys run job) :
    ((jobs.filterMap ReadJob.wholePack).map
      BoundActivePack.packChecksum).Nodup := by
  apply List.Nodup.map_on
  · intro pack member other member' same
    rcases (mem_wholes wanted).mp member with ⟨_, node, inside, rfl⟩
    rcases (mem_wholes wanted).mp member' with ⟨_, node', inside', rfl⟩
    exact active.eq_of_leads (sound.placed node inside).leads
      (sound.placed node' inside').leads same
  · apply once.filterMap
    intro job other pack picked picked'
    cases job <;> cases picked
    cases other <;> cases picked'
    rfl

/-- A node's checksum is one of a whole pack exactly when its pack was read
whole. -/
theorem checksum_mem_wholes (sound : Sound active.packs wholeKeys run)
    (wanted : ∀ job, job ∈ jobs ↔ Wanted active.packs wholeKeys run job)
    (member : node ∈ run.nodes) :
    node.pack.packChecksum ∈ (jobs.filterMap ReadJob.wholePack).map
        BoundActivePack.packChecksum ↔ node.pack.packKey ∈ wholeKeys := by
  constructor
  · intro listed
    rcases List.mem_map.mp listed with ⟨pack, picked, same⟩
    rcases (mem_wholes wanted).mp picked with ⟨whole, other, inside, rfl⟩
    have leads := (sound.placed node member).leads
    have leads' := (sound.placed other inside).leads
    rw [active.eq_of_leads leads leads' same.symm]
    exact whole
  · intro whole
    apply List.mem_map_of_mem
    exact (mem_wholes wanted).mpr ⟨whole, node, member, rfl⟩

/-- The requests of a run whose notes are the finished ones of what is wanted. -/
structure Answered (active : ActivePacks) (wholeKeys : List String)
    (run : PlannerRun) (jobs : List ReadJob) : Prop where
  sound : Sound active.packs wholeKeys run
  once : jobs.Nodup
  wanted : ∀ job, job ∈ jobs ↔ Wanted active.packs wholeKeys run job
  proper : ∀ job ∈ jobs, Proper active.packs job

theorem Answered.trailerReads (answered : Answered active wholeKeys run jobs) :
    (notesOf active.packs (jobs.map finished)).trailerReads =
      (jobs.filterMap ReadJob.trailerPack).map trailerRead :=
  filterMap_finished fun job member => (answered.proper job member).trailerNote

theorem Answered.bodyReads (answered : Answered active wholeKeys run jobs) :
    (notesOf active.packs (jobs.map finished)).bodyReads =
      (jobs.filterMap ReadJob.candidate).map entryRead :=
  filterMap_finished fun job member => (answered.proper job member).bodyNote

theorem Answered.wholeReads (answered : Answered active wholeKeys run jobs) :
    (notesOf active.packs (jobs.map finished)).wholeReads =
      (jobs.filterMap ReadJob.wholePack).map wholeRead :=
  filterMap_finished fun job member => (answered.proper job member).wholeNote

theorem Answered.mem_wholeChecksums
    (answered : Answered active wholeKeys run jobs) (member : node ∈ run.nodes) :
    node.pack.packChecksum ∈ wholeChecksums active.packs (jobs.map finished) ↔
      node.pack.packKey ∈ wholeKeys := by
  rw [← checksum_mem_wholes answered.sound answered.wanted member]
  unfold wholeChecksums
  rw [((sortReads_perm _).map ObservedRead.packChecksum).mem_iff,
    answered.wholeReads, List.map_map]
  rfl

/-- The last pack of a checksum is as long as the one that was read. -/
theorem Answered.wholeRead (answered : Answered active wholeKeys run jobs)
    (member : pack ∈ jobs.filterMap ReadJob.wholePack) :
    WholeRead active.packs (wholeRead pack) := by
  rcases (mem_wholes answered.wanted).mp member with ⟨_, node, visited, rfl⟩
  have leads := (answered.sound.placed node visited).leads
  refine ⟨rfl, ?_⟩
  cases found : activeByChecksum active.packs node.pack.packChecksum with
  | none =>
    have missed := List.find?_eq_none.mp found node.pack
      (List.mem_reverse.mpr leads.active)
    exact absurd (decide_eq_true rfl) missed
  | some pack =>
    have kept := List.find?_some found
    have same : pack.packChecksum = node.pack.packChecksum :=
      decide_eq_true_iff.mp kept
    have inside := List.mem_reverse.mp (List.mem_of_find?_eq_some found)
    have bytes := (active.content pack inside _ leads.active same).1
    exact ⟨pack, found, bytes.symm, bytes.symm⟩

/-- The entries that were read are the planned ranges of the other packs. -/
theorem Answered.bodies (answered : Answered active wholeKeys run jobs)
    (planned : plannedRanges active.packs run.nodes = .ok ranges) :
    ((notesOf active.packs (jobs.map finished)).bodyReads.map ObservedRead.key).Perm
      ((requiredRanges active.packs (jobs.map finished) ranges).map
        StockRequiredRange.key) := by
  have entries := entries_wanted answered.once answered.sound answered.wanted
  have perm := plannedRanges_perm answered.sound.distinct planned
  rw [answered.bodyReads, List.map_map]
  apply (entries.map (ObservedRead.key ∘ entryRead)).trans
  unfold requiredRanges
  have kept := (perm.filter fun range => decide (range.packChecksum ∉
    wholeChecksums active.packs (jobs.map finished))).map StockRequiredRange.key
  apply List.Perm.trans _ kept.symm
  rw [List.filter_map, List.map_map]
  apply List.Perm.of_eq
  change List.map (StockRequiredRange.key ∘ plannedRange) _ = _
  congr 1
  apply List.filter_congr
  intro node member
  rw [Function.comp_apply, decide_eq_decide]
  exact not_congr (answered.mem_wholeChecksums member).symm

theorem Answered.reconciled (answered : Answered active wholeKeys run jobs)
    (planned : plannedRanges active.packs run.nodes = .ok ranges) :
    Reconciled active.packs (jobs.map finished) ranges := by
  have trailers := trailers_wanted answered.once answered.wanted
  constructor
  · intro read member
    rcases List.mem_map.mp member with ⟨job, inside, rfl⟩
    exact (answered.proper job inside).good
  · rw [answered.wholeReads]
    intro read member
    rcases List.mem_map.mp member with ⟨pack, inside, rfl⟩
    exact answered.wholeRead inside
  · rw [answered.wholeReads, List.map_map]
    exact wholes_distinct answered.once answered.sound answered.wanted
  · rw [trailerKeys_finished answered.proper]
    exact trailers.map BoundActivePack.packKey
  · rw [answered.trailerReads, List.map_map]
    exact trailers.map BoundActivePack.packChecksum
  · rw [answered.trailerReads]
    intro read member
    rcases List.mem_map.mp member with ⟨pack, _, rfl⟩
    rfl
  · exact answered.bodies planned

theorem Sound.answered (sound : Sound active.packs wholeKeys run)
    (completed : Completed active.packs wholeKeys run) :
    Answered active wholeKeys run (run.reads.map Prod.fst) := by
  have wanted := (sound.completed completed).2
  refine ⟨sound, sound.once, wanted, ?_⟩
  intro job member
  exact sound.proper ((wanted job).mp member)

end Wanted

/-! ## The bytes that were consumed -/

/-- The bytes of a body that was kept. -/
def PlannerEvent.consumedBytes (kind : RuntimeActivePackReadKind) :
    PlannerEvent → Nat
  | .body job returnedBytes =>
    if job.kind = kind ∧ returnedBytes = job.length then returnedBytes else 0
  | _ => 0

def RuntimeActivePackRead.consumedBytes (kind : RuntimeActivePackReadKind)
    (read : RuntimeActivePackRead) : Nat :=
  if read.consumed = true ∧ read.kind = kind then read.returnedBytes else 0

def PlannerRun.consumedBytes (kind : RuntimeActivePackReadKind)
    (run : PlannerRun) : Nat :=
  (run.reads.map fun entry => entry.2.consumedBytes kind).sum

section Bytes

variable {active : ActivePacks} {wholeKeys : List String}
  {run next : PlannerRun} {kind : RuntimeActivePackReadKind}
  {read : RuntimeActivePackRead}

theorem consumedBytes_waiting (waiting : read.consumed = false) :
    read.consumedBytes kind = 0 := by
  unfold RuntimeActivePackRead.consumedBytes
  rw [if_neg]
  rintro ⟨consumed, _⟩
  cases waiting.symm.trans consumed

variable {job : ReadJob}

theorem without_consumedBytes
    (waiting : ∀ entry ∈ run.reads, entry.1 = job → entry.2.consumed = false) :
    (run.without job).consumedBytes kind = run.consumedBytes kind := by
  rcases run with ⟨nodes, reads⟩
  unfold PlannerRun.without PlannerRun.consumedBytes
  dsimp only at waiting ⊢
  induction reads with
  | nil => rfl
  | cons entry reads ih =>
    have rest := ih fun other member =>
      waiting other (List.mem_cons_of_mem _ member)
    rw [List.map_cons, List.sum_cons]
    by_cases same : entry.1 = job
    · have none := waiting entry List.mem_cons_self same
      rw [List.filter_cons_of_neg (by simpa using same), rest,
        consumedBytes_waiting none, Nat.zero_add]
    · rw [List.filter_cons_of_pos (by simpa using same), List.map_cons,
        List.sum_cons, rest]

theorem setNote_consumedBytes {new : RuntimeActivePackRead}
    (once : (run.reads.map Prod.fst).Nodup) (found : (job, read) ∈ run.reads)
    (waiting : read.consumed = false) :
    (run.setNote job new).consumedBytes kind =
      run.consumedBytes kind + new.consumedBytes kind := by
  rcases run with ⟨nodes, reads⟩
  unfold PlannerRun.setNote PlannerRun.consumedBytes
  dsimp only at once found ⊢
  induction reads with
  | nil => cases found
  | cons entry reads ih =>
    rw [List.map_cons, List.nodup_cons] at once
    rw [List.map_cons, List.map_cons, List.map_cons, List.sum_cons, List.sum_cons]
    rcases List.mem_cons.mp found with rfl | later
    · -- No other note is of this request.
      have others : reads.map (fun entry =>
          if entry.1 = job then (job, new) else entry) = reads := by
        conv_rhs => rw [← List.map_id reads]
        apply List.map_congr_left
        intro other member
        rw [if_neg]
        · rfl
        · intro same
          have named := List.mem_map_of_mem (f := Prod.fst) member
          rw [same] at named
          exact once.1 named
      rw [others, if_pos rfl, consumedBytes_waiting waiting, Nat.zero_add,
        Nat.add_comm]
    · have other : entry.1 ≠ job := by
        intro same
        apply once.1
        rw [same]
        exact List.mem_map_of_mem later
      rw [if_neg other, ih once.2 later]
      omega

theorem finished_consumedBytes (proper : Proper active.packs job) :
    (finished job).consumedBytes kind = if job.kind = kind then job.length else 0 := by
  rw [proper.finished_eq]
  unfold RuntimeActivePackRead.consumedBytes
  simp only [true_and]

/-- A step consumes the bytes of the body that it keeps. -/
theorem step_consumedBytes {event : PlannerEvent}
    (sound : Sound active.packs wholeKeys run)
    (stepped : step active.packs wholeKeys run event = some next) :
    next.consumedBytes kind = run.consumedBytes kind + event.consumedBytes kind := by
  have visits : ∀ {candidate}, visit run candidate = some next →
      next.consumedBytes kind = run.consumedBytes kind := by
    intro candidate visited
    rcases visit_cases visited with rfl | ⟨rfl, _⟩ <;> rfl
  have drops : ∀ {job read}, run.noteOf job = some read → read.consumed = false →
      (run.without job).consumedBytes kind = run.consumedBytes kind := by
    intro job read found waiting
    apply without_consumedBytes
    intro entry member same
    have equal := List.inj_on_of_nodup_map sound.once (noteOf_some found) member
      same.symm
    rw [← equal]
    exact waiting
  cases event with
  | visitRoot oid =>
    rcases Option.bind_eq_some_iff.mp stepped with ⟨candidate, _, visited⟩
    exact visits visited
  | visitBase node =>
    unfold ActiveReads.step at stepped
    dsimp only at stepped
    split at stepped
    next =>
      rcases Option.bind_eq_some_iff.mp stepped with ⟨candidate, _, visited⟩
      exact visits visited
    next => cases stepped
  | get job =>
    unfold ActiveReads.step at stepped
    dsimp only at stepped
    split at stepped
    next =>
      cases stepped
      unfold PlannerRun.consumedBytes
      rw [List.map_append, List.sum_append, List.map_singleton, List.sum_singleton,
        consumedBytes_waiting (observeGet_consumed _ _)]
      rfl
    next => cases stepped
  | fails job =>
    unfold ActiveReads.step at stepped
    dsimp only at stepped
    split at stepped
    · cases stepped
    next read found =>
      split at stepped
      next waits =>
        cases stepped
        exact drops found waits.1
      next => cases stepped
  | body job returnedBytes =>
    unfold ActiveReads.step at stepped
    dsimp only at stepped
    split at stepped
    · cases stepped
    next read found =>
      split at stepped
      · cases stepped
      next consumed =>
        have waiting : read.consumed = false := Bool.not_eq_true _ ▸ consumed
        have member := noteOf_some found
        have proper := sound.proper (sound.wanted _ member)
        have asked : read = observeGet job.pack job.range := by
          rcases sound.noted _ member with asked | done
          · exact asked
          · dsimp only at done
            rw [done] at waiting
            cases waiting
        split at stepped
        next kept recorded =>
          cases stepped
          rw [asked] at recorded
          rcases proper.recordBody_some recorded with ⟨full, rfl⟩
          rw [setNote_consumedBytes sound.once member waiting,
            finished_consumedBytes proper]
          unfold PlannerEvent.consumedBytes
          dsimp only
          rw [full]
          simp only [and_true]
        next short =>
          have other : returnedBytes ≠ job.length := by
            intro full
            rw [asked] at short
            unfold recordBody at short
            rw [proper.expectedLength_eq, full, if_neg (by simp)] at short
            cases short
          split at stepped
          · cases stepped
            rw [drops found waiting]
            unfold PlannerEvent.consumedBytes
            dsimp only
            rw [if_neg fun both => other both.2]
            rfl
          · cases stepped

theorem run_consumedBytes {events : List PlannerEvent}
    (ran : EventRun.run (step active.packs wholeKeys) run events = some next)
    (sound : Sound active.packs wholeKeys run) :
    next.consumedBytes kind =
      run.consumedBytes kind +
        (events.map (PlannerEvent.consumedBytes kind)).sum := by
  induction events generalizing run with
  | nil =>
    cases ran
    rfl
  | cons event events ih =>
    rcases EventRun.run_cons.mp ran with ⟨middle, stepped, ran⟩
    rw [ih ran (sound.step stepped), step_consumedBytes sound stepped,
      List.map_cons, List.sum_cons, Nat.add_assoc]

/-- The bytes of the notes of a complete plan are the ones it consumed. -/
theorem Sound.noted_bytes (sound : Sound active.packs wholeKeys run)
    (completed : Completed active.packs wholeKeys run) :
    ((run.reads.map Prod.snd).map fun read =>
      if read.kind = kind then read.returnedBytes else 0).sum =
        run.consumedBytes kind := by
  unfold PlannerRun.consumedBytes
  rw [List.map_map]
  congr 1
  apply List.map_congr_left
  intro entry member
  rcases completed entry.1 (sound.wanted entry member) with ⟨read, found, consumed⟩
  have same := List.inj_on_of_nodup_map sound.once (noteOf_some found) member rfl
  have answered : entry.2.consumed = true := by
    rw [← same]
    exact consumed
  unfold RuntimeActivePackRead.consumedBytes
  simp only [Function.comp_apply, answered, true_and]

end Bytes

/-! ## Reconciliation -/

/-- A complete plan is reconciled, whatever the order of its visits, requests
and failures and whichever packs are read whole, and the totals are the bytes of
the bodies it kept.  Whatever is reconciled is attributed once. -/
theorem reconciliation_exact (active : ActivePacks) (wholeKeys : List String) :
    (∀ events run ranges,
      EventRun.run (step active.packs wholeKeys) {} events = some run →
      Completed active.packs wholeKeys run →
      plannedRanges active.packs run.nodes = .ok ranges →
        ∃ result,
          reconcileActivePackReads active.packs (run.reads.map Prod.snd) ranges =
            .ok result ∧
          ∀ kind, result.bytes kind =
            (events.map (PlannerEvent.consumedBytes kind)).sum) ∧
    (∀ reads ranges result,
      reconcileActivePackReads active.packs reads ranges = .ok result →
        Attributed active.packs reads ranges result) := by
  constructor
  · intro events run ranges ran completed planned
    have sound := sound_run ran
    have reconciled : Reconciled active.packs (run.reads.map Prod.snd) ranges := by
      rw [(sound.completed completed).1]
      exact (sound.answered completed).reconciled planned
    refine ⟨_, reconcile_iff.mpr ⟨reconciled, rfl⟩, ?_⟩
    intro kind
    rw [reconciled.attributed.bytes, sound.noted_bytes completed,
      run_consumedBytes ran sound_start]
    exact Nat.zero_add _
  · intro reads ranges result accepted
    rcases reconcile_iff.mp accepted with ⟨reconciled, rfl⟩
    exact reconciled.attributed

end GitOnCloudflare.Planner.ActiveReads
