import GitOnCloudflare.Planner.ActiveReadsExact
import Mathlib.Algebra.Order.BigOperators.Group.List

/-!
# The budget of whole packs

Packs are chosen to be read whole in order of their checksums as long as the
budget lasts.  A plan reads whole only packs that were chosen, each once, so
what it consumes of them fits the budget too.
-/

namespace GitOnCloudflare.Planner.ActiveReads

open Foundations

/-! ## The choice -/

def packBytesSum (packs : List BoundActivePack) : Nat :=
  (packs.map BoundActivePack.packBytes).sum

/-- The packs that were chosen from a list that starts with chosen ones. -/
theorem selected_sublist (packs chosen : List BoundActivePack)
    (within : packBytesSum chosen ≤ wholeActivePackTotalBudget) :
    ∃ more, more.Sublist packs ∧
      packs.foldl (fun (selected : List String × Nat) pack =>
        if wholeActivePackFits pack.packBytes selected.2 then
          (selected.1 ++ [pack.packKey], selected.2 + pack.packBytes)
        else
          selected) (chosen.map BoundActivePack.packKey, packBytesSum chosen) =
        ((chosen ++ more).map BoundActivePack.packKey,
          packBytesSum (chosen ++ more)) ∧
      packBytesSum (chosen ++ more) ≤ wholeActivePackTotalBudget := by
  induction packs generalizing chosen with
  | nil =>
    refine ⟨[], List.Sublist.refl _, ?_, ?_⟩
    · rw [List.append_nil]
      rfl
    · rw [List.append_nil]
      exact within
  | cons pack packs ih =>
    rw [List.foldl_cons]
    by_cases fits : wholeActivePackFits pack.packBytes (packBytesSum chosen) = true
    · have next : packBytesSum (chosen ++ [pack]) =
          packBytesSum chosen + pack.packBytes := by
        unfold packBytesSum
        rw [List.map_append, List.sum_append]
        rfl
      have bounded : packBytesSum (chosen ++ [pack]) ≤
          wholeActivePackTotalBudget := by
        rw [next]
        exact of_decide_eq_true (Bool.and_eq_true_iff.mp fits).2
      rcases ih (chosen ++ [pack]) bounded with ⟨more, sublist, chose, total⟩
      refine ⟨pack :: more, sublist.cons_cons pack, ?_, ?_⟩
      · rw [if_pos fits, ← next]
        rw [List.map_append, List.append_assoc] at chose
        exact chose
      · rw [List.append_assoc] at total
        exact total
    · rcases ih chosen within with ⟨more, sublist, chose, total⟩
      refine ⟨more, sublist.cons pack, ?_, total⟩
      rw [if_neg fits]
      exact chose

theorem selectWhole_chosen (packs : List BoundActivePack) :
    ∃ chosen, chosen ⊆ packs ∧
      selectWholeActivePackKeys packs = chosen.map BoundActivePack.packKey ∧
      packBytesSum chosen ≤ wholeActivePackTotalBudget := by
  have perm := List.perm_insertionSort
    (fun left right : BoundActivePack => packOrder left ≤ packOrder right) packs
  rcases selected_sublist (packs.insertionSort
    fun left right => packOrder left ≤ packOrder right) [] (Nat.zero_le _) with
    ⟨chosen, sublist, chose, total⟩
  refine ⟨chosen, ?_, congrArg Prod.fst chose, total⟩
  intro pack member
  exact perm.mem_iff.mp (sublist.subset member)

/-! ## What a run keeps -/

variable {active : ActivePacks} {wholeKeys : List String} {run : PlannerRun}

/-- A note keeps no more of a whole pack than the pack has. -/
theorem Sound.whole_le (sound : Sound active.packs wholeKeys run)
    {entry : ReadJob × RuntimeActivePackRead} (member : entry ∈ run.reads) :
    entry.2.consumedBytes .whole ≤
      (entry.1.wholePack.map BoundActivePack.packBytes).getD 0 := by
  rcases sound.noted entry member with waiting | kept
  · rw [waiting, consumedBytes_waiting (observeGet_consumed _ _)]
    exact Nat.zero_le _
  · rw [kept, finished_consumedBytes (sound.proper (sound.wanted entry member))]
    cases entry.1 with
    | trailer => exact Nat.zero_le _
    | entry => exact Nat.zero_le _
    | whole => exact Nat.le_refl _

theorem wholeBytes_le {reads : List (ReadJob × RuntimeActivePackRead)}
    (bounded : ∀ entry ∈ reads, entry.2.consumedBytes .whole ≤
      (entry.1.wholePack.map BoundActivePack.packBytes).getD 0) :
    (reads.map fun entry => entry.2.consumedBytes .whole).sum ≤
      packBytesSum ((reads.map Prod.fst).filterMap ReadJob.wholePack) := by
  induction reads with
  | nil => exact Nat.le_refl 0
  | cons entry reads ih =>
    have first := bounded entry List.mem_cons_self
    have rest := ih fun other member =>
      bounded other (List.mem_cons_of_mem _ member)
    rw [List.map_cons, List.sum_cons, List.map_cons]
    cases picked : entry.1.wholePack with
    | none =>
      rw [picked] at first
      rw [List.filterMap_cons_none picked]
      exact Nat.add_le_add first rest |>.trans (Nat.zero_add _).le
    | some pack =>
      rw [picked] at first
      rw [List.filterMap_cons_some picked]
      exact Nat.add_le_add first rest

/-- The packs that are read whole, each once, are among the chosen ones. -/
theorem Sound.wholes_subperm (sound : Sound active.packs wholeKeys run)
    {chosen : List BoundActivePack} (inside : chosen ⊆ active.packs)
    (keys : wholeKeys = chosen.map BoundActivePack.packKey) :
    ((run.reads.map Prod.fst).filterMap ReadJob.wholePack).Subperm chosen := by
  apply List.subperm_of_subset
  · apply sound.once.filterMap
    intro job other pack picked picked'
    cases job <;> cases picked
    cases other <;> cases picked'
    rfl
  · intro pack member
    rcases List.mem_filterMap.mp member with ⟨job, read, picked⟩
    rcases List.mem_map.mp read with ⟨entry, noted, rfl⟩
    have wanted := sound.wanted entry noted
    cases named : entry.1 with
    | trailer => cases (named ▸ picked)
    | entry => cases (named ▸ picked)
    | whole other =>
      cases (named ▸ picked)
      rcases wanted with ⟨_, _, same⟩ | ⟨node, visited, same⟩
      · cases named.symm.trans same
      · have whole := named.symm.trans same
        unfold nodeJob at whole
        split at whole
        next listed =>
          cases whole
          rw [keys] at listed
          rcases List.mem_map.mp listed with ⟨other, there, same⟩
          have leads := (sound.placed node visited).leads
          rw [← active.eq_of_key (inside there) leads.active same]
          exact there
        next => cases whole

/-- At any time of any run, finished or not, what was kept of whole packs is
within the budget. -/
theorem wholeBytes_le_budget (active : ActivePacks) {events : List PlannerEvent}
    {run : PlannerRun}
    (ran : EventRun.run (step active.packs (selectWholeActivePackKeys active.packs))
      {} events = some run) :
    (events.map (PlannerEvent.consumedBytes .whole)).sum ≤
      wholeActivePackTotalBudget := by
  have sound := sound_run ran
  rcases selectWhole_chosen active.packs with ⟨chosen, inside, keys, total⟩
  rcases sound.wholes_subperm inside keys with ⟨wholes, perm, sublist⟩
  have bounded := (sublist.map BoundActivePack.packBytes).sum_le_sum
    fun _ _ => Nat.zero_le _
  have same := (perm.map BoundActivePack.packBytes).sum_nat
  calc
    (events.map (PlannerEvent.consumedBytes .whole)).sum =
        run.consumedBytes .whole := by
      rw [@run_consumedBytes _ _ _ _ .whole _ ran sound_start]
      exact (Nat.zero_add _).symm
    _ ≤ packBytesSum ((run.reads.map Prod.fst).filterMap ReadJob.wholePack) :=
      wholeBytes_le fun entry member => sound.whole_le member
    _ ≤ packBytesSum chosen := same.symm.le.trans bounded
    _ ≤ wholeActivePackTotalBudget := total

/-- A pack of two entries, small enough to be read whole. -/
def smallPack : BoundActivePack where
  packKey := "p/1"
  packBytes := 80
  packChecksum := "aa"
  entries := [⟨"1a", 12, 40, .full⟩, ⟨"2b", 40, 60, .ofsDelta 12⟩]

def oneSmallPack : ActivePacks where
  packs := [smallPack]
  keys := List.nodup_singleton _
  content := by simp
  sized := by simp [smallPack]
  inside := by simp [smallPack]

/-- The first copy is cut off, the second is kept. -/
def twoCopies : List PlannerEvent :=
  [.visitRoot "2b", .get (.whole smallPack), .body (.whole smallPack) 79,
    .get (.whole smallPack), .body (.whole smallPack) 80]

theorem wholeBytes_le_budget_twoCopies :
    (twoCopies.map (PlannerEvent.consumedBytes .whole)).sum ≤
      wholeActivePackTotalBudget :=
  wholeBytes_le_budget oneSmallPack
    (Option.eq_some_of_isSome (by decide +kernel))

end GitOnCloudflare.Planner.ActiveReads
