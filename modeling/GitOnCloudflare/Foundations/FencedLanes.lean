import Mathlib.Data.List.Pairwise
import Mathlib.Logic.Function.Basic
import Mathlib.Order.Basic

/-!
# Lanes fenced by stamps

A coordinator issues identities for lanes.  Every lane has one slot, which
holds the last identity of the lane and whether it may still act.  Stamps
count up over all lanes.  A slot is settled once; a revoked slot is free
again after its stop was acknowledged and its drain has passed.  A closed
coordinator forgets its slots and issues nothing any more.

The history of a state lists what happened, newest first.  The invariant
below relates it to the slots, and its last three fields are the laws of the
discipline.
-/

namespace GitOnCloudflare.Foundations

namespace FencedLanes

inductive SlotState where
  | active
  | completed
  | revoked
deriving DecidableEq

structure Slot (Identity : Type) where
  identity : Identity
  state : SlotState
  stopPending : Bool
  drainUntil : Nat

inductive Event (Identity : Type) where
  | issued (identity : Identity) (time : Nat)
  | settled (identity : Identity) (revoked : Bool) (time : Nat)
  | acknowledged (identity : Identity)
  | closed
deriving DecidableEq

structure State (Lane Identity : Type) where
  slot : Lane → Option (Slot Identity)
  stamp : Nat
  history : List (Event Identity)

/-- Where identities belong, how they are stamped, and the drain of a
revoked one. -/
structure Discipline (Lane Identity : Type) where
  laneOf : Identity → Lane
  stampOf : Identity → Nat
  drain : Nat

/-- A lane may get a new identity. -/
def Slot.Idle {Identity : Type} (slot : Slot Identity) (time : Nat) : Prop :=
  slot.state ≠ .active ∧ slot.stopPending = false ∧ slot.drainUntil ≤ time

variable {Lane Identity : Type} [DecidableEq Lane]

/-- A settled slot. -/
def settle (slot : Slot Identity) (revoked : Bool) (drain time : Nat) :
    Slot Identity :=
  { slot with
    state := if revoked then .revoked else .completed
    stopPending := revoked
    drainUntil := if revoked then time + drain else 0 }

omit [DecidableEq Lane] in
theorem settle_state_ne (slot : Slot Identity) (revoked : Bool)
    (drain time : Nat) : (settle slot revoked drain time).state ≠ .active := by
  cases revoked with
  | false => nofun
  | true => nofun

namespace Discipline

variable (discipline : Discipline Lane Identity)

/-- No identity of the lane is issued in this stretch. -/
def Quiet (lane : Lane) (events : List (Event Identity)) : Prop :=
  ∀ identity time, .issued identity time ∈ events →
    discipline.laneOf identity ≠ lane

/-- An identity that was issued and neither settled nor forgotten. -/
def Outstanding (history : List (Event Identity)) (identity : Identity) :
    Prop :=
  (∃ time, .issued identity time ∈ history) ∧
    (∀ revoked time, .settled identity revoked time ∉ history) ∧
      Event.closed ∉ history

/-- How the slots follow from the history, and the laws of the history. -/
structure Invariant (state : State Lane Identity) : Prop where
  placed :
    ∀ lane slot, state.slot lane = some slot →
      discipline.laneOf slot.identity = lane
  emptied :
    .closed ∈ state.history → ∀ lane, state.slot lane = none
  bounded :
    .closed ∉ state.history →
      ∀ identity time, .issued identity time ∈ state.history →
        discipline.stampOf identity ≤ state.stamp
  origin :
    ∀ slot, state.slot (discipline.laneOf slot.identity) = some slot →
      ∃ issuedAt, .issued slot.identity issuedAt ∈ state.history
  known :
    ∀ identity revoked time, .settled identity revoked time ∈ state.history →
      ∃ issuedAt, .issued identity issuedAt ∈ state.history
  inactive :
    ∀ slot, state.slot (discipline.laneOf slot.identity) = some slot →
      ∀ revoked time,
        .settled slot.identity revoked time ∈ state.history →
          slot.state ≠ .active
  held :
    ∀ identity, Outstanding state.history identity →
      ∃ slot, state.slot (discipline.laneOf identity) = some slot ∧
        slot.identity = identity ∧ slot.state = .active
  draining :
    ∀ newer identity time older,
      state.history = newer ++ .settled identity true time :: older →
        discipline.Quiet (discipline.laneOf identity) newer →
          .closed ∈ state.history ∨
            ∃ slot, state.slot (discipline.laneOf identity) = some slot ∧
              slot.identity = identity ∧ slot.state = .revoked ∧
                slot.drainUntil = time + discipline.drain ∧
                  (slot.stopPending = false →
                    .acknowledged identity ∈ newer)
  increasing :
    state.history.Pairwise fun later earlier =>
      ∀ last lastTime first firstTime,
        later = .issued last lastTime → earlier = .issued first firstTime →
          discipline.stampOf first < discipline.stampOf last
  settledOnce :
    state.history.Pairwise fun later earlier =>
      ∀ identity revoked time earlierRevoked earlierTime,
        later = .settled identity revoked time →
          earlier ≠ .settled identity earlierRevoked earlierTime
  waited :
    ∀ newer next nextTime middle identity time older,
      state.history =
          newer ++ .issued next nextTime ::
            (middle ++ .settled identity true time :: older) →
        discipline.laneOf next = discipline.laneOf identity →
          discipline.Quiet (discipline.laneOf identity) middle →
            .acknowledged identity ∈ middle ∧
              time + discipline.drain ≤ nextTime

variable {discipline}

omit [DecidableEq Lane] in
/-- Nothing has happened yet. -/
theorem Invariant.initial {state : State Lane Identity}
    (empty : ∀ lane, state.slot lane = none)
    (quiet : state.history = []) : discipline.Invariant state where
  placed := by
    intro lane slot found
    rw [empty] at found
    cases found
  emptied := fun _ => empty
  bounded := by simp [quiet]
  origin := by
    intro slot found
    rw [empty] at found
    cases found
  known := by simp [quiet]
  inactive := by
    intro slot found
    rw [empty] at found
    cases found
  held := by
    intro identity outstanding
    obtain ⟨⟨time, issued⟩, _⟩ := outstanding
    rw [quiet] at issued
    cases issued
  draining := by
    intro newer identity time older split
    rw [quiet] at split
    simp at split
  increasing := by
    rw [quiet]
    exact List.Pairwise.nil
  settledOnce := by
    rw [quiet]
    exact List.Pairwise.nil
  waited := by
    intro newer next nextTime middle identity time older split
    rw [quiet] at split
    simp at split

/-- A split of an extended history is at the new event or behind it. -/
theorem split_cons {Item : Type} {head mark : Item}
    {items newer older : List Item}
    (split : head :: items = newer ++ mark :: older) :
    (newer = [] ∧ head = mark ∧ items = older) ∨
      ∃ rest, newer = head :: rest ∧ items = rest ++ mark :: older := by
  cases newer with
  | nil =>
    obtain ⟨rfl, rfl⟩ := List.cons.inj split
    exact Or.inl ⟨rfl, rfl, rfl⟩
  | cons first rest =>
    obtain ⟨rfl, behind⟩ := List.cons.inj split
    exact Or.inr ⟨rest, rfl, behind⟩

variable {lane : Lane}

omit [DecidableEq Lane] in
theorem Quiet.tail {event : Event Identity} {events : List (Event Identity)}
    (quiet : discipline.Quiet lane (event :: events)) :
    discipline.Quiet lane events :=
  fun identity time issued =>
    quiet identity time (List.mem_cons_of_mem _ issued)

/-! ## The steps keep the invariant -/

section Steps

variable {state : State Lane Identity} {event : Event Identity}
  {identity : Identity}

theorem update_eq_some {changed place} {slot other : Slot Identity}
    (found : Function.update state.slot place (some slot) changed = some other) :
    changed = place ∧ slot = other ∨
      changed ≠ place ∧ state.slot changed = some other := by
  by_cases same : changed = place
  · subst same
    rw [Function.update_self] at found
    exact Or.inl ⟨rfl, Option.some.inj found⟩
  · rw [Function.update_of_ne same] at found
    exact Or.inr ⟨same, found⟩

omit [DecidableEq Lane] in
theorem issued_behind
    (issued : ∃ time, Event.issued identity time ∈ state.history) :
    ∃ time, Event.issued identity time ∈ event :: state.history :=
  issued.imp fun _ => List.mem_cons_of_mem _

omit [DecidableEq Lane] in
/-- Only the issue makes an identity outstanding. -/
theorem Outstanding.behind
    (outstanding : Outstanding (event :: state.history) identity)
    (older : ∀ time, event ≠ .issued identity time) :
    Outstanding state.history identity := by
  obtain ⟨⟨time, issued⟩, open_, opened⟩ := outstanding
  refine ⟨⟨time, ?_⟩, ?_, mt (List.mem_cons_of_mem _) opened⟩
  · exact (List.mem_cons.mp issued).resolve_left fun same => older time same.symm
  · exact fun revoked settledAt settled =>
      open_ revoked settledAt (List.mem_cons_of_mem _ settled)

omit [DecidableEq Lane] in
/-- The law of waiting is about the steps that issue. -/
theorem Invariant.waited_behind (invariant : discipline.Invariant state)
    (quietEvent : ∀ next time, event ≠ .issued next time) {newer middle older}
    {next nextTime time}
    (split : event :: state.history = newer ++ .issued next nextTime ::
      (middle ++ .settled identity true time :: older)) :
    discipline.laneOf next = discipline.laneOf identity →
      discipline.Quiet (discipline.laneOf identity) middle →
        .acknowledged identity ∈ middle ∧ time + discipline.drain ≤ nextTime := by
  rcases split_cons split with ⟨_, new, _⟩ | ⟨rest, _, behind⟩
  · exact absurd new (quietEvent next nextTime)
  · exact invariant.waited rest next nextTime middle identity time older behind

theorem Invariant.issue (invariant : discipline.Invariant state)
    (identity : Identity) (time : Nat) (opened : Event.closed ∉ state.history)
    (idle :
      ∀ slot, state.slot (discipline.laneOf identity) = some slot →
        slot.Idle time)
    (stamped : discipline.stampOf identity = state.stamp + 1) :
    discipline.Invariant
      ⟨Function.update state.slot (discipline.laneOf identity)
          (some ⟨identity, .active, false, 0⟩),
        state.stamp + 1, .issued identity time :: state.history⟩ := by
  have fresh :
      ∀ other issuedAt, .issued other issuedAt ∈ state.history →
        discipline.stampOf other < discipline.stampOf identity := by
    intro other issuedAt issued
    rw [stamped]
    exact Nat.lt_succ_of_le
      (invariant.bounded opened other issuedAt issued)
  have unsettled :
      ∀ revoked settledAt,
        Event.settled identity revoked settledAt ∉ state.history := by
    intro revoked settledAt settled
    obtain ⟨issuedAt, issued⟩ :=
      invariant.known identity revoked settledAt settled
    exact Nat.lt_irrefl _ (fresh identity issuedAt issued)
  refine
    { placed := ?_
      emptied := ?_
      bounded := ?_
      origin := ?_
      known := ?_
      inactive := ?_
      held := ?_
      draining := ?_
      increasing := ?_
      settledOnce := ?_
      waited := ?_ }
  · intro lane slot found
    rcases update_eq_some found with ⟨rfl, rfl⟩ | ⟨_, found⟩
    · rfl
    · exact invariant.placed lane slot found
  · intro closed
    simp only [List.mem_cons, reduceCtorEq, false_or] at closed
    exact absurd closed opened
  · intro _ other issuedAt issued
    rcases List.mem_cons.mp issued with new | old
    · cases new
      exact Nat.le_of_eq stamped
    · have earlier := fresh other issuedAt old
      rw [stamped] at earlier
      exact Nat.le_of_lt earlier
  · intro slot found
    rcases update_eq_some found with ⟨_, rfl⟩ | ⟨_, found⟩
    · exact ⟨time, List.mem_cons_self⟩
    · exact issued_behind (invariant.origin slot found)
  · intro other revoked settledAt settled
    simp only [List.mem_cons, reduceCtorEq, false_or] at settled
    exact issued_behind (invariant.known other revoked settledAt settled)
  · intro slot found revoked settledAt settled
    simp only [List.mem_cons, reduceCtorEq, false_or] at settled
    rcases update_eq_some found with ⟨_, rfl⟩ | ⟨_, found⟩
    · exact absurd settled (unsettled revoked settledAt)
    · exact invariant.inactive slot found revoked settledAt settled
  · rintro other ⟨⟨issuedAt, issued⟩, open_, remembered⟩
    rcases List.mem_cons.mp issued with new | old
    · cases new
      exact ⟨_, Function.update_self _ _ _, rfl, rfl⟩
    · have outstanding : Outstanding state.history other :=
        ⟨⟨issuedAt, old⟩,
          fun revoked settledAt settled =>
            open_ revoked settledAt (List.mem_cons_of_mem _ settled),
          opened⟩
      obtain ⟨slot, found, same, active⟩ := invariant.held other outstanding
      have apart :
          discipline.laneOf other ≠ discipline.laneOf identity := by
        intro equal
        rw [equal] at found
        exact (idle slot found).1 active
      refine ⟨slot, ?_, same, active⟩
      simp only [Function.update_of_ne apart]
      exact found
  · intro newer other settledAt older split quiet
    rcases split_cons split with ⟨_, impossible, _⟩ | ⟨rest, rfl, behind⟩
    · cases impossible
    · have apart := quiet identity time List.mem_cons_self
      rcases invariant.draining rest other settledAt older behind
          quiet.tail with closed | ⟨slot, found, same, revoked, drained, acked⟩
      · exact absurd closed opened
      · refine Or.inr ⟨slot, ?_, same, revoked, drained, ?_⟩
        · simp only [Function.update_of_ne apart.symm]
          exact found
        · exact fun stopped => List.mem_cons_of_mem _ (acked stopped)
  · refine List.Pairwise.cons ?_ invariant.increasing
    rintro earlier member last lastTime first firstTime new rfl
    cases new
    exact fresh first firstTime member
  · refine List.Pairwise.cons ?_ invariant.settledOnce
    rintro earlier _ other revoked settledAt _ _ ⟨⟩
  · intro newer next nextTime middle other settledAt older split same quiet
    rcases split_cons split with ⟨_, new, behind⟩ | ⟨rest, _, behind⟩
    · cases new
      rcases invariant.draining middle other settledAt older behind
          quiet with closed | ⟨slot, found, _, _, drained, acked⟩
      · exact absurd closed opened
      · rw [← same] at found
        obtain ⟨_, stopped, over_⟩ := idle slot found
        rw [drained] at over_
        exact ⟨acked stopped, over_⟩
    · exact invariant.waited rest next nextTime middle other settledAt
        older behind same quiet

omit [DecidableEq Lane] in
theorem Invariant.opened_of_slot (invariant : discipline.Invariant state)
    {slot : Slot Identity} (found : state.slot lane = some slot) :
    Event.closed ∉ state.history := by
  intro closed
  rw [invariant.emptied closed lane] at found
  cases found

theorem Invariant.settle (invariant : discipline.Invariant state)
    (slot : Slot Identity) (revoked : Bool) (time : Nat)
    (found : state.slot (discipline.laneOf slot.identity) = some slot)
    (active : slot.state = .active) :
    discipline.Invariant
      ⟨Function.update state.slot (discipline.laneOf slot.identity)
          (some (FencedLanes.settle slot revoked discipline.drain time)),
        state.stamp,
        .settled slot.identity revoked time :: state.history⟩ := by
  have opened := invariant.opened_of_slot found
  have unsettled :
      ∀ revoked settledAt,
        Event.settled slot.identity revoked settledAt ∉ state.history :=
    fun revoked settledAt settled =>
      invariant.inactive slot found revoked settledAt settled active
  have issued :
      ∃ issuedAt, Event.issued slot.identity issuedAt ∈ state.history :=
    invariant.origin slot found
  refine
    { placed := ?_
      emptied := ?_
      bounded := ?_
      origin := ?_
      known := ?_
      inactive := ?_
      held := ?_
      draining := ?_
      increasing := ?_
      settledOnce := ?_
      waited := ?_ }
  · intro lane other present
    rcases update_eq_some present with ⟨rfl, rfl⟩ | ⟨_, present⟩
    · rfl
    · exact invariant.placed lane other present
  · intro closed
    simp only [List.mem_cons, reduceCtorEq, false_or] at closed
    exact absurd closed opened
  · intro _ other issuedAt issued
    simp only [List.mem_cons, reduceCtorEq, false_or] at issued
    exact invariant.bounded opened other issuedAt issued
  · intro other present
    rcases update_eq_some present with ⟨_, rfl⟩ | ⟨_, present⟩
    · exact issued_behind issued
    · exact issued_behind (invariant.origin other present)
  · intro other otherRevoked settledAt settled
    rcases List.mem_cons.mp settled with new | old
    · cases new
      exact issued_behind issued
    · exact issued_behind (invariant.known other otherRevoked settledAt old)
  · intro other present otherRevoked settledAt settled
    rcases update_eq_some present with ⟨_, rfl⟩ | ⟨same, present⟩
    · exact settle_state_ne slot revoked _ _
    · refine invariant.inactive other present otherRevoked settledAt ?_
      rcases List.mem_cons.mp settled with new | old
      · rw [(Event.settled.inj new).1] at same
        exact absurd rfl same
      · exact old
  · intro other outstanding
    obtain ⟨held, present, same, stillActive⟩ :=
      invariant.held other (outstanding.behind nofun)
    have apart :
        discipline.laneOf other ≠ discipline.laneOf slot.identity := by
      intro equal
      rw [equal] at present
      cases present.symm.trans found
      refine outstanding.2.1 revoked time ?_
      rw [← same]
      exact List.mem_cons_self
    refine ⟨held, ?_, same, stillActive⟩
    simp only [Function.update_of_ne apart]
    exact present
  · intro newer other settledAt older split quiet
    rcases split_cons split with ⟨rfl, new, _⟩ | ⟨rest, rfl, behind⟩
    · cases new
      refine Or.inr ⟨_, Function.update_self _ _ _, rfl, rfl, rfl, ?_⟩
      intro stopped
      cases stopped
    · rcases invariant.draining rest other settledAt older behind
          quiet.tail with closed | ⟨held, present, same, stopped, rest_⟩
      · exact absurd closed opened
      · have apart :
            discipline.laneOf other ≠
              discipline.laneOf slot.identity := by
          intro equal
          rw [equal] at present
          cases present.symm.trans found
          rw [stopped] at active
          cases active
        refine Or.inr ⟨held, ?_, same, stopped, rest_.1, ?_⟩
        · simp only [Function.update_of_ne apart]
          exact present
        · exact fun free => List.mem_cons_of_mem _ (rest_.2 free)
  · refine List.Pairwise.cons ?_ invariant.increasing
    rintro earlier _ last lastTime first firstTime ⟨⟩
  · refine List.Pairwise.cons ?_ invariant.settledOnce
    rintro earlier member other newRevoked newTime earlierRevoked
      earlierTime new rfl
    cases new
    exact unsettled earlierRevoked earlierTime member
  · intro newer next nextTime middle other settledAt older split
    exact invariant.waited_behind (by nofun) split

theorem Invariant.acknowledge (invariant : discipline.Invariant state)
    (slot : Slot Identity)
    (found : state.slot (discipline.laneOf slot.identity) = some slot)
    (revoked : slot.state = .revoked) :
    discipline.Invariant
      ⟨Function.update state.slot (discipline.laneOf slot.identity)
          (some { slot with stopPending := false }),
        state.stamp, .acknowledged slot.identity :: state.history⟩ := by
  have opened := invariant.opened_of_slot found
  have inactive : slot.state ≠ .active := by
    rw [revoked]
    nofun
  refine
    { placed := ?_
      emptied := ?_
      bounded := ?_
      origin := ?_
      known := ?_
      inactive := ?_
      held := ?_
      draining := ?_
      increasing := ?_
      settledOnce := ?_
      waited := ?_ }
  · intro lane other present
    rcases update_eq_some present with ⟨rfl, rfl⟩ | ⟨_, present⟩
    · rfl
    · exact invariant.placed lane other present
  · intro closed
    simp only [List.mem_cons, reduceCtorEq, false_or] at closed
    exact absurd closed opened
  · intro _ other issuedAt issued
    simp only [List.mem_cons, reduceCtorEq, false_or] at issued
    exact invariant.bounded opened other issuedAt issued
  · intro other present
    rcases update_eq_some present with ⟨_, rfl⟩ | ⟨_, present⟩
    · exact issued_behind (invariant.origin slot found)
    · exact issued_behind (invariant.origin other present)
  · intro other otherRevoked settledAt settled
    simp only [List.mem_cons, reduceCtorEq, false_or] at settled
    exact issued_behind (invariant.known other otherRevoked settledAt settled)
  · intro other present otherRevoked settledAt settled
    simp only [List.mem_cons, reduceCtorEq, false_or] at settled
    rcases update_eq_some present with ⟨_, rfl⟩ | ⟨_, present⟩
    · exact inactive
    · exact invariant.inactive other present otherRevoked settledAt settled
  · intro other outstanding
    obtain ⟨held, present, same, stillActive⟩ :=
      invariant.held other (outstanding.behind nofun)
    have apart :
        discipline.laneOf other ≠ discipline.laneOf slot.identity := by
      intro equal
      rw [equal] at present
      cases present.symm.trans found
      exact inactive stillActive
    refine ⟨held, ?_, same, stillActive⟩
    simp only [Function.update_of_ne apart]
    exact present
  · intro newer other settledAt older split quiet
    rcases split_cons split with ⟨_, impossible, _⟩ | ⟨rest, rfl, behind⟩
    · cases impossible
    · rcases invariant.draining rest other settledAt older behind
          quiet.tail with
        closed | ⟨held, present, same, stopped, drained, acked⟩
      · exact absurd closed opened
      · by_cases equal :
            discipline.laneOf other = discipline.laneOf slot.identity
        · rw [equal] at present
          cases present.symm.trans found
          rw [equal]
          refine Or.inr
            ⟨_, Function.update_self _ _ _, same, stopped, drained, ?_⟩
          intro _
          rw [← same]
          exact List.mem_cons_self
        · refine Or.inr ⟨held, ?_, same, stopped, drained, ?_⟩
          · simp only [Function.update_of_ne equal]
            exact present
          · exact fun free => List.mem_cons_of_mem _ (acked free)
  · refine List.Pairwise.cons ?_ invariant.increasing
    rintro earlier _ last lastTime first firstTime ⟨⟩
  · refine List.Pairwise.cons ?_ invariant.settledOnce
    rintro earlier _ other newRevoked newTime earlierRevoked earlierTime ⟨⟩
  · intro newer next nextTime middle other settledAt older split
    exact invariant.waited_behind (by nofun) split

omit [DecidableEq Lane] in
theorem Invariant.close (invariant : discipline.Invariant state) :
    discipline.Invariant
      ⟨fun _ => none, 0, .closed :: state.history⟩ := by
  refine
    { placed := nofun
      emptied := fun _ _ => rfl
      bounded := fun opened => absurd List.mem_cons_self opened
      origin := nofun
      known := ?_
      inactive := nofun
      held := fun _ outstanding =>
        absurd List.mem_cons_self outstanding.2.2
      draining := fun _ _ _ _ _ _ => Or.inl List.mem_cons_self
      increasing := ?_
      settledOnce := ?_
      waited := ?_ }
  · intro other revoked settledAt settled
    simp only [List.mem_cons, reduceCtorEq, false_or] at settled
    exact issued_behind (invariant.known other revoked settledAt settled)
  · refine List.Pairwise.cons ?_ invariant.increasing
    rintro earlier _ last lastTime first firstTime ⟨⟩
  · refine List.Pairwise.cons ?_ invariant.settledOnce
    rintro earlier _ other newRevoked newTime earlierRevoked earlierTime ⟨⟩
  · intro newer next nextTime middle other settledAt older split
    exact invariant.waited_behind (by nofun) split

end Steps

end Discipline

end FencedLanes

end GitOnCloudflare.Foundations
