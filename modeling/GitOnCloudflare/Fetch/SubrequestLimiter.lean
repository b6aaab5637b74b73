import Mathlib.Algebra.Group.Nat.Defs
import GitOnCloudflare.Foundations.EventRun

/-!
# The limiter of upstream calls

Calls begin in the order in which they are made, each as soon as one of the
places is free, whatever the order in which the running ones settle.
-/

namespace GitOnCloudflare.Fetch

open Foundations

structure SubrequestLimiter (Call : Type) where
  max : Nat
  cur : Nat := 0
  queue : List Call := []

variable {Call : Type}

namespace SubrequestLimiter

/-- `Math.max(1, max | 0)` of an integer. -/
def places (max : Int) : Nat := Max.max 1 (max.bmod (2 ^ 32)).toNat

/-- Whether the call may begin at once; it waits otherwise. -/
def acquire (limiter : SubrequestLimiter Call) (call : Call) :
    Bool × SubrequestLimiter Call :=
  if limiter.cur < limiter.max then
    (true, { limiter with cur := limiter.cur + 1 })
  else
    (false, { limiter with queue := limiter.queue ++ [call] })

/-- The call that begins in the place that is given back. -/
def release (limiter : SubrequestLimiter Call) :
    Option Call × SubrequestLimiter Call :=
  let cur := limiter.cur - 1
  match limiter.queue with
  | [] => (none, { limiter with cur })
  | next :: queue => (some next, { limiter with cur := cur + 1, queue })

end SubrequestLimiter

/-- The calls under a limiter: those that were made and begun, in order, those
that run, and how many have settled. -/
structure LimitedCalls (Call : Type) where
  limiter : SubrequestLimiter Call
  made : List Call := []
  begun : List Call := []
  running : List Call := []
  settled : Nat := 0

/-- A call is made, or a running one returns or throws. -/
inductive CallEvent (Call : Type) where
  | run (call : Call)
  | settle (call : Call)

namespace LimitedCalls

variable [DecidableEq Call]

def step (calls : LimitedCalls Call) :
    CallEvent Call → Option (LimitedCalls Call)
  | .run call =>
    let (granted, limiter) := calls.limiter.acquire call
    let begins := if granted then [call] else []
    some { calls with
      limiter
      made := calls.made ++ [call]
      begun := calls.begun ++ begins
      running := calls.running ++ begins }
  | .settle call =>
    if call ∈ calls.running then
      let (resumed, limiter) := calls.limiter.release
      some { calls with
        limiter
        begun := calls.begun ++ resumed.toList
        running := calls.running.erase call ++ resumed.toList
        settled := calls.settled + 1 }
    else
      none

/-- Every place is counted, and nobody waits beside a free one. -/
structure Counted (max : Nat) (calls : LimitedCalls Call) : Prop where
  places : calls.limiter.max = max
  cur : calls.limiter.cur = calls.running.length
  bound : calls.running.length ≤ max
  waits : calls.limiter.queue ≠ [] → calls.running.length = max
  order : calls.begun ++ calls.limiter.queue = calls.made
  begun : calls.begun.length = calls.running.length + calls.settled

variable {max : Nat} {calls next : LimitedCalls Call} {event : CallEvent Call}

theorem Counted.step (stepped : calls.step event = some next)
    (counted : Counted max calls) : Counted max next := by
  rcases counted with ⟨rfl, cur, bound, waits, order, begun⟩
  cases event with
  | run call =>
    by_cases free : calls.limiter.cur < calls.limiter.max
    · simp only [LimitedCalls.step, SubrequestLimiter.acquire, if_pos free] at stepped
      cases stepped
      have nobody : calls.limiter.queue = [] := by
        by_contra somebody
        exact absurd (waits somebody) (by omega)
      rw [nobody, List.append_nil] at order
      constructor <;> simp [nobody, ← order, cur] <;> omega
    · simp only [LimitedCalls.step, SubrequestLimiter.acquire, if_neg free] at stepped
      cases stepped
      constructor <;> simp [← order, cur] <;> omega
  | settle call =>
    simp only [LimitedCalls.step, SubrequestLimiter.release] at stepped
    split at stepped
    · next runs =>
      have size := List.length_erase_of_mem runs
      have somebody := List.length_pos_of_mem runs
      cases queued : calls.limiter.queue with
      | nil =>
        rw [queued] at stepped order
        cases stepped
        constructor <;> simp [← order, size, cur] <;> omega
      | cons first queue =>
        have full := waits (by rw [queued]; simp)
        rw [queued] at stepped order
        cases stepped
        constructor <;> simp [← order, size, cur] <;> omega
    · cases stepped

/-- The calls that have begun are the first ones that were made, as many as
there are places and calls that have settled; the others wait in their order. -/
theorem subrequestLimiter_exact (max : Int) {events : List (CallEvent Call)}
    {calls : LimitedCalls Call}
    (ran : EventRun.run step
      { limiter := { max := SubrequestLimiter.places max } } events = some calls) :
    calls.running.length ≤ SubrequestLimiter.places max ∧
      calls.begun =
        calls.made.take (SubrequestLimiter.places max + calls.settled) ∧
      calls.limiter.queue =
        calls.made.drop (SubrequestLimiter.places max + calls.settled) := by
  have counted : Counted (SubrequestLimiter.places max) calls := by
    apply EventRun.run_preserves (fun stepped counted => counted.step stepped) ran
    constructor <;> simp
  rcases counted with ⟨_, _, bound, waits, order, begun⟩
  refine ⟨bound, ?_⟩
  rw [← order]
  by_cases nobody : calls.limiter.queue = []
  · rw [nobody, List.append_nil, List.take_of_length_le (by omega),
      List.drop_of_length_le (by omega)]
    exact ⟨rfl, rfl⟩
  · have full := waits nobody
    rw [List.take_left' (by omega), List.drop_left' (by omega)]
    exact ⟨rfl, rfl⟩

theorem subrequestLimiter_exact_one :
    ∃ calls : LimitedCalls Nat, calls.running.length ≤ 1 ∧
      calls.begun = calls.made.take (1 + calls.settled) ∧
      calls.limiter.queue = calls.made.drop (1 + calls.settled) :=
  ⟨_, @subrequestLimiter_exact _ _ 0 [.run 5, .run 7, .run 8, .settle 5] _ rfl⟩

end LimitedCalls

end GitOnCloudflare.Fetch
