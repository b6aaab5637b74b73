import GitOnCloudflare.Foundations.DurableProgram

/-!
# Interleaved calls on one durable object

A runtime executes calls on one durable state.  A call runs without
interference up to its next wait, then other calls and the environment take
turns until it is answered.  A call may be cut between any two of its
committed writes, and a restart discards every call that is waiting.

`Runtime.Contract` is the proof rule for whole runs: an invariant and a
transitive relation between earlier and later states that the environment
and each admitted call keep.  The reachability theorem and the per-step
guarantee below are its two conclusions.
-/

namespace GitOnCloudflare.Foundations

variable {State Request : Type}
variable {Answer : Request → Type}
variable {Failure Call Reply : Type}

/-- How a program stops running: it ends, or it waits for an answer. -/
inductive Stop
    (State Request : Type)
    (Answer : Request → Type)
    (Failure Reply : Type) where
  | finished (value : Reply)
  | failed (failure : Failure)
  | waiting
      (request : Request)
      (next : Answer request → Program State Request Answer Failure Reply)

/-- The answer of a stretch that ends without waiting. -/
def Stop.answer? :
    Stop State Request Answer Failure Reply → Option (Except Failure Reply)
  | .finished value => some (.ok value)
  | .failed failure => some (.error failure)
  | .waiting _ _ => none

/-- The committed states of one uninterrupted stretch of a program. -/
structure Segment
    (State Request : Type)
    (Answer : Request → Type)
    (Failure Reply : Type) where
  commits : List State
  final : State
  stop : Stop State Request Answer Failure Reply

/-- Run a program up to its end or its next wait. -/
def Program.segment :
    Program State Request Answer Failure Reply → State →
      Segment State Request Answer Failure Reply
  | .done value, state => ⟨[], state, .finished value⟩
  | .fail failure, state => ⟨[], state, .failed failure⟩
  | .read next, state => (next state).segment state
  | .commit write next, state =>
    let rest := next.segment (write state)
    ⟨write state :: rest.commits, rest.final, rest.stop⟩
  | .await request next, state => ⟨[], state, .waiting request next⟩

variable {state : State} {program : Program State Request Answer Failure Reply}

namespace Program

variable {honest : (request : Request) → Answer request → State → Prop}
variable {keeps rely : State → State → Prop}
variable {post : Reply → State → Prop}
variable {failed : Failure → State → Prop}

/-- The committed states of a specified stretch form a guaranteed chain. -/
theorem Ensures.chain
    (ensured : program.Ensures honest keeps rely post failed state) :
    List.IsChain keeps (state :: (program.segment state).commits) := by
  induction program generalizing state with
  | done value => exact List.isChain_singleton state
  | fail failure => exact List.isChain_singleton state
  | read next ih => exact ih state ensured
  | commit write next ih =>
    exact List.isChain_cons_cons.mpr ⟨ensured.1, ih ensured.2⟩
  | await request next ih => exact List.isChain_singleton state

variable {drift : State → State → Prop}

/-- A program that never waits runs alone as its one stretch. -/
theorem Runs.of_segment {result : Except Failure Reply}
    (ended : (program.segment state).stop.answer? = some result) :
    Runs honest drift program state (program.segment state).final
      (some result) := by
  induction program generalizing state with
  | done value =>
    cases ended
    exact .done value state
  | fail failure =>
    cases ended
    exact .fail failure state
  | read next ih => exact .read (ih state ended)
  | commit write next ih => exact .commit (ih ended)
  | await request next ih => cases ended

/-- A stretch may be cut after any of its writes. -/
theorem Runs.of_cut (program : Program State Request Answer Failure Reply)
    (state : State) (count : Nat) :
    Runs honest drift program state
      (((program.segment state).commits.take count).getLastD state) none := by
  induction program generalizing state count with
  | done value =>
    simp only [Program.segment, List.take_nil, List.getLastD_nil]
    exact .cut _ state
  | fail failure =>
    simp only [Program.segment, List.take_nil, List.getLastD_nil]
    exact .cut _ state
  | read next ih => exact .read (ih state state count)
  | commit write next ih =>
    cases count with
    | zero => exact .cut _ state
    | succ count =>
      refine .commit ?_
      have rest := ih (write state) count
      simp only [Program.segment, List.take_succ_cons,
        List.getLastD_cons]
      exact rest
  | await request next ih =>
    simp only [Program.segment, List.take_nil, List.getLastD_nil]
    exact .cut _ state

end Program

/-- A call that is waiting for an answer. -/
structure Flight
    (State Request : Type)
    (Answer : Request → Type)
    (Failure Call Reply : Type) where
  call : Call
  request : Request
  next : Answer request → Program State Request Answer Failure Reply

/-- The durable state together with the calls that are waiting. -/
structure Config
    (State Request : Type)
    (Answer : Request → Type)
    (Failure Call Reply : Type) where
  state : State
  flights : List (Flight State Request Answer Failure Call Reply)

/--
The calls of an object, what the environment may change between calls, which
answers it may give, and when a call may start or resume.  `enter` and
`leave` update the part of the state that records the history of calls.
-/
structure Runtime
    (State Request : Type)
    (Answer : Request → Type)
    (Failure Call Reply : Type) where
  body : Call → Program State Request Answer Failure Reply
  environment : State → State → Prop
  honest : (request : Request) → Answer request → State → Prop
  admits : Call → State → Prop
  resumes : Call → State → Prop
  enter : Call → State → State
  leave : Call → Except Failure Reply → State → State

/-- The call, the first state and the committed writes of one step. -/
structure Event (State Call : Type) where
  call : Option Call
  origin : State
  writes : List State

namespace Runtime

/-- The configuration after a stretch of `call` ran without being cut. -/
def settle (runtime : Runtime State Request Answer Failure Call Reply)
    (call : Call)
    (flights : List (Flight State Request Answer Failure Call Reply))
    (segment : Segment State Request Answer Failure Reply) :
    Config State Request Answer Failure Call Reply :=
  match segment.stop with
  | .finished value =>
    ⟨runtime.leave call (.ok value) segment.final, flights⟩
  | .failed failure =>
    ⟨runtime.leave call (.error failure) segment.final, flights⟩
  | .waiting request next =>
    ⟨segment.final, ⟨call, request, next⟩ :: flights⟩

/--
One step.  A stretch either completes or is cut after some of its writes, in
which case the call is lost.
-/
inductive Step
    (runtime : Runtime State Request Answer Failure Call Reply) :
    Config State Request Answer Failure Call Reply →
      Event State Call →
        Config State Request Answer Failure Call Reply → Prop where
  | environment
      (config : Config State Request Answer Failure Call Reply)
      (later : State)
      (moved : runtime.environment config.state later) :
      Step runtime config ⟨none, later, []⟩ ⟨later, config.flights⟩
  | start
      (config : Config State Request Answer Failure Call Reply)
      (call : Call)
      (admitted : runtime.admits call config.state) :
      Step runtime config
        ⟨some call, runtime.enter call config.state,
          ((runtime.body call).segment
            (runtime.enter call config.state)).commits⟩
        (runtime.settle call config.flights
          ((runtime.body call).segment
            (runtime.enter call config.state)))
  | startCut
      (config : Config State Request Answer Failure Call Reply)
      (call : Call)
      (admitted : runtime.admits call config.state)
      (writes : List State)
      (cut : writes <+:
        ((runtime.body call).segment
          (runtime.enter call config.state)).commits) :
      Step runtime config
        ⟨some call, runtime.enter call config.state, writes⟩
        ⟨writes.getLastD (runtime.enter call config.state), config.flights⟩
  | resume
      (state : State)
      (before after : List (Flight State Request Answer Failure Call Reply))
      (flight : Flight State Request Answer Failure Call Reply)
      (admitted : runtime.resumes flight.call state)
      (answer : Answer flight.request)
      (answered : runtime.honest flight.request answer state) :
      Step runtime ⟨state, before ++ flight :: after⟩
        ⟨some flight.call, state,
          ((flight.next answer).segment state).commits⟩
        (runtime.settle flight.call (before ++ after)
          ((flight.next answer).segment state))
  | resumeCut
      (state : State)
      (before after : List (Flight State Request Answer Failure Call Reply))
      (flight : Flight State Request Answer Failure Call Reply)
      (admitted : runtime.resumes flight.call state)
      (answer : Answer flight.request)
      (answered : runtime.honest flight.request answer state)
      (writes : List State)
      (cut : writes <+: ((flight.next answer).segment state).commits) :
      Step runtime ⟨state, before ++ flight :: after⟩
        ⟨some flight.call, state, writes⟩
        ⟨writes.getLastD state, before ++ after⟩
  | restart
      (config : Config State Request Answer Failure Call Reply) :
      Step runtime config ⟨none, config.state, []⟩ ⟨config.state, []⟩

/-- Configurations reached by any number of steps. -/
inductive Reachable
    (runtime : Runtime State Request Answer Failure Call Reply)
    (initial : State) :
    Config State Request Answer Failure Call Reply → Prop where
  | initial : Reachable runtime initial ⟨initial, []⟩
  | step
      {config next : Config State Request Answer Failure Call Reply}
      {event : Event State Call}
      (reached : Reachable runtime initial config)
      (stepped : runtime.Step config event next) :
      Reachable runtime initial next

/-- Configurations reached from one another by any number of steps. -/
def Later (runtime : Runtime State Request Answer Failure Call Reply) :
    Config State Request Answer Failure Call Reply →
      Config State Request Answer Failure Call Reply → Prop :=
  Relation.ReflTransGen fun config next =>
    ∃ event, runtime.Step config event next

/-! ## The rule for whole runs -/

/--
An invariant, a preorder between earlier and later states and a guarantee for
each call, kept by the environment and by every admitted call.
-/
structure Contract
    (runtime : Runtime State Request Answer Failure Call Reply) where
  holds : State → Prop
  moves : State → State → Prop
  guarantee : Call → State → State → Prop
  refl : ∀ state, moves state state
  trans :
    ∀ {first second third},
      moves first second → moves second third → moves first third
  environment :
    ∀ {state later},
      runtime.environment state later → holds state →
        holds later ∧ moves state later
  enters :
    ∀ {call state},
      runtime.admits call state → holds state →
        holds (runtime.enter call state) ∧
          moves state (runtime.enter call state)
  calls :
    ∀ {call state},
      runtime.admits call state → holds state →
        (runtime.body call).Ensures runtime.honest
          (fun before after =>
            holds after ∧ moves before after ∧ guarantee call before after)
          (fun before later =>
            holds later ∧ moves before later ∧ runtime.resumes call later)
          (fun value last =>
            holds (runtime.leave call (.ok value) last) ∧
              moves last (runtime.leave call (.ok value) last))
          (fun failure last =>
            holds (runtime.leave call (.error failure) last) ∧
              moves last (runtime.leave call (.error failure) last))
          (runtime.enter call state)

namespace Contract

variable {runtime : Runtime State Request Answer Failure Call Reply}
variable (contract : runtime.Contract)

/-- The specification each stretch of `call` meets. -/
def Safe (call : Call) (program : Program State Request Answer Failure Reply)
    (state : State) : Prop :=
  program.Ensures runtime.honest
    (fun before after =>
      contract.holds after ∧ contract.moves before after ∧
        contract.guarantee call before after)
    (fun before later =>
      contract.holds later ∧ contract.moves before later ∧
        runtime.resumes call later)
    (fun value last =>
      contract.holds (runtime.leave call (.ok value) last) ∧
        contract.moves last (runtime.leave call (.ok value) last))
    (fun failure last =>
      contract.holds (runtime.leave call (.error failure) last) ∧
        contract.moves last (runtime.leave call (.error failure) last))
    state

/-- A waiting call is safe when it is safe for every allowed later state. -/
def SafeFlight (state : State)
    (flight : Flight State Request Answer Failure Call Reply) : Prop :=
  contract.Safe flight.call (.await flight.request flight.next) state

theorem SafeFlight.later {later : State}
    {flight : Flight State Request Answer Failure Call Reply}
    (safe : contract.SafeFlight state flight)
    (moved : contract.moves state later) :
    contract.SafeFlight later flight := by
  intro last allowed answer answered
  exact safe last
    ⟨allowed.1, contract.trans moved allowed.2.1, allowed.2.2⟩
    answer answered

variable {call : Call}
  {config next : Config State Request Answer Failure Call Reply}
  {initial : State}

/-- What the completed stretch leaves behind. -/
theorem Safe.settles (safe : contract.Safe call program state)
    (held : contract.holds state)
    (flights : List (Flight State Request Answer Failure Call Reply)) :
    let next := runtime.settle call flights (program.segment state)
    contract.holds next.state ∧ contract.moves state next.state ∧
      ∀ flight ∈ next.flights,
        flight ∈ flights ∨ contract.SafeFlight next.state flight := by
  induction program generalizing state with
  | done value =>
    exact ⟨safe.1, safe.2, fun flight member => Or.inl member⟩
  | fail failure =>
    exact ⟨safe.1, safe.2, fun flight member => Or.inl member⟩
  | read next ih => exact ih state safe held
  | commit write next ih =>
    obtain ⟨holdsNext, moved, rest⟩ := ih safe.2 safe.1.1
    exact ⟨holdsNext, contract.trans safe.1.2.1 moved, rest⟩
  | await request next ih =>
    refine ⟨held, contract.refl state, ?_⟩
    intro flight member
    rcases List.mem_cons.mp member with rfl | old
    · exact Or.inr safe
    · exact Or.inl old

variable {writes : List State} {event : Event State Call}

/-- The last state of a guaranteed chain keeps the invariant. -/
theorem holds_of_chain (held : contract.holds state)
    (chain :
      List.IsChain
        (fun before after =>
          contract.holds after ∧ contract.moves before after ∧
            contract.guarantee call before after)
        (state :: writes)) :
    contract.holds (writes.getLastD state) ∧
      contract.moves state (writes.getLastD state) := by
  induction writes generalizing state with
  | nil => exact ⟨held, contract.refl state⟩
  | cons write writes ih =>
    obtain ⟨first, rest⟩ := List.isChain_cons_cons.mp chain
    obtain ⟨holdsLast, moved⟩ := ih first.1 rest
    rw [List.getLastD_cons]
    exact ⟨holdsLast, contract.trans first.2.1 moved⟩

/-- A prefix of a guaranteed chain is one. -/
theorem chain_of_prefix {relation : State → State → Prop} {commits : List State}
    (cut : writes <+: commits)
    (chain : List.IsChain relation (state :: commits)) :
    List.IsChain relation (state :: writes) := by
  obtain ⟨rest, rfl⟩ := cut
  rw [← List.cons_append] at chain
  exact (List.isChain_append.mp chain).1

/-- The invariant together with the safety of every waiting call. -/
def Sound (config : Config State Request Answer Failure Call Reply) : Prop :=
  contract.holds config.state ∧
    ∀ flight ∈ config.flights, contract.SafeFlight config.state flight

theorem safe_start (admitted : runtime.admits call state)
    (held : contract.holds state) :
    contract.Safe call (runtime.body call) (runtime.enter call state) :=
  contract.calls admitted held

theorem sound_settle {origin : State}
    {flights : List (Flight State Request Answer Failure Call Reply)}
    (safe : contract.Safe call program state) (held : contract.holds state)
    (moved : contract.moves origin state)
    (waiting : ∀ flight ∈ flights, contract.SafeFlight origin flight) :
    contract.Sound (runtime.settle call flights (program.segment state)) ∧
      contract.moves origin
        (runtime.settle call flights (program.segment state)).state := by
  obtain ⟨holdsNext, movedNext, rest⟩ := Safe.settles contract safe held flights
  refine ⟨⟨holdsNext, fun flight member => ?_⟩,
    contract.trans moved movedNext⟩
  rcases rest flight member with old | fresh
  · exact SafeFlight.later contract (waiting flight old)
      (contract.trans moved movedNext)
  · exact fresh

/-- One step keeps the invariant and meets the guarantee of its call. -/
theorem step_sound (sound : contract.Sound config)
    (stepped : runtime.Step config event next) :
    (contract.Sound next ∧ contract.moves config.state next.state) ∧
      ∀ call, event.call = some call →
        List.IsChain (contract.guarantee call)
          (event.origin :: event.writes) := by
  obtain ⟨held, waiting⟩ := sound
  cases stepped with
  | environment _ later moved =>
    obtain ⟨holdsLater, moves⟩ := contract.environment moved held
    refine ⟨⟨⟨holdsLater, fun flight member => ?_⟩, moves⟩, nofun⟩
    exact SafeFlight.later contract (waiting flight member) moves
  | start _ call admitted =>
    obtain ⟨entered, moved⟩ := contract.enters admitted held
    have safe := contract.safe_start admitted held
    refine ⟨sound_settle contract safe entered moved waiting, ?_⟩
    rintro _ ⟨⟩
    exact (Program.Ensures.chain safe).imp fun _ _ related => related.2.2
  | startCut _ call admitted writes cut =>
    obtain ⟨entered, moved⟩ := contract.enters admitted held
    have chain :=
      chain_of_prefix cut
        (Program.Ensures.chain (contract.safe_start admitted held))
    obtain ⟨holdsLast, movedLast⟩ :=
      contract.holds_of_chain entered chain
    refine ⟨⟨⟨holdsLast, fun flight member => ?_⟩,
      contract.trans moved movedLast⟩, ?_⟩
    · exact SafeFlight.later contract (waiting flight member)
        (contract.trans moved movedLast)
    · rintro _ ⟨⟩
      exact chain.imp fun _ _ related => related.2.2
  | resume state before after flight admitted answer answered =>
    have safe :=
      waiting flight (List.mem_append_right _ List.mem_cons_self)
        state ⟨held, contract.refl state, admitted⟩ answer answered
    refine ⟨sound_settle contract safe held (contract.refl state) ?_, ?_⟩
    · intro other member
      refine waiting other ?_
      rcases List.mem_append.mp member with left | right
      · exact List.mem_append_left _ left
      · exact List.mem_append_right _ (List.mem_cons_of_mem _ right)
    · rintro _ ⟨⟩
      exact (Program.Ensures.chain safe).imp fun _ _ related => related.2.2
  | resumeCut state before after flight admitted answer answered writes cut =>
    have safe :=
      waiting flight (List.mem_append_right _ List.mem_cons_self)
        state ⟨held, contract.refl state, admitted⟩ answer answered
    have chain := chain_of_prefix cut (Program.Ensures.chain safe)
    obtain ⟨holdsLast, movedLast⟩ := contract.holds_of_chain held chain
    refine ⟨⟨⟨holdsLast, fun other member => ?_⟩, movedLast⟩, ?_⟩
    · refine SafeFlight.later contract (waiting other ?_) movedLast
      rcases List.mem_append.mp member with left | right
      · exact List.mem_append_left _ left
      · exact List.mem_append_right _ (List.mem_cons_of_mem _ right)
    · rintro _ ⟨⟩
      exact chain.imp fun _ _ related => related.2.2
  | restart _ => exact ⟨⟨⟨held, nofun⟩, contract.refl _⟩, nofun⟩

/-- Every reachable configuration keeps the invariant. -/
theorem reachable_sound (held : contract.holds initial)
    (reached : runtime.Reachable initial config) : contract.Sound config := by
  induction reached with
  | initial => exact ⟨held, nofun⟩
  | step _ stepped ih => exact (contract.step_sound ih stepped).1.1

theorem reachable_holds (held : contract.holds initial)
    (reached : runtime.Reachable initial config) :
    contract.holds config.state :=
  (contract.reachable_sound held reached).1

/-- Every step of a reachable configuration meets its call's guarantee. -/
theorem reachable_guarantee (held : contract.holds initial)
    (reached : runtime.Reachable initial config)
    (stepped : runtime.Step config event next)
    (performed : event.call = some call) :
    List.IsChain (contract.guarantee call)
      (event.origin :: event.writes) :=
  (contract.step_sound (contract.reachable_sound held reached) stepped).2
    call performed

/-- What holds between a reachable configuration and every later one. -/
theorem later_moves (held : contract.holds initial)
    (reached : runtime.Reachable initial config)
    (later : runtime.Later config next) :
    contract.holds next.state ∧ contract.moves config.state next.state := by
  have run : contract.Sound next ∧ contract.moves config.state next.state := by
    induction later with
    | refl =>
      exact ⟨contract.reachable_sound held reached, contract.refl _⟩
    | tail _ stepped ih =>
      obtain ⟨event, step⟩ := stepped
      obtain ⟨sound, moved⟩ := (contract.step_sound ih.1 step).1
      exact ⟨sound, contract.trans ih.2 moved⟩
  exact ⟨run.1.1, run.2⟩

end Contract

end Runtime

end GitOnCloudflare.Foundations
