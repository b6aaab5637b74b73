import Mathlib.Data.List.Chain
import Mathlib.Logic.Relation

/-!
# Programs over durable storage

A program of this module runs against a storage state.  It reads the state,
commits writes one after another, fails, or waits for an answer from outside
the store.  Between two waits nothing else touches the state; while a program
waits, other programs and the environment may change it.

The specification `Program.Ensures` is the weakest condition of a
rely-guarantee calculus with crash points: every single committed write is
covered by a guarantee, and the rest of a program after a wait is covered for
every state the rely relation allows.  Nothing here mentions a particular
store or a particular set of calls.
-/

namespace GitOnCloudflare.Foundations

/-- A program over a durable state, with explicit waits. -/
inductive Program
    (State Request : Type)
    (Answer : Request → Type)
    (Failure Value : Type) : Type where
  | done (value : Value)
  | fail (failure : Failure)
  | read (next : State → Program State Request Answer Failure Value)
  | commit
      (write : State → State)
      (next : Program State Request Answer Failure Value)
  | await
      (request : Request)
      (next :
        Answer request → Program State Request Answer Failure Value)

namespace Program

variable {State Request : Type}
variable {Answer : Request → Type}
variable {Failure Value Other : Type}

/-- Sequential composition. -/
def bind (program : Program State Request Answer Failure Value)
    (rest : Value → Program State Request Answer Failure Other) :
    Program State Request Answer Failure Other :=
  match program with
  | done value => rest value
  | fail failure => fail failure
  | read next => read fun state => (next state).bind rest
  | commit write next => commit write (next.bind rest)
  | await request next => await request fun answer => (next answer).bind rest

instance : Monad (Program State Request Answer Failure) where
  pure := done
  bind := bind

/-- Run `handler` in place of a failure. -/
def handle (program : Program State Request Answer Failure Value)
    (handler : Failure → Program State Request Answer Failure Value) :
    Program State Request Answer Failure Value :=
  match program with
  | done value => done value
  | fail failure => handler failure
  | read next => read fun state => (next state).handle handler
  | commit write next => commit write (next.handle handler)
  | await request next =>
    await request fun answer => (next answer).handle handler

/-- Observe a part of the state. -/
def observe (view : State → Value) :
    Program State Request Answer Failure Value :=
  read fun state => done (view state)

/-- One separately committed write. -/
def modify (write : State → State) :
    Program State Request Answer Failure Unit :=
  commit write (done ())

/-- One wait for an answer from outside the store. -/
def ask (request : Request) :
    Program State Request Answer Failure (Answer request) :=
  await request done

/--
A transaction reads the state once, then either fails without writing or
commits its complete result as one write.
-/
def transaction (body : State → Except Failure (Value × State)) :
    Program State Request Answer Failure Value :=
  read fun state =>
    match body state with
    | .ok (value, after) => commit (fun _ => after) (done value)
    | .error failure => fail failure

@[simp]
theorem pure_eq_done (value : Value) :
    (pure value : Program State Request Answer Failure Value) =
      done value :=
  rfl

@[simp]
theorem bind_eq_bind (program : Program State Request Answer Failure Value)
    (rest : Value → Program State Request Answer Failure Other) :
    program >>= rest = program.bind rest :=
  rfl

/-! ## The calculus -/

/--
`Ensures honest keeps rely post failed` holds of a program at a state when
every committed write is related by `keeps`, every answered wait is resumed
safely from each state `rely` allows, and the program stops in `post` or in
`failed`.
-/
def Ensures (honest : (request : Request) → Answer request → State → Prop)
    (keeps rely : State → State → Prop) (post : Value → State → Prop)
    (failed : Failure → State → Prop) :
    Program State Request Answer Failure Value → State → Prop
  | done value, state => post value state
  | fail failure, state => failed failure state
  | read next, state => (next state).Ensures honest keeps rely post failed state
  | commit write next, state =>
    keeps state (write state) ∧
      next.Ensures honest keeps rely post failed (write state)
  | await request next, state =>
    ∀ later, rely state later →
      ∀ answer, honest request answer later →
        (next answer).Ensures honest keeps rely post failed later

variable {post : Value → State → Prop}
  {program : Program State Request Answer Failure Value} {state : State}

section Rules

variable {honest : (request : Request) → Answer request → State → Prop}
variable {keeps rely : State → State → Prop}
variable {failed : Failure → State → Prop}

theorem ensures_bind (program : Program State Request Answer Failure Value)
    (rest : Value → Program State Request Answer Failure Other)
    (post : Other → State → Prop) (state : State) :
    (program.bind rest).Ensures honest keeps rely post failed state ↔
      program.Ensures honest keeps rely
        (fun value last =>
          (rest value).Ensures honest keeps rely post failed last)
        failed state := by
  induction program generalizing state with
  | done value => rfl
  | fail failure => rfl
  | read next ih => exact ih state state
  | commit write next ih =>
    exact and_congr_right fun _ => ih (write state)
  | await request next ih =>
    refine forall_congr' fun later => forall_congr' fun _ => ?_
    exact forall_congr' fun answer => forall_congr' fun _ => ih answer later

variable {keeps' : State → State → Prop}

/-- Consequence: weaken the postconditions and the guarantee. -/
theorem Ensures.mono {post' : Value → State → Prop}
    {failed' : Failure → State → Prop}
    (ensured : program.Ensures honest keeps rely post failed state)
    (weakerKeeps : ∀ before after, keeps before after → keeps' before after)
    (weakerPost : ∀ value last, post value last → post' value last)
    (weakerFailed : ∀ failure last, failed failure last → failed' failure last) :
    program.Ensures honest keeps' rely post' failed' state := by
  induction program generalizing state with
  | done value => exact weakerPost value state ensured
  | fail failure => exact weakerFailed failure state ensured
  | read next ih => exact ih state ensured
  | commit write next ih =>
    exact ⟨weakerKeeps _ _ ensured.1, ih ensured.2⟩
  | await request next ih =>
    intro later allowed answer answered
    exact ih answer (ensured later allowed answer answered)

/-- Carry an invariant that every guaranteed write keeps and every wait
restores. -/
theorem Ensures.carry {rely' : State → State → Prop} (invariant : State → Prop)
    (ensured : program.Ensures honest keeps rely post failed state)
    (start : invariant state)
    (writes :
      ∀ before after, invariant before → keeps before after →
        invariant after ∧ keeps' before after)
    (waits :
      ∀ before later, rely' before later →
        invariant later ∧ rely before later) :
    program.Ensures honest keeps' rely'
      (fun value last => invariant last ∧ post value last)
      (fun failure last => invariant last ∧ failed failure last) state := by
  induction program generalizing state with
  | done value => exact ⟨start, ensured⟩
  | fail failure => exact ⟨start, ensured⟩
  | read next ih => exact ih state ensured start
  | commit write next ih =>
    obtain ⟨kept, guaranteed⟩ := writes _ _ start ensured.1
    exact ⟨guaranteed, ih ensured.2 kept⟩
  | await request next ih =>
    intro later allowed answer answered
    obtain ⟨kept, relied⟩ := waits _ _ allowed
    exact ih answer (ensured later relied answer answered) kept

theorem ensures_handle (program : Program State Request Answer Failure Value)
    (handler : Failure → Program State Request Answer Failure Value)
    (post : Value → State → Prop) (state : State) :
    (program.handle handler).Ensures honest keeps rely post failed state ↔
      program.Ensures honest keeps rely post
        (fun failure last =>
          (handler failure).Ensures honest keeps rely post failed last)
        state := by
  induction program generalizing state with
  | done value => rfl
  | fail failure => rfl
  | read next ih => exact ih state state
  | commit write next ih =>
    exact and_congr_right fun _ => ih (write state)
  | await request next ih =>
    refine forall_congr' fun later => forall_congr' fun _ => ?_
    exact forall_congr' fun answer => forall_congr' fun _ => ih answer later

theorem ensures_ite (condition : Prop) [Decidable condition]
    (first second : Program State Request Answer Failure Value)
    (post : Value → State → Prop) (state : State) :
    (if condition then first else second).Ensures honest keeps rely post
        failed state ↔
      if condition then
        first.Ensures honest keeps rely post failed state
      else
        second.Ensures honest keeps rely post failed state := by
  split <;> rfl

theorem ensures_transaction (body : State → Except Failure (Value × State))
    (post : Value → State → Prop) (state : State) :
    (transaction body).Ensures honest keeps rely post failed state ↔
      match body state with
      | .ok (value, after) => keeps state after ∧ post value after
      | .error failure => failed failure state := by
  simp only [transaction, Ensures]
  cases body state with
  | ok result => rfl
  | error failure => rfl

end Rules

/-! ## Runs of one program -/

/--
The runs of a program that nothing interferes with: `drift` is what may change
while it waits.  A run is cut with no result, or ends with one.
-/
inductive Runs
    (honest : (request : Request) → Answer request → State → Prop)
    (drift : State → State → Prop) :
    Program State Request Answer Failure Value → State → State →
      Option (Except Failure Value) → Prop where
  | cut
      (program : Program State Request Answer Failure Value)
      (state : State) :
      Runs honest drift program state state none
  | done (value : Value) (state : State) :
      Runs honest drift (done value) state state (some (.ok value))
  | fail (failure : Failure) (state : State) :
      Runs honest drift (fail failure) state state (some (.error failure))
  | read
      {next : State → Program State Request Answer Failure Value}
      {state last : State}
      {result : Option (Except Failure Value)}
      (rest : Runs honest drift (next state) state last result) :
      Runs honest drift (read next) state last result
  | commit
      {write : State → State}
      {next : Program State Request Answer Failure Value}
      {state last : State}
      {result : Option (Except Failure Value)}
      (rest : Runs honest drift next (write state) last result) :
      Runs honest drift (commit write next) state last result
  | await
      {request : Request}
      {next : Answer request → Program State Request Answer Failure Value}
      {state later last : State}
      {result : Option (Except Failure Value)}
      (drifted : drift state later)
      (answer : Answer request)
      (answered : honest request answer later)
      (rest : Runs honest drift (next answer) later last result) :
      Runs honest drift (await request next) state last result

/-- What a result of a run satisfies. -/
def Satisfies (post : Value → State → Prop) (failed : Failure → State → Prop)
    (last : State) : Option (Except Failure Value) → Prop
  | none => True
  | some (.ok value) => post value last
  | some (.error failure) => failed failure last

/-- A specified program keeps an invariant in every run, cut or not. -/
theorem Ensures.runs
    {honest : (request : Request) → Answer request → State → Prop}
    {keeps drift : State → State → Prop} {failed : Failure → State → Prop}
    (invariant : State → Prop) {last : State}
    {result : Option (Except Failure Value)}
    (ran : Runs honest drift program state last result)
    (ensured : program.Ensures honest keeps drift post failed state)
    (start : invariant state)
    (kept :
      ∀ before after, invariant before → keeps before after →
        invariant after)
    (drifts :
      ∀ before after, invariant before → drift before after →
        invariant after) :
    invariant last ∧ Satisfies post failed last result := by
  induction ran with
  | cut program state => exact ⟨start, trivial⟩
  | done value state => exact ⟨start, ensured⟩
  | fail failure state => exact ⟨start, ensured⟩
  | read rest ih => exact ih ensured start
  | commit rest ih => exact ih ensured.2 (kept _ _ start ensured.1)
  | await drifted answer answered rest ih =>
    exact ih (ensured _ drifted answer answered) (drifts _ _ start drifted)

section Composition

variable {honest : (request : Request) → Answer request → State → Prop}
variable {drift : State → State → Prop}

/-- Every program has a run that ends, when every wait can be answered. -/
theorem exists_run (refl : ∀ state, drift state state)
    (answers : ∀ request state, ∃ answer, honest request answer state)
    (program : Program State Request Answer Failure Value) (state : State) :
    ∃ last result, Runs honest drift program state last (some result) := by
  induction program generalizing state with
  | done value => exact ⟨state, .ok value, .done value state⟩
  | fail failure => exact ⟨state, .error failure, .fail failure state⟩
  | read next ih =>
    obtain ⟨last, result, ran⟩ := ih state state
    exact ⟨last, result, .read ran⟩
  | commit write next ih =>
    obtain ⟨last, result, ran⟩ := ih (write state)
    exact ⟨last, result, .commit ran⟩
  | await request next ih =>
    obtain ⟨answer, answered⟩ := answers request state
    obtain ⟨last, result, ran⟩ := ih answer state
    exact ⟨last, result, .await (refl state) answer answered ran⟩

end Composition

end Program

end GitOnCloudflare.Foundations
