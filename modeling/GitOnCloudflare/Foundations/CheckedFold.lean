import Mathlib.Data.List.Basic

/-!
# Folds that may fail

Rules for a left fold whose step can end with an error.  An invariant may
mention the items already folded.  One rule starts from a fold that succeeded;
the other proves that it succeeds.
-/

namespace GitOnCloudflare.Foundations.CheckedFold

universe u v w

variable {Failure : Type u} {Item : Type v} {State : Type w}

theorem bind_eq_ok {First Second : Type w} {run : Except Failure First}
    {next : First → Except Failure Second} {result : Second} :
    (run >>= next) = .ok result ↔
      ∃ value, run = .ok value ∧ next value = .ok result := by
  cases run with
  | error failure =>
    constructor
    · intro impossible
      cases impossible
    · rintro ⟨value, impossible, _⟩
      cases impossible
  | ok value =>
    constructor
    · intro accepted
      exact ⟨value, rfl, accepted⟩
    · rintro ⟨other, same, accepted⟩
      cases same
      exact accepted

theorem map_eq_ok {First Second : Type w} {run : Except Failure First}
    {change : First → Second} {result : Second} :
    run.map change = .ok result ↔
      ∃ value, run = .ok value ∧ change value = result := by
  cases run with
  | error failure =>
    constructor
    · intro impossible
      cases impossible
    · rintro ⟨value, impossible, _⟩
      cases impossible
  | ok value =>
    constructor
    · intro accepted
      cases accepted
      exact ⟨value, rfl, rfl⟩
    · rintro ⟨other, same, rfl⟩
      cases same
      rfl

theorem foldlM_cons_eq_ok (step : State → Item → Except Failure State)
    (start final : State) (item : Item) (items : List Item) :
    (item :: items).foldlM step start = .ok final ↔
      ∃ next, step start item = .ok next ∧
        items.foldlM step next = .ok final := by
  rw [List.foldlM_cons]
  exact bind_eq_ok

variable {step : State → Item → Except Failure State} {start : State}
  {items : List Item}
  {state final : State}

/-- One more step after a fold. -/
theorem foldlM_concat {next : State} {seen : List Item} {item : Item}
    (folded : seen.foldlM step start = .ok state)
    (stepped : step state item = .ok next) :
    (seen ++ [item]).foldlM step start = .ok next := by
  rw [List.foldlM_append, folded]
  exact (foldlM_cons_eq_ok _ _ _ _ _).mpr ⟨next, stepped, rfl⟩

/-- What every step preserves holds after a fold that succeeded. -/
theorem foldlM_preserves (accepted : items.foldlM step start = .ok final)
    (invariant : State → Prop) (initially : invariant start)
    (preserved : ∀ state item next, item ∈ items → invariant state →
      step state item = .ok next → invariant next) : invariant final := by
  induction items generalizing start with
  | nil =>
    cases accepted
    exact initially
  | cons item items ih =>
    rcases (foldlM_cons_eq_ok _ _ _ _ _).mp accepted with
      ⟨next, stepped, rest⟩
    apply ih rest
    · exact preserved start item next List.mem_cons_self initially stepped
    · intro state other after member
      exact preserved state other after (List.mem_cons_of_mem _ member)

/-- A fold succeeds when no step fails on a state that satisfies the
invariant. -/
theorem foldlM_total (items : List Item) (invariant : List Item → State → Prop)
    (start : State) (initially : invariant [] start)
    (total : ∀ seen item rest state, items = seen ++ item :: rest →
      invariant seen state →
        ∃ next, step state item = .ok next ∧
          invariant (seen ++ [item]) next) :
    ∃ final, items.foldlM step start = .ok final ∧
      invariant items final := by
  have go : ∀ (rest seen : List Item) (state : State),
      items = seen ++ rest → invariant seen state →
        ∃ final, rest.foldlM step state = .ok final ∧
          invariant items final := by
    intro rest
    induction rest with
    | nil =>
      intro seen state split holds
      rw [List.append_nil] at split
      exact ⟨state, rfl, split ▸ holds⟩
    | cons item rest ih =>
      intro seen state split holds
      rcases total seen item rest state split holds with
        ⟨next, stepped, held⟩
      rcases ih (seen ++ [item]) next (by simp [split]) held with
        ⟨final, folded, last⟩
      refine ⟨final, ?_, last⟩
      exact (foldlM_cons_eq_ok _ _ _ _ _).mpr ⟨next, stepped, folded⟩
  exact go items [] start rfl initially

/-- The same for a loop over the numbers below a bound. -/
theorem foldlM_range_total {step : State → Nat → Except Failure State}
    (bound : Nat) (invariant : Nat → State → Prop) (start : State)
    (initially : invariant 0 start)
    (total : ∀ index state, index < bound → invariant index state →
      ∃ next, step state index = .ok next ∧ invariant (index + 1) next) :
    ∃ final, (List.range bound).foldlM step start = .ok final ∧
      invariant bound final := by
  induction bound with
  | zero => exact ⟨start, rfl, initially⟩
  | succ bound ih =>
    rcases ih fun index state below =>
      total index state (Nat.lt_succ_of_lt below) with ⟨state, folded, holds⟩
    rcases total bound state (Nat.lt_succ_self bound) holds with
      ⟨next, stepped, held⟩
    refine ⟨next, ?_, held⟩
    rw [List.range_succ]
    exact foldlM_concat folded stepped

/-- An invariant over the items folded so far holds after a fold that
succeeded. -/
theorem foldlM_keeps (accepted : items.foldlM step start = .ok final)
    (invariant : List Item → State → Prop) (initially : invariant [] start)
    (kept : ∀ seen item rest state next, items = seen ++ item :: rest →
      invariant seen state → step state item = .ok next →
        invariant (seen ++ [item]) next) : invariant items final := by
  have go : ∀ (rest seen : List Item) (state : State),
      items = seen ++ rest → invariant seen state →
        rest.foldlM step state = .ok final → invariant items final := by
    intro rest
    induction rest with
    | nil =>
      intro seen state split holds folded
      cases folded
      rw [List.append_nil] at split
      exact split ▸ holds
    | cons item rest ih =>
      intro seen state split holds folded
      rcases (foldlM_cons_eq_ok _ _ _ _ _).mp folded with
        ⟨next, stepped, tail⟩
      apply ih (seen ++ [item]) next (by simp [split]) _ tail
      exact kept seen item rest state next split holds stepped
  exact go items [] start rfl initially accepted

/-- A run succeeds exactly when something is accepted, and then its result
satisfies a predicate. -/
def Decides (run : Except Failure State) (accepts : Prop)
    (holds : State → Prop) : Prop :=
  match run with
  | .ok final => accepts ∧ holds final
  | .error _ => ¬ accepts

/-- A stream in chunks: whether the fold succeeds and what it knows then is
about the stream alone when that is so for every chunk. -/
theorem foldlM_chunks {Element : Type v}
    {step : State → List Element → Except Failure State}
    {accepts : List Element → Prop} {invariant : List Element → State → Prop}
    (shorter : ∀ seen more, accepts (seen ++ more) → accepts seen)
    (kept : ∀ seen chunk state, accepts seen → invariant seen state →
      Decides (step state chunk) (accepts (seen ++ chunk))
        (invariant (seen ++ chunk))) (chunks : List (List Element))
    {start : State} (accepted : accepts []) (initially : invariant [] start) :
    Decides (chunks.foldlM step start) (accepts chunks.flatten)
      (invariant chunks.flatten) := by
  have go : ∀ (rest : List (List Element)) (seen : List Element) (state : State),
      accepts seen → invariant seen state →
        Decides (rest.foldlM step state) (accepts (seen ++ rest.flatten))
          (invariant (seen ++ rest.flatten)) := by
    intro rest
    induction rest with
    | nil =>
      intro seen state accepted holds
      rw [List.foldlM_nil, List.flatten_nil, List.append_nil]
      exact ⟨accepted, holds⟩
    | cons chunk rest ih =>
      intro seen state accepted holds
      have stepped := kept seen chunk state accepted holds
      rw [List.foldlM_cons, List.flatten_cons, ← List.append_assoc]
      cases result : step state chunk with
      | error failure =>
        rw [result] at stepped
        exact fun whole => stepped (shorter _ _ whole)
      | ok next =>
        rw [result] at stepped
        exact ih (seen ++ chunk) next stepped.1 stepped.2
  exact go chunks [] start accepted initially

/-- The states that a fold goes through. -/
def Visits (step : State → Item → Except Failure State) (items : List Item)
    (start state : State) : Prop :=
  ∃ seen rest, items = seen ++ rest ∧ seen.foldlM step start = .ok state

/-- An invariant over the items folded so far holds in every state that a
fold goes through. -/
theorem Visits.keeps (visits : Visits step items start state)
    (invariant : List Item → State → Prop) (initially : invariant [] start)
    (kept : ∀ seen item rest state next, items = seen ++ item :: rest →
      invariant seen state → step state item = .ok next →
        invariant (seen ++ [item]) next) :
    ∃ seen rest, items = seen ++ rest ∧ invariant seen state := by
  rcases visits with ⟨seen, rest, split, folded⟩
  refine ⟨seen, rest, split, ?_⟩
  apply foldlM_keeps folded invariant initially
  intro earlier item later before next middle
  apply kept earlier item (later ++ rest) before next
  rw [split, middle]
  simp

/-- What every step preserves holds after a fold without failures. -/
theorem foldl_preserves (step : State → Item → State) (items : List Item)
    (start : State) (invariant : State → Prop) (initially : invariant start)
    (preserved : ∀ state, ∀ item ∈ items, invariant state →
      invariant (step state item)) : invariant (items.foldl step start) := by
  induction items generalizing start with
  | nil => exact initially
  | cons item items ih =>
    rw [List.foldl_cons]
    apply ih
    · exact preserved start item List.mem_cons_self initially
    · intro state other member
      exact preserved state other (List.mem_cons_of_mem _ member)

/-- A map whose every item succeeds. -/
theorem mapM_eq_ok {Result : Type w} {run : Item → Except Failure Result}
    {value : Item → Result} (each : ∀ item ∈ items, run item = .ok (value item)) :
    items.mapM run = .ok (items.map value) := by
  induction items with
  | nil => rfl
  | cons item items ih =>
    rw [List.mapM_cons, List.map_cons]
    apply bind_eq_ok.mpr
    refine ⟨value item, each item List.mem_cons_self, ?_⟩
    apply bind_eq_ok.mpr
    refine ⟨items.map value, ?_, rfl⟩
    exact ih fun other member => each other (List.mem_cons_of_mem _ member)

end GitOnCloudflare.Foundations.CheckedFold
