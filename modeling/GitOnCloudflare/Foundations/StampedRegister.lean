import Mathlib.Logic.Function.Basic
import Mathlib.Order.Lattice

/-!
# Registers that keep the newest write

A register holds the write with the largest stamp it has been offered.  Two
writes of one stamp with different values are a conflict, which a register
refuses.  When every write is read off one history, offers arrive in any
order and any number of times without a conflict, and the registers depend
only on which writes were offered.
-/

namespace GitOnCloudflare.Foundations

/-- What a register holds. -/
structure Stamped (Stamp Value : Type) where
  stamp : Stamp
  value : Value
deriving DecidableEq

/-- A write offered to the register of a key. -/
structure Offer (Key Stamp Value : Type) where
  key : Key
  stamp : Stamp
  value : Value
deriving DecidableEq

namespace Offer

variable {Key Stamp Value : Type}

def stamped (offer : Offer Key Stamp Value) : Stamped Stamp Value :=
  ⟨offer.stamp, offer.value⟩

end Offer

/-- One register for each key. -/
abbrev Registers (Key Stamp Value : Type) :=
  Key → Option (Stamped Stamp Value)

namespace Registers

variable {Key Stamp Value : Type}
variable [LinearOrder Stamp]

/-! ## The newest of the offers -/

/-- Every register holds an offer of its key of the largest stamp, and
nothing when its key was never offered. -/
structure Newest
    (registers : Registers Key Stamp Value)
    (offers : List (Offer Key Stamp Value)) : Prop where
  offered :
    ∀ key held, registers key = some held →
      (⟨key, held.stamp, held.value⟩ : Offer Key Stamp Value) ∈ offers
  largest :
    ∀ offered ∈ offers, ∃ held, registers offered.key = some held ∧
      offered.stamp ≤ held.stamp

theorem Newest.nil :
    Newest (fun _ => none : Registers Key Stamp Value) [] where
  offered := nofun
  largest := nofun

variable {offers : List (Offer Key Stamp Value)}
  {registers next : Registers Key Stamp Value} {offered : Offer Key Stamp Value}

/-- Registers that are newest of the same offers agree, when no two offers of
one key and stamp differ. -/
theorem Newest.unique {first second : Registers Key Stamp Value}
    {others : List (Offer Key Stamp Value)}
    (consistent :
      ∀ offered ∈ offers, ∀ other ∈ offers, offered.key = other.key →
        offered.stamp = other.stamp → offered.value = other.value)
    (same : ∀ offered, offered ∈ offers ↔ offered ∈ others)
    (left : Newest first offers) (right : Newest second others) :
    first = second := by
  have half
      {one two : Registers Key Stamp Value}
      {list rest : List (Offer Key Stamp Value)}
      (into : ∀ offered, offered ∈ list → offered ∈ rest)
      (newest : Newest one list)
      (other : Newest two rest)
      {key : Key}
      {held : Stamped Stamp Value}
      (found : one key = some held) :
      ∃ kept, two key = some kept ∧ held.stamp ≤ kept.stamp :=
    other.largest _ (into _ (newest.offered key held found))
  funext key
  cases found : first key with
  | none =>
    cases kept : second key with
    | none => rfl
    | some held =>
      rcases half (fun _ => (same _).mpr) right left kept with
        ⟨old, present, -⟩
      rw [found] at present
      cases present
  | some held =>
    rcases half (fun _ => (same _).mp) left right found with
      ⟨kept, present, below⟩
    rcases half (fun _ => (same _).mpr) right left present with
      ⟨again, back, above⟩
    rw [found, Option.some.injEq] at back
    subst back
    have stamps : held.stamp = kept.stamp := le_antisymm below above
    have values : held.value = kept.value :=
      consistent _ (left.offered key held found) _
        ((same _).mpr (right.offered key kept present)) rfl stamps
    rw [present]
    cases held
    cases kept
    simp_all

/-! ## Offering a write -/

variable [DecidableEq Key] [DecidableEq Value]

/-- What a register holds after an offer, unless the two conflict. -/
def accept (held : Option (Stamped Stamp Value)) (offered : Stamped Stamp Value) :
    Option (Stamped Stamp Value) :=
  match held with
  | none => some offered
  | some current =>
    if current.stamp < offered.stamp then some offered
    else if offered.stamp = current.stamp ∧ current.value ≠ offered.value then
      none
    else some current

def offer (registers : Registers Key Stamp Value)
    (offered : Offer Key Stamp Value) : Option (Registers Key Stamp Value) :=
  (accept (registers offered.key) offered.stamped).map fun next =>
    Function.update registers offered.key (some next)

def offerAll (registers : Registers Key Stamp Value) :
    List (Offer Key Stamp Value) → Option (Registers Key Stamp Value)
  | [] => some registers
  | offered :: rest =>
    (registers.offer offered).bind fun next => next.offerAll rest

theorem accept_eq_none_iff {held : Option (Stamped Stamp Value)}
    {offered : Stamped Stamp Value} :
    accept held offered = none ↔
      ∃ current, held = some current ∧
        current.stamp = offered.stamp ∧ current.value ≠ offered.value := by
  cases held with
  | none => simp [accept]
  | some current =>
    simp only [accept, Option.some.injEq, exists_eq_left']
    split_ifs with newer conflict
    · simp only [false_iff, not_and]
      intro same
      exact absurd same (ne_of_lt newer)
    · exact iff_of_true rfl ⟨conflict.1.symm, conflict.2⟩
    · simp only [false_iff, not_and]
      intro same different
      exact conflict ⟨same.symm, different⟩

/-- An accepted offer leaves a register at what it held or at the offer, and
at neither of the two below the other. -/
theorem accept_newest {held : Option (Stamped Stamp Value)}
    {offered next : Stamped Stamp Value}
    (accepted : accept held offered = some next) :
    (next = offered ∨ held = some next) ∧ offered.stamp ≤ next.stamp ∧
      ∀ current, held = some current → current.stamp ≤ next.stamp := by
  cases held with
  | none =>
    simp only [accept, Option.some.injEq] at accepted
    subst accepted
    exact ⟨Or.inl rfl, le_rfl, nofun⟩
  | some current =>
    simp only [accept] at accepted
    split_ifs at accepted with newer conflict
    · cases accepted
      refine ⟨Or.inl rfl, le_rfl, ?_⟩
      rintro _ ⟨⟩
      exact le_of_lt newer
    · cases accepted
      refine ⟨Or.inr rfl, not_lt.mp newer, ?_⟩
      rintro _ ⟨⟩
      exact le_rfl

theorem offer_eq_some_iff :
    registers.offer offered = some next ↔
      ∃ held, accept (registers offered.key) offered.stamped = some held ∧
        next = Function.update registers offered.key (some held) := by
  unfold offer
  rw [Option.map_eq_some_iff]
  simp only [eq_comm]

theorem offerAll_append (registers : Registers Key Stamp Value)
    (first second : List (Offer Key Stamp Value)) :
    registers.offerAll (first ++ second) =
      (registers.offerAll first).bind fun next => next.offerAll second := by
  induction first generalizing registers with
  | nil => rfl
  | cons offered rest ih =>
    simp only [List.cons_append, offerAll, Option.bind_assoc]
    congr 1
    funext next
    exact ih next

theorem Newest.offer (newest : Newest registers offers)
    (accepted : registers.offer offered = some next) :
    Newest next (offers ++ [offered]) := by
  rcases offer_eq_some_iff.mp accepted with ⟨held, kept, rfl⟩
  rcases accept_newest kept with ⟨origin, above, growing⟩
  constructor
  · intro key current found
    rw [List.mem_append, List.mem_singleton]
    by_cases same : key = offered.key
    · subst same
      rw [Function.update_self, Option.some.injEq] at found
      subst found
      rcases origin with rfl | old
      · exact Or.inr rfl
      · exact Or.inl (newest.offered offered.key held old)
    · rw [Function.update_of_ne same] at found
      exact Or.inl (newest.offered key current found)
  · intro other member
    rw [List.mem_append, List.mem_singleton] at member
    by_cases same : other.key = offered.key
    · rw [same, Function.update_self]
      refine ⟨held, rfl, ?_⟩
      rcases member with old | rfl
      · rcases newest.largest other old with ⟨current, found, below⟩
        rw [same] at found
        exact le_trans below (growing current found)
      · exact above
    · rw [Function.update_of_ne same]
      rcases member with old | rfl
      · exact newest.largest other old
      · exact absurd rfl same

theorem Newest.offerAll {more : List (Offer Key Stamp Value)}
    (newest : Newest registers offers)
    (accepted : registers.offerAll more = some next) :
    Newest next (offers ++ more) := by
  induction more generalizing registers offers with
  | nil =>
    cases accepted
    rwa [List.append_nil]
  | cons offered rest ih =>
    rcases Option.bind_eq_some_iff.mp accepted with ⟨middle, first, later⟩
    have extended := ih (newest.offer first) later
    rwa [List.append_assoc] at extended

/-- Registers only move to larger stamps. -/
theorem offerAll_mono (accepted : registers.offerAll offers = some next)
    {key : Key} {held : Stamped Stamp Value} (found : registers key = some held) :
    ∃ later, next key = some later ∧ held.stamp ≤ later.stamp := by
  induction offers generalizing registers held with
  | nil =>
    cases accepted
    exact ⟨held, found, le_rfl⟩
  | cons offered rest ih =>
    rcases Option.bind_eq_some_iff.mp accepted with ⟨middle, first, later⟩
    rcases offer_eq_some_iff.mp first with ⟨kept, accepting, rfl⟩
    by_cases same : key = offered.key
    · subst same
      rcases ih later (Function.update_self ..) with ⟨last, reached, above⟩
      exact ⟨last, reached,
        le_trans ((accept_newest accepting).2.2 held found) above⟩
    · exact ih later (by rw [Function.update_of_ne same]; exact found)

/-! ## Offers read off one history -/

/-- The value each key had at each stamp. -/
def RecordedIn (history : Key → Stamp → Value → Prop)
    (registers : Registers Key Stamp Value) : Prop :=
  ∀ key held, registers key = some held → history key held.stamp held.value

/-- No conflict arises when what is held and what is offered come from one
history, and the result comes from it too. -/
theorem RecordedIn.offer {history : Key → Stamp → Value → Prop}
    (functional :
      ∀ key stamp value other, history key stamp value →
        history key stamp other → value = other)
    (recorded : RecordedIn history registers)
    (written : history offered.key offered.stamp offered.value) :
    ∃ next, registers.offer offered = some next ∧
      RecordedIn history next := by
  cases accepted : accept (registers offered.key) offered.stamped with
  | none =>
    rcases accept_eq_none_iff.mp accepted with
      ⟨current, found, same, different⟩
    have old := recorded offered.key current found
    rw [same] at old
    exact absurd (functional _ _ _ _ old written) different
  | some held =>
    refine ⟨_, offer_eq_some_iff.mpr ⟨held, accepted, rfl⟩, ?_⟩
    intro key current found
    by_cases same : key = offered.key
    · subst same
      rw [Function.update_self, Option.some.injEq] at found
      subst found
      rcases (accept_newest accepted).1 with rfl | old
      · exact written
      · exact recorded offered.key held old
    · rw [Function.update_of_ne same] at found
      exact recorded key current found

theorem RecordedIn.offerAll {history : Key → Stamp → Value → Prop}
    (functional :
      ∀ key stamp value other, history key stamp value →
        history key stamp other → value = other)
    (recorded : RecordedIn history registers)
    (written :
      ∀ offered ∈ offers,
        history offered.key offered.stamp offered.value) :
    ∃ next, registers.offerAll offers = some next ∧
      RecordedIn history next := by
  induction offers generalizing registers with
  | nil => exact ⟨registers, rfl, recorded⟩
  | cons offered rest ih =>
    rcases recorded.offer functional (written offered List.mem_cons_self) with
      ⟨middle, first, kept⟩
    rcases ih kept fun other member =>
        written other (List.mem_cons_of_mem offered member) with
      ⟨next, later, last⟩
    exact ⟨next, by simp [Registers.offerAll, first, later], last⟩

end Registers

end GitOnCloudflare.Foundations
