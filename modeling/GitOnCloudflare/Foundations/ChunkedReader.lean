import Mathlib.Data.List.Basic

/-!
# Reading exact lengths from pieces

A reader of a stream that arrives in pieces, which asks for a number of items
at a time.  How the stream was cut cannot be told from what is read.
-/

namespace GitOnCloudflare.Foundations

universe u

/-- What is left of the piece at hand, the pieces to come, and the error that
ends the stream if it breaks off.  A stream never delivers an empty piece. -/
structure ChunkedReader (Item : Type u) where
  pending : List Item
  chunks : List (List Item)
  filled : ∀ chunk ∈ chunks, chunk ≠ []
  fails : Option String := none

namespace ChunkedReader

variable {Item : Type u}

/-- All that has not been read. -/
def ahead (reader : ChunkedReader Item) : List Item :=
  reader.pending ++ reader.chunks.flatten

/-- Take items from the piece at hand and from the next pieces: what was taken,
what is left of the last piece, and the pieces behind it. -/
def takeFrom : List (List Item) → List Item → Nat →
    Option (List Item × List Item × List (List Item))
  | chunks, pending, need =>
    if need ≤ pending.length then
      some (pending.take need, pending.drop need, chunks)
    else
      match chunks with
      | [] => none
      | next :: chunks =>
        (takeFrom chunks next (need - pending.length)).map
          fun taken => (pending ++ taken.1, taken.2)

variable {items : List Item} {reader : ChunkedReader Item}
  {need : Nat}

theorem takeFrom_sound {chunks chunks' : List (List Item)}
    {pending pending' : List Item}
    (taken : takeFrom chunks pending need = some (items, pending', chunks')) :
    items.length = need ∧
      pending ++ chunks.flatten = items ++ (pending' ++ chunks'.flatten) ∧
      chunks' <:+ chunks := by
  induction chunks generalizing pending need items with
  | nil =>
    unfold takeFrom at taken
    split at taken
    · next enough =>
      cases taken
      refine ⟨List.length_take_of_le enough, ?_, List.suffix_refl _⟩
      rw [← List.append_assoc, List.take_append_drop]
    · cases taken
  | cons next chunks ih =>
    unfold takeFrom at taken
    split at taken
    · next enough =>
      cases taken
      refine ⟨List.length_take_of_le enough, ?_, List.suffix_refl _⟩
      rw [← List.append_assoc, List.take_append_drop]
    · next short =>
      rcases Option.map_eq_some_iff.mp taken with
        ⟨⟨later, pending', chunks'⟩, rest, same⟩
      cases same
      rcases ih rest with ⟨counted, split, suffix⟩
      refine ⟨?_, ?_, suffix.trans (List.suffix_cons next chunks)⟩
      · rw [List.length_append, counted]
        omega
      · rw [List.flatten_cons, split, List.append_assoc]

theorem takeFrom_total {chunks : List (List Item)} {pending : List Item}
    {need : Nat} (enough : need ≤ (pending ++ chunks.flatten).length) :
    ∃ taken, takeFrom chunks pending need = some taken := by
  induction chunks generalizing pending need with
  | nil =>
    rw [List.flatten_nil, List.append_nil] at enough
    unfold takeFrom
    exact ⟨_, if_pos enough⟩
  | cons next chunks ih =>
    unfold takeFrom
    by_cases within : need ≤ pending.length
    · exact ⟨_, if_pos within⟩
    · rw [if_neg within]
      rw [List.length_append, List.flatten_cons] at enough
      rcases @ih next (need - pending.length) (by omega) with ⟨taken, found⟩
      exact ⟨_, congrArg (Option.map _) found⟩

/-- Read so many items, or end with the error of the stream, or with the one
given for a stream that is too short. -/
def exact (reader : ChunkedReader Item) (need : Nat) (truncated : String) :
    Except String (List Item × ChunkedReader Item) :=
  match taken : takeFrom reader.chunks reader.pending need with
  | none => .error (reader.fails.getD truncated)
  | some (items, pending, chunks) =>
    .ok (items, {
      pending, chunks, fails := reader.fails
      filled := fun chunk member =>
        reader.filled chunk ((takeFrom_sound taken).2.2.subset member) })

theorem exact_sound {next : ChunkedReader Item} {truncated : String}
    (read : reader.exact need truncated = .ok (items, next)) :
    items.length = need ∧ reader.ahead = items ++ next.ahead ∧
      next.fails = reader.fails := by
  unfold exact at read
  split at read
  · cases read
  · next taken =>
    cases read
    rcases takeFrom_sound taken with ⟨counted, split, _⟩
    exact ⟨counted, split, rfl⟩

theorem exact_total {rest : List Item} (truncated : String)
    (ahead : reader.ahead = items ++ rest) :
    ∃ next, reader.exact items.length truncated = .ok (items, next) ∧
      next.ahead = rest ∧ next.fails = reader.fails := by
  have enough : items.length ≤ (reader.pending ++ reader.chunks.flatten).length := by
    rw [show reader.pending ++ reader.chunks.flatten = items ++ rest from ahead,
      List.length_append]
    exact Nat.le_add_right _ _
  rcases takeFrom_total enough with ⟨⟨taken, pending, chunks⟩, found⟩
  have read : ∃ next, reader.exact items.length truncated = .ok (taken, next) := by
    unfold exact
    split
    · next never => cases never.symm.trans found
    · next same =>
      cases same.symm.trans found
      exact ⟨_, rfl⟩
  rcases read with ⟨next, read⟩
  rcases exact_sound read with ⟨counted, split, kept⟩
  rcases List.append_inj (ahead.symm.trans split) counted.symm with ⟨same, behind⟩
  rw [← same] at read
  exact ⟨next, read, behind.symm, kept⟩

/-- The stream has ended and nothing is at hand. -/
def atEnd (reader : ChunkedReader Item) : Bool :=
  reader.pending.isEmpty && reader.chunks.isEmpty && reader.fails.isNone

theorem atEnd_iff :
    reader.atEnd = true ↔ reader.ahead = [] ∧ reader.fails = none := by
  unfold atEnd ahead
  rw [Bool.and_eq_true, Bool.and_eq_true, List.isEmpty_iff, List.isEmpty_iff,
    Option.isNone_iff_eq_none, List.append_eq_nil_iff]
  constructor
  · rintro ⟨⟨pending, chunks⟩, ends⟩
    rw [chunks]
    exact ⟨⟨pending, rfl⟩, ends⟩
  · rintro ⟨⟨pending, flat⟩, ends⟩
    refine ⟨⟨pending, ?_⟩, ends⟩
    rw [List.flatten_eq_nil_iff] at flat
    rw [List.eq_nil_iff_forall_not_mem]
    intro chunk member
    exact reader.filled chunk member (flat chunk member)

end ChunkedReader

end GitOnCloudflare.Foundations
