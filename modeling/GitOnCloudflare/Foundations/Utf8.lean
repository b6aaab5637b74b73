import Mathlib.Data.List.Basic
import Mathlib.Tactic.Ring

/-!
# Decoding with replacement

The decoder of UTF-8 bytes that puts U+FFFD for every maximal ill-formed part,
one byte at a time, and searches at the line starts of the decoded text.  A
search at line starts can be followed on the bytes.
-/

namespace GitOnCloudflare.Foundations.Utf8

universe u

/-! ## The decoder -/

/-- The bytes still owed by a character, what they add to, and the bounds of
the next one. -/
structure State where
  codePoint : Nat
  needed : Nat
  lower : Nat
  upper : Nat

def State.start : State := ⟨0, 0, 0x80, 0xbf⟩

def replacement : Nat := 0xfffd

/-- A byte between two characters. -/
def leadByte (byte : UInt8) : List Nat × State :=
  let value := byte.toNat
  if value < 0x80 then ([value], State.start)
  else if 0xc2 ≤ value ∧ value ≤ 0xdf then
    ([], ⟨value - 0xc0, 1, 0x80, 0xbf⟩)
  else if 0xe0 ≤ value ∧ value ≤ 0xef then
    ([], ⟨value - 0xe0, 2, if value = 0xe0 then 0xa0 else 0x80,
      if value = 0xed then 0x9f else 0xbf⟩)
  else if 0xf0 ≤ value ∧ value ≤ 0xf4 then
    ([], ⟨value - 0xf0, 3, if value = 0xf0 then 0x90 else 0x80,
      if value = 0xf4 then 0x8f else 0xbf⟩)
  else ([replacement], State.start)

/-- One byte: what it completes, and what is owed after it.  A byte out of
bounds ends an ill-formed part and is read again. -/
def State.step (state : State) (byte : UInt8) : List Nat × State :=
  let value := byte.toNat
  match state.needed with
  | 0 => leadByte byte
  | rest + 1 =>
    if state.lower ≤ value ∧ value ≤ state.upper then
      let codePoint := state.codePoint * 64 + (value - 0x80)
      match rest with
      | 0 => ([codePoint], State.start)
      | rest + 1 => ([], ⟨codePoint, rest + 1, 0x80, 0xbf⟩)
    else
      (replacement :: (leadByte byte).1, (leadByte byte).2)

def decodeFrom : State → List UInt8 → List Nat
  | state, [] => if state.needed = 0 then [] else [replacement]
  | state, byte :: rest =>
    (state.step byte).1 ++ decodeFrom (state.step byte).2 rest

def byteOrderMark : List UInt8 := [0xef, 0xbb, 0xbf]

/-- The bytes behind a byte order mark. -/
def withoutMark (bytes : List UInt8) : List UInt8 :=
  if byteOrderMark.isPrefixOf bytes then bytes.drop 3 else bytes

/-- The text of a byte sequence, without a byte order mark. -/
def decode (bytes : List UInt8) : List Nat :=
  decodeFrom State.start (withoutMark bytes)

/-! ## Characters and bytes -/

/-- Whatever completes the character owed is not ASCII. -/
structure State.Owing (state : State) : Prop where
  bounded : 0x80 ≤ state.lower
  large : ∀ rest, state.needed = rest + 1 →
    0x80 ≤ (state.codePoint * 64 + (state.lower - 0x80)) * 64 ^ rest

theorem owing_start : State.start.Owing where
  bounded := le_rfl
  large := by
    intro rest impossible
    cases impossible

theorem leadByte_owing (byte : UInt8) : (leadByte byte).2.Owing := by
  unfold leadByte
  dsimp only
  split
  · exact owing_start
  · split
    · refine ⟨le_rfl, ?_⟩
      rintro rest ⟨⟩
      dsimp only
      omega
    · split
      · refine ⟨?_, ?_⟩
        · dsimp only
          split <;> omega
        · rintro rest ⟨⟩
          dsimp only
          split <;> omega
      · split
        · refine ⟨?_, ?_⟩
          · dsimp only
            split <;> omega
          · rintro rest ⟨⟩
            dsimp only
            split <;> omega
        · exact owing_start

theorem State.Owing.step {state : State} (owing : state.Owing)
    (byte : UInt8) : (state.step byte).2.Owing := by
  unfold State.step
  dsimp only
  cases needed : state.needed with
  | zero => exact leadByte_owing byte
  | succ rest =>
    dsimp only
    split
    · next inside =>
      cases rest with
      | zero => exact owing_start
      | succ rest =>
        refine ⟨le_rfl, ?_⟩
        rintro more ⟨⟩
        have large := owing.large _ needed
        have bounded := owing.bounded
        have grown : state.codePoint * 64 + (state.lower - 0x80) ≤
            state.codePoint * 64 + (byte.toNat - 0x80) := by
          omega
        have scaled := Nat.mul_le_mul_right (64 ^ (rest + 1)) grown
        dsimp only
        rw [Nat.sub_self, Nat.add_zero, Nat.mul_assoc, ← pow_succ']
        omega
    · exact leadByte_owing byte

variable {state : State} {byte : UInt8}

/-- An ASCII byte completes itself, behind a replacement when something was
owed. -/
theorem step_ascii (owing : state.Owing) (ascii : byte.toNat < 0x80) :
    state.step byte =
      ((if state.needed = 0 then [] else [replacement]) ++ [byte.toNat],
        State.start) := by
  have lead : leadByte byte = ([byte.toNat], State.start) := by
    unfold leadByte
    dsimp only
    rw [if_pos ascii]
  unfold State.step
  dsimp only
  cases needed : state.needed with
  | zero => exact lead
  | succ rest =>
    have bounded := owing.bounded
    dsimp only
    rw [if_neg (by omega), lead, if_neg (Nat.succ_ne_zero rest)]
    rfl

theorem decodeFrom_ascii (ascii : byte.toNat < 0x80) (rest : List UInt8) :
    decodeFrom State.start (byte :: rest) =
      byte.toNat :: decodeFrom State.start rest := by
  rw [decodeFrom, step_ascii owing_start ascii]
  rfl

/-- A character that is owed is not ASCII. -/
theorem head_decodeFrom_owed (owing : state.Owing) (owed : state.needed ≠ 0)
    (bytes : List UInt8) :
    ∃ first rest, decodeFrom state bytes = first :: rest ∧ 0x80 ≤ first := by
  induction bytes generalizing state with
  | nil => exact ⟨replacement, [], if_neg owed, by decide⟩
  | cons byte bytes ih =>
    rw [decodeFrom]
    rcases Nat.exists_eq_succ_of_ne_zero owed with ⟨rest, needed⟩
    by_cases inside : state.lower ≤ byte.toNat ∧ byte.toNat ≤ state.upper
    · cases rest with
      | zero =>
        have stepped : state.step byte =
            ([state.codePoint * 64 + (byte.toNat - 0x80)], State.start) := by
          unfold State.step
          rw [needed]
          dsimp only
          rw [if_pos inside]
        have large := owing.large 0 needed
        have bounded := owing.bounded
        rw [stepped]
        refine ⟨_, _, rfl, ?_⟩
        rw [pow_zero, Nat.mul_one] at large
        omega
      | succ rest =>
        have stepped : state.step byte =
            ([], ⟨state.codePoint * 64 + (byte.toNat - 0x80), rest + 1, 0x80,
              0xbf⟩) := by
          unfold State.step
          rw [needed]
          dsimp only
          rw [if_pos inside]
        have next := owing.step byte
        rw [stepped] at next ⊢
        exact ih next (Nat.succ_ne_zero rest)
    · have stepped : state.step byte =
          (replacement :: (leadByte byte).1, (leadByte byte).2) := by
        unfold State.step
        rw [needed]
        dsimp only
        rw [if_neg inside]
      rw [stepped]
      exact ⟨replacement, _, rfl, by decide⟩

/-- A byte that is not ASCII starts a character that is not. -/
theorem head_decodeFrom_start (large : 0x80 ≤ byte.toNat) (bytes : List UInt8) :
    ∃ first rest, decodeFrom State.start (byte :: bytes) = first :: rest ∧
      0x80 ≤ first := by
  have stepped : State.start.step byte = leadByte byte := rfl
  have owing := leadByte_owing byte
  rw [decodeFrom, stepped]
  by_cases owed : (leadByte byte).2.needed = 0
  · have lone : (leadByte byte).1 = [replacement] := by
      unfold leadByte at owed ⊢
      dsimp only at owed ⊢
      rw [if_neg (by omega)] at owed ⊢
      split
      · next two => rw [if_pos two] at owed; cases owed
      · next two =>
        rw [if_neg two] at owed
        split
        · next three => rw [if_pos three] at owed; cases owed
        · next three =>
          rw [if_neg three] at owed
          split
          · next four => rw [if_pos four] at owed; cases owed
          · rfl
    rw [lone]
    exact ⟨replacement, _, rfl, by decide⟩
  · have silent : (leadByte byte).1 = [] := by
      unfold leadByte at owed ⊢
      dsimp only at owed ⊢
      rw [if_neg (by omega)] at owed ⊢
      split
      · rfl
      · next two =>
        rw [if_neg two] at owed
        split
        · rfl
        · next three =>
          rw [if_neg three] at owed
          split
          · rfl
          · next four =>
            rw [if_neg four] at owed
            exact absurd rfl owed
    rw [silent]
    exact head_decodeFrom_owed owing owed bytes

/-- The decoded text starts with an ASCII character exactly when the bytes
do. -/
theorem decodeFrom_start_cases (bytes : List UInt8) :
    bytes = [] ∧ decodeFrom State.start bytes = [] ∨
      (∃ byte rest, bytes = byte :: rest ∧ byte.toNat < 0x80 ∧
        decodeFrom State.start bytes =
          byte.toNat :: decodeFrom State.start rest) ∨
      ∃ byte rest first more, bytes = byte :: rest ∧ 0x80 ≤ byte.toNat ∧
        decodeFrom State.start bytes = first :: more ∧ 0x80 ≤ first := by
  cases bytes with
  | nil => exact .inl ⟨rfl, rfl⟩
  | cons byte rest =>
    right
    by_cases ascii : byte.toNat < 0x80
    · exact .inl ⟨byte, rest, rfl, ascii, decodeFrom_ascii ascii rest⟩
    · rcases head_decodeFrom_start (not_lt.mp ascii) rest with
        ⟨first, more, decoded, large⟩
      exact .inr ⟨byte, rest, first, more, rfl, not_lt.mp ascii, decoded,
        large⟩

/-! ## Line starts -/

/-- The line terminators of a multiline expression. -/
def isLineTerminator (codePoint : Nat) : Bool :=
  codePoint ∈ [0x0a, 0x0d, 0x2028, 0x2029]

section Matches

variable {Found : Type u}

/-- What a pattern finds at the line starts of a text, in order. -/
def lineMatches (pattern : List Nat → Option Found) :
    Bool → List Nat → List Found
  | _, [] => []
  | atStart, codePoint :: rest =>
    (if atStart then (pattern (codePoint :: rest)).toList else []) ++
      lineMatches pattern (isLineTerminator codePoint) rest

variable {pattern : List Nat → Option Found}

end Matches

end GitOnCloudflare.Foundations.Utf8
