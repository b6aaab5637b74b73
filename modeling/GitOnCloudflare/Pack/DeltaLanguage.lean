import GitOnCloudflare.Foundations.CheckedFold
import GitOnCloudflare.Pack.DeltaProgram

/-!
# The delta language

What a delta program denotes, with exact sizes, and which programs the
interpreter accepts.  The interpreter puts a size together in one 32-bit word,
where a group's place counts modulo 32, and takes an operand byte behind the
end of the program as zero.  It decides the language exactly on all other
inputs.
-/

namespace GitOnCloudflare.Pack

open Foundations.CheckedFold

/-! ## Sizes -/

/-- The groups of a size, least significant first, and what follows them. -/
def sizeGroups : Bytes → Option (List Nat × Bytes)
  | [] => none
  | byte :: rest =>
    if hasMore byte then
      (sizeGroups rest).map fun (groups, rest) => (lowBits byte :: groups, rest)
    else
      some ([lowBits byte], rest)

/-- The number that the groups of a size denote. -/
def exactSize : List Nat → Nat
  | [] => 0
  | group :: groups => group + 128 * exactSize groups

/-- The 32-bit word that the groups of a size leave. -/
def wordSize : Nat → List Nat → BitVec 32
  | _, [] => 0
  | shift, group :: groups =>
    (BitVec.ofNat 32 group <<< (shift % 32)) ||| wordSize (shift + 7) groups

theorem readVarint_eq (delta : Bytes) (shift : Nat) (out : BitVec 32) :
    readVarint delta shift out =
      match sizeGroups delta with
      | none => .error "delta:truncated-varint"
      | some (groups, rest) => .ok (out ||| wordSize shift groups, rest) := by
  induction delta generalizing shift out with
  | nil => rfl
  | cons byte rest ih =>
    by_cases more : hasMore byte = true
    · simp only [readVarint, sizeGroups, more, if_true, ih]
      cases sizeGroups rest with
      | none => rfl
      | some read => simp [wordSize, BitVec.or_assoc]
    · simp [readVarint, sizeGroups, more, wordSize]

variable {delta rest written result : Bytes} {groups : List Nat} {missing : Nat}

theorem sizeGroups_lt (read : sizeGroups delta = some (groups, rest)) :
    ∀ group ∈ groups, group < 128 := by
  induction delta generalizing groups with
  | nil => cases read
  | cons byte delta ih =>
    have low : lowBits byte < 128 := Nat.mod_lt _ (by decide)
    by_cases more : hasMore byte = true
    · rw [sizeGroups, if_pos more, Option.map_eq_some_iff] at read
      rcases read with ⟨⟨later, after⟩, readLater, same⟩
      cases same
      exact List.forall_mem_cons.mpr ⟨low, ih readLater⟩
    · rw [sizeGroups, if_neg more, Option.some_inj] at read
      cases read
      exact List.forall_mem_singleton.mpr low

/-- Below `2 ^ 31` no group wraps around in the word. -/
theorem toNat_wordSize (low : ∀ group ∈ groups, group < 128) (shift : Nat)
    (fits : exactSize groups * 2 ^ shift < 2 ^ 31) :
    (wordSize shift groups).toNat = exactSize groups * 2 ^ shift := by
  induction groups generalizing shift with
  | nil => simp [wordSize, exactSize]
  | cons group groups ih =>
    rcases List.forall_mem_cons.mp low with ⟨lowGroup, lowLater⟩
    have split : exactSize (group :: groups) * 2 ^ shift =
        group * 2 ^ shift + exactSize groups * 2 ^ (shift + 7) := by
      rw [exactSize, Nat.pow_add]
      ring
    rw [split] at fits ⊢
    have later := ih lowLater (shift + 7) (by omega)
    have place : (BitVec.ofNat 32 group <<< (shift % 32)).toNat =
        group * 2 ^ shift := by
      rcases Nat.eq_zero_or_pos group with rfl | some
      · simp
      · have near : 2 ^ shift < 2 ^ 31 :=
          lt_of_le_of_lt (Nat.le_mul_of_pos_left _ some) (by omega)
        have short : shift < 31 := (Nat.pow_lt_pow_iff_right (by decide)).mp near
        rw [Nat.mod_eq_of_lt (show shift < 32 by omega), BitVec.toNat_shiftLeft,
          BitVec.toNat_ofNat, Nat.shiftLeft_eq,
          Nat.mod_eq_of_lt (show group < 2 ^ 32 by omega)]
        exact Nat.mod_eq_of_lt (by omega)
    rw [wordSize, BitVec.toNat_or, place, later]
    have below : group * 2 ^ shift < 2 ^ (shift + 7) := by
      rw [Nat.pow_add, Nat.mul_comm]
      exact Nat.mul_lt_mul_of_pos_left lowGroup (Nat.two_pow_pos shift)
    rw [Nat.or_comm, Nat.mul_comm (exactSize groups),
      ← Nat.two_pow_add_eq_or_of_lt below]
    exact Nat.add_comm _ _

theorem toInt_wordSize (read : sizeGroups delta = some (groups, rest))
    (fits : exactSize groups < 2 ^ 31) :
    (wordSize 0 groups).toInt = exactSize groups := by
  have word := toNat_wordSize (sizeGroups_lt read) 0 (by omega)
  rw [Nat.pow_zero, Nat.mul_one] at word
  rw [BitVec.toInt_eq_toNat_of_lt (by omega), word]

/-! ## Instructions -/

/-- Operand bytes of a copy put together: their number, how many of them are
missing, and what follows them. -/
structure Operands where
  value : Nat
  missing : Nat
  rest : Bytes

/-- The operands that an opcode announces among the given flags, each with its
weight.  A byte that is missing counts as zero. -/
def operands (opcode : UInt8) : List (Nat × Nat) → Bytes → Operands
  | [], delta => ⟨0, 0, delta⟩
  | (flag, weight) :: fields, delta =>
    if opcode.toNat / flag % 2 = 1 then
      let later := operands opcode fields delta.tail
      ⟨(delta.headD 0).toNat * weight + later.value,
        (if delta.isEmpty then 1 else 0) + later.missing, later.rest⟩
    else
      operands opcode fields delta

def offsetFields : List (Nat × Nat) :=
  [(0x01, 2 ^ 0), (0x02, 2 ^ 8), (0x04, 2 ^ 16), (0x08, 2 ^ 24)]

def sizeFields : List (Nat × Nat) :=
  [(0x10, 2 ^ 0), (0x20, 2 ^ 8), (0x40, 2 ^ 16)]

structure CopyInstruction where
  offset : Nat
  length : Nat
  missing : Nat
  rest : Bytes

/-- The copy instruction of an opcode; a size of zero stands for 65536. -/
def copyInstruction (opcode : UInt8) (delta : Bytes) : CopyInstruction :=
  let offset := operands opcode offsetFields delta
  let size := operands opcode sizeFields offset.rest
  ⟨offset.value, if size.value = 0 then 0x10000 else size.value,
    offset.missing + size.missing, size.rest⟩

/-- The instructions and the bytes they write, when `missing` operand bytes
are taken as zeros.  A well-formed program misses none. -/
inductive Program (base : Bytes) : Bytes → Nat → Bytes → Prop
  | done : Program base [] 0 []
  | insert {length : UInt8} {literal rest written : Bytes} {missing : Nat}
      (low : length.toNat < 128) (nonzero : 0 < length.toNat)
      (present : literal.length = length.toNat)
      (later : Program base rest missing written) :
      Program base (length :: (literal ++ rest)) missing (literal ++ written)
  | copy {opcode : UInt8} {delta written : Bytes} {missing : Nat}
      (high : 128 ≤ opcode.toNat)
      (inside : (copyInstruction opcode delta).offset +
        (copyInstruction opcode delta).length ≤ base.length)
      (later : Program base (copyInstruction opcode delta).rest missing written) :
      Program base (opcode :: delta)
        ((copyInstruction opcode delta).missing + missing)
        ((base.drop (copyInstruction opcode delta).offset).take
          (copyInstruction opcode delta).length ++ written)

variable {base : Bytes}

theorem program_nil_iff :
    Program base [] missing written ↔ missing = 0 ∧ written = [] := by
  constructor
  · intro program
    cases program
    exact ⟨rfl, rfl⟩
  · rintro ⟨rfl, rfl⟩
    exact .done

variable {opcode length : UInt8} {resultSize : Nat} {out program : Bytes}
  {first second : List Nat} {word : BitVec 32}

theorem program_copy_iff (high : 128 ≤ opcode.toNat) :
    Program base (opcode :: delta) missing written ↔
      (copyInstruction opcode delta).offset +
          (copyInstruction opcode delta).length ≤ base.length ∧
        ∃ later after,
          Program base (copyInstruction opcode delta).rest later after ∧
          missing = (copyInstruction opcode delta).missing + later ∧
          written = (base.drop (copyInstruction opcode delta).offset).take
            (copyInstruction opcode delta).length ++ after := by
  constructor
  · intro program
    cases program with
    | insert low => omega
    | copy _ inside later => exact ⟨inside, _, _, later, rfl, rfl⟩
  · rintro ⟨inside, later, after, program, rfl, rfl⟩
    exact .copy high inside program

theorem program_insert_iff (low : length.toNat < 128) :
    Program base (length :: delta) missing written ↔
      0 < length.toNat ∧ length.toNat ≤ delta.length ∧
        ∃ after, Program base (delta.drop length.toNat) missing after ∧
          written = delta.take length.toNat ++ after := by
  constructor
  · intro program
    cases program with
    | @insert _ literal rest after _ _ nonzero present later =>
      rw [← present, List.length_append, List.drop_left, List.take_left]
      exact ⟨present ▸ nonzero, Nat.le_add_right _ _, after, later, rfl⟩
    | copy high => omega
  · rintro ⟨nonzero, present, after, program, rfl⟩
    have whole := Program.insert low nonzero
      (List.length_take_of_le present) program
    rwa [List.take_append_drop] at whole

/-- A program writes one thing and misses a definite number of bytes. -/
theorem Program.unique {missing' : Nat} {written' : Bytes}
    (program : Program base delta missing written)
    (other : Program base delta missing' written') :
    missing = missing' ∧ written = written' := by
  induction program generalizing missing' written' with
  | done =>
    rcases program_nil_iff.mp other with ⟨rfl, rfl⟩
    exact ⟨rfl, rfl⟩
  | insert low _ present _ ih =>
    rcases (program_insert_iff low).mp other with ⟨_, _, after, later, rfl⟩
    rw [← present, List.drop_left] at later
    rw [← present, List.take_left]
    rcases ih later with ⟨rfl, rfl⟩
    exact ⟨rfl, rfl⟩
  | copy high _ _ ih =>
    rcases (program_copy_iff high).mp other with ⟨_, _, _, later, rfl, rfl⟩
    rcases ih later with ⟨rfl, rfl⟩
    exact ⟨rfl, rfl⟩

/-! ## The interpreter -/

/-- A read argument adds its byte to the word and leaves the other fields. -/
theorem readArgument_operands (opcode : UInt8) (flag shift : Nat)
    {out : BitVec 32} (delta : Bytes) (fields : List (Nat × Nat))
    (free : out.toNat < 2 ^ shift) (fits : shift ≤ 24) :
    (readArgument opcode flag shift out delta).1.toNat < 2 ^ (shift + 8) ∧
    out.toNat + (operands opcode ((flag, 2 ^ shift) :: fields) delta).value =
      (readArgument opcode flag shift out delta).1.toNat +
        (operands opcode fields
          (readArgument opcode flag shift out delta).2).value ∧
    (operands opcode ((flag, 2 ^ shift) :: fields) delta).rest =
      (operands opcode fields
        (readArgument opcode flag shift out delta).2).rest := by
  have wider : 2 ^ (shift + 8) = 2 ^ shift * 256 := Nat.pow_add 2 shift 8
  have low : (delta.headD 0).toNat < 256 := UInt8.toNat_lt _
  have narrow : 2 ^ shift ≤ 2 ^ 24 := Nat.pow_le_pow_right (by decide) fits
  have room : (delta.headD 0).toNat * 2 ^ shift ≤ 255 * 2 ^ shift :=
    Nat.mul_le_mul_right _ (by omega)
  by_cases announced : opcode.toNat / flag % 2 = 1
  · have word : (out ||| (BitVec.ofNat 32 (delta.headD 0).toNat <<< shift)).toNat =
        (delta.headD 0).toNat * 2 ^ shift + out.toNat := by
      rw [BitVec.toNat_or, BitVec.toNat_shiftLeft, BitVec.toNat_ofNat,
        Nat.mod_eq_of_lt (show (delta.headD 0).toNat < 2 ^ 32 by omega),
        Nat.shiftLeft_eq,
        Nat.mod_eq_of_lt
          (show (delta.headD 0).toNat * 2 ^ shift < 2 ^ 32 by omega),
        Nat.or_comm, Nat.mul_comm, ← Nat.two_pow_add_eq_or_of_lt free]
    rw [operands, if_pos announced, readArgument, if_pos announced, word, wider]
    exact ⟨by omega, by dsimp only; omega, rfl⟩
  · rw [operands, if_neg announced, readArgument, if_neg announced, wider]
    exact ⟨by dsimp only; omega, rfl, rfl⟩

theorem readCopy_eq (opcode : UInt8) (delta : Bytes) :
    ∃ offset : BitVec 32,
      offset.toNat = (copyInstruction opcode delta).offset ∧
      readCopy opcode delta =
        (offset.toInt, ((copyInstruction opcode delta).length : Int),
          (copyInstruction opcode delta).rest) := by
  generalize a0 : readArgument opcode 0x01 0 0 delta = first
  generalize a1 : readArgument opcode 0x02 8 first.1 first.2 = second
  generalize a2 : readArgument opcode 0x04 16 second.1 second.2 = third
  generalize a3 : readArgument opcode 0x08 24 third.1 third.2 = offset
  generalize b0 : readArgument opcode 0x10 0 0 offset.2 = low
  generalize b1 : readArgument opcode 0x20 8 low.1 low.2 = middle
  generalize b2 : readArgument opcode 0x40 16 middle.1 middle.2 = size
  have h0 := readArgument_operands opcode 0x01 0 delta
    [(0x02, 2 ^ 8), (0x04, 2 ^ 16), (0x08, 2 ^ 24)]
    (show (0 : BitVec 32).toNat < 2 ^ 0 by decide) (by decide)
  rw [a0] at h0
  have h1 := readArgument_operands opcode 0x02 8 first.2
    [(0x04, 2 ^ 16), (0x08, 2 ^ 24)] h0.1 (by decide)
  rw [a1] at h1
  have h2 := readArgument_operands opcode 0x04 16 second.2 [(0x08, 2 ^ 24)] h1.1
    (by decide)
  rw [a2] at h2
  have h3 := readArgument_operands opcode 0x08 24 third.2 [] h2.1 (by decide)
  rw [a3] at h3
  have k0 := readArgument_operands opcode 0x10 0 offset.2
    [(0x20, 2 ^ 8), (0x40, 2 ^ 16)]
    (show (0 : BitVec 32).toNat < 2 ^ 0 by decide) (by decide)
  rw [b0] at k0
  have k1 := readArgument_operands opcode 0x20 8 low.2 [(0x40, 2 ^ 16)] k0.1
    (by decide)
  rw [b1] at k1
  have k2 := readArgument_operands opcode 0x40 16 middle.2 [] k1.1 (by decide)
  rw [b2] at k2
  have offsetValue :
      offset.1.toNat = (operands opcode offsetFields delta).value := by
    have zero : (0 : BitVec 32).toNat = 0 := rfl
    have none : (operands opcode [] offset.2).value = 0 := rfl
    unfold offsetFields
    omega
  have offsetRest : (operands opcode offsetFields delta).rest = offset.2 := by
    rw [offsetFields, h0.2.2, h1.2.2, h2.2.2, h3.2.2]
    rfl
  have sizeValue : size.1.toNat = (operands opcode sizeFields offset.2).value := by
    have zero : (0 : BitVec 32).toNat = 0 := rfl
    have none : (operands opcode [] size.2).value = 0 := rfl
    unfold sizeFields
    omega
  have sizeRest : (operands opcode sizeFields offset.2).rest = size.2 := by
    rw [sizeFields, k0.2.2, k1.2.2, k2.2.2]
    rfl
  have positive : size.1.toInt = (size.1.toNat : Int) :=
    BitVec.toInt_eq_toNat_of_lt (lt_of_lt_of_le
      (Nat.mul_lt_mul_of_pos_left k2.1 (by decide)) (by decide))
  refine ⟨offset.1, offsetValue, ?_⟩
  simp only [readCopy, a0, a1, a2, a3, b0, b1, b2, copyInstruction, offsetRest,
    sizeRest, ← sizeValue, positive]
  by_cases empty : size.1.toNat = 0 <;> simp [empty]

theorem writeOut_eq_ok_iff {bytes : Bytes} :
    writeOut resultSize out bytes = .ok result ↔
      out.length + bytes.length ≤ resultSize ∧ result = out ++ bytes := by
  unfold writeOut
  split
  · next room => simp [room, eq_comm]
  · next full => simp [full]

theorem operands_rest_length (opcode : UInt8) (fields : List (Nat × Nat))
    (delta : Bytes) :
    (operands opcode fields delta).rest.length ≤ delta.length := by
  induction fields generalizing delta with
  | nil => exact le_rfl
  | cons field fields ih =>
    by_cases announced : opcode.toNat / field.1 % 2 = 1
    · rw [operands, if_pos announced]
      apply (ih delta.tail).trans
      rw [List.length_tail]
      exact Nat.sub_le _ _
    · rw [operands, if_neg announced]
      exact ih delta

theorem copyInstruction_rest_length (opcode : UInt8) (delta : Bytes) :
    (copyInstruction opcode delta).rest.length ≤ delta.length :=
  (operands_rest_length _ _ _).trans (operands_rest_length _ _ _)

/-- One round of the loop at a copy opcode. -/
theorem runOpcodes_copy (small : base.length < 2 ^ 31) (resultSize fuel : Nat)
    (high : 128 ≤ opcode.toNat) (delta out : Bytes) :
    runOpcodes base resultSize (fuel + 1) (opcode :: delta) out =
      if (copyInstruction opcode delta).offset +
          (copyInstruction opcode delta).length ≤ base.length then
        (writeOut resultSize out
          ((base.drop (copyInstruction opcode delta).offset).take
            (copyInstruction opcode delta).length)).bind
          (runOpcodes base resultSize fuel (copyInstruction opcode delta).rest)
      else
        .error "delta:copy-out-of-bounds" := by
  rcases readCopy_eq opcode delta with ⟨offset, value, read⟩
  rw [runOpcodes, if_pos high, read]
  dsimp only
  by_cases inside : (copyInstruction opcode delta).offset +
      (copyInstruction opcode delta).length ≤ base.length
  · have positive : offset.toInt = ((copyInstruction opcode delta).offset : Int) := by
      rw [BitVec.toInt_eq_toNat_of_lt (by omega), value]
    rw [positive, if_neg (by omega), if_pos inside, Int.toNat_natCast,
      Int.toNat_natCast]
    rfl
  · rw [if_neg inside, if_pos]
    by_cases positive : 2 * offset.toNat < 2 ^ 32
    · rw [BitVec.toInt_eq_toNat_of_lt positive, value]
      exact .inr (by omega)
    · rw [BitVec.toInt_eq_toNat_cond, if_neg positive]
      exact .inl (by omega)

/-- One round of the loop at an insert opcode. -/
theorem runOpcodes_insert (resultSize fuel : Nat) (low : length.toNat < 128)
    (delta out : Bytes) :
    runOpcodes base resultSize (fuel + 1) (length :: delta) out =
      if length = 0 then
        .error "delta:invalid-opcode"
      else if delta.length < length.toNat then
        .error "delta:insert-out-of-bounds"
      else
        (writeOut resultSize out (delta.take length.toNat)).bind
          (runOpcodes base resultSize fuel (delta.drop length.toNat)) := by
  rw [runOpcodes, if_neg (by omega)]
  rfl

/-- The loop accepts the programs whose copies stay inside the base, with
missing operand bytes taken as zeros, when they write the announced number of
bytes. -/
theorem runOpcodes_eq_ok_iff (small : base.length < 2 ^ 31) {fuel : Nat}
    (enough : delta.length ≤ fuel) :
    runOpcodes base resultSize fuel delta out = .ok result ↔
      ∃ missing written, Program base delta missing written ∧
        result = out ++ written ∧ result.length = resultSize := by
  have finish : ∀ out : Bytes, (if out.length = resultSize then
          (.ok out : Except String Bytes)
        else
          .error "delta:result-size-mismatch") = .ok result ↔
      ∃ missing written, Program base [] missing written ∧
        result = out ++ written ∧ result.length = resultSize := by
    intro out
    simp only [program_nil_iff]
    constructor
    · intro ends
      split at ends
      · next whole =>
          cases ends
          exact ⟨0, [], ⟨rfl, rfl⟩, (List.append_nil _).symm, whole⟩
      · cases ends
    · rintro ⟨_, _, ⟨rfl, rfl⟩, rfl, whole⟩
      rw [List.append_nil] at whole ⊢
      rw [if_pos whole]
  induction fuel generalizing delta out with
  | zero =>
    have none := List.eq_nil_of_length_eq_zero (Nat.le_zero.mp enough)
    subst none
    exact finish out
  | succ fuel ih =>
    cases delta with
    | nil => exact finish out
    | cons opcode delta =>
      have shorter : delta.length ≤ fuel := Nat.le_of_succ_le_succ enough
      have round : ∀ {rest : Bytes}, rest.length ≤ fuel →
          ∀ out part : Bytes,
          (writeOut resultSize out part).bind
              (runOpcodes base resultSize fuel rest) = .ok result ↔
            ∃ missing after, Program base rest missing after ∧
              result = out ++ (part ++ after) ∧
              result.length = resultSize := by
        intro rest within out part
        refine (@bind_eq_ok _ _ _ (writeOut resultSize out part) _ _).trans ?_
        simp only [writeOut_eq_ok_iff, ih within]
        constructor
        · rintro ⟨_, ⟨_, rfl⟩, missing, after, program, same, whole⟩
          exact ⟨missing, after, program, by simpa using same, whole⟩
        · rintro ⟨missing, after, program, same, whole⟩
          refine ⟨_, ⟨?_, rfl⟩, missing, after, program,
            by simpa using same, whole⟩
          rw [← whole, same]
          simp only [List.length_append]
          omega
      by_cases high : 128 ≤ opcode.toNat
      · rw [runOpcodes_copy small _ _ high]
        simp only [program_copy_iff high]
        by_cases inside : (copyInstruction opcode delta).offset +
            (copyInstruction opcode delta).length ≤ base.length
        · rw [if_pos inside]
          exact (round ((copyInstruction_rest_length opcode delta).trans
            shorter) out _).trans ⟨fun ⟨missing, after, program, same, whole⟩ =>
              ⟨_, _, ⟨inside, missing, after, program, rfl, rfl⟩, same, whole⟩,
            fun ⟨_, _, ⟨_, missing, after, program, _, written⟩, same, whole⟩ =>
              ⟨missing, after, program, written ▸ same, whole⟩⟩
        · rw [if_neg inside]
          constructor
          · intro ends
            cases ends
          · rintro ⟨_, _, ⟨within, _⟩, _⟩
            exact absurd within inside
      · have low : opcode.toNat < 128 := Nat.lt_of_not_le high
        rw [runOpcodes_insert _ _ low]
        simp only [program_insert_iff low]
        by_cases zero : opcode = 0
        · rw [if_pos zero, zero]
          constructor
          · intro ends
            cases ends
          · rintro ⟨_, _, ⟨nonzero, _⟩, _⟩
            exact absurd nonzero (by decide)
        rw [if_neg zero]
        by_cases short : delta.length < opcode.toNat
        · rw [if_pos short]
          constructor
          · intro ends
            cases ends
          · rintro ⟨_, _, ⟨_, present, _⟩, _⟩
            exact absurd short (Nat.not_lt_of_le present)
        rw [if_neg short]
        have nonzero : 0 < opcode.toNat := Nat.pos_of_ne_zero
          fun none => zero (UInt8.toNat_inj.mp none)
        have present : opcode.toNat ≤ delta.length := Nat.le_of_not_lt short
        exact (round ((List.drop_sublist _ _).length_le.trans shorter) out
          _).trans ⟨fun ⟨missing, after, program, same, whole⟩ =>
            ⟨_, _, ⟨nonzero, present, after, program, rfl⟩, same, whole⟩,
          fun ⟨missing, _, ⟨_, _, after, program, written⟩, same, whole⟩ =>
            ⟨missing, after, program, written ▸ same, whole⟩⟩

/-! ## Deltas -/

/-- The groups of the two sizes a delta announces, and its instructions. -/
def Announces (delta : Bytes) (first second : List Nat) (program : Bytes) : Prop :=
  ∃ rest, sizeGroups delta = some (first, rest) ∧
    sizeGroups rest = some (second, program)

theorem Announces.unique {program' : Bytes} {first' second' : List Nat}
    (one : Announces delta first second program)
    (other : Announces delta first' second' program') :
    first = first' ∧ second = second' ∧ program = program' := by
  rcases one with ⟨rest, readFirst, readSecond⟩
  rcases other with ⟨rest', readFirst', readSecond'⟩
  cases readFirst.symm.trans readFirst'
  cases readSecond.symm.trans readSecond'
  exact ⟨rfl, rfl, rfl⟩

/-- The delta is complete and well formed for `base` and denotes `written`. -/
def WellFormed (base delta written : Bytes) : Prop :=
  ∃ first second program, Announces delta first second program ∧
    exactSize first = base.length ∧ exactSize second = written.length ∧
    Program base program 0 written

/-- The interpreter returns what a well-formed delta denotes, and an error for
every other one. -/
def Decides (base delta : Bytes) : Prop :=
  (∀ result, applyGitDelta base delta none = .ok result ↔
    WellFormed base delta result) ∧
  ((¬ ∃ written, WellFormed base delta written) →
    ∃ failure, applyGitDelta base delta none = .error failure)

/-- A delta that fits the base only when its sizes are taken as signed 32-bit
words and missing operand bytes as zeros. -/
def Misread (base delta : Bytes) : Prop :=
  ∃ first second program missing written,
    Announces delta first second program ∧
    Program base program missing written ∧
    (wordSize 0 first).toInt = base.length ∧
    (wordSize 0 second).toInt = written.length ∧
    (missing ≠ 0 ∨ 2 ^ 31 ≤ exactSize first ∨ 2 ^ 31 ≤ exactSize second)

/-- A well-formed delta whose base or result has `2 ^ 31` bytes or more. -/
def TooLarge (base delta : Bytes) : Prop :=
  ∃ written, WellFormed base delta written ∧
    (2 ^ 31 ≤ base.length ∨ 2 ^ 31 ≤ written.length)

theorem lt_of_toInt_eq {length : Nat} (same : word.toInt = length) :
    length < 2 ^ 31 := by
  have bound := @BitVec.toInt_lt 32 word
  omega

theorem readVarint_eq_ok_iff :
    readVarint delta 0 0 = .ok (word, rest) ↔
      ∃ groups, sizeGroups delta = some (groups, rest) ∧
        wordSize 0 groups = word := by
  have empty : ∀ groups, (0 : BitVec 32) ||| wordSize 0 groups =
      wordSize 0 groups := fun _ => BitVec.zero_or
  rw [readVarint_eq]
  cases sizeGroups delta with
  | none => simp
  | some taken =>
    rcases taken with ⟨groups, after⟩
    simp only [empty, Except.ok.injEq, Prod.mk.injEq, Option.some.injEq]
    constructor
    · rintro ⟨rfl, rfl⟩
      exact ⟨groups, ⟨rfl, rfl⟩, rfl⟩
    · rintro ⟨_, ⟨rfl, rfl⟩, rfl⟩
      exact ⟨rfl, rfl⟩

/-- What the interpreter accepts. -/
theorem applyGitDelta_eq_ok_iff :
    applyGitDelta base delta none = .ok result ↔
      ∃ first second program missing, Announces delta first second program ∧
        Program base program missing result ∧
        (wordSize 0 first).toInt = base.length ∧
        (wordSize 0 second).toInt = result.length := by
  have runs : ∀ (baseSize resultSize : BitVec 32) (program : Bytes),
      (if baseSize.toInt ≠ base.length then
          Except.error "delta:base-size-mismatch"
        else if (none : Option Nat).any fun limit =>
            (limit : Int) < resultSize.toInt then
          .error "delta:result-size-limit"
        else if resultSize.toInt < 0 then
          .error s!"RangeError: Invalid typed array length: {resultSize.toInt}"
        else
          runOpcodes base resultSize.toInt.toNat program.length program []) =
            .ok result ↔
        ∃ missing, Program base program missing result ∧
          baseSize.toInt = base.length ∧ resultSize.toInt = result.length := by
    intro baseSize resultSize program
    by_cases fits : baseSize.toInt = base.length
    · rw [if_neg (not_not.mpr fits), if_neg (by simp)]
      by_cases negative : resultSize.toInt < 0
      · rw [if_pos negative]
        constructor
        · intro ends
          cases ends
        · rintro ⟨_, _, _, same⟩
          omega
      · rw [if_neg negative,
          runOpcodes_eq_ok_iff (lt_of_toInt_eq fits) le_rfl]
        constructor
        · rintro ⟨missing, written, denotes, rfl, whole⟩
          exact ⟨missing, denotes, fits, by omega⟩
        · rintro ⟨missing, denotes, _, same⟩
          exact ⟨missing, result, denotes, rfl, by omega⟩
    · rw [if_pos fits]
      constructor
      · intro ends
        cases ends
      · rintro ⟨_, _, same, _⟩
        exact absurd same fits
  unfold applyGitDelta
  constructor
  · intro ends
    rcases bind_eq_ok.mp ends with ⟨⟨baseSize, rest⟩, readFirst, ends⟩
    rcases bind_eq_ok.mp ends with ⟨⟨resultSize, program⟩, readSecond, ends⟩
    rcases readVarint_eq_ok_iff.mp readFirst with ⟨first, groups, rfl⟩
    rcases readVarint_eq_ok_iff.mp readSecond with ⟨second, groups', rfl⟩
    rcases (runs _ _ program).mp ends with ⟨missing, denotes, fits, whole⟩
    exact ⟨first, second, program, missing, ⟨rest, groups, groups'⟩, denotes,
      fits, whole⟩
  · rintro ⟨first, second, program, missing, ⟨rest, groups, groups'⟩, denotes,
      fits, whole⟩
    apply bind_eq_ok.mpr
    refine ⟨_, readVarint_eq_ok_iff.mpr ⟨first, groups, rfl⟩, ?_⟩
    apply bind_eq_ok.mpr
    exact ⟨_, readVarint_eq_ok_iff.mpr ⟨second, groups', rfl⟩,
      (runs _ _ program).mpr ⟨missing, denotes, fits, whole⟩⟩

theorem Announces.toInt_eq (announced : Announces delta first second program)
    (smallFirst : exactSize first < 2 ^ 31)
    (smallSecond : exactSize second < 2 ^ 31) :
    (wordSize 0 first).toInt = exactSize first ∧
      (wordSize 0 second).toInt = exactSize second := by
  rcases announced with ⟨rest, readFirst, readSecond⟩
  exact ⟨toInt_wordSize readFirst smallFirst, toInt_wordSize readSecond smallSecond⟩

/-- The interpreter decides the delta language on exactly the inputs that are
neither misread nor too large. -/
theorem applyGitDelta_decides (base delta : Bytes) :
    Decides base delta ↔ ¬ Misread base delta ∧ ¬ TooLarge base delta := by
  constructor
  · rintro ⟨decides, _⟩
    constructor
    · rintro ⟨first, second, program, missing, written, announced, denotes,
        fits, whole, odd⟩
      rcases (decides written).mp (applyGitDelta_eq_ok_iff.mpr
          ⟨first, second, program, missing, announced, denotes, fits, whole⟩) with
        ⟨_, _, _, again, exactFirst, exactSecond, complete⟩
      rcases announced.unique again with ⟨rfl, rfl, rfl⟩
      have none := (denotes.unique complete).1
      have small := lt_of_toInt_eq fits
      have small' := lt_of_toInt_eq whole
      omega
    · rintro ⟨written, wellFormed, large⟩
      rcases applyGitDelta_eq_ok_iff.mp ((decides written).mpr wellFormed) with
        ⟨_, _, _, _, _, _, fits, whole⟩
      have small := lt_of_toInt_eq fits
      have small' := lt_of_toInt_eq whole
      omega
  · rintro ⟨read, small⟩
    have decides : ∀ result, applyGitDelta base delta none = .ok result ↔
        WellFormed base delta result := by
      intro result
      constructor
      · intro accepted
        rcases applyGitDelta_eq_ok_iff.mp accepted with
          ⟨first, second, program, missing, announced, denotes, fits, whole⟩
        have plain : ¬ (missing ≠ 0 ∨ 2 ^ 31 ≤ exactSize first ∨
            2 ^ 31 ≤ exactSize second) := fun odd =>
          read ⟨first, second, program, missing, result, announced, denotes,
            fits, whole, odd⟩
        rcases announced.toInt_eq (by omega) (by omega) with ⟨exact₁, exact₂⟩
        have none : missing = 0 := by omega
        subst none
        exact ⟨first, second, program, announced, by omega, by omega, denotes⟩
      · intro wellFormed
        have within : ¬ (2 ^ 31 ≤ base.length ∨ 2 ^ 31 ≤ result.length) :=
          fun large => small ⟨result, wellFormed, large⟩
        rcases wellFormed with
          ⟨first, second, program, announced, exactFirst, exactSecond, denotes⟩
        rcases announced.toInt_eq (by omega) (by omega) with ⟨same, same'⟩
        exact applyGitDelta_eq_ok_iff.mpr
          ⟨first, second, program, 0, announced, denotes, by omega, by omega⟩
    refine ⟨decides, fun malformed => ?_⟩
    cases ends : applyGitDelta base delta none with
    | ok result => exact absurd ⟨result, (decides result).mp ends⟩ malformed
    | error failure => exact ⟨failure, rfl⟩

/-- A copy that lacks its last operand byte is run, and so is a size of
`2 ^ 32 + 2` for a base of two bytes. -/
theorem not_decides_cutCopy :
    ¬ Decides [7, 8] [2, 1, 0xb0, 1] ∧
      ¬ Decides [7, 8] [0x82, 0x80, 0x80, 0x80, 0x10, 1, 0x90, 1] := by
  constructor
  · rintro ⟨decides, _⟩
    have accepted : applyGitDelta [7, 8] [2, 1, 0xb0, 1] none = .ok [7] := by
      decide +kernel
    rcases (decides _).mp accepted with ⟨_, _, _, ⟨_, first, second⟩, _, _, denotes⟩
    cases first
    cases second
    rcases (program_copy_iff (by decide)).mp denotes with ⟨_, later, _, _, same, _⟩
    rw [show (copyInstruction 0xb0 [1]).missing = 1 from rfl] at same
    omega
  · rintro ⟨decides, _⟩
    have accepted : applyGitDelta [7, 8]
        [0x82, 0x80, 0x80, 0x80, 0x10, 1, 0x90, 1] none = .ok [7] := by
      decide +kernel
    rcases (decides _).mp accepted with ⟨_, _, _, ⟨_, first, _⟩, size, _⟩
    cases first
    exact absurd size (by decide)

end GitOnCloudflare.Pack
