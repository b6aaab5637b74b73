import GitOnCloudflare.Core.PktLine

/-!
# Framing of packet lines

The packets that four hexadecimal digits frame, the round trip of the encoders
and the whole-buffer loop, and where the loops read a header that no digits
frame.  The loops take every header that `parseInt` takes, so they leave the
strict framing exactly when the first header outside it is one of those.
-/

namespace GitOnCloudflare.Core

open Foundations Foundations.BufferLoop

/-! ## Headers -/

def hexDigits : PktBytes → Option (List Nat)
  | [] => some []
  | byte :: rest => do
      let digit ← hexValue byte.toNat
      let digits ← hexDigits rest
      return digit :: digits

/-- The length in a header of four hexadecimal digits. -/
def strictLength (header : PktBytes) : Option Nat :=
  if header.length = 4 then (hexDigits header).map ofDigits else none

/-- A line framed by four hexadecimal digits that fits in the buffer. -/
def StrictLine (buf rest : PktBytes) : Prop :=
  ∃ length, strictLength (buf.take 4) = some length ∧ 4 ≤ length ∧
    length ≤ buf.length ∧ rest = buf.drop length

theorem hexValue_lt {code digit : Nat} (read : hexValue code = some digit) :
    code < 0x80 ∧ digit < 16 ∧ isWhiteSpace code = false ∧ code ≠ 0x2d ∧
      code ≠ 0x2b ∧ code ≠ 0x78 ∧ code ≠ 0x58 := by
  have range : (0x30 ≤ code ∧ code ≤ 0x39 ∧ digit = code - 0x30) ∨
      (0x61 ≤ code ∧ code ≤ 0x66 ∧ digit = code - 0x61 + 10) ∨
      (0x41 ≤ code ∧ code ≤ 0x46 ∧ digit = code - 0x41 + 10) := by
    unfold hexValue at read
    split_ifs at read <;> cases read <;> omega
  refine ⟨by omega, by omega, ?_, by omega, by omega, by omega, by omega⟩
  simp only [isWhiteSpace, Bool.or_eq_false_iff, Bool.and_eq_false_iff,
    decide_eq_false_iff_not, beq_eq_false_iff_ne]
  omega

variable {text : CodePoints} {header buf rest : PktBytes} {n : Nat}

/-- Text of ASCII characters comes from the bytes of these characters. -/
theorem decodeFrom_ascii_iff (ascii : ∀ code ∈ text, code < 0x80)
    (bytes : PktBytes) :
    Utf8.decodeFrom Utf8.State.start bytes = text ↔ codes bytes = text := by
  induction text generalizing bytes with
  | nil =>
    rcases Utf8.decodeFrom_start_cases bytes with
      ⟨rfl, decoded⟩ | ⟨byte, rest, rfl, _, decoded⟩ |
        ⟨byte, rest, first, more, rfl, _, decoded, _⟩
    · simp [decoded, codes]
    · simp [decoded, codes]
    · simp [decoded, codes]
  | cons code text ih =>
    rcases List.forall_mem_cons.mp ascii with ⟨low, lower⟩
    rcases Utf8.decodeFrom_start_cases bytes with
      ⟨rfl, decoded⟩ | ⟨byte, rest, rfl, _, decoded⟩ |
        ⟨byte, rest, first, more, rfl, high, decoded, large⟩
    · simp [decoded, codes]
    · rw [decoded, codes, List.map_cons, List.cons.injEq, List.cons.injEq,
        ih lower, codes]
    · constructor
      · intro same
        rw [decoded] at same
        have first_eq := (List.cons.inj same).1
        omega
      · intro same
        have byte_eq := (List.cons.inj same).1
        omega

/-- Four bytes read as four ASCII characters are these characters. -/
theorem decode_ascii_iff (short : header.length ≤ text.length)
    (long : 3 ≤ text.length) (ascii : ∀ code ∈ text, code < 0x80) :
    Utf8.decode header = text ↔ codes header = text := by
  rw [← decodeFrom_ascii_iff ascii, Utf8.decode, Utf8.withoutMark]
  split
  · next marked =>
      constructor
      · intro same
        have lengths := congrArg List.length
          ((decodeFrom_ascii_iff ascii _).mp same)
        rw [codes, List.length_map, List.length_drop] at lengths
        omega
      · intro same
        have same' := (decodeFrom_ascii_iff ascii _).mp same
        rcases List.isPrefixOf_iff_prefix.mp marked with ⟨rest, rfl⟩
        have first : (0xef : Nat) ∈ text := by
          rw [← same']
          exact List.mem_map.mpr ⟨0xef, by simp [Utf8.byteOrderMark], rfl⟩
        exact absurd (ascii _ first) (by decide)
  · exact Iff.rfl

variable {left bytes payload : PktBytes} {digits : List Nat} {line : CodePoints}

theorem codes_inj {right : PktBytes} (same : codes left = codes right) :
    left = right :=
  List.map_injective_iff.mpr (fun _ _ => UInt8.toNat_inj.mp) same

/-- A header reads as one of the constants only when it is that constant. -/
theorem decode_constant_iff {constant : PktBytes} (short : header.length ≤ 4)
    (long : constant.length = 4) (ascii : ∀ code ∈ codes constant, code < 0x80) :
    Utf8.decode header = codes constant ↔ header = constant := by
  have length : (codes constant).length = 4 := by rw [codes, List.length_map, long]
  rw [decode_ascii_iff (by omega) (by omega) ascii]
  exact ⟨codes_inj, congrArg codes⟩

theorem length_hexDigits (read : hexDigits bytes = some digits) :
    digits.length = bytes.length := by
  induction bytes generalizing digits with
  | nil =>
    cases read
    rfl
  | cons byte rest ih =>
    simp only [hexDigits, Option.bind_eq_bind, Option.bind_eq_some_iff,
      Option.pure_def, Option.some_inj] at read
    rcases read with ⟨digit, _, later, readLater, rfl⟩
    rw [List.length_cons, List.length_cons, ih readLater]

theorem leadingDigits_codes (read : hexDigits bytes = some digits) :
    leadingDigits (codes bytes) = digits ∧
      ∀ code ∈ codes bytes, ∃ digit, hexValue code = some digit := by
  induction bytes generalizing digits with
  | nil =>
    cases read
    exact ⟨rfl, fun _ none => absurd none List.not_mem_nil⟩
  | cons byte rest ih =>
    simp only [hexDigits, Option.bind_eq_bind, Option.bind_eq_some_iff,
      Option.pure_def, Option.some_inj] at read
    rcases read with ⟨digit, readDigit, later, readLater, rfl⟩
    rcases ih readLater with ⟨same, all⟩
    rw [codes] at same all
    constructor
    · rw [codes, List.map_cons, leadingDigits, readDigit, same]
    · rw [codes, List.map_cons]
      exact List.forall_mem_cons.mpr ⟨⟨digit, readDigit⟩, all⟩

/-- A header of four digits is read as the number they denote. -/
theorem parseInt16_strict {length : Nat}
    (strict : strictLength header = some length) :
    parseInt16 (Utf8.decode header) = some (length : Int) := by
  unfold strictLength at strict
  split at strict
  · next four =>
      rcases Option.map_eq_some_iff.mp strict with ⟨digits, read, rfl⟩
      rcases leadingDigits_codes read with ⟨leading, all⟩
      have ascii : ∀ code ∈ codes header, code < 0x80 := fun code member =>
        (hexValue_lt (all code member).choose_spec).1
      have size : (codes header).length = 4 := by rw [codes, List.length_map, four]
      have decoded : Utf8.decode header = codes header :=
        (decode_ascii_iff (by omega) (by omega) ascii).mpr rfl
      have digits_ne : digits ≠ [] := by
        intro none
        have lengths := length_hexDigits read
        rw [none, four] at lengths
        cases lengths
      rw [decoded]
      generalize codes header = text at *
      cases text with
      | nil => cases size
      | cons first text =>
        rcases all first List.mem_cons_self with ⟨digit, readFirst⟩
        have plain := hexValue_lt readFirst
        have trimmed : (first :: text).dropWhile isWhiteSpace =
            first :: text := by
          rw [List.dropWhile_cons, plain.2.2.1]
          rfl
        have unsigned : takeSign (first :: text) = (false, first :: text) := by
          unfold takeSign
          split
          · next same => exact absurd (List.cons.inj same).1 plain.2.2.2.1
          · next same => exact absurd (List.cons.inj same).1 plain.2.2.2.2.1
          · rfl
        have hexadecimal : withoutRadix (first :: text) = first :: text := by
          unfold withoutRadix
          split
          · next same =>
              have second := (List.cons.inj same).2
              rcases all 0x78 (by rw [second]; simp) with ⟨_, read⟩
              cases read
          · next same =>
              have second := (List.cons.inj same).2
              rcases all 0x58 (by rw [second]; simp) with ⟨_, read⟩
              cases read
          · rfl
        unfold parseInt16
        rw [trimmed, unsigned]
        dsimp only
        rw [hexadecimal, leading]
        split
        · exact absurd rfl digits_ne
        · rfl
  · cases strict

/-! ## Encoded lengths -/

theorem hexValue_hexDigit : ∀ digit < 16,
    hexValue (hexDigit digit).toNat = some digit := by
  decide

theorem toString16_of_lt (small : n < 16) : toString16 n = [hexDigit n] := by
  rw [toString16, if_pos (Nat.div_eq_of_lt small), Nat.mod_eq_of_lt small]

theorem toString16_of_ge (large : 16 ≤ n) :
    toString16 n = toString16 (n / 16) ++ [hexDigit (n % 16)] := by
  rw [toString16, if_neg (by omega)]

/-- A number of four hexadecimal digits is padded to all four of them. -/
theorem toHex4_eq (fits : n < 65536) :
    toHex4 n = [hexDigit (n / 4096), hexDigit (n / 256 % 16),
      hexDigit (n / 16 % 16), hexDigit (n % 16)] := by
  have zero : (0x30 : UInt8) = hexDigit 0 := by decide
  by_cases one : n < 16
  · rw [toHex4, toString16_of_lt one, zero, show n / 4096 = 0 by omega,
      show n / 256 % 16 = 0 by omega, show n / 16 % 16 = 0 by omega,
      Nat.mod_eq_of_lt one]
    rfl
  · rw [toHex4, toString16_of_ge (by omega)]
    by_cases two : n < 256
    · rw [toString16_of_lt (by omega), zero, show n / 4096 = 0 by omega,
        show n / 256 % 16 = 0 by omega, show n / 16 % 16 = n / 16 by omega]
      rfl
    · rw [toString16_of_ge (by omega), Nat.div_div_eq_div_mul]
      by_cases three : n < 4096
      · rw [toString16_of_lt (by omega), zero, show n / 4096 = 0 by omega,
          show n / 256 % 16 = n / 256 by omega]
        rfl
      · rw [toString16_of_ge (by omega), Nat.div_div_eq_div_mul,
          toString16_of_lt (by omega)]
        rfl

theorem length_toHex4 (fits : n < 65536) : (toHex4 n).length = 4 := by
  rw [toHex4_eq fits]
  rfl

/-- An encoded length is read back. -/
theorem strictLength_toHex4 (fits : n < 65536) :
    strictLength (toHex4 n) = some n := by
  rw [strictLength, if_pos (length_toHex4 fits), toHex4_eq fits]
  simp only [hexDigits, hexValue_hexDigit (n / 4096) (by omega),
    hexValue_hexDigit (n / 256 % 16) (by omega),
    hexValue_hexDigit (n / 16 % 16) (by omega),
    hexValue_hexDigit (n % 16) (by omega), Option.bind_eq_bind,
    Option.bind_some, Option.pure_def, Option.map_some, ofDigits,
    List.foldl_cons, List.foldl_nil]
  congr 1
  omega

/-! ## Passes of the loops -/

/-- A header that is taken for the length of a line which fits, with the
payload and what follows it. -/
def LineAt (buf payload rest : PktBytes) : Prop :=
  ∃ length : Int, 4 ≤ buf.length ∧
    parseInt16 (Utf8.decode (buf.take 4)) = some length ∧
    4 ≤ length ∧ length - 4 ≤ (buf.drop 4).length ∧
    payload = (buf.drop 4).take (length - 4).toNat ∧
    rest = (buf.drop 4).drop (length - 4).toNat

theorem LineAt.unique {payload' rest' : PktBytes}
    (one : LineAt buf payload rest) (other : LineAt buf payload' rest') :
    payload = payload' ∧ rest = rest' := by
  rcases one with ⟨length, _, read, _, _, rfl, rfl⟩
  rcases other with ⟨length', _, read', _, _, rfl, rfl⟩
  cases read.symm.trans read'
  exact ⟨rfl, rfl⟩

/-- No constant is taken for a line. -/
theorem parseInt16_constants :
    parseInt16 (codes FLUSH) = some 0 ∧ parseInt16 (codes DELIM) = some 1 ∧
      parseInt16 (codes RESPONSE_END) = some 2 := by
  decide

/-- A special packet stands in front. -/
def ConstantAt (buf : PktBytes) : Prop :=
  4 ≤ buf.length ∧
    (buf.take 4 = FLUSH ∨ buf.take 4 = DELIM ∨ buf.take 4 = RESPONSE_END)

/-- How the three loops treat one header. -/
inductive BodiesAgree (buf : PktBytes) : Prop
  | line (payload rest : PktBytes) (shorter : rest.length < buf.length)
      (lineAt : LineAt buf payload rest)
      (inSection : parsePktSection.body buf =
        .push (withoutLineEnd (Utf8.decode payload)) rest shorter)
      (inPrefix : parsePktSectionPrefix.body buf =
        .push (withoutLineEnd (Utf8.decode payload)) rest shorter)
      (inBuffer : decodePktLines.body buf =
        .push (.line (Utf8.decode payload) payload) rest shorter)
  | flush (rest : PktBytes) (shorter : rest.length < buf.length)
      (constant : ConstantAt buf)
      (noLine : ¬ ∃ payload rest, LineAt buf payload rest)
      (inSection : parsePktSection.body buf = .exit (some rest))
      (inPrefix : parsePktSectionPrefix.body buf = .exit (.ok rest))
      (inBuffer : decodePktLines.body buf = .push .flush rest shorter)
  | delimiter (item : PktItem) (rest : PktBytes)
      (shorter : rest.length < buf.length) (message : String)
      (constant : ConstantAt buf)
      (noLine : ¬ ∃ payload rest, LineAt buf payload rest)
      (special : item = .delim ∨ item = .responseEnd)
      (inSection : parsePktSection.body buf = .exit none)
      (inPrefix : parsePktSectionPrefix.body buf = .exit (.invalid message))
      (inBuffer : decodePktLines.body buf = .push item rest shorter)
  | stop (failure : PrefixExit) (rest : PktBytes)
      (noLine : ¬ ∃ payload rest, LineAt buf payload rest)
      (failed : ∀ rest, failure ≠ .ok rest)
      (inSection : parsePktSection.body buf = .exit none)
      (inPrefix : parsePktSectionPrefix.body buf = .exit failure)
      (inBuffer : decodePktLines.body buf = .exit rest)

theorem bodiesAgree (buf : PktBytes) : BodiesAgree buf := by
  by_cases long : 4 ≤ buf.length
  · have noLine : ∀ value : Int, value < 4 →
        parseInt16 (Utf8.decode (buf.take 4)) = some value →
        ¬ ∃ payload rest, LineAt buf payload rest := by
      rintro value small read ⟨payload, rest, length, _, read', large, _⟩
      cases read.symm.trans read'
      omega
    have constantAt : ∀ constant, constant.length = 4 →
        (∀ code ∈ codes constant, code < 0x80) →
        Utf8.decode (buf.take 4) = codes constant → buf.take 4 = constant :=
      fun constant size ascii =>
        (decode_constant_iff (List.length_take_le 4 buf) size ascii).mp
    rcases parseInt16_constants with ⟨zero, one, two⟩
    by_cases flush : Utf8.decode (buf.take 4) = codes FLUSH
    · apply BodiesAgree.flush (buf.drop 4) (length_drop_lt long)
        ⟨long, .inl (constantAt FLUSH rfl (by decide) flush)⟩
        (noLine 0 (by decide) (by rw [flush, zero]))
      · simp only [parsePktSection.body, dif_pos long, if_pos flush]
      · simp only [parsePktSectionPrefix.body, dif_pos long, if_pos flush]
      · simp only [decodePktLines.body, dif_pos long, if_pos flush]
    by_cases delim : Utf8.decode (buf.take 4) = codes DELIM
    · apply BodiesAgree.delimiter .delim (buf.drop 4) (length_drop_lt long)
        "Unexpected protocol delimiter in receive-pack command section."
        ⟨long, .inr (.inl (constantAt DELIM rfl (by decide) delim))⟩
        (noLine 1 (by decide) (by rw [delim, one])) (.inl rfl)
      · simp only [parsePktSection.body, dif_pos long]
        rw [if_neg flush, if_pos (.inl delim)]
      · simp only [parsePktSectionPrefix.body, dif_pos long]
        rw [if_neg flush, if_pos (.inl delim)]
      · simp only [decodePktLines.body, dif_pos long]
        rw [if_neg flush, if_pos delim]
    by_cases responseEnd : Utf8.decode (buf.take 4) = codes RESPONSE_END
    · apply BodiesAgree.delimiter .responseEnd (buf.drop 4) (length_drop_lt long)
        "Unexpected protocol delimiter in receive-pack command section."
        ⟨long, .inr (.inr (constantAt RESPONSE_END rfl (by decide) responseEnd))⟩
        (noLine 2 (by decide) (by rw [responseEnd, two])) (.inr rfl)
      · simp only [parsePktSection.body, dif_pos long]
        rw [if_neg flush, if_pos (.inr responseEnd)]
      · simp only [parsePktSectionPrefix.body, dif_pos long]
        rw [if_neg flush, if_pos (.inr responseEnd)]
      · simp only [decodePktLines.body, dif_pos long]
        rw [if_neg flush, if_neg delim, if_pos responseEnd]
    have either := not_or.mpr ⟨delim, responseEnd⟩
    cases read : parseInt16 (Utf8.decode (buf.take 4)) with
    | none =>
      apply BodiesAgree.stop
        (.invalid "Malformed pkt-line header in receive-pack command section.")
        (buf.drop 4)
      · rintro ⟨payload, rest, length, _, read', _⟩
        cases read.symm.trans read'
      · intro rest same
        cases same
      · simp only [parsePktSection.body, dif_pos long]
        rw [if_neg flush, if_neg either, read]
      · simp only [parsePktSectionPrefix.body, dif_pos long]
        rw [if_neg flush, if_neg either, read]
      · simp only [decodePktLines.body, dif_pos long]
        rw [if_neg flush, if_neg delim, if_neg responseEnd, read]
    | some length =>
      by_cases small : length < 4
      · apply BodiesAgree.stop
          (.invalid
            "Malformed pkt-line header in receive-pack command section.")
          (buf.drop 4) (noLine length small read)
        · intro rest same
          cases same
        · simp only [parsePktSection.body, dif_pos long]
          rw [if_neg flush, if_neg either, read]
          exact if_pos (.inl small)
        · simp only [parsePktSectionPrefix.body, dif_pos long]
          rw [if_neg flush, if_neg either, read]
          exact if_pos small
        · simp only [decodePktLines.body, dif_pos long]
          rw [if_neg flush, if_neg delim, if_neg responseEnd, read]
          exact if_pos (.inl small)
      by_cases cut : ((buf.drop 4).length : Int) < length - 4
      · apply BodiesAgree.stop .incomplete (buf.drop 4)
        · rintro ⟨payload, rest, length', _, read', _, fits, _⟩
          cases read.symm.trans read'
          omega
        · intro rest same
          cases same
        · simp only [parsePktSection.body, dif_pos long]
          rw [if_neg flush, if_neg either, read]
          exact if_pos (.inr cut)
        · simp only [parsePktSectionPrefix.body, dif_pos long]
          rw [if_neg flush, if_neg either, read]
          exact (if_neg small).trans (if_pos cut)
        · simp only [decodePktLines.body, dif_pos long]
          rw [if_neg flush, if_neg delim, if_neg responseEnd, read]
          exact if_pos (.inr cut)
      · have fits := not_or.mpr ⟨small, cut⟩
        apply BodiesAgree.line ((buf.drop 4).take (length - 4).toNat)
          ((buf.drop 4).drop (length - 4).toNat)
          (length_drop_drop_lt long _)
        · exact ⟨length, long, read, by omega, by omega, rfl, rfl⟩
        · simp only [parsePktSection.body, dif_pos long]
          rw [if_neg flush, if_neg either, read]
          exact if_neg fits
        · simp only [parsePktSectionPrefix.body, dif_pos long]
          rw [if_neg flush, if_neg either, read]
          exact (if_neg small).trans (if_neg cut)
        · simp only [decodePktLines.body, dif_pos long]
          rw [if_neg flush, if_neg delim, if_neg responseEnd, read]
          exact if_neg fits
  · have noLine : ¬ ∃ payload rest, LineAt buf payload rest := by
      rintro ⟨payload, rest, length, long', _⟩
      exact long long'
    apply BodiesAgree.stop .incomplete buf noLine (fun _ same => by cases same)
    · rw [parsePktSection.body, dif_neg long]
    · rw [parsePktSectionPrefix.body, dif_neg long]
    · rw [decodePktLines.body, dif_neg long]

/-! ## Agreement -/

/-- The lines before the first special packet, as a section shows them. -/
def firstLines : List PktItem → List CodePoints
  | .line text _ :: items => withoutLineEnd text :: firstLines items
  | _ => []

/-- The first special packet is a flush. -/
def endsInFlush : List PktItem → Bool
  | .line _ _ :: items => endsInFlush items
  | .flush :: _ => true
  | _ => false

/-- The three loops read the same lines before the first flush. -/
structure ParsersAgree (buf : PktBytes) : Prop where
  inPrefix : ∀ lines offset, parsePktSection buf = some ⟨lines, offset⟩ ↔
    parsePktSectionPrefix buf = .ok lines offset
  passed : (run parsePktSection.body buf).1 =
    (run parsePktSectionPrefix.body buf).1
  inBuffer : (run parsePktSection.body buf).1 = firstLines (decodePktLines buf)
  ends : (parsePktSection buf).isSome = endsInFlush (decodePktLines buf)

/-- What the three runs have in common. -/
structure RunsAgree (buf : PktBytes) : Prop where
  inPrefix : ∀ rest, (run parsePktSection.body buf).2 = some rest ↔
    (run parsePktSectionPrefix.body buf).2 = .ok rest
  passed : (run parsePktSection.body buf).1 =
    (run parsePktSectionPrefix.body buf).1
  inBuffer : (run parsePktSection.body buf).1 =
    firstLines (run decodePktLines.body buf).1
  ends : (run parsePktSection.body buf).2.isSome =
    endsInFlush (run decodePktLines.body buf).1

theorem runsAgree (buf : PktBytes) : RunsAgree buf := by
  induction size : buf.length using Nat.strong_induction_on generalizing buf with
  | h size ih =>
    subst size
    cases bodiesAgree buf with
    | line payload rest shorter _ inSection inPrefix inBuffer =>
      have later := ih rest.length shorter rest rfl
      constructor
      · intro after
        rw [run_push inSection, run_push inPrefix]
        exact later.inPrefix after
      · rw [run_push inSection, run_push inPrefix, later.passed]
      · rw [run_push inSection, run_push inBuffer, firstLines, later.inBuffer]
      · rw [run_push inSection, run_push inBuffer, endsInFlush, ← later.ends]
    | flush rest shorter _ _ inSection inPrefix inBuffer =>
      constructor
      · intro after
        rw [run_exit inSection, run_exit inPrefix, Option.some_inj,
          PrefixExit.ok.injEq]
      · rw [run_exit inSection, run_exit inPrefix]
      · rw [run_exit inSection, run_push inBuffer, firstLines]
        intro text raw items same
        cases same
      · rw [run_exit inSection, run_push inBuffer]
        rfl
    | delimiter item rest shorter message _ _ special inSection inPrefix inBuffer =>
      constructor
      · intro after
        rw [run_exit inSection, run_exit inPrefix]
        constructor <;> intro same <;> cases same
      · rw [run_exit inSection, run_exit inPrefix]
      · rw [run_exit inSection, run_push inBuffer]
        rcases special with rfl | rfl <;> rfl
      · rw [run_exit inSection, run_push inBuffer]
        rcases special with rfl | rfl <;> rfl
    | stop failure rest _ failed inSection inPrefix inBuffer =>
      constructor
      · intro after
        rw [run_exit inSection, run_exit inPrefix]
        constructor
        · intro same
          cases same
        · intro same
          exact absurd same (failed after)
      · rw [run_exit inSection, run_exit inPrefix]
      · rw [run_exit inSection, run_exit inBuffer]
        rfl
      · rw [run_exit inSection, run_exit inBuffer]
        rfl

theorem parsersAgree (buf : PktBytes) : ParsersAgree buf := by
  have agree := runsAgree buf
  constructor
  · intro lines offset
    have exits := agree.inPrefix
    have passed := agree.passed
    unfold parsePktSection parsePktSectionPrefix
    generalize run parsePktSection.body buf = inSection at exits passed ⊢
    generalize run parsePktSectionPrefix.body buf = inPrefix at exits passed ⊢
    rcases inSection with ⟨lines₁, exit₁⟩
    rcases inPrefix with ⟨lines₂, exit₂⟩
    cases passed
    dsimp only at exits ⊢
    cases exit₂ with
    | ok rest =>
      rw [(exits rest).mpr rfl, Option.map_some, Option.some_inj,
        PktSection.mk.injEq, ParsedPktSection.ok.injEq]
    | incomplete =>
      cases exit₁ with
      | none => simp
      | some rest => cases (exits rest).mp rfl
    | invalid message =>
      cases exit₁ with
      | none => simp
      | some rest => cases (exits rest).mp rfl
  · exact agree.passed
  · exact agree.inBuffer
  · have ends := agree.ends
    unfold parsePktSection decodePktLines
    dsimp only
    rw [Option.isSome_map, ends]

/-! ## Strict framing -/

/-- Take a packet that is framed by four hexadecimal digits, or leave. -/
def strictBody (buf : PktBytes) : Pass Unit PktBytes buf :=
  if long : 4 ≤ buf.length then
    if buf.take 4 = FLUSH ∨ buf.take 4 = DELIM ∨ buf.take 4 = RESPONSE_END then
      .push () (buf.drop 4) (length_drop_lt long)
    else
      match strictLength (buf.take 4) with
      | none => .exit buf
      | some length =>
        if length < 4 ∨ buf.length < length then
          .exit buf
        else
          .push () ((buf.drop 4).drop (length - 4))
            (length_drop_drop_lt long (length - 4))
  else
    .exit buf

/-- What is left behind the strictly framed packets. -/
def unframed (buf : PktBytes) : PktBytes := (run strictBody buf).2

/-- The front is read as a line that fits, although no four hexadecimal digits
frame it. -/
def LenientLine (buf : PktBytes) : Prop := ∃ payload rest, LineAt buf payload rest

/-- The three loops take a header for that of a line only when four
hexadecimal digits frame a line there. -/
structure StrictHeaders (buf : PktBytes) : Prop where
  inSection : ∀ {place : PktBytes} {line rest shorter},
    Reaches parsePktSection.body buf place →
    parsePktSection.body place = .push line rest shorter → StrictLine place rest
  inPrefix : ∀ {place : PktBytes} {line rest shorter},
    Reaches parsePktSectionPrefix.body buf place →
    parsePktSectionPrefix.body place = .push line rest shorter →
    StrictLine place rest
  inBuffer : ∀ {place : PktBytes} {text raw rest shorter},
    Reaches decodePktLines.body buf place →
    decodePktLines.body place = .push (.line text raw) rest shorter →
    StrictLine place rest

theorem LineAt.inBuffer (lineAt : LineAt buf payload rest) :
    ∃ shorter, decodePktLines.body buf =
      .push (.line (Utf8.decode payload) payload) rest shorter := by
  cases bodiesAgree buf with
  | line payload' rest' shorter lineAt' _ _ inBuffer =>
    rcases lineAt.unique lineAt' with ⟨rfl, rfl⟩
    exact ⟨shorter, inBuffer⟩
  | flush rest' shorter _ noLine => exact absurd ⟨_, _, lineAt⟩ noLine
  | delimiter item rest' shorter message _ noLine =>
    exact absurd ⟨_, _, lineAt⟩ noLine
  | stop failure rest' noLine => exact absurd ⟨_, _, lineAt⟩ noLine

theorem decode_constants :
    Utf8.decode FLUSH = codes FLUSH ∧ Utf8.decode DELIM = codes DELIM ∧
      Utf8.decode RESPONSE_END = codes RESPONSE_END := by
  decide

/-- A special packet is taken whole. -/
theorem ConstantAt.inBuffer (constant : ConstantAt buf) :
    ∃ item shorter, decodePktLines.body buf = .push item (buf.drop 4) shorter ∧
      ∀ text raw, item ≠ .line text raw := by
  rcases constant with ⟨long, same⟩
  rcases decode_constants with ⟨flush, delim, responseEnd⟩
  rcases same with same | same | same
  · refine ⟨.flush, length_drop_lt long, ?_, fun _ _ equal => by cases equal⟩
    simp only [decodePktLines.body, dif_pos long]
    rw [same, if_pos flush]
  · refine ⟨.delim, length_drop_lt long, ?_, fun _ _ equal => by cases equal⟩
    simp only [decodePktLines.body, dif_pos long]
    rw [same, if_neg (by decide), if_pos delim]
  · refine ⟨.responseEnd, length_drop_lt long, ?_, fun _ _ equal => by cases equal⟩
    simp only [decodePktLines.body, dif_pos long]
    rw [same, if_neg (by decide), if_neg (by decide), if_pos responseEnd]

variable {shorter : rest.length < buf.length}

/-- Where the strict framing goes on, the loop does, and takes a line only
for a framed one. -/
theorem strictBody_push {item : Unit}
    (pass : strictBody buf = .push item rest shorter) :
    ∃ item', decodePktLines.body buf = .push item' rest shorter ∧
      ∀ text raw, item' = .line text raw → StrictLine buf rest := by
  unfold strictBody at pass
  split at pass
  · next long =>
      split at pass
      · next constant =>
          cases pass
          rcases ConstantAt.inBuffer ⟨long, constant⟩ with
            ⟨item', _, inBuffer, noLine⟩
          exact ⟨item', inBuffer, fun text raw same =>
            absurd same (noLine text raw)⟩
      · split at pass
        · cases pass
        · next length read =>
            split at pass
            · cases pass
            · next fits =>
                cases pass
                have lineAt : LineAt buf ((buf.drop 4).take (length - 4))
                    ((buf.drop 4).drop (length - 4)) := by
                  refine ⟨length, long, parseInt16_strict read, by omega, ?_, ?_,
                    ?_⟩
                  · rw [List.length_drop]
                    omega
                  · congr 1
                    omega
                  · congr 1
                    omega
                rcases lineAt.inBuffer with ⟨_, inBuffer⟩
                refine ⟨_, inBuffer, fun _ _ _ =>
                  ⟨length, read, by omega, by omega, ?_⟩⟩
                rw [List.drop_drop]
                congr 1
                omega
  · cases pass

/-- Where the strict framing leaves, no digits frame a line, and the loop goes
on only behind a lenient one. -/
theorem strictBody_exit (pass : strictBody buf = .exit left) :
    left = buf ∧ (∀ rest, ¬ StrictLine buf rest) ∧
      ∀ item rest shorter, decodePktLines.body buf = .push item rest shorter →
        LenientLine buf := by
  have leaves : left = buf ∧ (∀ rest, ¬ StrictLine buf rest) ∧
      ¬ ConstantAt buf := by
    unfold strictBody at pass
    split at pass
    · next long =>
        split at pass
        · cases pass
        · next constant =>
            split at pass
            · next none =>
                cases pass
                refine ⟨rfl, ?_, fun at' => constant at'.2⟩
                rintro rest ⟨length, read, _⟩
                cases none.symm.trans read
            · next length read =>
                split at pass
                · next outside =>
                    cases pass
                    refine ⟨rfl, ?_, fun at' => constant at'.2⟩
                    rintro rest ⟨length', read', large, fits, _⟩
                    cases read.symm.trans read'
                    omega
                · cases pass
    · next short =>
        cases pass
        refine ⟨rfl, ?_, fun at' => short at'.1⟩
        rintro rest ⟨length, _, large, fits, _⟩
        omega
  rcases leaves with ⟨same, noLine, noConstant⟩
  refine ⟨same, noLine, fun item rest shorter inBuffer => ?_⟩
  cases bodiesAgree buf with
  | line payload rest' _ lineAt => exact ⟨payload, rest', lineAt⟩
  | flush rest' _ constant => exact absurd constant noConstant
  | delimiter item rest' _ message constant => exact absurd constant noConstant
  | stop failure rest' _ _ _ _ stops => cases stops.symm.trans inBuffer

/-- The loop comes to the end of the strict framing, where no digits frame a
line. -/
theorem reaches_unframed (buf : PktBytes) :
    Reaches decodePktLines.body buf (unframed buf) ∧
      ∀ rest, ¬ StrictLine (unframed buf) rest := by
  induction size : buf.length using Nat.strong_induction_on generalizing buf with
  | h size ih =>
    subst size
    cases pass : strictBody buf with
    | push item rest shorter =>
      rcases ih rest.length shorter rest rfl with ⟨reached, noLine⟩
      rcases strictBody_push pass with ⟨_, inBuffer, _⟩
      rw [unframed, run_push pass]
      exact ⟨.next inBuffer reached, noLine⟩
    | exit left =>
      rcases strictBody_exit pass with ⟨rfl, noLine, _⟩
      rw [unframed, run_exit pass]
      exact ⟨.here _, noLine⟩

/-- Without a lenient line behind the strict framing, the loop takes framed
lines only. -/
theorem strictLine_of_reaches {place : PktBytes}
    (strict : ¬ LenientLine (unframed buf))
    (reached : Reaches decodePktLines.body buf place) {raw : PktBytes}
    {shorter : rest.length < place.length}
    (line : decodePktLines.body place = .push (.line text raw) rest shorter) :
    StrictLine place rest := by
  induction reached with
  | here buf =>
    cases pass : strictBody buf with
    | push item rest' shorter' =>
      rcases strictBody_push pass with ⟨item', inBuffer, framed⟩
      cases line.symm.trans inBuffer
      exact framed _ _ rfl
    | exit left =>
      rcases strictBody_exit pass with ⟨rfl, _, lenient⟩
      rw [unframed, run_exit pass] at strict
      exact absurd (lenient _ _ _ line) strict
  | @next buf rest' last item' shorter' step _ ih =>
    cases pass : strictBody buf with
    | push item'' rest'' shorter'' =>
      rcases strictBody_push pass with ⟨_, inBuffer, _⟩
      cases step.symm.trans inBuffer
      rw [unframed, run_push pass] at strict
      exact ih strict line
    | exit left =>
      rcases strictBody_exit pass with ⟨rfl, _, lenient⟩
      rw [unframed, run_exit pass] at strict
      exact absurd (lenient _ _ _ step) strict

/-- Where a section goes on, the whole-buffer loop takes a line. -/
theorem inBuffer_of_inSection
    (pass : parsePktSection.body buf = .push line rest shorter) :
    ∃ text raw, decodePktLines.body buf =
      .push (.line text raw) rest shorter := by
  cases bodiesAgree buf with
  | line payload rest' _ _ inSection _ inBuffer =>
    cases inSection.symm.trans pass
    exact ⟨_, _, inBuffer⟩
  | flush rest' _ _ _ inSection => cases inSection.symm.trans pass
  | delimiter _ rest' _ _ _ _ _ inSection => cases inSection.symm.trans pass
  | stop _ _ _ _ inSection => cases inSection.symm.trans pass

theorem inBuffer_of_inPrefix
    (pass : parsePktSectionPrefix.body buf = .push line rest shorter) :
    ∃ text raw, decodePktLines.body buf =
      .push (.line text raw) rest shorter := by
  cases bodiesAgree buf with
  | line payload rest' _ _ _ inPrefix inBuffer =>
    cases inPrefix.symm.trans pass
    exact ⟨_, _, inBuffer⟩
  | flush rest' _ _ _ _ inPrefix => cases inPrefix.symm.trans pass
  | delimiter _ rest' _ _ _ _ _ _ inPrefix => cases inPrefix.symm.trans pass
  | stop _ _ _ _ _ inPrefix => cases inPrefix.symm.trans pass

/-- The loops keep to framed lines exactly when no lenient line stands behind
the strict framing. -/
theorem strictHeaders_iff (buf : PktBytes) :
    StrictHeaders buf ↔ ¬ LenientLine (unframed buf) := by
  constructor
  · rintro strict ⟨payload, rest, lineAt⟩
    rcases reaches_unframed buf with ⟨reached, noLine⟩
    rcases lineAt.inBuffer with ⟨_, inBuffer⟩
    exact noLine rest (strict.inBuffer reached inBuffer)
  · intro strict
    constructor
    · intro place line rest shorter reached pass
      rcases inBuffer_of_inSection pass with ⟨_, _, inBuffer⟩
      refine strictLine_of_reaches strict (reached.of_push ?_) inBuffer
      intro buf item rest shorter step
      rcases inBuffer_of_inSection step with ⟨_, _, inBuffer⟩
      exact ⟨_, inBuffer⟩
    · intro place line rest shorter reached pass
      rcases inBuffer_of_inPrefix pass with ⟨_, _, inBuffer⟩
      refine strictLine_of_reaches strict (reached.of_push ?_) inBuffer
      intro buf item rest shorter step
      rcases inBuffer_of_inPrefix step with ⟨_, _, inBuffer⟩
      exact ⟨_, inBuffer⟩
    · intro place text raw rest shorter reached pass
      exact strictLine_of_reaches strict reached pass

/-! ## Round trip -/

/-- A packet that can be encoded; a line carries at most 65516 bytes. -/
inductive Packet where
  | line (payload : PktBytes) (fits : payload.length ≤ 65516)
  | flush
  | delim
  | responseEnd

def Packet.encode : Packet → PktBytes
  | .line payload _ => pktLine payload
  | .flush => flushPkt
  | .delim => delimPkt
  | .responseEnd => responseEndPkt

def Packet.item : Packet → PktItem
  | .line payload _ => .line (Utf8.decode payload) payload
  | .flush => .flush
  | .delim => .delim
  | .responseEnd => .responseEnd

theorem four_append {front rest : PktBytes} (size : front.length = 4) :
    4 ≤ (front ++ rest).length ∧ (front ++ rest).take 4 = front ∧
      (front ++ rest).drop 4 = rest := by
  refine ⟨?_, ?_, ?_⟩
  · rw [List.length_append]
    omega
  · rw [← size, List.take_left]
  · rw [← size, List.drop_left]

/-- The loop takes one encoded packet off the front. -/
theorem body_encode (packet : Packet) (rest : PktBytes) :
    ∃ shorter, decodePktLines.body (packet.encode ++ rest) =
      .push packet.item rest shorter := by
  rcases decode_constants with ⟨flush, delim, responseEnd⟩
  cases packet with
  | line payload fits =>
    have small : payload.length + 4 < 65536 := by omega
    have number := strictLength_toHex4 small
    have size := length_toHex4 small
    rw [Packet.encode, pktLine, List.append_assoc]
    generalize toHex4 (payload.length + 4) = header at number size ⊢
    rcases @four_append header (payload ++ rest) size with ⟨long, front, behind⟩
    have lineAt : LineAt (header ++ (payload ++ rest)) payload rest := by
      refine ⟨((payload.length + 4 : Nat) : Int), long, ?_, by omega, ?_, ?_, ?_⟩
      · rw [front]
        exact parseInt16_strict number
      · rw [behind, List.length_append]
        omega
      all_goals
        rw [behind, show (((payload.length + 4 : Nat) : Int) - 4).toNat =
          payload.length by omega]
      · rw [List.take_left]
      · rw [List.drop_left]
    exact lineAt.inBuffer
  | flush =>
    rcases @four_append FLUSH rest rfl with ⟨long, _⟩
    refine ⟨length_drop_lt long, ?_⟩
    change decodePktLines.body (FLUSH ++ rest) = _
    rw [decodePktLines.body, dif_pos long]
    exact if_pos flush
  | delim =>
    rcases @four_append DELIM rest rfl with ⟨long, _⟩
    refine ⟨length_drop_lt long, ?_⟩
    change decodePktLines.body (DELIM ++ rest) = _
    rw [decodePktLines.body, dif_pos long]
    have apart : Utf8.decode DELIM ≠ codes FLUSH := by decide
    exact (if_neg apart).trans (if_pos delim)
  | responseEnd =>
    rcases @four_append RESPONSE_END rest rfl with ⟨long, _⟩
    refine ⟨length_drop_lt long, ?_⟩
    change decodePktLines.body (RESPONSE_END ++ rest) = _
    rw [decodePktLines.body, dif_pos long]
    have apart : Utf8.decode RESPONSE_END ≠ codes FLUSH := by decide
    have apart' : Utf8.decode RESPONSE_END ≠ codes DELIM := by decide
    exact (if_neg apart).trans ((if_neg apart').trans (if_pos responseEnd))

theorem run_encode (packets : List Packet) :
    run decodePktLines.body (packets.flatMap Packet.encode) =
      (packets.map Packet.item, []) := by
  induction packets with
  | nil =>
    apply run_exit
    rw [List.flatMap_nil, decodePktLines.body, dif_neg (by decide)]
  | cons packet packets ih =>
    rw [List.flatMap_cons]
    rcases body_encode packet (packets.flatMap Packet.encode) with
      ⟨_, pass⟩
    rw [run_push pass, ih, List.map_cons]

/-- Encoded packets are decoded, and nothing is left unread; on every buffer
the loops agree on the lines before the first flush; and they keep to headers
of four hexadecimal digits exactly when no lenient line stands behind the
strict framing. -/
theorem pktLine_codec (packets : List Packet) (buf : PktBytes) :
    (decodePktLines (packets.flatMap Packet.encode) = packets.map Packet.item ∧
      decodePktLines.unread (packets.flatMap Packet.encode) = []) ∧
    ParsersAgree buf ∧ (StrictHeaders buf ↔ ¬ LenientLine (unframed buf)) := by
  constructor
  · rw [decodePktLines, decodePktLines.unread, run_encode]
    exact ⟨rfl, rfl⟩
  · exact ⟨parsersAgree buf, strictHeaders_iff buf⟩

/-- The header `5zzz` is taken for a line of one byte. -/
theorem not_strictHeaders_trailing :
    ¬ StrictHeaders [0x35, 0x7a, 0x7a, 0x7a, 0x21, 0x30, 0x30, 0x30, 0x30] := by
  intro strict
  have lineAt : LineAt [0x35, 0x7a, 0x7a, 0x7a, 0x21, 0x30, 0x30, 0x30, 0x30]
      [0x21] [0x30, 0x30, 0x30, 0x30] :=
    ⟨5, by decide, by decide, by decide, by decide, rfl, rfl⟩
  rcases lineAt.inBuffer with ⟨_, pass⟩
  rcases strict.inBuffer (.here _) pass with ⟨length, read, _⟩
  have none : strictLength [0x35, 0x7a, 0x7a, 0x7a] = none := by decide
  cases none.symm.trans read

end GitOnCloudflare.Core
