import GitOnCloudflare.Fetch.RefClosure

/-!
# Object ids as text

A normalized text that passes the check is the text of twenty bytes, and
bytes are read back from their text.
-/

namespace GitOnCloudflare.Fetch

open Foundations
open Foundations.ByteTable
open Pack
open Repo (isValidOid isHexDigit isLowerHex)

def lowerDigits : List Char := "0123456789abcdef".toList

/-- The two digits of a byte. -/
def byteDigits (byte : UInt8) : List Char :=
  [lowerDigits.getD (byte.toNat / 16) '0',
    lowerDigits.getD (byte.toNat % 16) '0']

theorem toList_padStart_hexText (byte : UInt8) :
    (padStart 2 (hexText byte.toNat)).toList = byteDigits byte := by
  have all : ∀ value : Fin 256,
      (padStart 2 (hexText value)).toList =
        [lowerDigits.getD (value / 16) '0',
          lowerDigits.getD (value % 16) '0'] := by
    decide +kernel
  exact all ⟨byte.toNat, byte.toNat_lt⟩

theorem toList_bytesToHex (bytes : Bytes) :
    (bytesToHex bytes).toList = bytes.flatMap byteDigits := by
  unfold bytesToHex
  rw [String.toList_join, List.flatMap_def, List.flatMap_def, List.map_map]
  apply congrArg List.flatten
  apply List.map_congr_left
  intro byte _
  exact toList_padStart_hexText byte

theorem hexPairs_byteDigits (byte : UInt8) (rest : List Char) :
    hexPairs (byteDigits byte ++ rest) = byte :: hexPairs rest := by
  have all : ∀ value : Fin 256,
      hexDigitValue (lowerDigits.getD (value / 16) '0') * 16 +
        hexDigitValue (lowerDigits.getD (value % 16) '0') = value := by
    decide +kernel
  have number := all ⟨byte.toNat, byte.toNat_lt⟩
  show UInt8.ofNat _ :: hexPairs rest = _
  simp only at number
  rw [number, UInt8.ofNat_toNat]

/-- Bytes are read back from their text. -/
theorem hexToBytes_bytesToHex (bytes : Bytes) :
    hexToBytes (bytesToHex bytes) = bytes := by
  unfold hexToBytes
  rw [toList_bytesToHex]
  induction bytes with
  | nil => rfl
  | cons byte rest ih =>
    rw [List.flatMap_cons, hexPairs_byteDigits, ih]

theorem bytesToHex_inj {first second : Bytes}
    (same : bytesToHex first = bytesToHex second) : first = second := by
  rw [← hexToBytes_bytesToHex first, same, hexToBytes_bytesToHex]

variable {digit : Char} {text : String}

theorem mem_lowerDigits (lower : isLowerHex digit = true) :
    digit ∈ lowerDigits := by
  have number : digit = Char.ofNat digit.toNat := (Char.ofNat_toNat digit).symm
  unfold isLowerHex at lower
  simp only [Bool.or_eq_true, Bool.and_eq_true, decide_eq_true_eq] at lower
  have all : ∀ value : Nat, value < 128 →
      48 ≤ value ∧ value ≤ 57 ∨ 97 ≤ value ∧ value ≤ 102 →
        Char.ofNat value ∈ lowerDigits := by
    decide +kernel
  rw [number]
  apply all
  · rcases lower with ⟨_, high⟩ | ⟨_, high⟩
    · exact lt_of_le_of_lt (Char.le_def.mp high) (by decide)
    · exact lt_of_le_of_lt (Char.le_def.mp high) (by decide)
  · rcases lower with ⟨low, high⟩ | ⟨low, high⟩
    · exact .inl ⟨Char.le_def.mp low, Char.le_def.mp high⟩
    · exact .inr ⟨Char.le_def.mp low, Char.le_def.mp high⟩

theorem byteDigits_of_digits {high low : Char}
    (highDigit : isLowerHex high = true) (lowDigit : isLowerHex low = true) :
    byteDigits (UInt8.ofNat (hexDigitValue high * 16 + hexDigitValue low)) =
      [high, low] := by
  have all : (lowerDigits.all fun high => lowerDigits.all fun low =>
      byteDigits
          (UInt8.ofNat (hexDigitValue high * 16 + hexDigitValue low)) ==
        [high, low]) = true := by
    decide +kernel
  have row := List.all_eq_true.mp all high (mem_lowerDigits highDigit)
  have pair := List.all_eq_true.mp row low (mem_lowerDigits lowDigit)
  exact eq_of_beq pair

theorem flatMap_hexPairs {text : List Char}
    (digits : ∀ digit ∈ text, isLowerHex digit = true) (even : 2 ∣ text.length) :
    (hexPairs text).flatMap byteDigits = text ∧
      (hexPairs text).length * 2 = text.length := by
  fun_induction hexPairs text with
  | case1 high low rest ih =>
    have evenRest : 2 ∣ rest.length := by
      simp only [List.length_cons] at even
      omega
    rcases ih (fun digit member => digits digit (by simp [member]))
      evenRest with ⟨same, length⟩
    constructor
    · rw [List.flatMap_cons, same,
        byteDigits_of_digits (digits high (by simp)) (digits low (by simp))]
      rfl
    · simp only [List.length_cons]
      omega
  | case2 text short =>
    cases text with
    | nil => exact ⟨rfl, rfl⟩
    | cons first rest =>
      cases rest with
      | nil =>
        simp only [List.length_cons, List.length_nil] at even
        omega
      | cons second rest => exact absurd rfl (short first second rest)

/-- A valid lower-case id is the text of twenty bytes. -/
theorem bytesToHex_hexToBytes
    (digits : ∀ digit ∈ text.toList, isLowerHex digit = true)
    (length : text.toList.length = 40) :
    bytesToHex (hexToBytes text) = text ∧
      (hexToBytes text).length = oidBytes := by
  rcases flatMap_hexPairs digits (by rw [length]; decide) with
    ⟨same, halves⟩
  constructor
  · apply String.toList_injective
    rw [toList_bytesToHex]
    exact same
  · unfold hexToBytes oidBytes
    omega

/-- A letter in lower case is none of the capital ones. -/
theorem not_upper_toLower (digit : Char) :
    ¬ ('A' ≤ digit.toLower ∧ digit.toLower ≤ 'F') := by
  rintro ⟨low, high⟩
  have low := UInt32.le_iff_toNat_le.mp (Char.le_def.mp low)
  have high := UInt32.le_iff_toNat_le.mp (Char.le_def.mp high)
  have least : ('A' : Char).val.toNat = 65 := rfl
  have most : ('F' : Char).val.toNat = 70 := rfl
  have last : ('Z' : Char).val.toNat = 90 := rfl
  have shift : (('a' : Char).val - ('A' : Char).val).toNat = 32 := rfl
  unfold Char.toLower at low high
  split at low
  · next capital =>
    rw [dif_pos capital] at high
    have above := UInt32.le_iff_toNat_le.mp capital.1
    have below := UInt32.le_iff_toNat_le.mp capital.2
    rw [UInt32.toNat_add, shift] at low high
    omega
  · next other =>
    apply other
    constructor
    · exact UInt32.le_iff_toNat_le.mpr low
    · apply UInt32.le_iff_toNat_le.mpr
      rw [dif_neg other] at high
      omega

theorem isLowerHex_toLower (valid : isHexDigit digit.toLower = true) :
    isLowerHex digit.toLower = true := by
  unfold isHexDigit at valid
  simp only [Bool.or_eq_true, Bool.and_eq_true, decide_eq_true_eq] at valid
  exact valid.resolve_right (not_upper_toLower digit)

/-- A normalized text that passes the check is the text of an id. -/
theorem exists_oid_of_isValidOid
    (valid : isValidOid (Text.toLowerCase text) = true) :
    ∃ oid : RawOid, bytesToHex oid.bytes = Text.toLowerCase text ∧
      hexToBytes (Text.toLowerCase text) = oid.bytes := by
  unfold isValidOid Text.matchesClass at valid
  simp only [Bool.and_eq_true, decide_eq_true_eq, List.all_eq_true] at valid
  rcases valid with ⟨⟨digits, least⟩, most⟩
  have lower : ∀ digit ∈ (Text.toLowerCase text).toList,
      isLowerHex digit = true := by
    intro digit member
    have valid := digits digit member
    unfold Text.toLowerCase at member
    rw [String.toList_ofList] at member
    rcases List.mem_map.mp member with ⟨original, _, rfl⟩
    exact isLowerHex_toLower valid
  rcases bytesToHex_hexToBytes lower (by omega) with ⟨same, length⟩
  exact ⟨⟨hexToBytes (Text.toLowerCase text), length⟩, same, rfl⟩

/-- The text of twenty bytes is a valid id. -/
theorem isValidOid_bytesToHex {bytes : Bytes} (length : bytes.length = oidBytes) :
    isValidOid (bytesToHex bytes) = true := by
  have all : lowerDigits.all isHexDigit = true := by
    decide +kernel
  have digit : ∀ nibble, nibble < 16 →
      lowerDigits.getD nibble '0' ∈ lowerDigits := by
    intro nibble small
    have inside : nibble < lowerDigits.length := small
    rw [List.getD_eq_getElem?_getD, List.getElem?_eq_getElem inside]
    exact List.getElem_mem inside
  have text : ∀ character ∈ (bytesToHex bytes).toList,
      isHexDigit character = true := by
    intro character member
    rw [toList_bytesToHex] at member
    rcases List.mem_flatMap.mp member with ⟨byte, _, among⟩
    have small := byte.toNat_lt
    apply List.all_eq_true.mp all
    rcases List.mem_cons.mp among with rfl | among
    · exact digit _ (by omega)
    · cases List.mem_singleton.mp among
      exact digit _ (by omega)
  have twice : (bytesToHex bytes).toList.length = 40 := by
    rw [toList_bytesToHex, List.length_flatMap]
    have pairs : bytes.map (fun byte => (byteDigits byte).length) =
        bytes.map fun _ => 2 := rfl
    rw [pairs, List.map_const', List.sum_replicate_nat, length]
    rfl
  unfold isValidOid Text.matchesClass
  rw [twice, List.all_eq_true.mpr text]
  rfl

end GitOnCloudflare.Fetch
