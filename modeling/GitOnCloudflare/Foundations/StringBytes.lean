import Mathlib.Data.List.Sort
import GitOnCloudflare.Foundations.Utf8

/-!
# Strings as bytes and as code units

A string is written in UTF-8 and read back by a decoder that refuses what is
ill-formed and skips one byte order mark.  Strings are ordered by their UTF-16
code units, and a list is sorted by a string of each of its items.
-/

namespace GitOnCloudflare.Foundations.StringBytes

universe u v

open Utf8

/-! ## Numbers -/

theorem toString_nat_inj {first second : Nat}
    (same : toString first = toString second) : first = second := by
  have digits : Nat.toDigits 10 first = Nat.toDigits 10 second := by
    rw [← Nat.toList_repr, ← Nat.toList_repr]
    exact congrArg String.toList same
  have value := @Nat.ofDigitChars_toDigits 10 first (by decide) (by decide)
  rw [digits, Nat.ofDigitChars_toDigits (by decide) (by decide)] at value
  exact value.symm

/-! ## Bytes -/

/-- The bytes of a string. -/
def encode (text : String) : List UInt8 := text.toByteArray.data.toList

/-- The string of well-formed bytes. -/
def wellFormed (bytes : List UInt8) : Option String :=
  String.fromUTF8? ⟨bytes.toArray⟩

/-- A decoder that refuses what is ill-formed. -/
def decodeFatal (bytes : List UInt8) : Option String :=
  wellFormed (withoutMark bytes)

theorem wellFormed_encode (text : String) : wellFormed (encode text) = some text := by
  have bytes : (⟨(encode text).toArray⟩ : ByteArray) = text.toByteArray := by
    unfold encode
    rw [Array.toArray_toList]
  unfold wellFormed String.fromUTF8?
  rw [bytes, dif_pos text.isValidUTF8]
  rfl

variable {text : String} {bytes : List UInt8}

theorem encode_of_wellFormed (read : wellFormed bytes = some text) :
    encode text = bytes := by
  unfold wellFormed String.fromUTF8? at read
  by_cases valid : ByteArray.IsValidUTF8 ⟨bytes.toArray⟩
  · rw [dif_pos valid] at read
    cases read
    rfl
  · rw [dif_neg valid] at read
    cases read

/-- A byte order mark in front. -/
def Marked (bytes : List UInt8) : Prop := byteOrderMark.isPrefixOf bytes = true

theorem withoutMark_of_not_marked (unmarked : ¬ Marked bytes) :
    withoutMark bytes = bytes := if_neg unmarked

theorem decodeFatal_encode (unmarked : ¬ Marked (encode text)) :
    decodeFatal (encode text) = some text := by
  unfold decodeFatal
  rw [withoutMark_of_not_marked unmarked]
  exact wellFormed_encode text

theorem encode_of_decodeFatal (unmarked : ¬ Marked bytes)
    (read : decodeFatal bytes = some text) : encode text = bytes := by
  unfold decodeFatal at read
  rw [withoutMark_of_not_marked unmarked] at read
  exact encode_of_wellFormed read

/-! ## Code units -/

/-- The UTF-16 code units of a character: itself, or two surrogates. -/
def charUnits (char : Char) : List Nat :=
  if char.toNat < 0x10000 then
    [char.toNat]
  else
    [0xd800 + (char.toNat - 0x10000) / 0x400,
      0xdc00 + (char.toNat - 0x10000) % 0x400]

def units (text : String) : List Nat := text.toList.flatMap charUnits

theorem charUnits_append_inj {char char' : Char} {rest rest' : List Nat}
    (same : charUnits char ++ rest = charUnits char' ++ rest') :
    char = char' ∧ rest = rest' := by
  have valid : char.toNat.isValidChar := char.valid
  have valid' : char'.toNat.isValidChar := char'.valid
  unfold Nat.isValidChar at valid valid'
  unfold charUnits at same
  have numbers : char.toNat = char'.toNat ∧ rest = rest' := by
    split at same
    · split at same
      · rcases List.cons.inj same with ⟨head, tail⟩
        exact ⟨head, tail⟩
      · rcases List.cons.inj same with ⟨head, _⟩
        omega
    · split at same
      · rcases List.cons.inj same with ⟨head, _⟩
        omega
      · rcases List.cons.inj same with ⟨high, tail⟩
        rcases List.cons.inj tail with ⟨low, tail⟩
        exact ⟨by omega, tail⟩
  exact ⟨Char.toNat_inj.mp numbers.1, numbers.2⟩

theorem charUnits_ne_nil (char : Char) : charUnits char ≠ [] := by
  unfold charUnits
  split <;> exact List.cons_ne_nil _ _

theorem flatMap_charUnits_inj {chars chars' : List Char}
    (same : chars.flatMap charUnits = chars'.flatMap charUnits) :
    chars = chars' := by
  induction chars generalizing chars' with
  | nil =>
    cases chars' with
    | nil => rfl
    | cons char' chars' =>
      have empty := (List.append_eq_nil_iff.mp same.symm).1
      exact absurd empty (charUnits_ne_nil char')
  | cons char chars ih =>
    cases chars' with
    | nil =>
      have empty := (List.append_eq_nil_iff.mp same).1
      exact absurd empty (charUnits_ne_nil char)
    | cons char' chars' =>
      rcases charUnits_append_inj same with ⟨rfl, rest⟩
      rw [ih rest]

theorem units_inj {text' : String} (same : units text = units text') :
    text = text' :=
  String.toList_inj.mp (flatMap_charUnits_inj same)

/-- The order of two lists of code units, the shorter one first. -/
def unitsLe : List Nat → List Nat → Bool
  | [], _ => true
  | _ :: _, [] => false
  | unit :: units, unit' :: units' =>
    unit < unit' || unit = unit' && unitsLe units units'

theorem unitsLe_total (units units' : List Nat) :
    unitsLe units units' = true ∨ unitsLe units' units = true := by
  induction units generalizing units' with
  | nil => exact .inl rfl
  | cons unit units ih =>
    cases units' with
    | nil => exact .inr rfl
    | cons unit' units' =>
      simp only [unitsLe, Bool.or_eq_true, Bool.and_eq_true,
        decide_eq_true_eq]
      rcases Nat.lt_trichotomy unit unit' with before | same | after
      · exact .inl (.inl before)
      · rcases ih units' with early | late
        · exact .inl (.inr ⟨same, early⟩)
        · exact .inr (.inr ⟨same.symm, late⟩)
      · exact .inr (.inl after)

theorem unitsLe_trans {first second third : List Nat}
    (early : unitsLe first second = true) (late : unitsLe second third = true) :
    unitsLe first third = true := by
  induction first generalizing second third with
  | nil => rfl
  | cons unit units ih =>
    cases second with
    | nil => cases early
    | cons unit' units' =>
      cases third with
      | nil => cases late
      | cons unit'' units'' =>
        simp only [unitsLe, Bool.or_eq_true, Bool.and_eq_true,
          decide_eq_true_eq] at early late ⊢
        rcases early with early | ⟨rfl, early⟩
        · rcases late with late | ⟨rfl, _⟩
          · exact .inl (Nat.lt_trans early late)
          · exact .inl early
        · rcases late with late | ⟨rfl, late⟩
          · exact .inl late
          · exact .inr ⟨rfl, ih early late⟩

theorem unitsLe_antisymm {units units' : List Nat}
    (early : unitsLe units units' = true) (late : unitsLe units' units = true) :
    units = units' := by
  induction units generalizing units' with
  | nil =>
    cases units' with
    | nil => rfl
    | cons unit' units' => cases late
  | cons unit units ih =>
    cases units' with
    | nil => cases early
    | cons unit' units' =>
      simp only [unitsLe, Bool.or_eq_true, Bool.and_eq_true,
        decide_eq_true_eq] at early late
      rcases early with early | ⟨rfl, early⟩
      · rcases late with late | ⟨rfl, _⟩
        · exact absurd late (Nat.lt_asymm early)
        · exact absurd early (Nat.lt_irrefl _)
      · rcases late with late | ⟨_, late⟩
        · exact absurd late (Nat.lt_irrefl _)
        · rw [ih early late]

/-! ## Sorting -/

section Sorting

variable {α : Type u} {β : Type v} (key : α → String)

/-- The order of a comparison of keys that leaves equal ones in place. -/
def KeyOrder (left right : α) : Prop :=
  unitsLe (units (key left)) (units (key right)) = true

instance : DecidableRel (KeyOrder key) := fun left right =>
  inferInstanceAs
    (Decidable (unitsLe (units (key left)) (units (key right)) = true))

instance : Std.Total (KeyOrder key) := ⟨fun _ _ => unitsLe_total _ _⟩

instance : IsTrans α (KeyOrder key) := ⟨fun _ _ _ => unitsLe_trans⟩

def sortByKey (items : List α) : List α := items.insertionSort (KeyOrder key)

variable {key}

theorem sortByKey_perm (items : List α) : (sortByKey key items).Perm items :=
  List.perm_insertionSort _ _

theorem sortByKey_sorted (items : List α) :
    (sortByKey key items).Pairwise (KeyOrder key) :=
  List.pairwise_insertionSort _ _

variable {items : List α}
  {items' : List α}

/-- Two sorted lists of the same items are the same when keys are distinct. -/
theorem sorted_unique (perm : items.Perm items')
    (distinct : (items.map key).Nodup) (sorted : items.Pairwise (KeyOrder key))
    (sorted' : items'.Pairwise (KeyOrder key)) : items = items' := by
  apply perm.eq_of_pairwise _ sorted sorted'
  intro left right member member' before after
  have same := units_inj (unitsLe_antisymm before after)
  exact List.inj_on_of_nodup_map distinct member (perm.mem_iff.mpr member') same

theorem sortByKey_congr (perm : items.Perm items')
    (distinct : (items.map key).Nodup) :
    sortByKey key items = sortByKey key items' := by
  have both : (sortByKey key items).Perm (sortByKey key items') :=
    (sortByKey_perm items).trans (perm.trans (sortByKey_perm items').symm)
  apply sorted_unique both _ (sortByKey_sorted items) (sortByKey_sorted items')
  exact ((sortByKey_perm items).map key).nodup_iff.mpr distinct

theorem sortByKey_of_sorted (distinct : (items.map key).Nodup)
    (sorted : items.Pairwise (KeyOrder key)) : sortByKey key items = items := by
  apply sorted_unique (sortByKey_perm items) _ (sortByKey_sorted items) sorted
  exact ((sortByKey_perm items).map key).nodup_iff.mpr distinct

/-- Sorting commutes with a map that keeps the keys. -/
theorem map_sortByKey {key' : β → String} {f : α → β}
    (kept : ∀ item, key' (f item) = key item) (items : List α) :
    (sortByKey key items).map f = sortByKey key' (items.map f) := by
  apply List.map_insertionSort
  intro left _ right _
  unfold KeyOrder
  rw [kept, kept]

end Sorting

end GitOnCloudflare.Foundations.StringBytes
