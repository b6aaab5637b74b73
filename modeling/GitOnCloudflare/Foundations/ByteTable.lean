import Mathlib.Data.List.Basic
import Mathlib.Tactic.Ring

/-!
# Tables of fixed width

Numbers in big-endian order, and tables whose rows all take the same number
of bytes.  A row is read back at its index times the width, wherever the table
stands in a file.
-/

namespace GitOnCloudflare.Foundations.ByteTable

universe u

/-! ## Numbers -/

/-- The lowest `width` bytes of a number, most significant first. -/
def bigEndian : Nat → Nat → List UInt8
  | 0, _ => []
  | width + 1, value =>
    UInt8.ofNat (value / 256 ^ width) :: bigEndian width value

def ofBigEndian : List UInt8 → Nat
  | [] => 0
  | byte :: rest => byte.toNat * 256 ^ rest.length + ofBigEndian rest

@[simp]
theorem length_bigEndian (width value : Nat) :
    (bigEndian width value).length = width := by
  induction width with
  | zero => rfl
  | succ width ih => rw [bigEndian, List.length_cons, ih]

theorem ofBigEndian_bigEndian (width value : Nat) :
    ofBigEndian (bigEndian width value) = value % 256 ^ width := by
  induction width with
  | zero => rw [pow_zero, Nat.mod_one]; rfl
  | succ width ih =>
    have byte : (UInt8.ofNat (value / 256 ^ width)).toNat =
        value / 256 ^ width % 256 := UInt8.toNat_ofNat'
    rw [bigEndian, ofBigEndian, ih, length_bigEndian, byte, pow_succ,
      Nat.mod_mul]
    ring

variable {width : Nat}

theorem ofBigEndian_of_lt {value : Nat} (fits : value < 256 ^ width) :
    ofBigEndian (bigEndian width value) = value := by
  rw [ofBigEndian_bigEndian, Nat.mod_eq_of_lt fits]

theorem ofBigEndian_lt (bytes : List UInt8) :
    ofBigEndian bytes < 256 ^ bytes.length := by
  induction bytes with
  | nil => exact Nat.one_pos
  | cons byte rest ih =>
    rw [ofBigEndian, List.length_cons, pow_succ]
    have small : byte.toNat + 1 ≤ 256 := byte.toNat_lt
    have scaled := Nat.mul_le_mul_right (256 ^ rest.length) small
    rw [Nat.add_mul, Nat.one_mul] at scaled
    omega

/-- A number of two parts, most significant first. -/
theorem bigEndian_add (high low value : Nat) :
    bigEndian (high + low) value =
      bigEndian high (value / 256 ^ low) ++ bigEndian low value := by
  induction high with
  | zero => rw [Nat.zero_add]; rfl
  | succ high ih =>
    rw [Nat.succ_add, bigEndian, bigEndian, ih, Nat.div_div_eq_div_mul,
      ← pow_add, Nat.add_comm low high]
    rfl

/-- Only the lowest bytes of a number count. -/
theorem bigEndian_mod (width value : Nat) :
    bigEndian width (value % 256 ^ width) = bigEndian width value := by
  induction width generalizing value with
  | zero => rfl
  | succ width ih =>
    have byte : UInt8.ofNat (value % 256 ^ (width + 1) / 256 ^ width) =
        UInt8.ofNat (value / 256 ^ width) := by
      rw [pow_succ, Nat.mod_mul_right_div_self]
      apply UInt8.toNat_inj.mp
      rw [UInt8.toNat_ofNat', UInt8.toNat_ofNat', Nat.mod_mod]
    have tail : bigEndian width (value % 256 ^ (width + 1)) =
        bigEndian width value := by
      rw [← ih (value % 256 ^ (width + 1)),
        Nat.mod_mod_of_dvd value (pow_dvd_pow 256 (Nat.le_succ width)), ih]
    rw [bigEndian, bigEndian, byte, tail]

theorem bigEndian_ofBigEndian {bytes : List UInt8}
    (sized : bytes.length = width) :
    bigEndian width (ofBigEndian bytes) = bytes := by
  induction bytes generalizing width with
  | nil =>
    subst sized
    rfl
  | cons byte rest ih =>
    subst sized
    have small := ofBigEndian_lt rest
    have positive : 0 < 256 ^ rest.length := Nat.pow_pos (by decide)
    rw [List.length_cons, bigEndian, ofBigEndian]
    congr 1
    · rw [Nat.add_comm, Nat.add_mul_div_right _ _ positive,
        Nat.div_eq_of_lt small, Nat.zero_add, UInt8.ofNat_toNat]
    · rw [← bigEndian_mod, Nat.mul_comm, Nat.mul_add_mod,
        Nat.mod_eq_of_lt small]
      exact ih rfl

/-! ## Slices -/

/-- The bytes of a file from a position on, at most `length` of them. -/
def slice (file : List UInt8) (position length : Nat) : List UInt8 :=
  (file.drop position).take length

def numberAt (width : Nat) (file : List UInt8) (position : Nat) : Nat :=
  ofBigEndian (slice file position width)

theorem length_slice_le (file : List UInt8) (position length : Nat) :
    (slice file position length).length ≤ length :=
  List.length_take_le _ _

theorem numberAt_lt (width : Nat) (file : List UInt8) (position : Nat) :
    numberAt width file position < 256 ^ width :=
  (ofBigEndian_lt _).trans_le
    (Nat.pow_le_pow_right (by decide) (length_slice_le _ _ _))

/-- A part of a file between what stands before and after it. -/
theorem slice_middle (before part after : List UInt8) {position length : Nat}
    (placed : before.length = position) (sized : part.length = length) :
    slice (before ++ part ++ after) position length = part := by
  subst placed
  subst sized
  unfold slice
  rw [List.append_assoc, List.drop_left, List.take_left]

/-- A number between what stands before and after it. -/
theorem numberAt_middle (before : List UInt8) {width value : Nat}
    (after : List UInt8) {position : Nat} (placed : before.length = position)
    (fits : value < 256 ^ width) :
    numberAt width (before ++ bigEndian width value ++ after) position =
      value := by
  unfold numberAt
  rw [slice_middle before _ after placed (length_bigEndian width value),
    ofBigEndian_of_lt fits]

variable {start position : Nat}

theorem slice_within (before part after : List UInt8) {length : Nat}
    (placed : before.length = start) (inside : position + length ≤ part.length) :
    slice (before ++ part ++ after) (start + position) length =
      slice part position length := by
  subst placed
  unfold slice
  rw [List.append_assoc, ← List.drop_drop, List.drop_left,
    List.drop_append_of_le_length (by omega),
    List.take_append_of_le_length (by rw [List.length_drop]; omega)]

theorem slice_slice (file : List UInt8) {position length inner part : Nat}
    (inside : inner + part ≤ length) :
    slice (slice file position length) inner part =
      slice file (position + inner) part := by
  unfold slice
  rw [List.drop_take, List.take_take, List.drop_drop,
    Nat.min_eq_left (by omega)]

theorem bigEndian_numberAt {file : List UInt8}
    (inside : position + width ≤ file.length) :
    bigEndian width (numberAt width file position) =
      slice file position width := by
  apply bigEndian_ofBigEndian
  unfold slice
  rw [List.length_take, List.length_drop]
  omega

theorem slice_append_drop (file : List UInt8) (position length : Nat) :
    slice file position length ++ file.drop (position + length) =
      file.drop position := by
  unfold slice
  rw [← List.drop_drop]
  exact List.take_append_drop length _

theorem slice_append_slice (file : List UInt8) (position first second : Nat) :
    slice file position first ++ slice file (position + first) second =
      slice file position (first + second) := by
  unfold slice
  rw [← List.drop_drop, List.take_add]

/-! ## Rows -/

section Rows

variable {Row : Type u} {encode : Row → List UInt8} {width : Nat}
  {rows : List Row}

theorem length_flatMap_rows (sized : ∀ row ∈ rows, (encode row).length = width) :
    (rows.flatMap encode).length = rows.length * width := by
  induction rows with
  | nil => rw [List.flatMap_nil, List.length_nil, List.length_nil,
      Nat.zero_mul]
  | cons row rows ih =>
    rw [List.flatMap_cons, List.length_append, List.length_cons,
      sized row List.mem_cons_self,
      ih fun other member => sized other (List.mem_cons_of_mem _ member)]
    ring

variable {index : Nat}

/-- The rows before a row take its index times the width. -/
theorem slice_rows (sized : ∀ row ∈ rows, (encode row).length = width)
    (inside : index < rows.length) :
    slice (rows.flatMap encode) (index * width) width =
      encode rows[index] := by
  have split : rows = rows.take index ++ rows[index] :: rows.drop (index + 1) := by
    rw [List.getElem_cons_drop, List.take_append_drop]
  have before : ((rows.take index).flatMap encode).length = index * width := by
    rw [length_flatMap_rows fun row member =>
      sized row (List.mem_of_mem_take member), List.length_take,
      Nat.min_eq_left inside.le]
  have taken := slice_middle ((rows.take index).flatMap encode)
    (encode rows[index]) ((rows.drop (index + 1)).flatMap encode) before
    (sized _ (List.getElem_mem inside))
  rw [← taken]
  congr 1
  conv_lhs => rw [split]
  rw [List.flatMap_append, List.flatMap_cons, List.append_assoc]

/-- A row is read back from a table anywhere in a file. -/
theorem slice_table (sized : ∀ row ∈ rows, (encode row).length = width)
    (before after : List UInt8) (placed : before.length = start)
    (inside : index < rows.length) :
    slice (before ++ rows.flatMap encode ++ after) (start + index * width)
        width = encode rows[index] := by
  rw [slice_within _ _ _ placed, slice_rows sized inside]
  rw [length_flatMap_rows sized]
  have bound := Nat.mul_le_mul_right width (Nat.succ_le_of_lt inside)
  rw [Nat.succ_mul] at bound
  exact bound

end Rows

/-- A number is read back from a table of numbers anywhere in a file. -/
theorem numberAt_table {width : Nat} (numbers : List Nat)
    (before after : List UInt8) {start index : Nat}
    (placed : before.length = start) (inside : index < numbers.length)
    (fits : numbers[index] < 256 ^ width) :
    numberAt width
        (before ++ numbers.flatMap (fun number => bigEndian width number) ++
          after) (start + index * width) = numbers[index] := by
  unfold numberAt
  rw [slice_table (fun number _ => length_bigEndian width number) before
    after placed inside, ofBigEndian_of_lt fits]

/-- A table of numbers is written from the numbers read. -/
theorem flatMap_numberAt {count : Nat} {table : List UInt8}
    (sized : table.length = count * width) :
    ((List.range count).flatMap fun row =>
      bigEndian width (numberAt width table (row * width))) = table := by
  have prefixes : ∀ rows, rows ≤ count →
      ((List.range rows).flatMap fun row =>
        bigEndian width (numberAt width table (row * width))) =
          slice table 0 (rows * width) := by
    intro rows few
    induction rows with
    | zero =>
      rw [Nat.zero_mul]
      rfl
    | succ rows ih =>
      have inside : rows * width + width ≤ table.length := by
        rw [sized, ← Nat.succ_mul]
        exact Nat.mul_le_mul_right width few
      rw [List.range_succ, List.flatMap_append, ih (by omega),
        List.flatMap_singleton, bigEndian_numberAt inside, Nat.succ_mul,
        ← slice_append_slice, Nat.zero_add]
  rw [prefixes count (le_refl _), ← sized]
  unfold slice
  rw [List.drop_zero, List.take_length]

end GitOnCloudflare.Foundations.ByteTable
