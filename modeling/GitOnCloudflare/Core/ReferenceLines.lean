import GitOnCloudflare.Core.HeaderLines

/-!
# Reference lines

The line starts at which the text parser and the byte scanner read references,
and the ids that stand there.  At a line that both read, they read the same
id.
-/

namespace GitOnCloudflare.Core

open Foundations
open Foundations.Utf8
open Pack
open Fetch

universe u

/-! ## Readers -/

/-- The text that starts at a line start. -/
def LineStart.text (start : LineStart) : List Nat :=
  decodeFrom State.start start.rest

/-- The id at a line start. -/
def lineId (pattern : List Nat → Option (List Nat))
    (read : Bytes → Option Bytes) (start : LineStart) : String :=
  (((pattern start.text).map codesText).or
    ((read start.rest).map bytesToHex)).getD ""

/-- The type line of a tag, as the scanner reads it. -/
def typeLine (line : Bytes) : Option Unit :=
  if isValidTagTypeLine line then some () else none

/-- A line start, and what it is read for. -/
structure ReferenceLine where
  linePrefix : Bytes
  start : LineStart

/-- The id that a line names. -/
def ReferenceLine.id (line : ReferenceLine) : String :=
  lineId (plainPattern (byteCodes line.linePrefix))
    (hexOidAfter line.linePrefix) line.start

/-- A prefix without line ends. -/
def StaysInLine (linePrefix : Bytes) : Prop :=
  ∀ byte ∈ linePrefix, byte ≠ 0x0a ∧ byte ≠ 0x0d

variable {linePrefix : Bytes}

theorem staysInLine_of_all
    (all : (linePrefix.all fun byte => byte != 0x0a && byte != 0x0d) = true) :
    StaysInLine linePrefix := by
  intro byte member
  have passes := List.all_eq_true.mp all byte member
  rw [Bool.and_eq_true, bne_iff_ne, bne_iff_ne] at passes
  exact passes

variable {more bytes front : Bytes} {byte : UInt8} {nibble : Nat}
  {digits : List Nat}

theorem isPrefixOf_append_of_endsLine (stays : StaysInLine linePrefix)
    (ends : EndsLine more) (line : Bytes) :
    linePrefix.isPrefixOf (line ++ more) = linePrefix.isPrefixOf line := by
  induction linePrefix generalizing line with
  | nil => cases line <;> rfl
  | cons byte linePrefix ih =>
    cases line with
    | nil =>
      rcases stays byte List.mem_cons_self with ⟨notFeed, notReturn⟩
      rcases ends with rfl | ⟨rest, rfl | rfl⟩
      · rfl
      · show (byte == 0x0a && _) = false
        rw [beq_eq_false_iff_ne.mpr notFeed, Bool.false_and]
      · show (byte == 0x0d && _) = false
        rw [beq_eq_false_iff_ne.mpr notReturn, Bool.false_and]
    | cons first line =>
      have tail := ih
        (fun other member => stays other (List.mem_cons_of_mem _ member)) line
      show (byte == first && linePrefix.isPrefixOf (line ++ more)) =
        (byte == first && linePrefix.isPrefixOf line)
      rw [tail]

theorem drop_append_of_isPrefixOf {line : Bytes}
    (found : linePrefix.isPrefixOf line = true) (more : Bytes) :
    (line ++ more).drop linePrefix.length =
      line.drop linePrefix.length ++ more := by
  rcases List.isPrefixOf_iff_prefix.mp found with ⟨rest, rfl⟩
  rw [List.append_assoc, List.drop_left, List.drop_left]

theorem readHexPairs_append_of_endsLine (ends : EndsLine more) (pairs : Nat)
    (line : Bytes) :
    readHexPairs pairs (line ++ more) = readHexPairs pairs line := by
  induction pairs generalizing line with
  | zero => rw [readHexPairs, readHexPairs]
  | succ pairs ih =>
    cases line with
    | nil =>
      rcases ends with rfl | ⟨rest, rfl | rfl⟩
      · rfl
      · cases rest <;> rfl
      · cases rest <;> rfl
    | cons high line =>
      cases line with
      | nil =>
        have short : readHexPairs (pairs + 1) [high] = none := rfl
        rw [short]
        rcases ends with rfl | ⟨rest, rfl | rfl⟩
        · rfl
        · rw [List.cons_append, List.nil_append, readHexPairs]
          cases hexNibble high <;> rfl
        · rw [List.cons_append, List.nil_append, readHexPairs]
          cases hexNibble high <;> rfl
      | cons low line =>
        rw [List.cons_append, List.cons_append, readHexPairs, readHexPairs,
          ih line]

theorem readsLine_hexOidAfter (stays : StaysInLine linePrefix)
    (marked : ∀ rest, linePrefix.isPrefixOf (0xef :: rest) = false) :
    ReadsLine (hexOidAfter linePrefix) where
  behind := by
    intro line more ends
    unfold hexOidAfter
    rw [isPrefixOf_append_of_endsLine stays ends]
    split
    · next found =>
      rw [drop_append_of_isPrefixOf found,
        readHexPairs_append_of_endsLine ends]
    · rfl
  marked := by
    intro rest
    unfold hexOidAfter
    rw [marked rest]
    rfl

theorem readsLine_tree : ReadsLine (hexOidAfter treeLinePrefix) :=
  readsLine_hexOidAfter (staysInLine_of_all rfl) fun _ => rfl

theorem readsLine_parent : ReadsLine (hexOidAfter parentLinePrefix) :=
  readsLine_hexOidAfter (staysInLine_of_all rfl) fun _ => rfl

theorem readsLine_object : ReadsLine (hexOidAfter objectLinePrefix) :=
  readsLine_hexOidAfter (staysInLine_of_all rfl) fun _ => rfl

theorem readsLine_type : ReadsLine typeLine where
  behind := by
    intro line more ends
    have names : ∀ name ∈ targetTypeNames, StaysInLine name := by
      intro name member
      apply staysInLine_of_all
      have all : (targetTypeNames.all fun name =>
          name.all fun byte => byte != 0x0a && byte != 0x0d) = true := rfl
      exact List.all_eq_true.mp all name member
    have same : isValidTagTypeLine (line ++ more) =
        isValidTagTypeLine line := by
      unfold isValidTagTypeLine
      rw [isPrefixOf_append_of_endsLine (staysInLine_of_all rfl) ends]
      cases found : typeLinePrefix.isPrefixOf line with
      | false => rfl
      | true =>
        rw [drop_append_of_isPrefixOf found, Bool.true_and, Bool.true_and]
        rw [Bool.eq_iff_iff, List.any_eq_true, List.any_eq_true]
        constructor
        · rintro ⟨name, member, read⟩
          rw [isPrefixOf_append_of_endsLine (names name member) ends] at read
          exact ⟨name, member, read⟩
        · rintro ⟨name, member, read⟩
          refine ⟨name, member, ?_⟩
          rw [isPrefixOf_append_of_endsLine (names name member) ends]
          exact read
    unfold typeLine
    rw [same]
  marked := fun _ => rfl

/-! ## Ids -/

end GitOnCloudflare.Core
