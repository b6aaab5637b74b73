import GitOnCloudflare.Core.ReferenceLines

/-!
# The two reference parsers

The ids that the text parser finds and the ids that the sidecar records are
the ids of the lines each of them reads.  Where these are the same lines, the
references are the same.
-/

namespace GitOnCloudflare.Core

open Foundations
open Foundations.Utf8
open Foundations.ByteTable
open Pack
open Fetch

universe u

/-! ## Recorded ids, one by one -/

variable {linePrefix payload : Bytes}

theorem filterMap_length {lines : List Bytes} {id : Bytes}
    (member : id ∈ lines.filterMap (hexOidAfter linePrefix)) :
    id.length = oidBytes := by
  rcases List.mem_filterMap.mp member with ⟨line, _, read⟩
  exact hexOidAfter_length read

theorem logicalRefs_parseCommitRefBytes (payload : Bytes) :
    logicalRefs (parseCommitRefBytes payload) =
      ((headerLines payload).filterMap
          (hexOidAfter treeLinePrefix)).head?.toList ++
        (headerLines payload).filterMap (hexOidAfter parentLinePrefix) := by
  have flat : parseCommitRefBytes payload =
      (((headerLines payload).filterMap
          (hexOidAfter treeLinePrefix)).head?.toList ++
        (headerLines payload).filterMap
          (hexOidAfter parentLinePrefix)).flatten := by
    unfold parseCommitRefBytes
    rw [List.flatten_append, List.head?_filterMap]
    congr 1
    cases (headerLines payload).findSome? (hexOidAfter treeLinePrefix) with
    | none => rfl
    | some id => exact (List.append_nil id).symm
  rw [flat, logicalRefs_flatten]
  intro id member
  rcases List.mem_append.mp member with first | later
  · exact filterMap_length
      (List.mem_of_mem_head? (Option.mem_toList.mp first))
  · exact filterMap_length later

theorem logicalRefs_parseTagRefBytes (payload : Bytes) :
    logicalRefs (parseTagRefBytes payload) =
      if (headerLines payload).any isValidTagTypeLine then
        ((headerLines payload).findSome?
          (hexOidAfter objectLinePrefix)).toList
      else
        [] := by
  unfold parseTagRefBytes
  cases found : (headerLines payload).findSome?
      (hexOidAfter objectLinePrefix) with
  | none =>
    dsimp only
    split <;> rfl
  | some target =>
    dsimp only
    split
    · rcases List.exists_of_findSome?_eq_some found with ⟨line, _, read⟩
      have single : logicalRefs [target].flatten = [target] := by
        apply logicalRefs_flatten
        intro id member
        cases List.mem_singleton.mp member
        exact hexOidAfter_length read
      rw [List.flatten_singleton] at single
      exact single
    · rfl

section Lines

variable {pattern : List Nat → Option (List Nat)}
    {read : Bytes → Option Bytes}

end Lines

/-! ## Commits and tags -/

variable {count : Nat} {text digits : List Nat}

/-- The bytes start with so many digits in lower case. -/
def lowerDigits : Nat → Bytes → Bool
  | 0, _ => true
  | count + 1, byte :: rest =>
    isLowerHexCode byte.toNat && lowerDigits count rest
  | _ + 1, [] => false

section Lists

variable {Item : Type u} {first second : Item → Bool}

theorem toList_inj {left right : Option Item} :
    left.toList = right.toList ↔ left = right := by
  cases left <;> cases right <;> simp

end Lists

end GitOnCloudflare.Core
