import GitOnCloudflare.Pack.EntryHeader
import Mathlib.Data.List.TakeWhile

/-!
# Logical references of an object

The reference sidecar of a pack lists, for every object, the raw ids of the
objects it points at: tree and parents of a commit, target of a tag, entries
of a tree that are not gitlinks.
-/

namespace GitOnCloudflare.Pack

inductive GitObjectType where
  | commit
  | tree
  | blob
  | tag
deriving DecidableEq

/-- An object of a type with its payload. -/
structure GitObject where
  type : GitObjectType
  payload : Bytes
deriving DecidableEq

def oidBytes : Nat := 20

def hexNibble (value : UInt8) : Option Nat :=
  let code := value.toNat
  if 0x30 ≤ code ∧ code ≤ 0x39 then some (code - 0x30)
  else if 0x61 ≤ code ∧ code ≤ 0x66 then some (code - 0x61 + 10)
  else if 0x41 ≤ code ∧ code ≤ 0x46 then some (code - 0x41 + 10)
  else none

/-- The bytes of `pairs` pairs of hex digits, when the text starts with that
many: `hasHexOidAt` and `writeHexOidAt`. -/
def readHexPairs : Nat → Bytes → Option Bytes
  | 0, _ => some []
  | pairs + 1, high :: low :: rest =>
    match hexNibble high, hexNibble low, readHexPairs pairs rest with
    | some high, some low, some bytes =>
      some (UInt8.ofNat (high * 16 + low) :: bytes)
    | _, _, _ => none
  | _ + 1, _ => none

/-- The id that follows a prefix in a header line. -/
def hexOidAfter (linePrefix : Bytes) (line : Bytes) : Option Bytes :=
  if linePrefix.isPrefixOf line then
    readHexPairs oidBytes (line.drop linePrefix.length)
  else
    none

/-- Split at every line feed. -/
def splitLines : Bytes → List Bytes
  | [] => [[]]
  | byte :: rest =>
    if byte = 0x0a then
      [] :: splitLines rest
    else
      match splitLines rest with
      | [] => [[byte]]
      | line :: lines => (byte :: line) :: lines

/-- A line without the carriage return that may end it. -/
def stripCarriageReturn (line : Bytes) : Bytes :=
  if line.getLast? = some 0x0d then line.dropLast else line

/-- The lines that `forEachHeaderLine` visits: all before the first empty
one. -/
def headerLines (payload : Bytes) : List Bytes :=
  ((splitLines payload).map stripCarriageReturn).takeWhile fun line =>
    decide (line ≠ [])

def treeLinePrefix : Bytes := [0x74, 0x72, 0x65, 0x65, 0x20]

def parentLinePrefix : Bytes := [0x70, 0x61, 0x72, 0x65, 0x6e, 0x74, 0x20]

def objectLinePrefix : Bytes := [0x6f, 0x62, 0x6a, 0x65, 0x63, 0x74, 0x20]

def typeLinePrefix : Bytes := [0x74, 0x79, 0x70, 0x65, 0x20]

/-- The first tree of a header and its parents. -/
def parseCommitRefBytes (payload : Bytes) : Bytes :=
  ((headerLines payload).findSome? (hexOidAfter treeLinePrefix)).getD [] ++
    ((headerLines payload).filterMap
      (hexOidAfter parentLinePrefix)).flatten

/-- The type names a tag may point at, in ASCII. -/
def targetTypeNames : List Bytes :=
  [[0x63, 0x6f, 0x6d, 0x6d, 0x69, 0x74], [0x74, 0x72, 0x65, 0x65],
    [0x62, 0x6c, 0x6f, 0x62], [0x74, 0x61, 0x67]]

def isValidTagTypeLine (line : Bytes) : Bool :=
  typeLinePrefix.isPrefixOf line &&
    targetTypeNames.any fun name =>
      name.isPrefixOf (line.drop typeLinePrefix.length)

/-- The target of a tag with a valid type line. -/
def parseTagRefBytes (payload : Bytes) : Bytes :=
  match (headerLines payload).findSome? (hexOidAfter objectLinePrefix) with
  | none => []
  | some target =>
    if (headerLines payload).any isValidTagTypeLine then target else []

def gitlinkMode : Bytes := [0x31, 0x36, 0x30, 0x30, 0x30, 0x30]

/-- The loop over tree entries; every round reads at least one id. -/
def visitTreeClosureRawRefs : Nat → Bytes → Bytes
  | 0, _ => []
  | fuel + 1, payload =>
    let mode := payload.takeWhile fun byte => decide (byte ≠ 0x20)
    match payload.dropWhile fun byte => decide (byte ≠ 0x20) with
    | [] => []
    | _ :: name =>
      match name.dropWhile fun byte => decide (byte ≠ 0x00) with
      | [] => []
      | _ :: raw =>
        if raw.length < oidBytes then
          []
        else
          (if mode = gitlinkMode then [] else raw.take oidBytes) ++
            visitTreeClosureRawRefs fuel (raw.drop oidBytes)

/-- The entries of a tree but its gitlinks. -/
def parseTreeClosureRefBytes (payload : Bytes) : Bytes :=
  visitTreeClosureRawRefs payload.length payload

/-- The references of an object, twenty bytes each. -/
def objectRefBytes (object : GitObject) : Bytes :=
  match object.type with
  | .commit => parseCommitRefBytes object.payload
  | .tree => parseTreeClosureRefBytes object.payload
  | .tag => parseTagRefBytes object.payload
  | .blob => []

/-! ## Whole ids only -/

theorem readHexPairs_length {pairs : Nat} {text bytes : Bytes}
    (read : readHexPairs pairs text = some bytes) : bytes.length = pairs := by
  fun_induction readHexPairs pairs text generalizing bytes with
  | case1 => cases read; rfl
  | case2 pairs high low rest highNibble lowNibble tail found _ _ ih =>
    cases read
    rw [List.length_cons, ih found]
  | case3 => cases read
  | case4 => cases read

theorem hexOidAfter_length {linePrefix line bytes : Bytes}
    (read : hexOidAfter linePrefix line = some bytes) :
    bytes.length = oidBytes := by
  unfold hexOidAfter at read
  split at read
  · exact readHexPairs_length read
  · cases read

theorem flatten_length_dvd {size : Nat} {parts : List Bytes}
    (whole : ∀ part ∈ parts, size ∣ part.length) :
    size ∣ parts.flatten.length := by
  induction parts with
  | nil => simp
  | cons part parts ih =>
    rw [List.flatten_cons, List.length_append]
    apply Nat.dvd_add
    · exact whole part List.mem_cons_self
    · exact ih fun other member => whole other (List.mem_cons_of_mem _ member)

theorem findSome?_hexOid_length (linePrefix : Bytes) (lines : List Bytes) :
    oidBytes ∣
      ((lines.findSome? (hexOidAfter linePrefix)).getD []).length := by
  cases found : lines.findSome? (hexOidAfter linePrefix) with
  | none => simp
  | some bytes =>
    rcases List.exists_of_findSome?_eq_some found with ⟨line, _, read⟩
    simp [hexOidAfter_length read]

theorem visitTreeClosureRawRefs_length (fuel : Nat) (payload : Bytes) :
    oidBytes ∣ (visitTreeClosureRawRefs fuel payload).length := by
  induction fuel generalizing payload with
  | zero => simp [visitTreeClosureRawRefs]
  | succ fuel ih =>
    simp only [visitTreeClosureRawRefs]
    split
    · simp
    · split
      · simp
      · next raw _ =>
        split
        · simp
        · next long =>
          rw [List.length_append]
          apply Nat.dvd_add
          · split
            · simp
            · rw [List.length_take, Nat.min_eq_left (Nat.le_of_not_lt long)]
          · exact ih _

theorem parseTagRefBytes_length (payload : Bytes) :
    oidBytes ∣ (parseTagRefBytes payload).length := by
  have whole :=
    findSome?_hexOid_length objectLinePrefix (headerLines payload)
  unfold parseTagRefBytes
  split
  · simp
  · next target found =>
    rw [found] at whole
    split
    · exact whole
    · simp

/-- The recorded references of every object are whole ids. -/
theorem objectRefBytes_length (object : GitObject) :
    oidBytes ∣ (objectRefBytes object).length := by
  cases object with
  | mk type payload =>
    cases type with
    | commit =>
      show oidBytes ∣ (parseCommitRefBytes payload).length
      rw [parseCommitRefBytes, List.length_append]
      apply Nat.dvd_add (findSome?_hexOid_length _ _)
      apply flatten_length_dvd
      intro part member
      rcases List.mem_filterMap.mp member with ⟨line, _, read⟩
      rw [hexOidAfter_length read]
    | tree => exact visitTreeClosureRawRefs_length _ _
    | blob => simp [objectRefBytes]
    | tag => exact parseTagRefBytes_length payload

end GitOnCloudflare.Pack
