import GitOnCloudflare.Container.ReferenceIndex
import GitOnCloudflare.Core.ParsersAgree

/-!
# The two scanners of a payload

For every type of object, the references that the container lists and the
references that the worker's builder records, and when they are the same.
-/

namespace GitOnCloudflare.Container

open GitOnCloudflare.Core
open Pack

/-! ## The lines both scanners read -/

theorem decodeObjectID_eq (value : Bytes) :
    decodeObjectID value = readHexPairs oidBytes value := by
  have short : ∀ (pairs : Nat) (value : Bytes), value.length < 2 * pairs →
      readHexPairs pairs value = none := by
    intro pairs value small
    fun_induction readHexPairs pairs value with
    | case1 => omega
    | case2 pairs high low rest _ _ _ found _ _ ih =>
      rw [ih (by simp only [List.length_cons] at small; omega)] at found
      cases found
    | case3 => rfl
    | case4 => rfl
  have front : ∀ (pairs : Nat) (value : Bytes),
      readHexPairs pairs (value.take (2 * pairs)) =
        readHexPairs pairs value := by
    intro pairs
    induction pairs with
    | zero => intro value; rw [readHexPairs, readHexPairs]
    | succ pairs ih =>
      intro value
      cases value with
      | nil => rfl
      | cons high value =>
        cases value with
        | nil => rfl
        | cons low value =>
          rw [Nat.mul_succ, List.take_succ_cons, List.take_succ_cons,
            readHexPairs, readHexPairs, ih value]
  unfold decodeObjectID
  split
  · next small => exact (short oidBytes value small).symm
  · exact front oidBytes value

theorem prefixedObjectIDs_eq (prefixes : List Bytes) (line : Bytes) :
    prefixedObjectIDs prefixes line =
      prefixes.filterMap fun linePrefix => hexOidAfter linePrefix line := by
  unfold prefixedObjectIDs hexOidAfter
  simp only [decodeObjectID_eq]

/-- A line that holds only a carriage return. -/
def isReturnLine (line : Bytes) : Bool := decide (line = [0x0d])

/-- The lines before the first one that holds a carriage return only. -/
def linesBeforeReturn (payload : Bytes) : List Bytes :=
  (headLines payload).takeWhile fun line => !isReturnLine line

/-- That line and the lines behind it: the container goes on there. -/
def linesFromReturn (payload : Bytes) : List Bytes :=
  (headLines payload).dropWhile fun line => !isReturnLine line

theorem headLines_eq (payload : Bytes) :
    headLines payload =
      linesBeforeReturn payload ++ linesFromReturn payload :=
  List.takeWhile_append_dropWhile.symm

theorem stripCarriageReturn_eq_nil (line : Bytes) :
    stripCarriageReturn line = [] ↔ line = [] ∨ line = [0x0d] := by
  constructor
  · intro stripped
    rcases stripCarriageReturn_cases line with whole | cut
    · exact .inl (whole.symm.trans stripped)
    · rw [stripped] at cut
      exact .inr cut
  · rintro (rfl | rfl) <;> rfl

/-- The worker reads these lines, without their carriage returns. -/
theorem headerLines_eq (payload : Bytes) :
    headerLines payload =
      (linesBeforeReturn payload).map stripCarriageReturn := by
  unfold headerLines linesBeforeReturn headLines
  rw [List.takeWhile_map, List.takeWhile_takeWhile]
  congr 1
  apply congrArg fun test => List.takeWhile test (splitLines payload)
  funext line
  have stripped := stripCarriageReturn_eq_nil line
  unfold isReturnLine
  by_cases empty : line = []
  · simp [empty, stripCarriageReturn]
  · by_cases lone : line = [0x0d]
    · simp [lone, stripCarriageReturn]
    · have kept : stripCarriageReturn line ≠ [] := by
        rw [Ne, stripped, not_or]
        exact ⟨empty, lone⟩
      simp [empty, lone, kept]

variable {Found : Type} {tree : Bytes}
  {read : Bytes → Option Found} {lines refs : List Bytes}

theorem read_stripped (reads : ReadsLine read) (line : Bytes) :
    read (stripCarriageReturn line) = read line := by
  rcases stripCarriageReturn_cases line with whole | cut
  · rw [whole]
  · conv_rhs => rw [cut]
    exact (reads.behind _ _ (.inr ⟨[], .inr rfl⟩)).symm

theorem filterMap_headerLines_eq (reads : ReadsLine read) (payload : Bytes) :
    (headerLines payload).filterMap read =
      (linesBeforeReturn payload).filterMap read := by
  rw [headerLines_eq, List.filterMap_map]
  apply List.filterMap_congr
  intro line _
  exact read_stripped reads line

/-! ## Commits -/

def lineTree : Bytes → Option Bytes := hexOidAfter treeLinePrefix

def lineParent : Bytes → Option Bytes := hexOidAfter parentLinePrefix

/-- The ids of a line: its tree or its parent. -/
def lineReferences : Bytes → List Bytes :=
  prefixedObjectIDs [treeLinePrefix, parentLinePrefix]

/-- No references behind a line that holds a carriage return only, at most one
tree, and in front of it no parents that differ from it. -/
structure CommitInOrder (payload : Bytes) : Prop where
  ended : (linesFromReturn payload).flatMap lineReferences = []
  single : ((linesBeforeReturn payload).filterMap lineTree).length ≤ 1
  first : ∀ before line after tree,
    linesBeforeReturn payload = before ++ line :: after →
      lineTree line = some tree →
        ∀ parent ∈ before.filterMap lineParent, parent = tree

theorem lineReferences_eq (line : Bytes) :
    lineReferences line =
      (lineTree line).toList ++ (lineParent line).toList := by
  unfold lineReferences lineTree lineParent
  rw [prefixedObjectIDs_eq, List.filterMap_cons, List.filterMap_cons,
    List.filterMap_nil]
  cases hexOidAfter treeLinePrefix line <;>
    cases hexOidAfter parentLinePrefix line <;> rfl

/-- A line is of one kind. -/
theorem lineParent_of_lineTree {line : Bytes}
    (found : lineTree line = some tree) : lineParent line = none := by
  unfold lineTree hexOidAfter at found
  unfold lineParent hexOidAfter
  cases line with
  | nil => cases found
  | cons byte line =>
    by_cases letter : byte = 0x74
    · subst letter
      rfl
    · have missed : treeLinePrefix.isPrefixOf (byte :: line) = false := by
        show ((0x74 : UInt8) == byte && _) = false
        rw [beq_eq_false_iff_ne.mpr (Ne.symm letter), Bool.false_and]
      rw [missed] at found
      cases found

theorem flatMap_lineReferences_length (lines : List Bytes) :
    (lines.flatMap lineReferences).length =
      (lines.filterMap lineTree).length +
        (lines.filterMap lineParent).length := by
  induction lines with
  | nil => rfl
  | cons line lines ih =>
    rw [List.flatMap_cons, List.length_append, ih, lineReferences_eq,
      List.filterMap_cons, List.filterMap_cons]
    cases lineTree line <;> cases lineParent line <;>
      simp only [Option.toList_none, Option.toList_some, List.length_append,
        List.length_cons, List.length_nil] <;> omega

/-- Without a tree line, the references are the parents. -/
theorem flatMap_lineReferences_parents (none_ : lines.filterMap lineTree = []) :
    lines.flatMap lineReferences = lines.filterMap lineParent := by
  induction lines with
  | nil => rfl
  | cons line lines ih =>
    rw [List.filterMap_cons] at none_
    rw [List.flatMap_cons, List.filterMap_cons, lineReferences_eq]
    cases found : lineTree line with
    | some tree =>
      rw [found] at none_
      cases none_
    | none =>
      rw [found] at none_
      rw [ih none_]
      cases lineParent line <;> rfl

/-- The one tree line, and the lines around it. -/
theorem exists_tree_line (single : lines.filterMap lineTree = [tree]) :
    ∃ before line after, lines = before ++ line :: after ∧
      lineTree line = some tree ∧ before.filterMap lineTree = [] ∧
        after.filterMap lineTree = [] := by
  induction lines with
  | nil => cases single
  | cons line lines ih =>
    rw [List.filterMap_cons] at single
    cases found : lineTree line with
    | some other =>
      rw [found] at single
      rcases List.cons_eq_cons.mp single with ⟨rfl, none_⟩
      exact ⟨[], line, lines, rfl, found, rfl, none_⟩
    | none =>
      rw [found] at single
      rcases ih single with ⟨before, other, after, rfl, here, front, back⟩
      refine ⟨line :: before, other, after, rfl, here, ?_, back⟩
      rw [List.filterMap_cons, found]
      exact front

theorem append_singleton_comm {parents : List Bytes} :
    parents ++ [tree] = tree :: parents ↔
      ∀ parent ∈ parents, parent = tree := by
  induction parents with
  | nil => exact iff_of_true rfl nofun
  | cons parent parents ih =>
    rw [List.cons_append, List.cons_eq_cons]
    constructor
    · rintro ⟨rfl, rest⟩ other member
      rcases List.mem_cons.mp member with rfl | member
      · rfl
      · exact ih.mp rest other member
    · intro same
      have head := same parent List.mem_cons_self
      subst head
      exact ⟨rfl, ih.mpr fun other member =>
        same other (List.mem_cons_of_mem _ member)⟩

/-- What the worker records of a commit. -/
theorem logicalRefs_commit (payload : Bytes) :
    logicalRefs (parseCommitRefBytes payload) =
      ((linesBeforeReturn payload).filterMap lineTree).head?.toList ++
        (linesBeforeReturn payload).filterMap lineParent := by
  rw [logicalRefs_parseCommitRefBytes,
    filterMap_headerLines_eq readsLine_tree,
    filterMap_headerLines_eq readsLine_parent]
  rfl

theorem parseCommitReferences_eq (payload : Bytes) :
    parseCommitReferences payload =
      (linesBeforeReturn payload).flatMap lineReferences ++
        (linesFromReturn payload).flatMap lineReferences := by
  unfold parseCommitReferences
  rw [headLines_eq, List.flatMap_append]
  rfl

/-- The references of a commit, in the container and in the worker. -/
theorem commitReferences_agree (payload : Bytes) :
    parseCommitReferences payload =
        logicalRefs (parseCommitRefBytes payload) ↔
      CommitInOrder payload := by
  rw [parseCommitReferences_eq, logicalRefs_commit]
  have counted := flatMap_lineReferences_length (linesBeforeReturn payload)
  constructor
  · intro same
    have lengths := congrArg List.length same
    rw [List.length_append, List.length_append, counted,
      Option.length_toList] at lengths
    have few : (if ((linesBeforeReturn payload).filterMap
        lineTree).head?.isSome then 1 else 0) ≤
          ((linesBeforeReturn payload).filterMap lineTree).length := by
      cases (linesBeforeReturn payload).filterMap lineTree with
      | nil => exact Nat.zero_le _
      | cons tree trees => exact Nat.succ_le_succ (Nat.zero_le _)
    have one : (if ((linesBeforeReturn payload).filterMap
        lineTree).head?.isSome then 1 else 0) ≤ 1 := by
      split <;> omega
    have ended : (linesFromReturn payload).flatMap lineReferences = [] := by
      apply List.eq_nil_of_length_eq_zero
      omega
    refine ⟨ended, by omega, ?_⟩
    intro before line after tree split found
    have inner : after.filterMap lineTree = [] ∧
        before.filterMap lineTree = [] := by
      have trees : ((linesBeforeReturn payload).filterMap lineTree).length ≤
          1 := by
        omega
      rw [split, List.filterMap_append, List.filterMap_cons, found,
        List.length_append, List.length_cons] at trees
      constructor
      · exact List.eq_nil_of_length_eq_zero (by omega)
      · exact List.eq_nil_of_length_eq_zero (by omega)
    rw [ended, List.append_nil, split, List.flatMap_append,
      List.flatMap_cons, List.filterMap_append, List.filterMap_cons, found,
      inner.1, inner.2, flatMap_lineReferences_parents inner.1,
      flatMap_lineReferences_parents inner.2, lineReferences_eq, found,
      List.filterMap_append, List.filterMap_cons,
      lineParent_of_lineTree found] at same
    apply append_singleton_comm.mp
    have fronts : before.filterMap lineParent ++ [tree] ++
        after.filterMap lineParent =
          tree :: before.filterMap lineParent ++
            after.filterMap lineParent := by
      rw [List.append_assoc]
      exact same
    exact List.append_cancel_right fronts
  · intro ordered
    rw [ordered.ended, List.append_nil]
    cases trees : (linesBeforeReturn payload).filterMap lineTree with
    | nil => exact flatMap_lineReferences_parents trees
    | cons tree rest =>
      have single := ordered.single
      rw [trees, List.length_cons] at single
      have none_ : rest = [] := List.eq_nil_of_length_eq_zero (by omega)
      subst none_
      rcases exists_tree_line trees with
        ⟨before, line, after, split, found, front, back⟩
      have same := append_singleton_comm.mpr
        (ordered.first before line after tree split found)
      rw [split, List.flatMap_append, List.flatMap_cons,
        flatMap_lineReferences_parents front,
        flatMap_lineReferences_parents back, lineReferences_eq, found,
        List.filterMap_append, List.filterMap_cons,
        lineParent_of_lineTree found]
      show before.filterMap lineParent ++ ([tree] ++
        after.filterMap lineParent) =
          tree :: (before.filterMap lineParent ++ after.filterMap lineParent)
      rw [← List.append_assoc, same]
      rfl

/-! ## Tags -/

/-- The target of the last object line. -/
def lastTarget (lines : List Bytes) : Option Bytes :=
  (lines.filter objectLinePrefix.isPrefixOf).getLast?.bind
    (hexOidAfter objectLinePrefix)

/-- The value of a type line is a type, with nothing behind it. -/
def namesType (line : Bytes) : Bool :=
  isTargetTypeName (line.drop typeLinePrefix.length)

/-- The last type line names a type. -/
def lastTyped (lines : List Bytes) : Bool :=
  ((lines.filter typeLinePrefix.isPrefixOf).getLast?.map namesType).getD false

/-- The last object line and the last type line give a target exactly when the
first object line with an id, in front of a lone carriage return, gives it and
a type line begins with a type there. -/
def TagInOrder (payload : Bytes) : Prop :=
  ∀ target,
    (lastTarget (headLines payload) = some target ∧
        lastTyped (headLines payload) = true) ↔
      ((linesBeforeReturn payload).findSome?
          (hexOidAfter objectLinePrefix) = some target ∧
        (linesBeforeReturn payload).any isValidTagTypeLine = true)

theorem foldl_tagScan (lines : List Bytes) (scan : TagScan) :
    lines.foldl TagScan.read scan =
      ⟨((lines.filter objectLinePrefix.isPrefixOf).getLast?.map
          (hexOidAfter objectLinePrefix)).getD scan.target,
        ((lines.filter typeLinePrefix.isPrefixOf).getLast?.map
          namesType).getD scan.hasType⟩ := by
  induction lines generalizing scan with
  | nil => rfl
  | cons line lines ih =>
    rw [List.foldl_cons, ih, List.filter_cons, List.filter_cons]
    congr 1
    · show _ = ((if objectLinePrefix.isPrefixOf line = true then _ else _ :
        List Bytes).getLast?.map (hexOidAfter objectLinePrefix)).getD _
      unfold TagScan.read
      dsimp only
      cases found : objectLinePrefix.isPrefixOf line with
      | false => rfl
      | true =>
        have here : decodeObjectID (line.drop objectLinePrefix.length) =
            hexOidAfter objectLinePrefix line := by
          unfold hexOidAfter
          rw [if_pos found, decodeObjectID_eq]
        rw [if_pos rfl, if_pos rfl, List.getLast?_cons, here]
        cases (lines.filter objectLinePrefix.isPrefixOf).getLast? <;> rfl
    · unfold TagScan.read
      dsimp only
      cases found : typeLinePrefix.isPrefixOf line with
      | false => rfl
      | true =>
        rw [if_pos rfl, if_pos rfl, List.getLast?_cons]
        cases (lines.filter typeLinePrefix.isPrefixOf).getLast? <;> rfl

theorem parseTagReferences_eq (payload : Bytes) :
    parseTagReferences payload =
      (if lastTyped (headLines payload) then lastTarget (headLines payload)
        else none).toList := by
  have target : ∀ last : Option Bytes,
      (last.map (hexOidAfter objectLinePrefix)).getD none =
        last.bind (hexOidAfter objectLinePrefix) := by
    intro last
    cases last <;> rfl
  unfold parseTagReferences
  rw [foldl_tagScan, target]
  unfold lastTarget lastTyped
  dsimp only
  cases (List.filter objectLinePrefix.isPrefixOf
      (headLines payload)).getLast?.bind (hexOidAfter objectLinePrefix) with
  | none =>
    dsimp only
    split <;> rfl
  | some target =>
    dsimp only
    split <;> rfl

theorem any_headerLines_eq (payload : Bytes) :
    (headerLines payload).any isValidTagTypeLine =
      (linesBeforeReturn payload).any isValidTagTypeLine := by
  rw [headerLines_eq, List.any_map]
  congr 1
  funext line
  have same := congrArg Option.isSome (read_stripped readsLine_type line)
  unfold typeLine at same
  show isValidTagTypeLine (stripCarriageReturn line) =
    isValidTagTypeLine line
  cases first : isValidTagTypeLine (stripCarriageReturn line) <;>
    cases second : isValidTagTypeLine line <;>
    simp [first, second] at same ⊢

theorem logicalRefs_tag (payload : Bytes) :
    logicalRefs (parseTagRefBytes payload) =
      (if (linesBeforeReturn payload).any isValidTagTypeLine then
        (linesBeforeReturn payload).findSome? (hexOidAfter objectLinePrefix)
      else
        none).toList := by
  have target : (headerLines payload).findSome?
      (hexOidAfter objectLinePrefix) =
        (linesBeforeReturn payload).findSome?
          (hexOidAfter objectLinePrefix) := by
    rw [← List.head?_filterMap, filterMap_headerLines_eq readsLine_object,
      List.head?_filterMap]
  rw [logicalRefs_parseTagRefBytes, any_headerLines_eq, target]
  split <;> rfl

/-- The target of a tag, in the container and in the worker. -/
theorem tagReferences_agree (payload : Bytes) :
    parseTagReferences payload = logicalRefs (parseTagRefBytes payload) ↔
      TagInOrder payload := by
  rw [parseTagReferences_eq, logicalRefs_tag, toList_inj, Option.ext_iff]
  apply forall_congr'
  intro target
  rw [Option.ite_none_right_eq_some, Option.ite_none_right_eq_some,
    and_comm, @and_comm (List.any _ _ = true)]

/-! ## All objects -/

theorem readTreeEntries_eq {fuel : Nat} {payload : Bytes}
    (read : readTreeEntries fuel payload = .ok refs) :
    visitTreeClosureRawRefs fuel payload = refs.flatten ∧
      ∀ id ∈ refs, id.length = oidBytes := by
  fun_induction readTreeEntries fuel payload generalizing refs with
  | case1 =>
    cases read
    exact ⟨rfl, fun _ member => absurd member List.not_mem_nil⟩
  | case2 fuel =>
    cases read
    exact ⟨rfl, fun _ member => absurd member List.not_mem_nil⟩
  | case3 => cases read
  | case4 => cases read
  | case5 => cases read
  | case6 => cases read
  | case7 fuel first more payload mode space name blank nul raw zero long
      tail found =>
    rename_i ih
    cases read
    rcases ih found with ⟨same, sized⟩
    constructor
    · rw [visitTreeClosureRawRefs, blank]
      dsimp only
      rw [zero]
      dsimp only
      rw [if_neg long, same, List.flatten_append]
      congr 1
      split
      · rfl
      · exact (List.append_nil _).symm
    · intro id member
      rcases List.mem_append.mp member with here | later
      · split at here
        · cases here
        · cases List.mem_singleton.mp here
          rw [List.length_take, Nat.min_eq_left (Nat.le_of_not_lt long)]
      · exact sized id later

/-- What both scanners must find in an object to list the same references. -/
def ReadInOrder (object : GitObject) : Prop :=
  match object.type with
  | .commit => CommitInOrder object.payload
  | .tag => TagInOrder object.payload
  | .tree | .blob => True

theorem logicalReferences_agree {object : GitObject} {typeCode : UInt8}
    (listed : logicalReferences object = .ok (typeCode, refs)) :
    typeCode = object.type.typeCode ∧
      (refs = logicalRefs (objectRefBytes object) ↔ ReadInOrder object) := by
  cases object with
  | mk type payload =>
    cases type with
    | commit =>
      cases listed
      exact ⟨rfl, commitReferences_agree payload⟩
    | tree =>
      unfold logicalReferences at listed
      dsimp only at listed
      cases read : parseTreeReferences payload with
      | error failure =>
        rw [read] at listed
        cases listed
      | ok found =>
        rw [read] at listed
        cases listed
        rcases readTreeEntries_eq read with ⟨same, sized⟩
        refine ⟨rfl, iff_of_true ?_ trivial⟩
        show refs = logicalRefs (parseTreeClosureRefBytes payload)
        unfold parseTreeClosureRefBytes
        rw [same, logicalRefs_flatten sized]
    | blob =>
      cases listed
      have none_ : logicalRefs ([] : List Bytes).flatten = [] :=
        logicalRefs_flatten fun _ impossible =>
          absurd impossible List.not_mem_nil
      exact ⟨rfl, iff_of_true none_.symm trivial⟩
    | tag =>
      cases listed
      exact ⟨rfl, tagReferences_agree payload⟩

end GitOnCloudflare.Container
