import GitOnCloudflare.Foundations.KeyedList
import GitOnCloudflare.Foundations.Text

/-!
# Receive commands

The commands of a push, their validation against a ref list and their
application to it, together with the parser of the request lines.  A ref list
is read into an insertion-ordered map and written back in map order, as both
functions do.
-/

namespace GitOnCloudflare.Receive

open Foundations

/-- One ref with the object id it points at. -/
structure Ref where
  name : String
  oid : String
deriving DecidableEq

/-- One requested ref update. -/
structure ReceiveCommand where
  oldOid : String
  newOid : String
  ref : String
deriving DecidableEq

/-- The verdict on one requested ref update. -/
structure ReceiveStatus where
  ref : String
  ok : Bool
  msg : Option String
deriving DecidableEq

/-- The refs of a repository in insertion order with distinct names. -/
abbrev RefMap := KeyedList Ref.name

def zeroOid : String := String.ofList (List.replicate 40 '0')

/-- `/^0{40}$/i`. -/
def isZeroOid (oid : String) : Bool :=
  oid = zeroOid

/-- The characters a ref name may not contain. -/
def isForbiddenRefChar (char : Char) : Bool :=
  char.toNat ≤ 0x20 || char ∈ ['~', '^', ':', '?', '*', '[']

def isValidRefName (name : String) : Bool :=
  if name = "" || name = "HEAD" then false
  else if !Text.startsWith name "refs/" then false
  else if name.toList.any isForbiddenRefChar then false
  else if Text.includes name "//" || Text.startsWith name "/" ||
      Text.endsWith name "/" then false
  else if (Text.splitChars (· = '/') name.toList).any
      (fun component => component = ['.'] || component = ['.', '.']) then
    false
  else if Text.endsWith name "." || Text.endsWith name ".lock" then false
  else if Text.includes name "@\x7b" then false
  else if Text.includes name "\\" then false
  else true

/-- The object id a ref map holds for a name. -/
def RefMap.oid (refs : RefMap) (name : String) : Option String :=
  (refs.find? name).map Ref.oid

/-- An object id that is present and not empty. -/
def presentOid : Option String → Option String
  | some oid => if oid = "" then none else some oid
  | none => none

/-- The verdict on one command, given the current object id of its ref. -/
def validateReceiveCommand (current : Option String) (command : ReceiveCommand) :
    ReceiveStatus :=
  if isZeroOid command.newOid then
    match presentOid current with
    | none => ⟨command.ref, false, some "no such ref"⟩
    | some oid =>
      if Text.toLowerCase oid ≠ Text.toLowerCase command.oldOid then
        ⟨command.ref, false, some "stale old-oid"⟩
      else
        ⟨command.ref, true, none⟩
  else
    match presentOid current with
    | none =>
      if !isZeroOid command.oldOid then
        ⟨command.ref, false, some "expected zero old-oid"⟩
      else
        ⟨command.ref, true, none⟩
    | some oid =>
      if Text.toLowerCase oid ≠ Text.toLowerCase command.oldOid then
        ⟨command.ref, false, some "stale old-oid"⟩
      else
        ⟨command.ref, true, none⟩

/-- Every command is judged against the ref map before the push. -/
def validateReceiveCommands (currentRefs : List Ref)
    (commands : List ReceiveCommand) : List ReceiveStatus :=
  let refMap : RefMap := KeyedList.ofList currentRefs
  commands.map fun command =>
    validateReceiveCommand (refMap.oid command.ref) command

/-- One command applied to the ref map. -/
def applyReceiveCommand (refMap : RefMap) (command : ReceiveCommand) : RefMap :=
  if isZeroOid command.newOid then
    refMap.erase command.ref
  else
    refMap.upsert ⟨command.ref, command.newOid⟩

def applyReceiveCommands (currentRefs : List Ref)
    (commands : List ReceiveCommand) : List Ref :=
  (commands.foldl applyReceiveCommand (KeyedList.ofList currentRefs)).items

/-! ## Request lines -/

structure ReceiveNegotiatedCapabilities where
  reportStatus : Bool
  sideBand64k : Bool
  quiet : Bool
  isAtomic : Bool
  ofsDelta : Bool
  agent : Option String

structure ParsedReceiveRequest where
  commands : List ReceiveCommand
  capabilities : ReceiveNegotiatedCapabilities

def parseCapabilities (firstLine : String) : ReceiveNegotiatedCapabilities :=
  let tokens :=
    match (Text.cutAt (Char.ofNat 0) firstLine.toList).2 with
    | some text => Text.words (String.ofList text)
    | none => []
  { reportStatus := "report-status" ∈ tokens
    sideBand64k := "side-band-64k" ∈ tokens
    quiet := "quiet" ∈ tokens
    isAtomic := "atomic" ∈ tokens
    ofsDelta := "ofs-delta" ∈ tokens
    agent := tokens.find? fun token => Text.startsWith token "agent=" }

/-- One request line: two object ids and the rest joined by single blanks. -/
def parseReceiveLine (line : String) : Option ReceiveCommand :=
  match Text.words line with
  | oldOid :: newOid :: first :: rest =>
    some ⟨oldOid, newOid, String.intercalate " " (first :: rest)⟩
  | _ => none

/-- The first line ends at its NUL; the others are read whole. -/
def parseReceiveRequest (lines : List String) : ParsedReceiveRequest :=
  let commandLines :=
    match lines with
    | [] => []
    | first :: rest =>
      String.ofList (Text.cutAt (Char.ofNat 0) first.toList).1 :: rest
  { commands := commandLines.filterMap parseReceiveLine
    capabilities := parseCapabilities (lines.headD "") }

/-! ## What validation and application say about one ref -/

/--
The ref of a command is where the command expects it: at the old object id up
to letter case, or without an object id for a command that creates it.
-/
def FindsExpected (current : Option String) (command : ReceiveCommand) : Prop :=
  match presentOid current with
  | none =>
    isZeroOid command.oldOid = true ∧ isZeroOid command.newOid = false
  | some oid =>
    Text.toLowerCase oid = Text.toLowerCase command.oldOid

theorem validateReceiveCommand_ok_iff (current : Option String)
    (command : ReceiveCommand) :
    (validateReceiveCommand current command).ok = true ↔
      FindsExpected current command := by
  unfold validateReceiveCommand FindsExpected
  cases presentOid current with
  | none =>
    cases isZeroOid command.newOid <;>
      cases isZeroOid command.oldOid <;> simp
  | some oid =>
    by_cases equal :
        Text.toLowerCase oid = Text.toLowerCase command.oldOid <;>
      cases isZeroOid command.newOid <;> simp [equal]

/-- Every status is `ok` exactly when every command finds its ref in the refs
before the push. -/
theorem validateReceiveCommands_all_ok_iff (currentRefs : List Ref)
    (commands : List ReceiveCommand) :
    (validateReceiveCommands currentRefs commands).all (·.ok) = true ↔
      ∀ command ∈ commands,
        FindsExpected
          (RefMap.oid (KeyedList.ofList currentRefs) command.ref)
          command := by
  simp [validateReceiveCommands, validateReceiveCommand_ok_iff]

/-- The object id a command leaves its ref at. -/
def ReceiveCommand.outcome (command : ReceiveCommand) : Option String :=
  if isZeroOid command.newOid then none else some command.newOid

theorem oid_applyReceiveCommand (refMap : RefMap) (command : ReceiveCommand)
    (name : String) :
    RefMap.oid (applyReceiveCommand refMap command) name =
      if command.ref = name then command.outcome
      else refMap.oid name := by
  unfold applyReceiveCommand RefMap.oid ReceiveCommand.outcome
  by_cases zero : isZeroOid command.newOid <;>
    by_cases same : command.ref = name <;> simp [zero, same]

/-- A command leaves every ref it does not name where it was. -/
theorem oid_foldl_of_not_mem {commands : List ReceiveCommand} {name : String}
    (absent : name ∉ commands.map ReceiveCommand.ref) (refMap : RefMap) :
    RefMap.oid (commands.foldl applyReceiveCommand refMap) name =
      refMap.oid name := by
  induction commands generalizing refMap with
  | nil => rfl
  | cons command commands ih =>
    rw [List.map_cons, List.mem_cons, not_or] at absent
    rw [List.foldl_cons, ih absent.2, oid_applyReceiveCommand,
      if_neg (Ne.symm absent.1)]

theorem nodup_applyReceiveCommands (currentRefs : List Ref)
    (commands : List ReceiveCommand) :
    ((applyReceiveCommands currentRefs commands).map Ref.name).Nodup :=
  (commands.foldl applyReceiveCommand (KeyedList.ofList currentRefs)).distinct

/-- Reading a ref list with distinct names and writing it back changes
nothing. -/
theorem ofList_items (refMap : RefMap) :
    (KeyedList.ofList refMap.items : RefMap) = refMap :=
  KeyedList.ext (KeyedList.items_ofList refMap.distinct)

theorem applyReceiveCommands_append (currentRefs : List Ref)
    (first second : List ReceiveCommand) :
    applyReceiveCommands currentRefs (first ++ second) =
      applyReceiveCommands (applyReceiveCommands currentRefs first)
        second := by
  unfold applyReceiveCommands
  rw [List.foldl_append, ofList_items]

end GitOnCloudflare.Receive
