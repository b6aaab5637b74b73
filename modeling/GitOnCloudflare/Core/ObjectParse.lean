import GitOnCloudflare.Fetch.OidText
import GitOnCloudflare.Foundations.Utf8
import GitOnCloudflare.Pack.RefSidecarExact

/-!
# The text parser of commits and tags

The expressions that the object-store walks and the push checks run over the
decoded payload, and the line starts they look at.  The signatures and the
message of a commit are not read by the references.
-/

namespace GitOnCloudflare.Core

open Foundations
open Foundations.Utf8
open Pack

/-! ## Patterns -/

/-- A digit of `[0-9a-f]`. -/
def isLowerHexCode (code : Nat) : Bool :=
  (0x30 ≤ code && code ≤ 0x39) || (0x61 ≤ code && code ≤ 0x66)

/-- `([0-9a-f]{count})`. -/
def hexGroup : Nat → List Nat → Option (List Nat)
  | 0, _ => some []
  | count + 1, code :: rest =>
    if isLowerHexCode code then (hexGroup count rest).map (code :: ·)
    else none
  | _ + 1, [] => none

/-- A literal text followed by `([0-9a-f]{40})`. -/
def plainPattern (literal : List Nat) (text : List Nat) : Option (List Nat) :=
  if literal.isPrefixOf text then
    hexGroup 40 (text.drop literal.length)
  else
    none

/-- The code points of a `\s` class. -/
def spaceCodes : List Nat :=
  [0x09, 0x0a, 0x0b, 0x0c, 0x0d, 0x20, 0xa0, 0x1680, 0x2000, 0x2001, 0x2002,
    0x2003, 0x2004, 0x2005, 0x2006, 0x2007, 0x2008, 0x2009, 0x200a, 0x2028,
    0x2029, 0x202f, 0x205f, 0x3000, 0xfeff]

def isSpaceCode (code : Nat) : Bool := code ∈ spaceCodes

/-- What follows a literal text and `\s+`. -/
def afterSpaces (literal : List Nat) (text : List Nat) : Option (List Nat) :=
  if literal.isPrefixOf text then
    match text.drop literal.length with
    | [] => none
    | first :: rest =>
      if isSpaceCode first then some (rest.dropWhile isSpaceCode)
      else none
  else
    none

def byteCodes (bytes : Bytes) : List Nat := bytes.map UInt8.toNat

/-- The line `object` of a tag, any space before its id. -/
def objectPattern (text : List Nat) : Option (List Nat) :=
  (afterSpaces (byteCodes objectLinePrefix.dropLast) text).bind (hexGroup 40)

/-- `(commit|tree|blob|tag)`. -/
def typeGroup (text : List Nat) : Option GitObjectType :=
  if (byteCodes [0x63, 0x6f, 0x6d, 0x6d, 0x69, 0x74]).isPrefixOf text then
    some .commit
  else if (byteCodes [0x74, 0x72, 0x65, 0x65]).isPrefixOf text then
    some .tree
  else if (byteCodes [0x62, 0x6c, 0x6f, 0x62]).isPrefixOf text then
    some .blob
  else if (byteCodes [0x74, 0x61, 0x67]).isPrefixOf text then
    some .tag
  else
    none

/-- The line `type` of a tag. -/
def typePattern (text : List Nat) : Option GitObjectType :=
  (afterSpaces (byteCodes typeLinePrefix.dropLast) text).bind typeGroup

/-! ## Parsing -/

/-- The text of code points. -/
def codesText (codes : List Nat) : String :=
  String.ofList (codes.map Char.ofNat)

/-- What a tag names. -/
structure TagTarget where
  targetOid : String
  targetType : GitObjectType

/-- The target of a tag, if it has both lines. -/
def parseTagTarget (payload : Bytes) : Option TagTarget :=
  let text := decode payload
  match (lineMatches objectPattern true text).head?,
      (lineMatches typePattern true text).head? with
  | some targetOid, some targetType =>
    some ⟨Text.toLowerCase (codesText targetOid), targetType⟩
  | _, _ => none

/-- A line start of the text; `header` when the byte scanner visits a line
that starts here. -/
structure LineStart where
  header : Bool
  rest : Bytes

end GitOnCloudflare.Core
