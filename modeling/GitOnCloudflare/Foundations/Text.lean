import Mathlib.Data.List.Infix

/-!
# Text over character lists

String predicates in the form the source uses them, computed on the list of
characters so that concrete inputs evaluate in the kernel.
-/

namespace GitOnCloudflare.Foundations.Text

/-- `text.startsWith(pattern)`. -/
def startsWith (text pattern : String) : Bool :=
  pattern.toList.isPrefixOf text.toList

/-- `text.endsWith(pattern)`. -/
def endsWith (text pattern : String) : Bool :=
  pattern.toList.isSuffixOf text.toList

/-- `text.includes(pattern)`. -/
def includes (text pattern : String) : Bool :=
  text.toList.tails.any fun rest => pattern.toList.isPrefixOf rest

/-- Split a character list at every separator, keeping empty pieces. -/
def splitChars (separates : Char → Bool) : List Char → List (List Char)
  | [] => [[]]
  | head :: rest =>
    if separates head then
      [] :: splitChars separates rest
    else
      match splitChars separates rest with
      | [] => [[head]]
      | piece :: pieces => (head :: piece) :: pieces

/-- The white space and line terminators of a `\s` class. -/
def isSpace (char : Char) : Bool :=
  char.toNat ∈
    [0x09, 0x0A, 0x0B, 0x0C, 0x0D, 0x20, 0xA0, 0x1680, 0x2000, 0x2001,
      0x2002, 0x2003, 0x2004, 0x2005, 0x2006, 0x2007, 0x2008, 0x2009,
      0x200A, 0x2028, 0x2029, 0x202F, 0x205F, 0x3000, 0xFEFF]

/-- The maximal runs without white space: `text.trim().split(/\s+/)`. -/
def words (text : String) : List String :=
  ((splitChars isSpace text.toList).filter fun piece => piece ≠ []).map
    String.ofList

/-- `text.toLowerCase()` on ASCII letters, with which object ids are written;
other letters stay. -/
def toLowerCase (text : String) : String :=
  String.ofList (text.toList.map Char.toLower)

/-- The part of a text before its first `mark` and the part after it. -/
def cutAt (mark : Char) : List Char → List Char × Option (List Char)
  | [] => ([], none)
  | head :: rest =>
    if head = mark then
      ([], some rest)
    else
      let (before, after) := cutAt mark rest
      (head :: before, after)

/-- Every character of a text passes a test and their number fits. -/
def matchesClass (allowed : Char → Bool) (least most : Nat) (text : String) :
    Bool :=
  text.toList.all allowed && least ≤ text.toList.length &&
    text.toList.length ≤ most

end GitOnCloudflare.Foundations.Text
