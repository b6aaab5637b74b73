import GitOnCloudflare.Foundations.HtmlTokens
import GitOnCloudflare.Foundations.KeyedList
import GitOnCloudflare.Foundations.Text

/-!
# The sanitizer of rendered Markdown

The tree that the parser yields is cut down to allowed tags and attributes and
written out again.  An address is judged after character references in it were
decoded once more, since the writer leaves some of them as they are.
-/

namespace GitOnCloudflare.Client

open Foundations
open Foundations.HtmlTokens

/-! ## Policy -/

def defaultAllowedTags : List String :=
  ["address", "article", "aside", "footer", "header", "h1", "h2", "h3", "h4",
    "h5", "h6", "hgroup", "main", "nav", "section", "blockquote", "dd", "div",
    "dl", "dt", "figcaption", "figure", "hr", "li", "menu", "ol", "p", "pre",
    "ul", "a", "abbr", "b", "bdi", "bdo", "br", "cite", "code", "data", "dfn",
    "em", "i", "kbd", "mark", "q", "rb", "rp", "rt", "rtc", "ruby", "s", "samp",
    "small", "span", "strong", "sub", "sup", "time", "u", "var", "wbr",
    "caption", "col", "colgroup", "table", "tbody", "td", "tfoot", "th",
    "thead", "tr"]

def repoAllowedTags : List String :=
  ["img", "details", "summary", "del", "ins"]

def allowedTags : List String := defaultAllowedTags ++ repoAllowedTags

def dropWithChildrenTags : List String :=
  ["script", "style", "textarea", "option"]

def allowedUrlSchemes : List String :=
  ["http", "https", "ftp", "mailto", "tel"]

def allowedEmptyAttributes : List String := ["alt"]

def serializedVoidTags : List String :=
  ["area", "base", "basefont", "br", "col", "embed", "hr", "img", "input",
    "keygen", "link", "meta", "param", "source", "track", "wbr"]

def allowedAttributesByTag : List (String × List String) :=
  [("a", ["href", "title", "name", "target", "rel"]),
    ("img", ["src", "alt", "title", "loading"]),
    ("code", ["class"]),
    ("span", ["class"]),
    ("pre", ["class"]),
    ("td", ["align"]),
    ("th", ["align"])]

def allowedAttributes (elementName : String) : List String :=
  (allowedAttributesByTag.lookup elementName).getD []

def urlNamedCharacterReferences : List (Chars × Chars) :=
  [(['a', 'm', 'p'], ['&']),
    (['a', 'p', 'o', 's'], ['\'']),
    (['b', 's', 'o', 'l'], ['\\']),
    (['c', 'o', 'l', 'o', 'n'], [':']),
    (['g', 't'], ['>']),
    (['l', 't'], ['<']),
    (['N', 'e', 'w', 'L', 'i', 'n', 'e'], ['\n']),
    (['q', 'u', 'o', 't'], ['"']),
    (['s', 'o', 'l'], ['/']),
    (['T', 'a', 'b'], ['\t'])]

/-! ## References in a value -/

inductive Reference where
  | decimal (digits : Chars)
  | hexadecimal (digits : Chars)
  | named (name : Chars)
deriving DecidableEq

/-- What the expressions for references match behind an ampersand, without a
semicolon, and how long it is. -/
def scanReference : Chars → Option (Reference × Nat)
  | '#' :: 'x' :: rest =>
    let digits := (rest.takeWhile isHexDigit).take 6
    if digits = [] then none
    else some (.hexadecimal digits, digits.length + 2)
  | '#' :: rest =>
    let digits := (rest.takeWhile isDigit).take 7
    if digits = [] then none
    else some (.decimal digits, digits.length + 1)
  | first :: rest =>
    if isLetter first then
      let more := (rest.takeWhile isAlphanumeric).take 31
      if more = [] then none
      else some (.named (first :: more), more.length + 1)
    else
      none
  | [] => none

/-- The references that the writer leaves as they are. -/
def keptReference (rest : Chars) : Option (Reference × Nat) :=
  (scanReference rest).filter fun scanned =>
    (rest.drop scanned.2).head? = some ';'

/-! ## Writing -/

def escapeTextCharacter (char : Char) : Chars :=
  if char = '&' then ['&', 'a', 'm', 'p', ';']
  else if char = '<' then ['&', 'l', 't', ';']
  else if char = '>' then ['&', 'g', 't', ';']
  else [char]

def escapeTextValue (value : Chars) : Chars :=
  value.flatMap escapeTextCharacter

/-- An ampersand is replaced where no whole reference follows. -/
def escapeAmpersands : Chars → Chars
  | [] => []
  | char :: rest =>
    if char = '&' ∧ keptReference rest = none then
      ['&', 'a', 'm', 'p', ';'] ++ escapeAmpersands rest
    else
      char :: escapeAmpersands rest

/-- The four replacements that follow; none makes a character that another one
replaces. -/
def escapeAttributeCharacter (char : Char) : Chars :=
  if char = '"' then ['&', 'q', 'u', 'o', 't', ';']
  else if char = '\'' then ['&', '#', '3', '9', ';']
  else if char = '<' then ['&', 'l', 't', ';']
  else if char = '>' then ['&', 'g', 't', ';']
  else [char]

def escapeAttributeValue (value : Chars) : Chars :=
  (escapeAmpersands value).flatMap escapeAttributeCharacter

/-! ## Addresses -/

/-- A surrogate is no character here and stands as the replacement character,
which no check tells from it. -/
def decodeCodePoint (entity : Chars) (codePoint : Nat) : Chars :=
  if 0x10ffff < codePoint then entity
  else if isSurrogate codePoint then [replacementCharacter]
  else [Char.ofNat codePoint]

def decodeHtmlCharacterReference (entity : Chars) : Reference → Chars
  | .decimal digits => decodeCodePoint entity (numeralValue 10 digits)
  | .hexadecimal digits => decodeCodePoint entity (numeralValue 16 digits)
  | .named name => (urlNamedCharacterReferences.lookup name).getD entity

/-- Every match is replaced, with its semicolon if there is one. -/
def decodeReferencesFrom : Nat → Chars → Chars
  | _, [] => []
  | skip + 1, _ :: rest => decodeReferencesFrom skip rest
  | 0, char :: rest =>
    if char = '&' then
      match scanReference rest with
      | none => char :: decodeReferencesFrom 0 rest
      | some (reference, length) =>
        let semicolon :=
          if (rest.drop length).head? = some ';' then 1 else 0
        decodeHtmlCharacterReference
            (char :: rest.take (length + semicolon)) reference ++
          decodeReferencesFrom (length + semicolon) rest
    else
      char :: decodeReferencesFrom 0 rest

def decodeHtmlCharacterReferences (value : Chars) : Chars :=
  decodeReferencesFrom 0 value

def commentStart : Chars := ['<', '!', '-', '-']

def commentEnd : Chars := ['-', '-', '>']

/-- `indexOf` of a piece, as the part before it and the part behind it. -/
def cutAtPiece (piece : Chars) : Chars → Option (Chars × Chars)
  | [] => if piece = [] then some ([], []) else none
  | char :: rest =>
    if piece.isPrefixOf (char :: rest) then
      some ([], (char :: rest).drop piece.length)
    else
      (cutAtPiece piece rest).map fun cut => (char :: cut.1, cut.2)

/-- Each comment that is cut out makes the value shorter. -/
def removeComments : Nat → Chars → Chars
  | 0, value => value
  | fuel + 1, value =>
    match cutAtPiece commentStart value with
    | none => value
    | some (before, inside) =>
      match cutAtPiece commentEnd inside with
      | none => value
      | some (_, after) => removeComments fuel (before ++ after)

def removeHtmlCommentsFromUrl (value : Chars) : Chars :=
  removeComments value.length value

def isAllowedUrl (value : Chars) : Bool :=
  let decoded := decodeHtmlCharacterReferences value
  let withoutComments := removeHtmlCommentsFromUrl decoded
  let normalized := withoutComments.filter fun char => decide (' ' < char)
  match schemeOf normalized with
  | none => true
  | some scheme => decide (scheme ∈ allowedUrlSchemes)

def isUrlAttribute (attributeName : String) : Bool :=
  attributeName = "href" || attributeName = "src"

/-! ## Attributes -/

def isAllowedClassName (elementName : String) (className : Chars) : Bool :=
  if elementName = "code" then
    className = "hljs".toList || "language-".toList.isPrefixOf className
  else if elementName = "span" then
    "hljs-".toList.isPrefixOf className
  else if elementName = "pre" then
    className = "markdown-code-block".toList
  else
    false

def filterClassAttribute (elementName : String) (value : Chars) : Chars :=
  [' '].intercalate
    ((Text.splitChars Text.isSpace value).filter fun className =>
      className ≠ [] && isAllowedClassName elementName className)

/-- An object with the values of attributes by name. -/
abbrev Attributes := List (String × Chars)

section Sanitizing

variable (nonAsciiLowerCase : String → String)

/-- Lower case; how letters outside of ASCII change does not matter. -/
def toLowerCase (text : String) : String :=
  if text.toList.all fun char => decide (char.toNat < 128) then
    String.ofList (text.toList.map Char.toLower)
  else
    nonAsciiLowerCase text

/-- The value that an attribute is kept with, if it is kept. -/
def sanitizeAttribute (elementName attributeName : String) (rawValue : Chars) :
    Option Chars :=
  if attributeName ∉ allowedAttributes elementName then
    none
  else
    let filteredValue :=
      if attributeName = "class" then
        filterClassAttribute elementName rawValue
      else
        rawValue
    if filteredValue = [] ∧ attributeName ∉ allowedEmptyAttributes then
      none
    else if isUrlAttribute attributeName = true ∧
        isAllowedUrl filteredValue = false then
      none
    else
      some filteredValue

def setAttribute (elementName : String) (sanitized : Attributes)
    (raw : String × Chars) : Attributes :=
  let attributeName := toLowerCase nonAsciiLowerCase raw.1
  match sanitizeAttribute elementName attributeName raw.2 with
  | none => sanitized
  | some value =>
    KeyedList.upsertItem Prod.fst (attributeName, value) sanitized

def sanitizeAttributes (elementName : String) (attribs : Attributes) :
    Attributes :=
  if allowedAttributesByTag.lookup elementName = none then
    []
  else
    attribs.foldl (setAttribute nonAsciiLowerCase elementName) []

/-! ## Nodes -/

/-- A node of the tree; `other` is a node with children that is no tag. -/
inductive Node where
  | text (data : Chars)
  | comment
  | directive
  | document (children : List Node)
  | other (children : List Node)
  | tag (name : String) (attribs : Attributes) (children : List Node)

mutual

def sanitizeNode : Node → List Node
  | .text data => [.text data]
  | .comment => []
  | .directive => []
  | .document _ => []
  | .other children => sanitizeChildren children
  | .tag name attribs children =>
    let elementName := toLowerCase nonAsciiLowerCase name
    if elementName ∈ dropWithChildrenTags then
      []
    else if elementName ∉ allowedTags then
      sanitizeChildren children
    else
      [.tag elementName
        (sanitizeAttributes nonAsciiLowerCase elementName attribs)
        (sanitizeChildren children)]

def sanitizeChildren : List Node → List Node
  | [] => []
  | node :: nodes => sanitizeNode node ++ sanitizeChildren nodes

end

def serializeAttribute (attrib : String × Chars) : Chars :=
  if attrib.2 ≠ [] ∨ attrib.1 ∈ allowedEmptyAttributes then
    ' ' :: attrib.1.toList ++ '=' :: '"' :: escapeAttributeValue attrib.2 ++ ['"']
  else
    ' ' :: attrib.1.toList

def serializeAttributes (attribs : Attributes) : Chars :=
  attribs.flatMap serializeAttribute

mutual

def serializeNode : Node → Chars
  | .text data => escapeTextValue data
  | .comment => []
  | .directive => []
  | .document _ => []
  | .other _ => []
  | .tag name attribs children =>
    let elementName := toLowerCase nonAsciiLowerCase name
    let start :=
      '<' :: elementName.toList ++ serializeAttributes attribs ++ ['>']
    if elementName ∈ serializedVoidTags then
      start
    else
      start ++ serializeChildren children ++
        '<' :: '/' :: elementName.toList ++ ['>']

def serializeChildren : List Node → Chars
  | [] => []
  | node :: nodes => serializeNode node ++ serializeChildren nodes

end

/-- The children of the document that the parser yields. -/
def sanitizeMarkdownHtml (nodes : List Node) : Chars :=
  serializeChildren nonAsciiLowerCase (sanitizeChildren nonAsciiLowerCase nodes)

end Sanitizing

end GitOnCloudflare.Client
