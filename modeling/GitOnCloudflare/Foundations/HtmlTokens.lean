import Mathlib.Data.List.Infix

/-!
# Tokens of a page

The part of the tokenizer of HTML that reads lower-case tags, quoted attributes
and text, with the character references in them.  Of anything else nothing is
read at all, so what is read here is read so by any browser.  A reading that
goes on behind a piece of its input is a recursion on the input that counts the
characters to skip.
-/

namespace GitOnCloudflare.Foundations.HtmlTokens

abbrev Chars := List Char

def isDigit (char : Char) : Bool := '0' ≤ char && char ≤ '9'

def isLower (char : Char) : Bool := 'a' ≤ char && char ≤ 'z'

def isLetter (char : Char) : Bool :=
  isLower char || ('A' ≤ char && char ≤ 'Z')

def isAlphanumeric (char : Char) : Bool := isLetter char || isDigit char

def isHexDigit (char : Char) : Bool :=
  isDigit char || ('a' ≤ char && char ≤ 'f') || ('A' ≤ char && char ≤ 'F')

def hexDigitValue (char : Char) : Nat :=
  if isDigit char then char.toNat - 48
  else if 'a' ≤ char then char.toNat - 87
  else char.toNat - 55

def numeralValue (radix : Nat) (digits : Chars) : Nat :=
  digits.foldl (fun value digit => value * radix + hexDigitValue digit) 0

/-! ## Character references -/

def replacementCharacter : Char := Char.ofNat 0xfffd

/-- What the numbers of some controls stand for. -/
def replacedControls : List (Nat × Nat) :=
  [(0x80, 0x20ac), (0x82, 0x201a), (0x83, 0x0192), (0x84, 0x201e),
    (0x85, 0x2026), (0x86, 0x2020), (0x87, 0x2021), (0x88, 0x02c6),
    (0x89, 0x2030), (0x8a, 0x0160), (0x8b, 0x2039), (0x8c, 0x0152),
    (0x8e, 0x017d), (0x91, 0x2018), (0x92, 0x2019), (0x93, 0x201c),
    (0x94, 0x201d), (0x95, 0x2022), (0x96, 0x2013), (0x97, 0x2014),
    (0x98, 0x02dc), (0x99, 0x2122), (0x9a, 0x0161), (0x9b, 0x203a),
    (0x9c, 0x0153), (0x9e, 0x017e), (0x9f, 0x0178)]

def isSurrogate (code : Nat) : Bool := 0xd800 ≤ code && code ≤ 0xdfff

def numericCharacter (code : Nat) : Char :=
  if code = 0 ∨ 0x10ffff < code ∨ isSurrogate code then
    replacementCharacter
  else
    match replacedControls.lookup code with
    | some replaced => Char.ofNat replaced
    | none => Char.ofNat code

/-- The named references, of which some are also known without their
semicolon. -/
structure NamedReferences where
  value : Chars → Option Chars
  withoutSemicolon : Chars → Bool
  amp : value ['a', 'm', 'p'] = some ['&']
  lt : value ['l', 't'] = some ['<']
  gt : value ['g', 't'] = some ['>']
  quot : value ['q', 'u', 'o', 't'] = some ['"']

variable (named : NamedReferences)

/-- The longest name at the front that is known without a semicolon. -/
def longestLegacy (name : Chars) : Option (Chars × Chars) :=
  name.inits.reverse.findSome? fun front =>
    if named.withoutSemicolon front then
      (named.value front).map fun text => (front, text)
    else
      none

/-- What a numeric reference stands for, and how long it is. -/
def readNumeral (hexadecimal : Bool) (input : Chars) : Chars × Nat :=
  let digits := input.takeWhile (if hexadecimal then isHexDigit else isDigit)
  if digits = [] then
    (['&'], 0)
  else
    let semicolon :=
      if (input.drop digits.length).head? = some ';' then 1 else 0
    ([numericCharacter (numeralValue (if hexadecimal then 16 else 10) digits)],
      (if hexadecimal then 2 else 1) + digits.length + semicolon)

/-- What a named reference stands for, and how long it is. -/
def readNamed (inAttribute : Bool) (input : Chars) : Chars × Nat :=
  let name := input.takeWhile isAlphanumeric
  let next := (input.drop name.length).head?
  match (if next = some ';' then named.value name else none) with
  | some text => (text, name.length + 1)
  | none =>
    match longestLegacy named name with
    | none => (['&'], 0)
    | some (front, text) =>
      let after := (input.drop front.length).head?
      if inAttribute = true ∧
          (after = some '=' ∨ after.any isAlphanumeric = true) then
        (['&'], 0)
      else
        (text, front.length)

/-- What a reference behind an ampersand stands for, and how long it is; without
a reference the ampersand stands for itself. -/
def readReference (inAttribute : Bool) (input : Chars) : Chars × Nat :=
  if input.head? = some '#' then
    if input[1]? = some 'x' ∨ input[1]? = some 'X' then
      readNumeral true (input.drop 2)
    else
      readNumeral false (input.drop 1)
  else
    readNamed named inAttribute input

/-- A character of a value that is no part of a reference. -/
def valueCharacter (char : Char) : Char :=
  if char.toNat = 0 then replacementCharacter else char

/-- The value of an attribute. -/
def decodeValue : Nat → Chars → Chars
  | _, [] => []
  | skip + 1, _ :: rest => decodeValue skip rest
  | 0, char :: rest =>
    if char = '&' then
      let reference := readReference named true rest
      reference.1 ++ decodeValue reference.2 rest
    else
      valueCharacter char :: decodeValue 0 rest

/-! ## Tokens -/

inductive Token where
  | startTag (name : String) (attributes : List (String × Chars))
  | endTag (name : String)
  | character (char : Char)
deriving DecidableEq

/-- Behind these tags text is read in another way. -/
def rawTextTags : List String :=
  ["title", "textarea", "style", "xmp", "iframe", "noembed", "noframes",
    "script", "noscript", "plaintext"]

def voidTags : List String :=
  ["area", "base", "basefont", "bgsound", "br", "col", "embed", "frame", "hr",
    "img", "input", "keygen", "link", "meta", "param", "source", "track", "wbr"]

def isNameCharacter (char : Char) : Bool := isLower char || isDigit char

/-- A name, and what follows it. -/
def readName (input : Chars) : Option (String × Chars) :=
  match input.takeWhile isNameCharacter with
  | [] => none
  | first :: more =>
    if isLower first then
      some (String.ofList (first :: more), input.dropWhile isNameCharacter)
    else
      none

/-- An attribute behind a blank, and what follows it. -/
def readAttribute (input : Chars) : Option ((String × Chars) × Chars) :=
  match readName input with
  | none => none
  | some (name, rest) =>
    match rest with
    | '=' :: '"' :: value =>
      match value.dropWhile (· ≠ '"') with
      | '"' :: after =>
        some ((name, decodeValue named 0 (value.takeWhile (· ≠ '"'))),
          after)
      | _ => none
    | _ => none

/-- The attributes of a tag up to its end, and what follows. -/
def readAttributes : Nat → Chars → Option (List (String × Chars) × Chars)
  | _, [] => none
  | skip + 1, _ :: rest => readAttributes skip rest
  | 0, char :: rest =>
    if char = '>' then
      some ([], rest)
    else if char = ' ' then
      match readAttribute named rest with
      | none => none
      | some (first, after) =>
        (readAttributes (rest.length - after.length) rest).map fun read =>
          (first :: read.1, read.2)
    else
      none

/-- The tag behind a sign, and what follows. -/
def readTag (input : Chars) : Option (Token × Chars) :=
  if input.head? = some '/' then
    match readName (input.drop 1) with
    | some (name, '>' :: after) => some (.endTag name, after)
    | _ => none
  else
    match readName input with
    | none => none
    | some (name, rest) =>
      if name ∈ rawTextTags then
        none
      else
        (readAttributes named 0 rest).map fun read =>
          (.startTag name read.1, read.2)

def readTokens : Nat → Chars → Option (List Token)
  | _, [] => some []
  | skip + 1, _ :: rest => readTokens skip rest
  | 0, char :: rest =>
    if char = '<' then
      match readTag named rest with
      | none => none
      | some (token, after) =>
        (readTokens (rest.length - after.length) rest).map (token :: ·)
    else if char = '&' then
      let reference := readReference named false rest
      (readTokens reference.2 rest).map
        (reference.1.map Token.character ++ ·)
    else
      (readTokens 0 rest).map (.character char :: ·)

def tokenize (input : Chars) : Option (List Token) := readTokens named 0 input

/-- Every end tag ends the tag that was opened last. -/
def wellNested : List String → List Token → Bool
  | stack, [] => stack.isEmpty
  | stack, .startTag name _ :: rest =>
    wellNested (if name ∈ voidTags then stack else name :: stack) rest
  | [], .endTag _ :: _ => false
  | top :: stack, .endTag name :: rest => top == name && wellNested stack rest
  | stack, .character _ :: rest => wellNested stack rest

def characters (tokens : List Token) : Chars :=
  tokens.filterMap fun token =>
    match token with
    | .character char => some char
    | _ => none

def startTags (tokens : List Token) : List String :=
  tokens.filterMap fun token =>
    match token with
    | .startTag name _ => some name
    | _ => none

/-! ## Addresses -/

def isSchemeCharacter (char : Char) : Bool :=
  isAlphanumeric char || char = '+' || char = '-' || char = '.'

/-- The scheme at the front of an address. -/
def schemeOf (address : Chars) : Option String :=
  let scheme := address.takeWhile isSchemeCharacter
  if scheme.head?.any isLetter = true ∧
      (address.drop scheme.length).head? = some ':' then
    some (String.ofList (scheme.map Char.toLower))
  else
    none

def isTabOrNewline (char : Char) : Bool :=
  char = '\t' || char = '\n' || char = '\r'

/-- What is left of an address: no controls and blanks in front, no tabs and
newlines. -/
def strippedAddress (address : Chars) : Chars :=
  (address.dropWhile fun char => decide (char ≤ ' ')).filter fun char =>
    !isTabOrNewline char

/-! ## Reading on -/

section ReadingOn

variable {named}
  {skip : Nat} {input rest piece name text digits : Chars} {stop : Char}
  {inAttribute : Bool}

/-- A reader that skips characters reads what is behind them. -/
theorem eq_drop_of_skips {Result : Type u} {read : Nat → Chars → Result}
    (ended : ∀ skip, read (skip + 1) [] = read 0 [])
    (skips : ∀ skip char rest, read (skip + 1) (char :: rest) = read skip rest) :
    read skip input = read 0 (input.drop skip) := by
  induction skip generalizing input with
  | zero => rfl
  | succ skip ih =>
    cases input with
    | nil => exact ended skip
    | cons char rest =>
      rw [skips, ih]
      rfl

theorem decodeValue_drop :
    decodeValue named skip input = decodeValue named 0 (input.drop skip) :=
  eq_drop_of_skips (fun _ => rfl) (fun _ _ _ => rfl)

theorem readAttributes_drop :
    readAttributes named skip input =
      readAttributes named 0 (input.drop skip) :=
  eq_drop_of_skips (fun _ => rfl) (fun _ _ _ => rfl)

theorem readTokens_drop :
    readTokens named skip input = readTokens named 0 (input.drop skip) :=
  eq_drop_of_skips (fun _ => rfl) (fun _ _ _ => rfl)

theorem drop_to_rest (piece rest : Chars) :
    (piece ++ rest).drop ((piece ++ rest).length - rest.length) = rest := by
  rw [List.length_append, Nat.add_sub_cancel, List.drop_left]

variable {test : Char → Bool} {char : Char} {value : Chars}

theorem takeWhile_stops (all : ∀ char ∈ piece, test char = true)
    (stops : test stop = false) :
    (piece ++ stop :: rest).takeWhile test = piece := by
  rw [List.takeWhile_append_of_pos all, List.takeWhile_cons, stops]
  exact List.append_nil piece

theorem dropWhile_stops (all : ∀ char ∈ piece, test char = true)
    (stops : test stop = false) :
    (piece ++ stop :: rest).dropWhile test = stop :: rest := by
  rw [List.dropWhile_append_of_pos all, List.dropWhile_cons, stops]
  rfl

/-! ### References -/

/-- A reference with a known name and a semicolon. -/
theorem readReference_named (known : named.value name = some text)
    (all : ∀ char ∈ name, isAlphanumeric char = true)
    (plain : name.head? ≠ some '#') (nonempty : name ≠ []) :
    readReference named inAttribute (name ++ ';' :: rest) =
      (text, name.length + 1) := by
  have head : (name ++ ';' :: rest).head? ≠ some '#' := by
    cases name with
    | nil => exact absurd rfl nonempty
    | cons first more => exact plain
  unfold readReference readNamed
  rw [if_neg head]
  dsimp only
  rw [takeWhile_stops all (by decide), List.drop_left, List.head?_cons,
    if_pos rfl, known]

/-- An unknown name stays as it is in an attribute. -/
theorem readReference_unknown (unknown : named.value name = none)
    (all : ∀ char ∈ name, isAlphanumeric char = true)
    (plain : name.head? ≠ some '#') (nonempty : name ≠ []) :
    readReference named true (name ++ ';' :: rest) = (['&'], 0) := by
  have head : (name ++ ';' :: rest).head? ≠ some '#' := by
    cases name with
    | nil => exact absurd rfl nonempty
    | cons first more => exact plain
  unfold readReference readNamed
  rw [if_neg head]
  dsimp only
  rw [takeWhile_stops all (by decide), List.drop_left, List.head?_cons,
    if_pos rfl, unknown]
  cases legacy : longestLegacy named name with
  | none => rfl
  | some found =>
    rcases found with ⟨front, text⟩
    unfold longestLegacy at legacy
    rcases List.exists_of_findSome?_eq_some legacy with ⟨again, member, value⟩
    split at value
    · next without =>
        rcases Option.map_eq_some_iff.mp value with ⟨_, value, same⟩
        cases same
        rcases (List.mem_inits _ _).mp (List.mem_reverse.mp member) with ⟨more, split⟩
        -- The front is not the whole name, for that has no value.
        cases more with
        | nil =>
          rw [List.append_nil] at split
          rw [split, unknown] at value
          cases value
        | cons next more =>
          have letter : isAlphanumeric next = true := by
            apply all
            rw [← split]
            exact List.mem_append_right _ List.mem_cons_self
          have after : ((name ++ ';' :: rest).drop front.length).head? =
              some next := by
            rw [← split, List.append_assoc, List.drop_left]
            rfl
          dsimp only
          rw [after, if_pos ⟨rfl, Or.inr letter⟩]
    · cases value

theorem readNumeral_stops {hexadecimal : Bool}
    (all : ∀ char ∈ digits,
      (if hexadecimal then isHexDigit else isDigit) char = true)
    (nonempty : digits ≠ []) :
    readNumeral hexadecimal (digits ++ ';' :: rest) =
      ([numericCharacter
          (numeralValue (if hexadecimal then 16 else 10) digits)],
        (if hexadecimal then 2 else 1) + digits.length + 1) := by
  have stops : (if hexadecimal then isHexDigit else isDigit) ';' = false := by
    cases hexadecimal <;> decide
  unfold readNumeral
  dsimp only
  rw [takeWhile_stops all stops, if_neg nonempty, List.drop_left,
    List.head?_cons, if_pos rfl]

theorem readReference_decimal (all : ∀ char ∈ digits, isDigit char = true)
    (nonempty : digits ≠ []) :
    readReference named inAttribute ('#' :: (digits ++ ';' :: rest)) =
      ([numericCharacter (numeralValue 10 digits)], digits.length + 2) := by
  have second : ¬ (('#' :: (digits ++ ';' :: rest))[1]? = some 'x' ∨
      ('#' :: (digits ++ ';' :: rest))[1]? = some 'X') := by
    cases digits with
    | nil => exact absurd rfl nonempty
    | cons first more =>
      have digit := all first List.mem_cons_self
      rintro (same | same)
      · cases Option.some.inj same
        exact absurd digit (by decide)
      · cases Option.some.inj same
        exact absurd digit (by decide)
  unfold readReference
  rw [List.head?_cons, if_pos rfl, if_neg second]
  change readNumeral false (digits ++ ';' :: rest) = _
  rw [readNumeral_stops all nonempty]
  exact congrArg (Prod.mk _) (by simp only [Bool.false_eq_true, if_false]; omega)

theorem readReference_hexadecimal
    (all : ∀ char ∈ digits, isHexDigit char = true) (nonempty : digits ≠ []) :
    readReference named inAttribute ('#' :: 'x' :: (digits ++ ';' :: rest)) =
      ([numericCharacter (numeralValue 16 digits)], digits.length + 3) := by
  have second : ('#' :: 'x' :: (digits ++ ';' :: rest))[1]? = some 'x' := rfl
  unfold readReference
  rw [List.head?_cons, if_pos rfl, if_pos (Or.inl second)]
  change readNumeral true (digits ++ ';' :: rest) = _
  rw [readNumeral_stops all nonempty]
  exact congrArg (Prod.mk _) (by simp only [if_true]; omega)

theorem drop_behind_semicolon (name rest : Chars) :
    (name ++ ';' :: rest).drop (name.length + 1) = rest := by
  rw [← List.drop_drop, List.drop_left]
  rfl

theorem readTokens_character (text : char ≠ '<') (plain : char ≠ '&') :
    readTokens named 0 (char :: rest) =
      (readTokens named 0 rest).map (Token.character char :: ·) := by
  conv_lhs => unfold readTokens
  rw [if_neg text, if_neg plain]

theorem readTokens_named (known : named.value name = some text)
    (all : ∀ char ∈ name, isAlphanumeric char = true)
    (plain : name.head? ≠ some '#') (nonempty : name ≠ []) :
    readTokens named 0 ('&' :: (name ++ ';' :: rest)) =
      (readTokens named 0 rest).map (text.map Token.character ++ ·) := by
  conv_lhs => unfold readTokens
  rw [if_neg (by decide), if_pos rfl,
    readReference_named known all plain nonempty]
  dsimp only
  rw [readTokens_drop, drop_behind_semicolon]

theorem decodeValue_character (plain : char ≠ '&') :
    decodeValue named 0 (char :: rest) =
      valueCharacter char :: decodeValue named 0 rest := by
  conv_lhs => unfold decodeValue
  rw [if_neg plain]

theorem decodeValue_named (known : named.value name = some text)
    (all : ∀ char ∈ name, isAlphanumeric char = true)
    (plain : name.head? ≠ some '#') (nonempty : name ≠ []) :
    decodeValue named 0 ('&' :: (name ++ ';' :: rest)) =
      text ++ decodeValue named 0 rest := by
  conv_lhs => unfold decodeValue
  rw [if_pos rfl, readReference_named known all plain nonempty]
  dsimp only
  rw [decodeValue_drop, drop_behind_semicolon]

theorem decodeValue_unknown (unknown : named.value name = none)
    (all : ∀ char ∈ name, isAlphanumeric char = true)
    (plain : name.head? ≠ some '#') (nonempty : name ≠ []) :
    decodeValue named 0 ('&' :: (name ++ ';' :: rest)) =
      '&' :: decodeValue named 0 (name ++ ';' :: rest) := by
  conv_lhs => unfold decodeValue
  rw [if_pos rfl, readReference_unknown unknown all plain nonempty]
  rfl

theorem decodeValue_decimal {digits rest : Chars}
    (all : ∀ char ∈ digits, isDigit char = true) (nonempty : digits ≠ []) :
    decodeValue named 0 ('&' :: '#' :: (digits ++ ';' :: rest)) =
      numericCharacter (numeralValue 10 digits) :: decodeValue named 0 rest := by
  conv_lhs => unfold decodeValue
  rw [if_pos rfl, readReference_decimal all nonempty]
  dsimp only
  rw [decodeValue_drop, List.drop_succ_cons, drop_behind_semicolon]
  rfl

theorem decodeValue_hexadecimal (all : ∀ char ∈ digits, isHexDigit char = true)
    (nonempty : digits ≠ []) :
    decodeValue named 0 ('&' :: '#' :: 'x' :: (digits ++ ';' :: rest)) =
      numericCharacter (numeralValue 16 digits) :: decodeValue named 0 rest := by
  conv_lhs => unfold decodeValue
  rw [if_pos rfl, readReference_hexadecimal all nonempty]
  dsimp only
  rw [decodeValue_drop, List.drop_succ_cons, List.drop_succ_cons,
    drop_behind_semicolon]
  rfl

/-! ### Tags -/

/-- A name as the reader knows it. -/
def IsName (name : String) : Prop :=
  name.toList.head?.any isLower = true ∧
    ∀ char ∈ name.toList, isNameCharacter char = true

instance (name : String) : Decidable (IsName name) :=
  decidable_of_iff (name.toList.head?.any isLower = true ∧
    name.toList.all isNameCharacter = true) (by rw [List.all_eq_true]; rfl)

variable {name : String}

theorem readName_append (isName : IsName name)
    (stops : isNameCharacter stop = false) :
    readName (name.toList ++ stop :: rest) = some (name, stop :: rest) := by
  rcases isName with ⟨first, all⟩
  unfold readName
  rw [takeWhile_stops all stops, dropWhile_stops all stops]
  cases chars : name.toList with
  | nil =>
    rw [chars] at first
    cases first
  | cons head more =>
    rw [chars] at first
    have lower : isLower head = true := first
    dsimp only
    rw [if_pos lower, ← chars, String.ofList_toList]

theorem readAttribute_append (isName : IsName name) (closed : '"' ∉ value) :
    readAttribute named
        (name.toList ++ '=' :: '"' :: (value ++ '"' :: rest)) =
      some ((name, decodeValue named 0 value), rest) := by
  have all : ∀ char ∈ value, decide (char ≠ '"') = true := by
    intro char member
    apply decide_eq_true
    rintro rfl
    exact closed member
  unfold readAttribute
  rw [readName_append isName (by decide)]
  change (match (value ++ '"' :: rest).dropWhile (· ≠ '"') with
    | '"' :: after => some ((name, decodeValue named 0
        ((value ++ '"' :: rest).takeWhile (· ≠ '"'))), after)
    | _ => none) = _
  rw [dropWhile_stops all (by decide), takeWhile_stops all (by decide)]
  rfl

theorem readAttributes_append (isName : IsName name) (closed : '"' ∉ value) :
    readAttributes named 0
        (' ' :: (name.toList ++ '=' :: '"' :: (value ++ '"' :: rest))) =
      (readAttributes named 0 rest).map fun read =>
        ((name, decodeValue named 0 value) :: read.1, read.2) := by
  have split : name.toList ++ '=' :: '"' :: (value ++ '"' :: rest) =
      (name.toList ++ '=' :: '"' :: (value ++ ['"'])) ++ rest := by
    simp only [List.append_assoc, List.cons_append, List.nil_append]
  conv_lhs => unfold readAttributes
  rw [if_neg (by decide), if_pos rfl, readAttribute_append isName closed]
  dsimp only
  rw [readAttributes_drop, split, drop_to_rest]

theorem readTokens_endTag (isName : IsName name) :
    readTokens named 0 ('<' :: '/' :: (name.toList ++ '>' :: rest)) =
      (readTokens named 0 rest).map (Token.endTag name :: ·) := by
  have split : '/' :: (name.toList ++ '>' :: rest) =
      ('/' :: (name.toList ++ ['>'])) ++ rest := by
    simp only [List.append_assoc, List.cons_append, List.nil_append]
  conv_lhs => unfold readTokens
  unfold readTag
  rw [if_pos rfl, List.head?_cons, if_pos rfl]
  have read : readName (('/' :: (name.toList ++ '>' :: rest)).drop 1) =
      some (name, '>' :: rest) := readName_append isName (by decide)
  rw [read]
  change (readTokens named (('/' :: (name.toList ++ '>' :: rest)).length -
    rest.length) ('/' :: (name.toList ++ '>' :: rest))).map _ = _
  rw [readTokens_drop, split, drop_to_rest]

theorem readTokens_startTag {after : Chars} {attribs : List (String × Chars)}
    (isName : IsName name) (cooked : name ∉ rawTextTags)
    (stops : isNameCharacter stop = false)
    (read : readAttributes named 0 (stop :: rest) = some (attribs, after))
    (ends : stop :: rest = piece ++ after) :
    readTokens named 0 ('<' :: (name.toList ++ stop :: rest)) =
      (readTokens named 0 after).map (Token.startTag name attribs :: ·) := by
  have head : (name.toList ++ stop :: rest).head? ≠ some '/' := by
    have first := isName.1
    cases chars : name.toList with
    | nil =>
      rw [chars] at first
      cases first
    | cons char more =>
      rw [chars] at first
      have lower : isLower char = true := first
      rintro same
      cases Option.some.inj same
      exact absurd lower (by decide)
  conv_lhs => unfold readTokens
  unfold readTag
  rw [if_pos rfl, if_neg head, readName_append isName stops]
  dsimp only
  rw [if_neg cooked, read]
  dsimp only [Option.map_some]
  rw [readTokens_drop, ends, ← List.append_assoc, drop_to_rest]

end ReadingOn

end GitOnCloudflare.Foundations.HtmlTokens
