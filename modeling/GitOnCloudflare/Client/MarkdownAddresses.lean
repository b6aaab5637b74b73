import GitOnCloudflare.Client.MarkdownSanitizer
import Mathlib.Data.List.TakeWhile

/-!
# Two readings of an address

What a browser reads of an attribute that was written, and what the check of
addresses reads of its value.  Up to the first colon both read the same, as long
as all names are known to the check.
-/

namespace GitOnCloudflare.Client

open Foundations
open Foundations.HtmlTokens

/-! ## References -/

/-- A reference as it is written between the ampersand and the semicolon. -/
def Reference.body : Reference → Chars
  | .decimal digits => '#' :: digits
  | .hexadecimal digits => '#' :: 'x' :: digits
  | .named name => name

/-- A reference as the expressions match it. -/
def Reference.Matched : Reference → Prop
  | .decimal digits => (∀ char ∈ digits, isDigit char = true) ∧ digits ≠ []
  | .hexadecimal digits => (∀ char ∈ digits, isHexDigit char = true) ∧ digits ≠ []
  | .named name => (∀ char ∈ name, isAlphanumeric char = true) ∧
      name.head? ≠ some '#' ∧ name ≠ []

theorem take_takeWhile_prefix (test : Char → Bool) (count : Nat) (input : Chars) :
    (∀ char ∈ (input.takeWhile test).take count, test char = true) ∧
      (input.takeWhile test).take count ++
        input.drop ((input.takeWhile test).take count).length = input := by
  constructor
  · intro char member
    exact List.mem_takeWhile_imp (List.mem_of_mem_take member)
  · apply List.prefix_iff_eq_append.mp
    exact (List.take_prefix _ _).trans (List.takeWhile_prefix _)

variable {reference : Reference} {input rest front : Chars} {length : Nat}
  {value : Chars → Option Chars} {char : Char} {scheme : String}

/-- What the expressions match is in front of the input. -/
theorem scanReference_matches
    (scanned : scanReference input = some (reference, length)) :
    reference.Matched ∧ length = reference.body.length ∧
      reference.body ++ input.drop length = input := by
  unfold scanReference at scanned
  split at scanned
  · next rest =>
      dsimp only at scanned
      split at scanned
      · cases scanned
      · next nonempty =>
          cases scanned
          rcases take_takeWhile_prefix isHexDigit 6 rest with ⟨all, whole⟩
          refine ⟨⟨all, nonempty⟩, rfl, ?_⟩
          exact congrArg ('#' :: 'x' :: ·) whole
  · next rest _ =>
      dsimp only at scanned
      split at scanned
      · cases scanned
      · next nonempty =>
          cases scanned
          rcases take_takeWhile_prefix isDigit 7 rest with ⟨all, whole⟩
          refine ⟨⟨all, nonempty⟩, rfl, ?_⟩
          exact congrArg ('#' :: ·) whole
  · next first rest _ other =>
      split at scanned
      · next letter =>
          dsimp only at scanned
          split at scanned
          · cases scanned
          · cases scanned
            rcases take_takeWhile_prefix isAlphanumeric 31 rest with ⟨all, whole⟩
            refine ⟨⟨?_, ?_, List.cons_ne_nil _ _⟩, rfl, ?_⟩
            · intro char member
              rcases List.mem_cons.mp member with rfl | later
              · unfold isAlphanumeric
                rw [letter, Bool.true_or]
              · exact all char later
            · intro same
              cases Option.some.inj same
              exact absurd letter (by decide)
            · exact congrArg (first :: ·) whole
      · cases scanned
  · cases scanned

/-- A reference that the writer leaves is whole. -/
theorem keptReference_matches
    (kept : keptReference input = some (reference, length)) :
    reference.Matched ∧ length = reference.body.length ∧
      ∃ rest, input = reference.body ++ ';' :: rest := by
  rcases Option.filter_eq_some_iff.mp kept with ⟨scanned, closed⟩
  rcases scanReference_matches scanned with ⟨matched, sized, whole⟩
  refine ⟨matched, sized, (input.drop length).tail, ?_⟩
  have head := of_decide_eq_true closed
  dsimp only at head
  cases rest : input.drop length with
  | nil =>
    rw [rest] at head
    cases head
  | cons char tail =>
    rw [rest] at head
    cases Option.some.inj head
    rw [rest] at whole
    exact whole.symm

/-! ## What a browser reads -/

def referenceText (value : Chars → Option Chars) : Reference → Option Chars
  | .decimal digits => some [numericCharacter (numeralValue 10 digits)]
  | .hexadecimal digits => some [numericCharacter (numeralValue 16 digits)]
  | .named name => value name

/-- The value of an attribute with its whole references decoded, for a table of
names. -/
def browserValueFrom (value : Chars → Option Chars) : Nat → Chars → Chars
  | _, [] => []
  | skip + 1, _ :: rest => browserValueFrom value skip rest
  | 0, char :: rest =>
    if char = '&' then
      match (keptReference rest).bind fun kept =>
          (referenceText value kept.1).map fun text => (text, kept.2 + 1) with
      | some (text, length) => text ++ browserValueFrom value length rest
      | none => char :: browserValueFrom value 0 rest
    else
      valueCharacter char :: browserValueFrom value 0 rest

def browserValue (value : Chars → Option Chars) (input : Chars) : Chars :=
  browserValueFrom value 0 input

variable {skip : Nat} {tail address : Chars}

theorem browserValueFrom_drop :
    browserValueFrom value skip input = browserValue value (input.drop skip) :=
  eq_drop_of_skips (fun _ => rfl) (fun _ _ _ => rfl)

theorem browserValue_character (plain : char ≠ '&') :
    browserValue value (char :: rest) =
      valueCharacter char :: browserValue value rest := by
  conv_lhs => unfold browserValue browserValueFrom
  rw [if_neg plain]
  rfl

theorem browserValue_unkept (unkept : keptReference rest = none) :
    browserValue value ('&' :: rest) = '&' :: browserValue value rest := by
  conv_lhs => unfold browserValue browserValueFrom
  rw [if_pos rfl, unkept]
  rfl

theorem browserValue_unknown
    (kept : keptReference rest = some (reference, length))
    (unknown : referenceText value reference = none) :
    browserValue value ('&' :: rest) = '&' :: browserValue value rest := by
  conv_lhs => unfold browserValue browserValueFrom
  rw [if_pos rfl, kept]
  dsimp only [Option.bind_some]
  rw [unknown]
  rfl

theorem browserValue_known {value : Chars → Option Chars} {rest text : Chars}
    {reference : Reference} {length : Nat}
    (kept : keptReference (reference.body ++ ';' :: rest) =
      some (reference, length))
    (known : referenceText value reference = some text) :
    browserValue value ('&' :: (reference.body ++ ';' :: rest)) =
      text ++ browserValue value rest := by
  rcases keptReference_matches kept with ⟨_, sized, _⟩
  conv_lhs => unfold browserValue browserValueFrom
  rw [if_pos rfl, kept]
  dsimp only [Option.bind_some]
  rw [known]
  dsimp only [Option.map_some]
  rw [browserValueFrom_drop, sized, drop_behind_semicolon]

/-! ## What is written -/

/-- A character that the writer does not replace. -/
def Unescaped (char : Char) : Prop :=
  char ≠ '&' ∧ char ≠ '"' ∧ char ≠ '\'' ∧ char ≠ '<' ∧ char ≠ '>'

instance (char : Char) : Decidable (Unescaped char) := by
  unfold Unescaped
  infer_instance

theorem escapeAttributeCharacter_unescaped (unescaped : Unescaped char) :
    escapeAttributeCharacter char = [char] := by
  rcases unescaped with ⟨_, quote, apostrophe, less, greater⟩
  unfold escapeAttributeCharacter
  rw [if_neg quote, if_neg apostrophe, if_neg less, if_neg greater]

theorem escapeAttributeValue_character (plain : char ≠ '&') :
    escapeAttributeValue (char :: rest) =
      escapeAttributeCharacter char ++ escapeAttributeValue rest := by
  unfold escapeAttributeValue
  conv_lhs => unfold escapeAmpersands
  rw [if_neg fun both => plain both.1, List.flatMap_cons]

theorem escapeAttributeValue_unkept (unkept : keptReference rest = none) :
    escapeAttributeValue ('&' :: rest) =
      '&' :: (['a', 'm', 'p'] ++ ';' :: escapeAttributeValue rest) := by
  unfold escapeAttributeValue
  conv_lhs => unfold escapeAmpersands
  rw [if_pos ⟨rfl, unkept⟩, List.flatMap_append]
  rfl

theorem escapeAttributeValue_kept (kept : keptReference rest ≠ none) :
    escapeAttributeValue ('&' :: rest) = '&' :: escapeAttributeValue rest := by
  unfold escapeAttributeValue
  conv_lhs => unfold escapeAmpersands
  rw [if_neg fun both => kept both.2, List.flatMap_cons]
  rfl

theorem escapeAttributeValue_append {piece rest : Chars}
    (plain : ∀ char ∈ piece, Unescaped char) :
    escapeAttributeValue (piece ++ rest) = piece ++ escapeAttributeValue rest := by
  induction piece with
  | nil => rfl
  | cons char piece ih =>
    have unescaped := plain char List.mem_cons_self
    rw [List.cons_append, escapeAttributeValue_character unescaped.1,
      escapeAttributeCharacter_unescaped unescaped,
      ih fun other member => plain other (List.mem_cons_of_mem _ member)]
    rfl

theorem unescaped_of_alphanumeric (letter : isAlphanumeric char = true) :
    Unescaped char := by
  refine ⟨?_, ?_, ?_, ?_, ?_⟩ <;>
  · rintro rfl
    exact absurd letter (by decide)

theorem isAlphanumeric_of_isHexDigit (digit : isHexDigit char = true) :
    isAlphanumeric char = true := by
  simp only [isHexDigit, isAlphanumeric, isLetter, isLower, Bool.or_eq_true,
    Bool.and_eq_true, decide_eq_true_eq] at digit ⊢
  rcases digit with (digit | ⟨least, most⟩) | ⟨least, most⟩
  · exact Or.inr digit
  · exact Or.inl (Or.inl ⟨least, Char.le_trans most (by decide)⟩)
  · exact Or.inl (Or.inr ⟨least, Char.le_trans most (by decide)⟩)

/-- The body of a reference is written as it is. -/
theorem Reference.Matched.unescaped (matched : reference.Matched) :
    ∀ char ∈ reference.body, Unescaped char := by
  intro char member
  cases reference with
  | decimal digits =>
    rcases List.mem_cons.mp member with rfl | digit
    · decide
    · apply unescaped_of_alphanumeric
      unfold isAlphanumeric
      rw [matched.1 char digit, Bool.or_true]
  | hexadecimal digits =>
    rcases List.mem_cons.mp member with rfl | member
    · decide
    rcases List.mem_cons.mp member with rfl | digit
    · decide
    · exact unescaped_of_alphanumeric
        (isAlphanumeric_of_isHexDigit (matched.1 char digit))
  | named name => exact unescaped_of_alphanumeric (matched.1 char member)

/-- A value that is written holds no quotation mark. -/
theorem quote_not_mem_escapeAttributeValue (value : Chars) :
    '"' ∉ escapeAttributeValue value := by
  intro member
  rcases List.mem_flatMap.mp member with ⟨char, _, member⟩
  unfold escapeAttributeCharacter at member
  split at member
  · exact absurd member (by decide)
  split at member
  · exact absurd member (by decide)
  split at member
  · exact absurd member (by decide)
  split at member
  · exact absurd member (by decide)
  · next quote _ _ _ => exact quote (List.mem_singleton.mp member).symm

variable {named : NamedReferences}

/-- One character is read as it was before it was written. -/
theorem decodeValue_escapeAttributeCharacter (plain : char ≠ '&') :
    decodeValue named 0 (escapeAttributeCharacter char ++ rest) =
      valueCharacter char :: decodeValue named 0 rest := by
  unfold escapeAttributeCharacter
  split
  · next same =>
      rw [same]
      exact decodeValue_named named.quot (List.all_eq_true.mp (by decide))
        (by decide) (by decide)
  split
  · next same =>
      rw [same]
      exact @decodeValue_decimal named ['3', '9'] rest
        (List.all_eq_true.mp (by decide)) (by decide)
  split
  · next same =>
      rw [same]
      exact decodeValue_named named.lt (List.all_eq_true.mp (by decide))
        (by decide) (by decide)
  split
  · next same =>
      rw [same]
      exact decodeValue_named named.gt (List.all_eq_true.mp (by decide))
        (by decide) (by decide)
  · exact decodeValue_character plain

/-- A browser reads the value that was written with its whole references
decoded. -/
theorem decodeValue_escapeAttributeValue (value : Chars) :
    decodeValue named 0 (escapeAttributeValue value) =
      browserValue named.value value := by
  induction size : value.length using Nat.strongRecOn generalizing value with
  | ind size ih =>
    cases value with
    | nil => rfl
    | cons char rest =>
      rw [List.length_cons] at size
      have whole := ih rest.length (by omega) rest rfl
      by_cases plain : char = '&'
      · subst plain
        cases kept : keptReference rest with
        | none =>
          rw [escapeAttributeValue_unkept kept, browserValue_unkept kept, ← whole]
          exact decodeValue_named named.amp (List.all_eq_true.mp (by decide))
            (by decide) (by decide)
        | some scanned =>
          rcases scanned with ⟨reference, length⟩
          rcases keptReference_matches kept with ⟨matched, _, tail, rfl⟩
          have later := ih tail.length (by
            rw [List.length_append, List.length_cons] at size
            omega) tail rfl
          have written : escapeAttributeValue (reference.body ++ ';' :: tail) =
              reference.body ++ ';' :: escapeAttributeValue tail := by
            rw [escapeAttributeValue_append matched.unescaped]
            exact congrArg (reference.body ++ ·)
              (@escapeAttributeValue_append [';'] tail
                (List.forall_mem_singleton.mpr (by decide)))
          rw [escapeAttributeValue_kept (by rw [kept]; exact nofun), written]
          cases reference with
          | decimal digits =>
            rw [browserValue_known kept rfl, ← later]
            exact decodeValue_decimal matched.1 matched.2
          | hexadecimal digits =>
            rw [browserValue_known kept rfl, ← later]
            exact decodeValue_hexadecimal matched.1 matched.2
          | named name =>
            rcases matched with ⟨all, hash, nonempty⟩
            cases known : named.value name with
            | some text =>
              rw [browserValue_known kept known, ← later]
              exact decodeValue_named known all hash nonempty
            | none =>
              rw [browserValue_unknown kept known, ← whole, written]
              exact decodeValue_unknown known all hash nonempty
      · rw [escapeAttributeValue_character plain, browserValue_character plain,
          ← whole]
        exact decodeValue_escapeAttributeCharacter plain

/-! ## What the check reads -/

/-- The names that the check knows. -/
def checkedNames (name : Chars) : Option Chars :=
  urlNamedCharacterReferences.lookup name

theorem decodeReferencesFrom_drop :
    decodeReferencesFrom skip input =
      decodeHtmlCharacterReferences (input.drop skip) :=
  eq_drop_of_skips (fun _ => rfl) (fun _ _ _ => rfl)

theorem decodeHtmlCharacterReferences_character (plain : char ≠ '&') :
    decodeHtmlCharacterReferences (char :: rest) =
      char :: decodeHtmlCharacterReferences rest := by
  conv_lhs => unfold decodeHtmlCharacterReferences decodeReferencesFrom
  rw [if_neg plain]
  rfl

theorem decodeHtmlCharacterReferences_kept
    (kept : keptReference (reference.body ++ ';' :: rest) =
      some (reference, length)) :
    ∃ entity, decodeHtmlCharacterReferences
        ('&' :: (reference.body ++ ';' :: rest)) =
      decodeHtmlCharacterReference entity reference ++
        decodeHtmlCharacterReferences rest := by
  rcases keptReference_matches kept with ⟨_, sized, _⟩
  rcases Option.filter_eq_some_iff.mp kept with ⟨scanned, _⟩
  refine ⟨'&' :: (reference.body ++ ';' :: rest).take (length + 1), ?_⟩
  conv_lhs => unfold decodeHtmlCharacterReferences decodeReferencesFrom
  rw [if_pos rfl, scanned]
  dsimp only
  rw [sized, List.drop_left, List.head?_cons, if_pos rfl,
    decodeReferencesFrom_drop, drop_behind_semicolon]

/-- Characters that may stand before the colon of a scheme. -/
def BeforeColon (char : Char) : Prop :=
  isSchemeCharacter char = true ∨ char ≤ ' '

instance (char : Char) : Decidable (BeforeColon char) := by
  unfold BeforeColon
  infer_instance

theorem lookup_mem {Key Value : Type} [BEq Key] [LawfulBEq Key]
    {table : List (Key × Value)} {key : Key} {value : Value}
    (found : table.lookup key = some value) : (key, value) ∈ table := by
  induction table with
  | nil => cases found
  | cons row table ih =>
    rcases row with ⟨other, text⟩
    rw [List.lookup_cons] at found
    split at found
    · next same =>
        cases found
        rw [eq_of_beq same]
        exact List.mem_cons_self
    · exact List.mem_cons_of_mem _ (ih found)

/-- A number that stands for a character of a scheme is that character. -/
theorem decodeCodePoint_eq {entity : Chars} {code : Nat}
    (plain : BeforeColon (numericCharacter code) ∨ numericCharacter code = ':') :
    decodeCodePoint entity code = [numericCharacter code] := by
  have never : ∀ char : Char, ¬ BeforeColon char → char ≠ ':' →
      numericCharacter code ≠ char := by
    rintro char impossible other rfl
    rcases plain with before | same
    · exact impossible before
    · exact other same
  unfold numericCharacter at never ⊢
  by_cases odd : code = 0 ∨ 0x10ffff < code ∨ isSurrogate code = true
  · rw [if_pos odd] at never
    exact absurd rfl (never replacementCharacter (by decide) (by decide))
  rw [if_neg odd] at never ⊢
  rcases not_or.mp odd with ⟨_, rest⟩
  rcases not_or.mp rest with ⟨small, whole⟩
  cases found : replacedControls.lookup code with
  | some replaced =>
    have all : ∀ row ∈ replacedControls,
        ¬ BeforeColon (Char.ofNat row.2) ∧ Char.ofNat row.2 ≠ ':' := by decide
    rcases all _ (lookup_mem found) with ⟨impossible, other⟩
    rw [found] at never
    exact absurd rfl (never _ impossible other)
  | none =>
    unfold decodeCodePoint
    rw [if_neg small, if_neg whole]

theorem valueCharacter_eq
    (plain : BeforeColon (valueCharacter char) ∨ valueCharacter char = ':') :
    valueCharacter char = char := by
  unfold valueCharacter at plain ⊢
  by_cases null : char.toNat = 0
  · rw [if_pos null] at plain
    exact absurd plain (by decide)
  · exact if_neg null

/-- Up to the first colon the check reads what a browser reads with the names
that the check knows. -/
theorem decodeHtmlCharacterReferences_agrees (value : Chars)
    (read : browserValue checkedNames value = front ++ ':' :: tail)
    (before : ∀ char ∈ front, BeforeColon char) :
    ∃ rest, decodeHtmlCharacterReferences value = front ++ ':' :: rest := by
  induction measure : value.length using Nat.strongRecOn
    generalizing value front tail with
  | ind size ih =>
    have step : ∀ (char : Char) (rest : Chars), rest.length < size →
        browserValue checkedNames value = char :: browserValue checkedNames rest →
        (BeforeColon char ∨ char = ':' → decodeHtmlCharacterReferences value =
          char :: decodeHtmlCharacterReferences rest) →
        ∃ rest, decodeHtmlCharacterReferences value = front ++ ':' :: rest := by
      intro char rest shorter whole agrees
      rw [whole] at read
      cases front with
      | nil =>
        cases read
        exact ⟨_, agrees (Or.inr rfl)⟩
      | cons first front =>
        rcases List.cons_eq_cons.mp read with ⟨rfl, later⟩
        rcases ih rest.length shorter rest later
          (fun other member => before other (List.mem_cons_of_mem _ member)) rfl
          with ⟨end_, decoded⟩
        refine ⟨end_, ?_⟩
        rw [agrees (Or.inl (before char List.mem_cons_self)), decoded]
        rfl
    have never : ∀ rest : Chars, browserValue checkedNames value = '&' :: rest →
        False := by
      intro rest whole
      rw [whole] at read
      cases front with
      | nil => cases read
      | cons first front =>
        rcases List.cons_eq_cons.mp read with ⟨same, _⟩
        have impossible := before first List.mem_cons_self
        rw [← same] at impossible
        exact absurd impossible (by decide)
    cases value with
    | nil =>
      cases front with
      | nil => cases read
      | cons first front => cases read
    | cons char rest =>
      rw [List.length_cons] at measure
      by_cases plain : char = '&'
      · subst plain
        cases kept : keptReference rest with
        | none => exact (never _ (browserValue_unkept kept)).elim
        | some scanned =>
          rcases scanned with ⟨reference, length⟩
          rcases keptReference_matches kept with ⟨_, _, end_, rfl⟩
          rcases decodeHtmlCharacterReferences_kept kept with ⟨entity, decoded⟩
          have shorter : end_.length < size := by
            rw [List.length_append, List.length_cons] at measure
            omega
          cases reference with
          | decimal digits =>
            apply step _ end_ shorter (browserValue_known kept rfl)
            intro plain
            rw [decoded]
            exact congrArg (· ++ _) (decodeCodePoint_eq plain)
          | hexadecimal digits =>
            apply step _ end_ shorter (browserValue_known kept rfl)
            intro plain
            rw [decoded]
            exact congrArg (· ++ _) (decodeCodePoint_eq plain)
          | named name =>
            cases known : checkedNames name with
            | none => exact (never _ (browserValue_unknown kept known)).elim
            | some text =>
              have single : ∀ row ∈ urlNamedCharacterReferences,
                  row.2.length = 1 := by decide
              rcases List.length_eq_one_iff.mp (single _ (lookup_mem known)) with
                ⟨char, rfl⟩
              apply step char end_ shorter
                (@browserValue_known checkedNames end_ [char] (.named name) length
                  kept known)
              intro _
              have text : decodeHtmlCharacterReference entity (.named name) =
                  [char] := congrArg (Option.getD · entity) known
              rw [decoded, text]
              rfl
      · apply step _ rest (by omega) (browserValue_character plain)
        intro visible
        rw [valueCharacter_eq visible]
        exact decodeHtmlCharacterReferences_character plain

/-! ### Comments -/

theorem cutAtPiece_commentStart (plain : '<' ∉ front) :
    cutAtPiece commentStart (front ++ rest) =
      (cutAtPiece commentStart rest).map fun cut => (front ++ cut.1, cut.2) := by
  induction front with
  | nil => exact Option.map_id'.symm
  | cons char front ih =>
    rcases not_or.mp (fun either => plain (List.mem_cons.mpr either)) with
      ⟨other, later⟩
    have apart : commentStart.isPrefixOf (char :: (front ++ rest)) = false := by
      unfold commentStart List.isPrefixOf
      rw [Bool.and_eq_false_iff]
      exact Or.inl (beq_eq_false_iff_ne.mpr other)
    rw [List.cons_append]
    conv_lhs => unfold cutAtPiece
    rw [apart, if_neg Bool.false_ne_true, ih later, Option.map_map]
    rfl

/-- Comments that are cut out begin behind the first colon. -/
theorem removeComments_keeps (plain : '<' ∉ front) :
    ∀ (fuel : Nat) (tail : Chars),
      ∃ rest, removeComments fuel (front ++ ':' :: tail) = front ++ ':' :: rest := by
  intro fuel
  induction fuel with
  | zero => exact fun tail => ⟨tail, rfl⟩
  | succ fuel ih =>
    intro tail
    have split : front ++ ':' :: tail = (front ++ [':']) ++ tail := by
      rw [List.append_assoc]
      rfl
    have clean : '<' ∉ front ++ [':'] := by
      intro member
      rcases List.mem_append.mp member with early | last
      · exact plain early
      · exact absurd last (by decide)
    unfold removeComments
    rw [split, cutAtPiece_commentStart clean]
    cases cutAtPiece commentStart tail with
    | none => exact ⟨tail, split.symm⟩
    | some cut =>
      dsimp only [Option.map_some]
      cases cutAtPiece commentEnd cut.2 with
      | none => exact ⟨tail, split.symm⟩
      | some last =>
        rcases ih (cut.1 ++ last.2) with ⟨rest, removed⟩
        refine ⟨rest, ?_⟩
        have whole : (front ++ [':'] ++ cut.1) ++ last.2 =
            front ++ ':' :: (cut.1 ++ last.2) := by
          simp only [List.append_assoc, List.cons_append, List.nil_append]
        rw [← removed, ← whole]

/-! ### Schemes -/

theorem schemeOf_append (all : ∀ char ∈ front, isSchemeCharacter char = true)
    (letter : front.head?.any isLetter = true) :
    schemeOf (front ++ ':' :: tail) =
      some (String.ofList (front.map Char.toLower)) := by
  unfold schemeOf
  rw [takeWhile_stops all (by decide)]
  dsimp only
  rw [List.drop_left, if_pos ⟨letter, rfl⟩]

theorem exists_of_schemeOf (found : schemeOf address = some scheme) :
    ∃ front tail, address = front ++ ':' :: tail ∧
      (∀ char ∈ front, isSchemeCharacter char = true) ∧
      front.head?.any isLetter = true ∧
      scheme = String.ofList (front.map Char.toLower) := by
  have whole : address.takeWhile isSchemeCharacter ++
      address.drop (address.takeWhile isSchemeCharacter).length = address :=
    List.prefix_iff_eq_append.mp (List.takeWhile_prefix isSchemeCharacter)
  unfold schemeOf at found
  dsimp only at found
  split at found
  · next both =>
      cases found
      cases rest : address.drop
          (address.takeWhile isSchemeCharacter).length with
      | nil =>
        rw [rest] at both
        cases both.2
      | cons char tail =>
        rw [rest] at both whole
        cases Option.some.inj both.2
        refine ⟨_, tail, whole.symm, ?_, both.1, rfl⟩
        exact fun char member => List.mem_takeWhile_imp member
  · cases found

theorem blank_lt_of_isSchemeCharacter (scheme : isSchemeCharacter char = true) :
    ' ' < char := by
  apply Char.not_le.mp
  intro low
  have codes : ∀ code < 33, isSchemeCharacter (Char.ofNat code) = false := by
    decide
  have small : char.toNat < 33 := Nat.lt_succ_of_le low
  have other := codes char.toNat small
  rw [Char.ofNat_toNat, scheme] at other
  cases other

theorem not_blank_lt_of_isTabOrNewline (blank : isTabOrNewline char = true) :
    ¬ ' ' < char := by
  simp only [isTabOrNewline, Bool.or_eq_true, decide_eq_true_eq] at blank
  rcases blank with (rfl | rfl) | rfl <;> decide

/-- In front of the colon of a stripped address there is the scheme, and
controls and blanks that the check removes. -/
theorem exists_before_colon
    (found : schemeOf (strippedAddress address) = some scheme) :
    ∃ front tail, address = front ++ ':' :: tail ∧
      (∀ char ∈ front, BeforeColon char) ∧
      ∀ rest : Chars, schemeOf ((front ++ ':' :: rest).filter fun char =>
        decide (' ' < char)) = some scheme := by
  rcases exists_of_schemeOf found with ⟨letters, tail, whole, all, letter, rfl⟩
  unfold strippedAddress at whole
  rcases List.filter_eq_append_iff.mp whole with
    ⟨body, behind, cut, first, last⟩
  rcases List.filter_eq_cons_iff.mp last with ⟨blanks, more, rfl, removed, _, _⟩
  have blank : ∀ char ∈ blanks, isTabOrNewline char = true := by
    intro char member
    have tab := removed char member
    rw [Bool.not_eq_true, Bool.not_eq_false'] at tab
    exact tab
  have low : ∀ char ∈ address.takeWhile fun char => decide (char ≤ ' '),
      char ≤ ' ' := by
    intro char member
    have small := List.mem_takeWhile_imp member
    exact of_decide_eq_true small
  refine ⟨address.takeWhile (fun char => decide (char ≤ ' ')) ++
    (body ++ blanks), more, ?_, ?_, ?_⟩
  · rw [List.append_assoc, List.append_assoc, ← cut, List.takeWhile_append_dropWhile]
  · intro char member
    rcases List.mem_append.mp member with lead | member
    · exact Or.inr (low char lead)
    rcases List.mem_append.mp member with inside | after
    · by_cases tab : isTabOrNewline char = true
      · exact Or.inr (Char.not_lt.mp (not_blank_lt_of_isTabOrNewline tab))
      · left
        apply all
        rw [← first]
        apply List.mem_filter.mpr
        rw [Bool.not_eq_true] at tab
        exact ⟨inside, by rw [tab]; rfl⟩
    · exact Or.inr
        (Char.not_lt.mp (not_blank_lt_of_isTabOrNewline (blank char after)))
  · intro rest
    have leads : (address.takeWhile fun char => decide (char ≤ ' ')).filter
        (fun char => decide (' ' < char)) = [] := by
      apply List.filter_eq_nil_iff.mpr
      intro char member high
      exact Char.not_lt.mpr (low char member) (of_decide_eq_true high)
    have tabs : blanks.filter (fun char => decide (' ' < char)) = [] := by
      apply List.filter_eq_nil_iff.mpr
      intro char member high
      exact not_blank_lt_of_isTabOrNewline (blank char member)
        (of_decide_eq_true high)
    have inside : body.filter (fun char => decide (' ' < char)) = letters := by
      have again : letters.filter (fun char => decide (' ' < char)) = letters := by
        apply List.filter_eq_self.mpr
        intro char member
        exact decide_eq_true (blank_lt_of_isSchemeCharacter (all char member))
      rw [← again, ← first, List.filter_filter]
      apply List.filter_congr
      intro char _
      cases tab : isTabOrNewline char with
      | false => exact (Bool.and_true _).symm
      | true =>
        rw [decide_eq_false (not_blank_lt_of_isTabOrNewline tab)]
        rfl
    rw [List.filter_append, List.filter_append, List.filter_append, leads, inside,
      tabs, List.nil_append, List.append_nil, List.filter_cons_of_pos (by decide)]
    exact schemeOf_append all letter

/-! ## Agreement -/

/-- The scheme that a browser sees in the value of an attribute. -/
def addressScheme (value : Chars → Option Chars) (input : Chars) : Option String :=
  schemeOf (strippedAddress (browserValue value input))

/-- The check knows every scheme that is seen with the names it knows. -/
theorem mem_allowedUrlSchemes {value : Chars}
    (allowed : isAllowedUrl value = true)
    (seen : addressScheme checkedNames value = some scheme) :
    scheme ∈ allowedUrlSchemes := by
  rcases exists_before_colon seen with ⟨front, tail, read, before, filtered⟩
  rcases decodeHtmlCharacterReferences_agrees value read before with
    ⟨rest, decoded⟩
  have plain : '<' ∉ front := fun member =>
    absurd (before '<' member) (by decide)
  rcases removeComments_keeps plain (front ++ ':' :: rest).length rest with
    ⟨rest', removed⟩
  unfold isAllowedUrl at allowed
  dsimp only at allowed
  rw [decoded] at allowed
  unfold removeHtmlCommentsFromUrl at allowed
  rw [removed, filtered] at allowed
  exact of_decide_eq_true allowed

end GitOnCloudflare.Client
