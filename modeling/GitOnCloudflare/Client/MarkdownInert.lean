import GitOnCloudflare.Client.MarkdownAddresses

/-!
# Sanitized Markdown is inert

What is written for a tree is read back as the tags, attributes and text that
the policy keeps of it, whatever the strings in the tree are.  What remains is
the scheme of an address that only names unknown to the check spell.
-/

namespace GitOnCloudflare.Client

open Foundations
open Foundations.HtmlTokens

variable (nonAsciiLowerCase : String → String) {named : NamedReferences}

/-! ## What is kept of a tree -/

section Kept

variable {Item : Type} (text : Chars → List Item)
  (opens : String → Attributes → List Item) (closes : String → List Item)

mutual

/-- What is kept of a node, in the order of the page. -/
def keptOf : Node → List Item
  | .text data => text data
  | .comment => []
  | .directive => []
  | .document _ => []
  | .other children => keptOfAll children
  | .tag name attribs children =>
    let elementName := toLowerCase nonAsciiLowerCase name
    if elementName ∈ dropWithChildrenTags then
      []
    else if elementName ∉ allowedTags then
      keptOfAll children
    else if elementName ∈ voidTags then
      opens elementName attribs
    else
      opens elementName attribs ++ keptOfAll children ++ closes elementName

def keptOfAll : List Node → List Item
  | [] => []
  | node :: nodes => keptOf node ++ keptOfAll nodes

end

end Kept

/-- The kept text nodes. -/
def keptText (nodes : List Node) : Chars :=
  keptOfAll nonAsciiLowerCase id (fun _ _ => []) (fun _ => []) nodes

/-- The kept elements with their attributes in the tree. -/
def keptElements (nodes : List Node) : List (String × Attributes) :=
  keptOfAll nonAsciiLowerCase (fun _ => [])
    (fun elementName attribs => [(elementName, attribs)]) (fun _ => []) nodes

def readAttribs (value : Chars → Option Chars) (elementName : String)
    (attribs : Attributes) : List (String × Chars) :=
  (sanitizeAttributes nonAsciiLowerCase elementName attribs).map fun attrib =>
    (attrib.1, browserValue value attrib.2)

/-- The tokens of what is kept. -/
def keptTokens (value : Chars → Option Chars) (nodes : List Node) : List Token :=
  keptOfAll nonAsciiLowerCase (fun data => data.map Token.character)
    (fun elementName attribs => [Token.startTag elementName
      (readAttribs nonAsciiLowerCase value elementName attribs)])
    (fun elementName => [Token.endTag elementName]) nodes

section Laws

variable {nonAsciiLowerCase} {Item Other : Type} {text : Chars → List Item}
  {opens : String → Attributes → List Item} {closes : String → List Item}

mutual

/-- A filter of what is kept is what is kept by the filtered parts. -/
theorem keptOf_filterMap (choose : Item → Option Other) (node : Node) :
    (keptOf nonAsciiLowerCase text opens closes node).filterMap choose =
      keptOf nonAsciiLowerCase (fun data => (text data).filterMap choose)
        (fun elementName attribs => (opens elementName attribs).filterMap choose)
        (fun elementName => (closes elementName).filterMap choose) node := by
  cases node with
  | text data => rfl
  | comment => rfl
  | directive => rfl
  | document children => rfl
  | other children => exact keptOfAll_filterMap choose children
  | tag name attribs children =>
    unfold keptOf
    dsimp only
    split
    · rfl
    split
    · exact keptOfAll_filterMap choose children
    split
    · rfl
    · rw [List.filterMap_append, List.filterMap_append,
        keptOfAll_filterMap choose children]

theorem keptOfAll_filterMap (choose : Item → Option Other) (nodes : List Node) :
    (keptOfAll nonAsciiLowerCase text opens closes nodes).filterMap choose =
      keptOfAll nonAsciiLowerCase (fun data => (text data).filterMap choose)
        (fun elementName attribs => (opens elementName attribs).filterMap choose)
        (fun elementName => (closes elementName).filterMap choose) nodes := by
  cases nodes with
  | nil => rfl
  | cons node nodes =>
    unfold keptOfAll
    rw [List.filterMap_append, keptOf_filterMap choose node,
      keptOfAll_filterMap choose nodes]

end

/-- What holds of text and of allowed tags holds of all that is kept. -/
structure HoldsOfParts (holds : Item → Prop) (text : Chars → List Item)
    (opens : String → Attributes → List Item) (closes : String → List Item) :
    Prop where
  text : ∀ data, ∀ item ∈ text data, holds item
  opens : ∀ elementName ∈ allowedTags, ∀ attribs,
    ∀ item ∈ opens elementName attribs, holds item
  closes : ∀ elementName ∈ allowedTags, ∀ item ∈ closes elementName, holds item

mutual

variable {holds : Item → Prop}

theorem HoldsOfParts.keptOf (parts : HoldsOfParts holds text opens closes)
    (node : Node) :
    ∀ item ∈ keptOf nonAsciiLowerCase text opens closes node, holds item := by
  cases node with
  | text data => exact parts.text data
  | comment => exact nofun
  | directive => exact nofun
  | document children => exact nofun
  | other children => exact parts.keptOfAll children
  | tag name attribs children =>
    unfold Client.keptOf
    dsimp only
    split
    · exact nofun
    split
    · exact parts.keptOfAll children
    next allowed =>
      have known := not_not.mp allowed
      split
      · exact parts.opens _ known attribs
      · intro item member
        rcases List.mem_append.mp member with front | closed
        · rcases List.mem_append.mp front with opened | inside
          · exact parts.opens _ known attribs item opened
          · exact parts.keptOfAll children item inside
        · exact parts.closes _ known item closed

theorem HoldsOfParts.keptOfAll (parts : HoldsOfParts holds text opens closes)
    (nodes : List Node) :
    ∀ item ∈ keptOfAll nonAsciiLowerCase text opens closes nodes,
      holds item := by
  cases nodes with
  | nil => exact nofun
  | cons node nodes =>
    unfold Client.keptOfAll
    intro item member
    rcases List.mem_append.mp member with first | later
    · exact parts.keptOf node item first
    · exact parts.keptOfAll nodes item later

end

end Laws

/-! ## Attributes -/

/-- The value that an attribute of an element is kept with: the last one that
may stay. -/
def keptValue (elementName : String) (attribs : Attributes)
    (attributeName : String) : Option Chars :=
  (attribs.filterMap fun raw =>
    if toLowerCase nonAsciiLowerCase raw.1 = attributeName then
      sanitizeAttribute elementName attributeName raw.2
    else
      none).getLast?

variable {elementName attributeName : String} {value : Chars}
  {attribs : Attributes}

theorem sanitizeAttribute_spec {rawValue : Chars}
    (kept : sanitizeAttribute elementName attributeName rawValue = some value) :
    attributeName ∈ allowedAttributes elementName ∧
      (value ≠ [] ∨ attributeName ∈ allowedEmptyAttributes) ∧
      (isUrlAttribute attributeName = true → isAllowedUrl value = true) := by
  unfold sanitizeAttribute at kept
  split at kept
  · cases kept
  next allowed =>
    dsimp only at kept
    generalize (if attributeName = "class" then
      filterClassAttribute elementName rawValue else rawValue) = filtered at kept
    split at kept
    · cases kept
    next valued =>
      split at kept
      · cases kept
      next judged =>
        cases kept
        refine ⟨not_not.mp allowed, ?_, ?_⟩
        · by_cases empty : attributeName ∈ allowedEmptyAttributes
          · exact Or.inr empty
          · exact Or.inl fun nothing => valued ⟨nothing, empty⟩
        · intro url
          exact Bool.of_not_eq_false fun refused => judged ⟨url, refused⟩

variable {nonAsciiLowerCase}

theorem getLast?_filterMap_singleton {Item Value : Type}
    (choose : Item → Option Value) (item : Item) :
    ([item].filterMap choose).getLast? = choose item := by
  cases chosen : choose item with
  | none => rw [List.filterMap_cons_none chosen, List.filterMap_nil, List.getLast?_nil]
  | some value =>
    rw [List.filterMap_cons_some chosen, List.filterMap_nil]
    rfl

/-- The object of attributes has the kept values. -/
theorem foldl_setAttribute (elementName : String) (attribs : Attributes) :
    ((attribs.foldl (setAttribute nonAsciiLowerCase elementName) []).map
        Prod.fst).Nodup ∧
      ∀ attributeName value,
        (attributeName, value) ∈
            attribs.foldl (setAttribute nonAsciiLowerCase elementName) [] ↔
          keptValue nonAsciiLowerCase elementName attribs attributeName =
            some value := by
  induction attribs using List.reverseRecOn with
  | nil => exact ⟨List.nodup_nil, fun _ _ => ⟨nofun, nofun⟩⟩
  | append_singleton attribs raw ih =>
    rcases ih with ⟨distinct, values⟩
    rw [List.foldl_append, List.foldl_cons, List.foldl_nil]
    generalize attribs.foldl (setAttribute nonAsciiLowerCase elementName) [] =
      sanitized at distinct values
    have last : ∀ attributeName,
        keptValue nonAsciiLowerCase elementName (attribs ++ [raw]) attributeName =
          ((if toLowerCase nonAsciiLowerCase raw.1 = attributeName then
            sanitizeAttribute elementName attributeName raw.2 else none).or
              (keptValue nonAsciiLowerCase elementName attribs attributeName)) := by
      intro attributeName
      unfold keptValue
      rw [List.filterMap_append, List.getLast?_append]
      congr 1
      exact getLast?_filterMap_singleton _ raw
    unfold setAttribute
    dsimp only
    cases kept : sanitizeAttribute elementName
        (toLowerCase nonAsciiLowerCase raw.1) raw.2 with
    | none =>
      refine ⟨distinct, fun attributeName value => ?_⟩
      rw [values, last]
      split
      · next same =>
          subst same
          rw [kept, Option.none_or]
      · rw [Option.none_or]
    | some written =>
      refine ⟨KeyedList.nodup_map_key_upsertItem distinct _,
        fun attributeName value => ?_⟩
      rw [KeyedList.mem_upsertItem distinct, values, last]
      by_cases same : toLowerCase nonAsciiLowerCase raw.1 = attributeName
      · subst same
        rw [if_pos rfl, kept, Option.some_or]
        constructor
        · rintro (equal | ⟨_, other⟩)
          · cases equal
            rfl
          · exact absurd rfl other
        · intro equal
          cases equal
          exact Or.inl rfl
      · rw [if_neg same, Option.none_or]
        constructor
        · rintro (equal | ⟨older, _⟩)
          · cases equal
            exact absurd rfl same
          · exact older
        · exact fun older => Or.inr ⟨older, fun equal => same equal.symm⟩

theorem keptValue_spec
    (kept : keptValue nonAsciiLowerCase elementName attribs attributeName =
      some value) :
    attributeName ∈ allowedAttributes elementName ∧
      (value ≠ [] ∨ attributeName ∈ allowedEmptyAttributes) ∧
      (isUrlAttribute attributeName = true → isAllowedUrl value = true) := by
  rcases List.mem_filterMap.mp (List.mem_of_getLast? kept) with ⟨raw, _, chosen⟩
  split at chosen
  · exact sanitizeAttribute_spec chosen
  · cases chosen

theorem mem_sanitizeAttributes :
    (attributeName, value) ∈
        sanitizeAttributes nonAsciiLowerCase elementName attribs ↔
      keptValue nonAsciiLowerCase elementName attribs attributeName =
        some value := by
  unfold sanitizeAttributes
  split
  · next unknown =>
      constructor
      · exact nofun
      · intro kept
        have allowed := (keptValue_spec kept).1
        unfold allowedAttributes at allowed
        rw [unknown] at allowed
        exact absurd allowed List.not_mem_nil
  · exact (foldl_setAttribute elementName attribs).2 attributeName value

theorem isName_of_allowedAttributes
    (allowed : attributeName ∈ allowedAttributes elementName) :
    IsName attributeName := by
  have all : ∀ row ∈ allowedAttributesByTag, ∀ name ∈ row.2, IsName name := by
    decide
  unfold allowedAttributes at allowed
  cases found : allowedAttributesByTag.lookup elementName with
  | none =>
    rw [found] at allowed
    exact absurd allowed List.not_mem_nil
  | some names =>
    rw [found] at allowed
    exact all _ (lookup_mem found) attributeName allowed

/-! ## Reading back -/

/-- Text is read as it was. -/
theorem readTokens_escapeTextValue (data rest : Chars) :
    readTokens named 0 (escapeTextValue data ++ rest) =
      (readTokens named 0 rest).map (data.map Token.character ++ ·) := by
  induction data with
  | nil => exact Option.map_id'.symm
  | cons char data ih =>
    have one : ∀ more, readTokens named 0 (escapeTextCharacter char ++ more) =
        (readTokens named 0 more).map (Token.character char :: ·) := by
      intro more
      unfold escapeTextCharacter
      split
      · next same =>
          rw [same]
          exact readTokens_named named.amp (List.all_eq_true.mp (by decide))
            (by decide) (by decide)
      next plain =>
        split
        · next same =>
            rw [same]
            exact readTokens_named named.lt (List.all_eq_true.mp (by decide))
              (by decide) (by decide)
        next tag =>
          split
          · next same =>
              rw [same]
              exact readTokens_named named.gt (List.all_eq_true.mp (by decide))
                (by decide) (by decide)
          · exact readTokens_character tag plain
    unfold escapeTextValue at ih ⊢
    rw [List.flatMap_cons, List.append_assoc, one, ih, Option.map_map]
    rfl

theorem serializeAttributes_cons {attrib : String × Chars} {attribs : Attributes}
    {rest : Chars}
    (valued : attrib.2 ≠ [] ∨ attrib.1 ∈ allowedEmptyAttributes) :
    serializeAttributes (attrib :: attribs) ++ rest =
      ' ' :: (attrib.1.toList ++ '=' :: '"' ::
        (escapeAttributeValue attrib.2 ++ '"' ::
          (serializeAttributes attribs ++ rest))) := by
  unfold serializeAttributes serializeAttribute
  rw [List.flatMap_cons, if_pos valued]
  simp only [List.append_assoc, List.cons_append, List.nil_append]

/-- Attributes are read with their references decoded. -/
theorem readAttributes_serializeAttributes {attribs : Attributes} {rest : Chars}
    (names : ∀ attrib ∈ attribs, IsName attrib.1)
    (valued : ∀ attrib ∈ attribs,
      attrib.2 ≠ [] ∨ attrib.1 ∈ allowedEmptyAttributes) :
    readAttributes named 0 (serializeAttributes attribs ++ '>' :: rest) =
      some (attribs.map fun attrib =>
        (attrib.1, browserValue named.value attrib.2), rest) := by
  induction attribs with
  | nil => rfl
  | cons attrib attribs ih =>
    have later := ih (fun other member => names other (List.mem_cons_of_mem _ member))
      (fun other member => valued other (List.mem_cons_of_mem _ member))
    rw [serializeAttributes_cons (valued attrib List.mem_cons_self),
      readAttributes_append (names attrib List.mem_cons_self)
        (quote_not_mem_escapeAttributeValue _), later,
      decodeValue_escapeAttributeValue]
    rfl

variable {rest : Chars}

/-- A start tag that is written is read. -/
theorem readTokens_serializeAttributes (isName : IsName elementName)
    (cooked : elementName ∉ rawTextTags)
    (names : ∀ attrib ∈ attribs, IsName attrib.1)
    (valued : ∀ attrib ∈ attribs,
      attrib.2 ≠ [] ∨ attrib.1 ∈ allowedEmptyAttributes) :
    readTokens named 0 ('<' :: (elementName.toList ++
        (serializeAttributes attribs ++ '>' :: rest))) =
      (readTokens named 0 rest).map (Token.startTag elementName
        (attribs.map fun attrib =>
          (attrib.1, browserValue named.value attrib.2)) :: ·) := by
  have read := @readAttributes_serializeAttributes named attribs rest names valued
  have piece : serializeAttributes attribs ++ '>' :: rest =
      (serializeAttributes attribs ++ ['>']) ++ rest := by
    rw [List.append_assoc]
    rfl
  have begins : ∃ stop more, serializeAttributes attribs ++ '>' :: rest =
      stop :: more ∧ isNameCharacter stop = false := by
    cases attribs with
    | nil => exact ⟨'>', rest, rfl, by decide⟩
    | cons attrib attribs =>
      have whole := @serializeAttributes_cons attrib attribs ('>' :: rest)
        (valued attrib List.mem_cons_self)
      exact ⟨' ', _, whole, by decide⟩
  rcases begins with ⟨stop, more, begins, stops⟩
  rw [begins] at read piece ⊢
  exact readTokens_startTag isName cooked stops read piece

theorem serializeChildren_append (first second : List Node) :
    serializeChildren nonAsciiLowerCase (first ++ second) =
      serializeChildren nonAsciiLowerCase first ++
        serializeChildren nonAsciiLowerCase second := by
  induction first with
  | nil => rfl
  | cons node first ih =>
    change serializeNode nonAsciiLowerCase node ++
      serializeChildren nonAsciiLowerCase (first ++ second) = (_ ++ _) ++ _
    rw [ih, List.append_assoc]

theorem serializeChildren_single (node : Node) :
    serializeChildren nonAsciiLowerCase [node] =
      serializeNode nonAsciiLowerCase node :=
  List.append_nil _

/-- Facts about the allowed tags, one after the other. -/
structure KnownTag (elementName : String) : Prop where
  isName : IsName elementName
  cooked : elementName ∉ rawTextTags
  void : elementName ∈ serializedVoidTags ↔ elementName ∈ voidTags
  ascii : (elementName.toList.all fun char => decide (char.toNat < 128)) = true
  lower : String.ofList (elementName.toList.map Char.toLower) = elementName

theorem knownTag_of_allowed (allowed : elementName ∈ allowedTags) :
    KnownTag elementName := by
  have all : ∀ name ∈ allowedTags, IsName name ∧ name ∉ rawTextTags ∧
      (name ∈ serializedVoidTags ↔ name ∈ voidTags) ∧
      (name.toList.all fun char => decide (char.toNat < 128)) = true ∧
      String.ofList (name.toList.map Char.toLower) = name := by
    decide +kernel
  rcases all elementName allowed with ⟨isName, cooked, void, ascii, lower⟩
  exact ⟨isName, cooked, void, ascii, lower⟩

theorem toLowerCase_of_allowed (allowed : elementName ∈ allowedTags) :
    toLowerCase nonAsciiLowerCase elementName = elementName := by
  have known := knownTag_of_allowed allowed
  unfold toLowerCase
  rw [if_pos known.ascii, known.lower]

/-- The attributes of an element as they are read. -/
theorem readTokens_sanitizeAttributes (allowed : elementName ∈ allowedTags) :
    readTokens named 0 ('<' :: (elementName.toList ++ (serializeAttributes
        (sanitizeAttributes nonAsciiLowerCase elementName attribs) ++
          '>' :: rest))) =
      (readTokens named 0 rest).map (Token.startTag elementName
        (readAttribs nonAsciiLowerCase named.value elementName attribs) :: ·) := by
  have known := knownTag_of_allowed allowed
  apply readTokens_serializeAttributes known.isName known.cooked
  · rintro ⟨attributeName, value⟩ member
    exact isName_of_allowedAttributes
      (keptValue_spec (mem_sanitizeAttributes.mp member)).1
  · rintro ⟨attributeName, value⟩ member
    exact (keptValue_spec (mem_sanitizeAttributes.mp member)).2.1

section Reading

variable (nonAsciiLowerCase) (named)

/-- The tokens of what is kept of a node. -/
abbrev nodeTokens (node : Node) : List Token :=
  keptOf nonAsciiLowerCase (fun data => data.map Token.character)
    (fun elementName attribs => [Token.startTag elementName
      (readAttribs nonAsciiLowerCase named.value elementName attribs)])
    (fun elementName => [Token.endTag elementName]) node

mutual

/-- What is written of a node is read as what is kept of it. -/
theorem readTokens_node (node : Node) (rest : Chars) :
    readTokens named 0 (serializeChildren nonAsciiLowerCase
        (sanitizeNode nonAsciiLowerCase node) ++ rest) =
      (readTokens named 0 rest).map (nodeTokens nonAsciiLowerCase named node ++ ·) := by
  cases node with
  | text data =>
    have written : serializeChildren nonAsciiLowerCase
        (sanitizeNode nonAsciiLowerCase (.text data)) = escapeTextValue data :=
      List.append_nil _
    rw [written, readTokens_escapeTextValue]
    rfl
  | comment => exact Option.map_id'.symm
  | directive => exact Option.map_id'.symm
  | document children => exact Option.map_id'.symm
  | other children => exact readTokens_nodes children rest
  | tag name attribs children =>
    unfold sanitizeNode nodeTokens keptOf
    dsimp only
    generalize toLowerCase nonAsciiLowerCase name = elementName
    by_cases dropped : elementName ∈ dropWithChildrenTags
    · rw [if_pos dropped, if_pos dropped]
      exact Option.map_id'.symm
    rw [if_neg dropped, if_neg dropped]
    by_cases strange : elementName ∉ allowedTags
    · rw [if_pos strange, if_pos strange]
      exact readTokens_nodes children rest
    rw [if_neg strange, if_neg strange]
    have allowed := not_not.mp strange
    have known := knownTag_of_allowed allowed
    rw [serializeChildren_single]
    unfold serializeNode
    dsimp only
    rw [toLowerCase_of_allowed allowed]
    by_cases void : elementName ∈ voidTags
    · rw [if_pos (known.void.mpr void), if_pos void]
      have whole : ('<' :: elementName.toList ++ serializeAttributes
          (sanitizeAttributes nonAsciiLowerCase elementName attribs) ++ ['>']) ++
            rest =
          '<' :: (elementName.toList ++ (serializeAttributes
            (sanitizeAttributes nonAsciiLowerCase elementName attribs) ++
              '>' :: rest)) := by
        simp only [List.append_assoc, List.cons_append, List.nil_append]
      rw [whole, readTokens_sanitizeAttributes allowed]
      rfl
    · rw [if_neg (fun written => void (known.void.mp written)), if_neg void]
      have whole : ('<' :: elementName.toList ++ serializeAttributes
          (sanitizeAttributes nonAsciiLowerCase elementName attribs) ++ ['>'] ++
            serializeChildren nonAsciiLowerCase
              (sanitizeChildren nonAsciiLowerCase children) ++
            '<' :: '/' :: elementName.toList ++ ['>']) ++ rest =
          '<' :: (elementName.toList ++ (serializeAttributes
            (sanitizeAttributes nonAsciiLowerCase elementName attribs) ++
              '>' :: (serializeChildren nonAsciiLowerCase
                (sanitizeChildren nonAsciiLowerCase children) ++
              '<' :: '/' :: (elementName.toList ++ '>' :: rest)))) := by
        simp only [List.append_assoc, List.cons_append, List.nil_append]
      rw [whole, readTokens_sanitizeAttributes allowed,
        readTokens_nodes children, readTokens_endTag known.isName,
        Option.map_map, Option.map_map]
      congr 1
      funext tokens
      change _ :: (_ ++ _ :: tokens) = _
      simp only [List.append_assoc, List.cons_append, List.nil_append]
      rfl

theorem readTokens_nodes (nodes : List Node) (rest : Chars) :
    readTokens named 0 (serializeChildren nonAsciiLowerCase
        (sanitizeChildren nonAsciiLowerCase nodes) ++ rest) =
      (readTokens named 0 rest).map
        (keptTokens nonAsciiLowerCase named.value nodes ++ ·) := by
  cases nodes with
  | nil => exact Option.map_id'.symm
  | cons node nodes =>
    have split : sanitizeChildren nonAsciiLowerCase (node :: nodes) =
        sanitizeNode nonAsciiLowerCase node ++
          sanitizeChildren nonAsciiLowerCase nodes := rfl
    rw [split, serializeChildren_append, List.append_assoc, readTokens_node node,
      readTokens_nodes nodes, Option.map_map]
    congr 1
    funext tokens
    exact (List.append_assoc _ _ _).symm

end

end Reading

/-! ## Inertness -/

section Nesting

variable {value : Chars → Option Chars}

theorem wellNested_characters (stack : List String) (data : Chars)
    (rest : List Token) :
    wellNested stack (data.map Token.character ++ rest) =
      wellNested stack rest := by
  induction data with
  | nil => rfl
  | cons char data ih =>
    rw [List.map_cons, List.cons_append]
    cases stack <;> exact ih

theorem wellNested_startTag (stack : List String) (name : String)
    (attribs : List (String × Chars)) (rest : List Token) :
    wellNested stack (.startTag name attribs :: rest) =
      wellNested (if name ∈ voidTags then stack else name :: stack) rest := by
  cases stack <;> rfl

theorem wellNested_endTag (stack : List String) (name : String)
    (rest : List Token) :
    wellNested (name :: stack) (.endTag name :: rest) = wellNested stack rest := by
  conv_lhs => unfold wellNested
  rw [beq_self_eq_true, Bool.true_and]

mutual

/-- What is kept of a node leaves the open tags as they were. -/
theorem wellNested_node (node : Node) (stack : List String) (rest : List Token) :
    wellNested stack (keptOf nonAsciiLowerCase
        (fun data => data.map Token.character)
        (fun elementName attribs => [Token.startTag elementName
          (readAttribs nonAsciiLowerCase value elementName attribs)])
        (fun elementName => [Token.endTag elementName]) node ++ rest) =
      wellNested stack rest := by
  cases node with
  | text data => exact wellNested_characters stack data rest
  | comment => rfl
  | directive => rfl
  | document children => rfl
  | other children => exact wellNested_nodes children stack rest
  | tag name attribs children =>
    unfold keptOf
    dsimp only
    split
    · rfl
    split
    · exact wellNested_nodes children stack rest
    split
    · next void =>
        rw [List.singleton_append, wellNested_startTag, if_pos void]
    · next void =>
        rw [List.append_assoc, List.append_assoc, List.singleton_append,
          wellNested_startTag, if_neg void]
        rw [show keptOfAll nonAsciiLowerCase _ _ _ children =
          keptTokens nonAsciiLowerCase value children from rfl,
          wellNested_nodes children, List.singleton_append, wellNested_endTag]

theorem wellNested_nodes (nodes : List Node) (stack : List String)
    (rest : List Token) :
    wellNested stack (keptTokens nonAsciiLowerCase value nodes ++ rest) =
      wellNested stack rest := by
  cases nodes with
  | nil => rfl
  | cons node nodes =>
    have split : keptTokens nonAsciiLowerCase value (node :: nodes) =
        keptOf nonAsciiLowerCase (fun data => data.map Token.character)
          (fun elementName attribs => [Token.startTag elementName
            (readAttribs nonAsciiLowerCase value elementName attribs)])
          (fun elementName => [Token.endTag elementName]) node ++
          keptTokens nonAsciiLowerCase value nodes := rfl
    rw [split, List.append_assoc, wellNested_node node, wellNested_nodes nodes]

end

end Nesting

/-- A token that the policy knows. -/
def AllowedToken : Token → Prop
  | .startTag name attribs => name ∈ allowedTags ∧
      ∀ attrib ∈ attribs, attrib.1 ∈ allowedAttributes name
  | .endTag name => name ∈ allowedTags
  | .character _ => True

/-- The tokens of a page are harmless, and are the elements and the text that
are kept of the tree. -/
structure InertTokens (nonAsciiLowerCase : String → String) (nodes : List Node)
    (tokens : List Token) : Prop where
  allowed : ∀ token ∈ tokens, AllowedToken token
  nested : wellNested [] tokens = true
  elements : startTags tokens = (keptElements nonAsciiLowerCase nodes).map Prod.fst
  text : characters tokens = keptText nonAsciiLowerCase nodes
  urls : ∀ name attribs, Token.startTag name attribs ∈ tokens →
    ∀ attrib ∈ attribs, isUrlAttribute attrib.1 = true →
      ∀ scheme, schemeOf (strippedAddress attrib.2) = some scheme →
        scheme ∈ allowedUrlSchemes

/-- A browser reads what is written as harmless tokens. -/
def Inert (nonAsciiLowerCase : String → String) (named : NamedReferences)
    (nodes : List Node) : Prop :=
  ∃ tokens, tokenize named (sanitizeMarkdownHtml nonAsciiLowerCase nodes) =
    some tokens ∧ InertTokens nonAsciiLowerCase nodes tokens

/-- A scheme that is not allowed and is only seen with names that the check does
not know. -/
def HidesScheme (value : Chars → Option Chars) (input : Chars) : Prop :=
  ∃ scheme, addressScheme value input = some scheme ∧
    scheme ∉ allowedUrlSchemes ∧ addressScheme checkedNames input ≠ some scheme

def NoHiddenScheme (nonAsciiLowerCase : String → String)
    (named : NamedReferences) (nodes : List Node) : Prop :=
  ∀ element ∈ keptElements nonAsciiLowerCase nodes, ∀ attributeName value,
    isUrlAttribute attributeName = true →
    keptValue nonAsciiLowerCase element.1 element.2 attributeName = some value →
      ¬ HidesScheme named.value value

theorem tokenize_sanitizeMarkdownHtml (named : NamedReferences)
    (nodes : List Node) :
    tokenize named (sanitizeMarkdownHtml nonAsciiLowerCase nodes) =
      some (keptTokens nonAsciiLowerCase named.value nodes) := by
  have read := readTokens_nodes nonAsciiLowerCase named nodes []
  rw [List.append_nil] at read
  unfold tokenize sanitizeMarkdownHtml
  rw [read]
  exact congrArg some (List.append_nil _)

section Kinds

variable {value : Chars → Option Chars}

theorem allowedToken_keptTokens (nodes : List Node) :
    ∀ token ∈ keptTokens nonAsciiLowerCase value nodes, AllowedToken token := by
  apply HoldsOfParts.keptOfAll
  constructor
  · intro data token member
    rcases List.mem_map.mp member with ⟨char, _, rfl⟩
    exact trivial
  · intro elementName allowed attribs token member
    rw [List.mem_singleton.mp member]
    refine ⟨allowed, ?_⟩
    intro attrib placed
    rcases List.mem_map.mp placed with ⟨⟨attributeName, text⟩, kept, rfl⟩
    exact (keptValue_spec (mem_sanitizeAttributes.mp kept)).1
  · intro elementName allowed token member
    rw [List.mem_singleton.mp member]
    exact allowed

theorem characters_keptTokens (nodes : List Node) :
    characters (keptTokens nonAsciiLowerCase value nodes) =
      keptText nonAsciiLowerCase nodes := by
  unfold characters keptTokens keptText
  rw [keptOfAll_filterMap]
  congr 1
  funext data
  rw [List.filterMap_map]
  exact List.filterMap_some

theorem opened_keptTokens (nodes : List Node) :
    ((keptTokens nonAsciiLowerCase value nodes).filterMap fun token =>
        match token with
        | .startTag name attribs => some (name, attribs)
        | _ => none) =
      (keptElements nonAsciiLowerCase nodes).map fun element =>
        (element.1, readAttribs nonAsciiLowerCase value element.1 element.2) := by
  have elements := @keptOfAll_filterMap nonAsciiLowerCase _ _ (fun _ => [])
    (fun elementName attribs => [(elementName, attribs)]) (fun _ => [])
    (fun element : String × Attributes => some (element.1,
      readAttribs nonAsciiLowerCase value element.1 element.2)) nodes
  rw [List.filterMap_eq_map'] at elements
  unfold keptTokens keptElements
  rw [keptOfAll_filterMap, elements]
  congr 1
  funext data
  rw [List.filterMap_map]
  exact List.filterMap_none _

theorem startTags_keptTokens (nodes : List Node) :
    startTags (keptTokens nonAsciiLowerCase value nodes) =
      (keptElements nonAsciiLowerCase nodes).map Prod.fst := by
  have opened := congrArg (List.map Prod.fst)
    (@opened_keptTokens nonAsciiLowerCase value nodes)
  rw [List.map_filterMap, List.map_map] at opened
  refine Eq.trans ?_ opened
  unfold startTags
  congr 1
  funext token
  cases token <;> rfl

theorem mem_keptTokens_startTag {name : String}
    {attribs : List (String × Chars)} {nodes : List Node} :
    Token.startTag name attribs ∈ keptTokens nonAsciiLowerCase value nodes ↔
      ∃ element ∈ keptElements nonAsciiLowerCase nodes,
        (element.1, readAttribs nonAsciiLowerCase value element.1 element.2) =
          (name, attribs) := by
  rw [← List.mem_map, ← opened_keptTokens, List.mem_filterMap]
  constructor
  · exact fun member => ⟨_, member, rfl⟩
  · rintro ⟨token, member, same⟩
    cases token with
    | startTag other values =>
      cases same
      exact member
    | endTag other => cases same
    | character char => cases same

end Kinds

/-- The addresses of a page are allowed exactly when no kept address hides its
scheme. -/
theorem urls_iff (named : NamedReferences) (nodes : List Node) :
    (∀ name attribs, Token.startTag name attribs ∈
        keptTokens nonAsciiLowerCase named.value nodes →
      ∀ attrib ∈ attribs, isUrlAttribute attrib.1 = true →
        ∀ scheme, schemeOf (strippedAddress attrib.2) = some scheme →
          scheme ∈ allowedUrlSchemes) ↔
      NoHiddenScheme nonAsciiLowerCase named nodes := by
  constructor
  · rintro urls element member attributeName value url kept ⟨scheme, seen, banned, _⟩
    have opened := (@mem_keptTokens_startTag nonAsciiLowerCase named.value
      element.1 _ nodes).mpr ⟨element, member, rfl⟩
    apply banned
    apply urls _ _ opened (attributeName, browserValue named.value value) _ url
      scheme seen
    exact List.mem_map_of_mem (mem_sanitizeAttributes.mpr kept)
  · intro hidden name attribs opened attrib placed url scheme seen
    rcases mem_keptTokens_startTag.mp opened with ⟨element, member, same⟩
    cases same
    rcases List.mem_map.mp placed with ⟨⟨attributeName, value⟩, kept, rfl⟩
    have valued := mem_sanitizeAttributes.mp kept
    by_contra banned
    apply hidden element member attributeName value url valued
    refine ⟨scheme, seen, banned, fun known => banned ?_⟩
    exact mem_allowedUrlSchemes ((keptValue_spec valued).2.2 url) known

/-- What is written for a tree is inert exactly when no kept address hides a
scheme behind a name that the check does not know. -/
theorem sanitizeMarkdownHtml_inert (nonAsciiLowerCase : String → String)
    (named : NamedReferences) (nodes : List Node) :
    Inert nonAsciiLowerCase named nodes ↔
      NoHiddenScheme nonAsciiLowerCase named nodes := by
  have read := @tokenize_sanitizeMarkdownHtml nonAsciiLowerCase named nodes
  constructor
  · rintro ⟨tokens, tokenized, inert⟩
    cases read.symm.trans tokenized
    exact (urls_iff named nodes).mp inert.urls
  · intro hidden
    refine ⟨_, read, allowedToken_keptTokens nodes, ?_, startTags_keptTokens nodes,
      characters_keptTokens nodes, (urls_iff named nodes).mpr hidden⟩
    have nested := @wellNested_nodes nonAsciiLowerCase named.value nodes [] []
    rw [List.append_nil] at nested
    exact nested

/-! ## A scheme with a plus sign -/

/-- Some names that browsers know. -/
def commonNames : NamedReferences where
  value := fun name => (urlNamedCharacterReferences ++
    [(['p', 'l', 'u', 's'], ['+']),
      (['p', 'e', 'r', 'i', 'o', 'd'], ['.'])]).lookup name
  withoutSemicolon := fun name => decide (name ∈
    [['a', 'm', 'p'], ['l', 't'], ['g', 't'], ['q', 'u', 'o', 't']])
  amp := rfl
  lt := rfl
  gt := rfl
  quot := rfl

/-- A link whose address is decoded once by the parser. -/
def calendarLink : List Node :=
  [.tag "a" [("href", "web&plus;calendar:today".toList)] [.text "Today".toList]]

/-- A browser sees another scheme than the check did. -/
theorem sanitizeMarkdownHtml_plus :
    sanitizeMarkdownHtml id calendarLink =
      "<a href=\"web&plus;calendar:today\">Today</a>".toList ∧
    (tokenize commonNames (sanitizeMarkdownHtml id calendarLink)).map
        (List.take 1) =
      some [.startTag "a" [("href", "web+calendar:today".toList)]] ∧
    schemeOf (strippedAddress "web+calendar:today".toList) =
      some "web+calendar" ∧
    "web+calendar" ∉ allowedUrlSchemes := by
  decide +kernel

end GitOnCloudflare.Client
