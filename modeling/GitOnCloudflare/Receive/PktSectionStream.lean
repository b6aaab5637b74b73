import GitOnCloudflare.Core.PktLineFraming

/-!
# The command section of a streamed request

The reader of the section appends the chunks of the body one by one and parses
what it has after each of them.  A decided section stays decided whatever
follows it, so the answer depends on the cuts only through the size limit,
which is put on everything that has come in.
-/

namespace GitOnCloudflare.Receive

open GitOnCloudflare.Core Foundations Foundations.BufferLoop

def maxCommandSectionBytes : Nat := 256 * 1024

structure SectionRead where
  lines : List CodePoints
  bytesConsumed : Nat
  rawPrefix : PktBytes
  packStream : List PktBytes

/-- How the reader is cancelled, and what is thrown. -/
structure SectionRejection where
  cancelled : String
  message : String

/-- The loop, with what it has read and the chunks still to come. -/
def readSection (buffered : PktBytes) (chunks : List PktBytes) :
    Except SectionRejection SectionRead :=
  match parsePktSectionPrefix buffered with
  | .ok lines offset =>
    let prefixRemainder := buffered.drop offset
    .ok {
      lines
      bytesConsumed := offset
      rawPrefix := buffered.take offset
      packStream :=
        if prefixRemainder = [] then chunks else prefixRemainder :: chunks }
  | .invalid message => .error ⟨message, message⟩
  | .incomplete =>
    match chunks with
    | [] =>
      .error ⟨"receive-pack command section ended before flush",
        "Receive-pack command section ended before the flush packet."⟩
    | chunk :: chunks =>
      let buffered := buffered ++ chunk
      if maxCommandSectionBytes < buffered.length then
        .error ⟨"receive-pack command section exceeded the supported size",
          "Receive-pack command section exceeded the supported size."⟩
      else
        readSection buffered chunks

def readPktSectionStream (body : List PktBytes) :
    Except SectionRejection SectionRead :=
  readSection [] body

/-! ## Parsing a longer prefix -/

/-- The same exit in front of other bytes. -/
def PrefixExit.before (more : PktBytes) : PrefixExit → PrefixExit
  | .ok _ => .ok more
  | .incomplete => .incomplete
  | .invalid message => .invalid message

variable {buf rest buffered body : PktBytes} {lines : List CodePoints}
  {offset : Nat} {message : String}
  {payload : PktBytes} {chunks : List PktBytes}

/-- A line is taken off the front whatever follows it. -/
theorem lineAt_front (lineAt : LineAt buf payload rest) :
    ∃ front, buf = front ++ rest ∧ ∀ more, LineAt (front ++ more) payload more := by
  rcases lineAt with ⟨length, long, read, large, fits, rfl, rfl⟩
  have size : (buf.take 4).length = 4 := by
    rw [List.length_take]
    omega
  have payload : ((buf.drop 4).take (length - 4).toNat).length =
      (length - 4).toNat := by
    rw [List.length_take]
    omega
  refine ⟨buf.take 4 ++ (buf.drop 4).take (length - 4).toNat, ?_, ?_⟩
  · rw [List.append_assoc, List.take_append_drop, List.take_append_drop]
  · intro more
    rw [List.append_assoc]
    rcases @four_append _ ((buf.drop 4).take (length - 4).toNat ++ more) size with
      ⟨long', front, behind⟩
    refine ⟨length, long', by rw [front, read], large, ?_, ?_, ?_⟩
    · rw [behind, List.length_append, payload]
      omega
    · rw [behind, List.take_left' payload]
    · rw [behind, List.drop_left' payload]

theorem inPrefix_of_lineAt (lineAt : LineAt buf payload rest) :
    ∃ shorter, parsePktSectionPrefix.body buf =
      .push (withoutLineEnd (Utf8.decode payload)) rest shorter := by
  cases bodiesAgree buf with
  | line payload' rest' shorter lineAt' _ inPrefix _ =>
    rcases lineAt.unique lineAt' with ⟨rfl, rfl⟩
    exact ⟨shorter, inPrefix⟩
  | flush rest' shorter _ noLine => exact absurd ⟨_, _, lineAt⟩ noLine
  | delimiter item rest' shorter message _ noLine =>
    exact absurd ⟨_, _, lineAt⟩ noLine
  | stop failure rest' noLine => exact absurd ⟨_, _, lineAt⟩ noLine

theorem body_push_front {line : CodePoints} {shorter : rest.length < buf.length}
    (pass : parsePktSectionPrefix.body buf = .push line rest shorter) :
    ∃ front, buf = front ++ rest ∧
      ∀ more, ∃ shorter, parsePktSectionPrefix.body (front ++ more) =
        .push line more shorter := by
  cases bodiesAgree buf with
  | line payload rest' _ lineAt _ inPrefix _ =>
    cases inPrefix.symm.trans pass
    rcases lineAt_front lineAt with ⟨front, whole, again⟩
    exact ⟨front, whole, fun more => inPrefix_of_lineAt (again more)⟩
  | flush _ _ _ _ _ inPrefix => cases inPrefix.symm.trans pass
  | delimiter _ _ _ _ _ _ _ _ inPrefix => cases inPrefix.symm.trans pass
  | stop _ _ _ _ _ inPrefix => cases inPrefix.symm.trans pass

/-- A header that ends the section ends it whatever follows. -/
theorem body_exit_front {result : PrefixExit}
    (pass : parsePktSectionPrefix.body buf = .exit result)
    (decided : result ≠ .incomplete) :
    ∃ front rest, buf = front ++ rest ∧
      ∀ more, parsePktSectionPrefix.body (front ++ more) =
        .exit (PrefixExit.before more result) := by
  by_cases long : 4 ≤ buf.length
  · have size : (buf.take 4).length = 4 := by
      rw [List.length_take]
      omega
    refine ⟨buf.take 4, buf.drop 4, (List.take_append_drop 4 buf).symm, ?_⟩
    intro more
    rcases @four_append _ more size with ⟨long', front, behind⟩
    simp only [parsePktSectionPrefix.body, dif_pos long] at pass
    simp only [parsePktSectionPrefix.body, dif_pos long', front]
    generalize Utf8.decode (buf.take 4) = header at pass ⊢
    by_cases flush : header = codes FLUSH
    · rw [if_pos flush] at pass ⊢
      cases pass
      exact congrArg (Pass.exit ∘ PrefixExit.ok) behind
    rw [if_neg flush] at pass ⊢
    by_cases delimiter : header = codes DELIM ∨ header = codes RESPONSE_END
    · rw [if_pos delimiter] at pass ⊢
      cases pass
      rfl
    rw [if_neg delimiter] at pass ⊢
    cases read : parseInt16 header with
    | none =>
      rw [read] at pass
      cases pass
      rfl
    | some length =>
      rw [read] at pass
      dsimp only at pass ⊢
      by_cases small : length < 4
      · rw [if_pos small] at pass ⊢
        cases pass
        rfl
      · rw [if_neg small] at pass
        by_cases cut : ((buf.drop 4).length : Int) < length - 4
        · rw [if_pos cut] at pass
          cases pass
          exact absurd rfl decided
        · rw [if_neg cut] at pass
          cases pass
  · rw [parsePktSectionPrefix.body, dif_neg long] at pass
    cases pass
    exact absurd rfl decided

theorem run_front
    (decided : (run parsePktSectionPrefix.body buf).2 ≠ .incomplete) :
    ∃ front rest, buf = front ++ rest ∧
      ∀ more, run parsePktSectionPrefix.body (front ++ more) =
        ((run parsePktSectionPrefix.body buf).1,
          PrefixExit.before more (run parsePktSectionPrefix.body buf).2) := by
  induction size : buf.length using Nat.strong_induction_on generalizing buf with
  | h size ih =>
    subst size
    cases pass : parsePktSectionPrefix.body buf with
    | push line rest shorter =>
      rw [run_push pass] at decided ⊢
      rcases body_push_front pass with ⟨front, rfl, again⟩
      rcases ih rest.length shorter decided rfl with ⟨later, left, rfl, ran⟩
      refine ⟨front ++ later, left, (List.append_assoc _ _ _).symm, ?_⟩
      intro more
      rcases again (later ++ more) with ⟨_, step⟩
      rw [List.append_assoc, run_push step, ran more]
    | exit result =>
      rw [run_exit pass] at decided ⊢
      rcases body_exit_front pass decided with ⟨front, rest, whole, again⟩
      exact ⟨front, rest, whole, fun more => run_exit (again more)⟩

/-- A decided section is decided by a front of the bytes alone; an accepted
one ends with it. -/
theorem parse_front (decided : parsePktSectionPrefix buf ≠ .incomplete) :
    ∃ front rest, buf = front ++ rest ∧
      (∀ more, parsePktSectionPrefix (front ++ more) = parsePktSectionPrefix buf) ∧
      ∀ lines offset, parsePktSectionPrefix buf = .ok lines offset →
        offset = front.length := by
  have ends : (run parsePktSectionPrefix.body buf).2 ≠ .incomplete := by
    intro incomplete
    apply decided
    rw [parsePktSectionPrefix]
    dsimp only
    rw [incomplete]
  rcases run_front ends with ⟨front, rest, whole, ran⟩
  have same : ∀ more, parsePktSectionPrefix (front ++ more) =
      match (run parsePktSectionPrefix.body buf).2 with
      | .ok _ => .ok (run parsePktSectionPrefix.body buf).1 front.length
      | .incomplete => .incomplete
      | .invalid message => .invalid message := by
    intro more
    rw [parsePktSectionPrefix, ran more]
    cases (run parsePktSectionPrefix.body buf).2 with
    | ok _ =>
      simp only [PrefixExit.before]
      rw [List.length_append, Nat.add_sub_cancel]
    | incomplete => rfl
    | invalid message => rfl
  have this_one := same rest
  rw [← whole] at this_one
  refine ⟨front, rest, whole, fun more => (same more).trans this_one.symm, ?_⟩
  intro lines offset accepted
  rw [this_one] at accepted
  cases exit : (run parsePktSectionPrefix.body buf).2 with
  | ok _ =>
    rw [exit] at accepted
    exact (ParsedPktSection.ok.inj accepted).2.symm
  | incomplete =>
    rw [exit] at accepted
    cases accepted
  | invalid message =>
    rw [exit] at accepted
    cases accepted

theorem parse_append (decided : parsePktSectionPrefix buf ≠ .incomplete)
    (more : PktBytes) :
    parsePktSectionPrefix (buf ++ more) = parsePktSectionPrefix buf := by
  rcases parse_front decided with ⟨front, rest, whole, same, _⟩
  conv_lhs => rw [whole, List.append_assoc]
  exact same (rest ++ more)

theorem parse_of_front {longer : PktBytes} (front : buf <+: longer)
    (decided : parsePktSectionPrefix buf ≠ .incomplete) :
    parsePktSectionPrefix longer = parsePktSectionPrefix buf := by
  rcases front with ⟨more, rfl⟩
  exact parse_append decided more

/-- An accepted section is accepted from its own bytes. -/
theorem parse_take (accepted : parsePktSectionPrefix buf = .ok lines offset)
    {limit : Nat} (within : offset ≤ limit) :
    parsePktSectionPrefix (buf.take limit) = .ok lines offset := by
  have decided : parsePktSectionPrefix buf ≠ .incomplete := by
    rw [accepted]
    intro same
    cases same
  rcases parse_front decided with ⟨front, rest, rfl, same, ends⟩
  have size := ends lines offset accepted
  rw [List.take_append, List.take_of_length_le (by omega), same, accepted]

theorem offset_le (accepted : parsePktSectionPrefix buf = .ok lines offset) :
    offset ≤ buf.length := by
  have decided : parsePktSectionPrefix buf ≠ .incomplete := by
    rw [accepted]
    intro same
    cases same
  rcases parse_front decided with ⟨front, rest, rfl, _, ends⟩
  rw [ends lines offset accepted, List.length_append]
  omega

theorem body_message
    (pass : parsePktSectionPrefix.body buf = .exit (.invalid message)) :
    message = "Unexpected protocol delimiter in receive-pack command section." ∨
      message = "Malformed pkt-line header in receive-pack command section." := by
  by_cases long : 4 ≤ buf.length
  · simp only [parsePktSectionPrefix.body, dif_pos long] at pass
    split at pass
    · cases pass
    · split at pass
      · cases pass
        exact .inl rfl
      · split at pass
        · cases pass
          exact .inr rfl
        · split at pass
          · cases pass
            exact .inr rfl
          · split at pass <;> cases pass
  · rw [parsePktSectionPrefix.body, dif_neg long] at pass
    cases pass

theorem run_message
    (ran : (run parsePktSectionPrefix.body buf).2 = .invalid message) :
    message = "Unexpected protocol delimiter in receive-pack command section." ∨
      message = "Malformed pkt-line header in receive-pack command section." := by
  induction size : buf.length using Nat.strong_induction_on generalizing buf with
  | h size ih =>
    subst size
    cases pass : parsePktSectionPrefix.body buf with
    | push line rest shorter =>
      rw [run_push pass] at ran
      exact ih rest.length shorter ran rfl
    | exit result =>
      rw [run_exit pass] at ran
      dsimp only at ran
      rw [ran] at pass
      exact body_message pass

theorem parse_message (rejected : parsePktSectionPrefix buf = .invalid message) :
    message ≠ "Receive-pack command section exceeded the supported size." := by
  have ran : (run parsePktSectionPrefix.body buf).2 = .invalid message := by
    unfold parsePktSectionPrefix at rejected
    dsimp only at rejected
    split at rejected
    · cases rejected
    · cases rejected
    · next exit =>
        cases rejected
        exact exit
  rcases run_message ran with rfl | rfl <;> decide

/-! ## The section of a body -/

/-- What a reader of the section makes of a body, however the pack behind it
comes in. -/
structure SectionOutcome where
  lines : List CodePoints
  bytesConsumed : Nat
  rawPrefix : PktBytes
  pack : PktBytes

def SectionRead.outcome (read : SectionRead) : SectionOutcome where
  lines := read.lines
  bytesConsumed := read.bytesConsumed
  rawPrefix := read.rawPrefix
  pack := read.packStream.flatten

def exceeded : SectionRejection :=
  ⟨"receive-pack command section exceeded the supported size",
    "Receive-pack command section exceeded the supported size."⟩

def ended : SectionRejection :=
  ⟨"receive-pack command section ended before flush",
    "Receive-pack command section ended before the flush packet."⟩

/-- The answer that a limit on the section itself gives. -/
def sectionOf (body : PktBytes) : Except SectionRejection SectionOutcome :=
  match parsePktSectionPrefix (body.take maxCommandSectionBytes) with
  | .ok lines offset => .ok ⟨lines, offset, body.take offset, body.drop offset⟩
  | .invalid message => .error ⟨message, message⟩
  | .incomplete =>
    .error (if body.length ≤ maxCommandSectionBytes then ended else exceeded)

/-- A chunk that holds the byte which decides the section, within the limit,
goes on beyond the limit. -/
def Overruns (buffered : PktBytes) (chunks : List PktBytes) : Prop :=
  ∃ before chunk after, chunks = before ++ chunk :: after ∧
    parsePktSectionPrefix (buffered ++ before.flatten) = .incomplete ∧
    parsePktSectionPrefix
      ((buffered ++ before.flatten ++ chunk).take maxCommandSectionBytes) ≠
        .incomplete ∧
    maxCommandSectionBytes < (buffered ++ before.flatten ++ chunk).length

theorem sectionOf_decided (within : buffered.length ≤ maxCommandSectionBytes)
    (more : PktBytes) (decided : parsePktSectionPrefix buffered ≠ .incomplete) :
    parsePktSectionPrefix ((buffered ++ more).take maxCommandSectionBytes) =
      parsePktSectionPrefix buffered := by
  apply parse_of_front _ decided
  rw [List.take_append, List.take_of_length_le within]
  exact List.prefix_append _ _

/-- One more chunk that stays within the limit. -/
theorem overruns_cons_iff {chunk : PktBytes}
    (within : (buffered ++ chunk).length ≤ maxCommandSectionBytes) :
    Overruns buffered (chunk :: chunks) ↔ Overruns (buffered ++ chunk) chunks := by
  constructor
  · rintro ⟨before, last, after, whole, early, late, beyond⟩
    cases before with
    | nil =>
      cases whole
      rw [List.flatten_nil, List.append_nil] at beyond
      omega
    | cons first before =>
      cases whole
      rw [List.flatten_cons, ← List.append_assoc] at early late beyond
      exact ⟨before, last, after, rfl, early, late, beyond⟩
  · rintro ⟨before, last, after, rfl, early, late, beyond⟩
    refine ⟨chunk :: before, last, after, rfl, ?_, ?_, ?_⟩ <;>
      rw [List.flatten_cons, ← List.append_assoc] <;> assumption

/-- A decided section is answered at once. -/
theorem readSection_decided (chunks : List PktBytes)
    (within : buffered.length ≤ maxCommandSectionBytes)
    (decided : parsePktSectionPrefix buffered ≠ .incomplete) :
    (readSection buffered chunks).map SectionRead.outcome =
        sectionOf (buffered ++ chunks.flatten) ∧
      ¬ Overruns buffered chunks := by
  constructor
  · unfold readSection sectionOf
    rw [sectionOf_decided within _ decided]
    cases parsed : parsePktSectionPrefix buffered with
    | ok lines offset =>
      have inside := offset_le parsed
      have pack : (if buffered.drop offset = [] then chunks
          else buffered.drop offset :: chunks).flatten =
            (buffered ++ chunks.flatten).drop offset := by
        rw [List.drop_append_of_le_length inside]
        split
        · next none => rw [none, List.nil_append]
        · rw [List.flatten_cons]
      simp only [Except.map, SectionRead.outcome, pack,
        List.take_append_of_le_length inside]
    | invalid message => rfl
    | incomplete => exact absurd parsed decided
  · rintro ⟨before, chunk, after, rfl, undecided, _⟩
    exact decided ((parse_append decided before.flatten).symm.trans undecided)

/-- From any start, the reader answers as a limit on the section does exactly
when no chunk overruns the limit. -/
theorem readSection_iff (chunks : List PktBytes)
    (within : buffered.length ≤ maxCommandSectionBytes) :
    (readSection buffered chunks).map SectionRead.outcome =
        sectionOf (buffered ++ chunks.flatten) ↔
      ¬ Overruns buffered chunks := by
  induction chunks generalizing buffered with
  | nil =>
    by_cases undecided : parsePktSectionPrefix buffered = .incomplete
    · have none : ¬ Overruns buffered [] := by
        rintro ⟨before, chunk, after, whole, _⟩
        exact absurd whole.symm (by simp)
      rw [iff_true_right none, List.flatten_nil, List.append_nil, readSection,
        sectionOf, List.take_of_length_le within, undecided]
      dsimp only
      rw [if_pos within]
      rfl
    · exact iff_of_true (readSection_decided [] within undecided).1
        (readSection_decided [] within undecided).2
  | cons chunk chunks ih =>
    by_cases undecided : parsePktSectionPrefix buffered = .incomplete
    · rw [List.flatten_cons, ← List.append_assoc]
      by_cases beyond : maxCommandSectionBytes < (buffered ++ chunk).length
      · have refused : readSection buffered (chunk :: chunks) =
            .error exceeded := by
          rw [readSection, undecided]
          exact if_pos beyond
        have front : (buffered ++ chunk ++ chunks.flatten).take
            maxCommandSectionBytes =
              (buffered ++ chunk).take maxCommandSectionBytes :=
          List.take_append_of_le_length (Nat.le_of_lt beyond)
        rw [refused, sectionOf, front]
        cases parsed : parsePktSectionPrefix
            ((buffered ++ chunk).take maxCommandSectionBytes) with
        | ok lines offset =>
          apply iff_of_false
          · intro same
            cases same
          · exact not_not.mpr ⟨[], chunk, chunks, rfl, by simpa using undecided,
              by simp [parsed], by simpa using beyond⟩
        | invalid message =>
          apply iff_of_false
          · intro same
            have texts := congrArg SectionRejection.message
              (Except.error.inj same)
            exact parse_message parsed texts.symm
          · exact not_not.mpr ⟨[], chunk, chunks, rfl, by simpa using undecided,
              by simp [parsed], by simpa using beyond⟩
        | incomplete =>
          apply iff_of_true
          · dsimp only
            rw [if_neg]
            · rfl
            · rw [List.length_append]
              omega
          · rintro ⟨before, last, after, whole, _, late, _⟩
            apply late
            cases before with
            | nil =>
              cases whole
              rw [List.flatten_nil, List.append_nil, parsed]
            | cons first before =>
              cases whole
              rw [List.flatten_cons, ← List.append_assoc, List.append_assoc,
                List.take_append_of_le_length (Nat.le_of_lt beyond), parsed]
      · have fits : (buffered ++ chunk).length ≤ maxCommandSectionBytes :=
          Nat.le_of_not_lt beyond
        have goes : readSection buffered (chunk :: chunks) =
            readSection (buffered ++ chunk) chunks := by
          rw [readSection, undecided]
          exact if_neg beyond
        rw [goes, overruns_cons_iff fits]
        exact ih fits
    · exact iff_of_true (readSection_decided _ within undecided).1
        (readSection_decided _ within undecided).2

/-! ## Every way of cutting a body -/

/-- The chunks are non-empty pieces of the body. -/
structure Cuts (body : PktBytes) (chunks : List PktBytes) : Prop where
  whole : chunks.flatten = body
  nonempty : [] ∉ chunks

def answer (chunks : List PktBytes) : Except SectionRejection SectionOutcome :=
  (readPktSectionStream chunks).map SectionRead.outcome

theorem answer_iff (chunks : List PktBytes) :
    answer chunks = sectionOf chunks.flatten ↔ ¬ Overruns [] chunks :=
  readSection_iff chunks (Nat.zero_le _)

theorem parse_nil : parsePktSectionPrefix [] = .incomplete := by
  have ran : run parsePktSectionPrefix.body [] = ([], .incomplete) := by
    apply run_exit
    rw [parsePktSectionPrefix.body, dif_neg (by decide)]
  rw [parsePktSectionPrefix, ran]

/-- Bytes one at a time never overrun. -/
theorem not_overruns_singletons (body : PktBytes) :
    ¬ Overruns [] (body.map fun byte => [byte]) := by
  rintro ⟨before, chunk, after, whole, undecided, decided, beyond⟩
  have member : chunk ∈ body.map fun byte => [byte] := by
    rw [whole]
    exact List.mem_append_right _ List.mem_cons_self
  rcases List.mem_map.mp member with ⟨byte, _, rfl⟩
  rw [List.nil_append] at undecided decided beyond
  rw [List.length_append, List.length_singleton] at beyond
  rw [List.take_append_of_le_length (by omega)] at decided
  exact decided ((parse_of_front (List.take_prefix _ _) decided).symm.trans
    undecided)

theorem cuts_singletons (body : PktBytes) :
    Cuts body (body.map fun byte => [byte]) := by
  constructor
  · induction body with
    | nil => rfl
    | cons byte body ih => rw [List.map_cons, List.flatten_cons, ih]; rfl
  · intro member
    rcases List.mem_map.mp member with ⟨byte, _, same⟩
    cases same

/-- A body within the limit, or whose section is not, is never overrun. -/
theorem not_overruns_of_cuts (cuts : Cuts body chunks)
    (safe : body.length ≤ maxCommandSectionBytes ∨
      parsePktSectionPrefix (body.take maxCommandSectionBytes) = .incomplete) :
    ¬ Overruns [] chunks := by
  rintro ⟨before, chunk, after, rfl, _, decided, beyond⟩
  have whole := cuts.whole
  rw [List.flatten_append, List.flatten_cons, ← List.append_assoc] at whole
  rw [List.nil_append] at decided beyond
  rcases safe with short | undecided
  · rw [← whole, List.length_append] at short
    omega
  · rw [← whole, List.take_append_of_le_length (Nat.le_of_lt beyond)] at undecided
    exact decided undecided

theorem sectionOf_eq_ok_iff :
    sectionOf body = .ok ⟨lines, offset, body.take offset, body.drop offset⟩ ↔
      parsePktSectionPrefix (body.take maxCommandSectionBytes) =
        .ok lines offset := by
  unfold sectionOf
  constructor
  · intro accepted
    split at accepted
    · next parsed =>
        rw [Except.ok.injEq, SectionOutcome.mk.injEq] at accepted
        rw [parsed, accepted.1, accepted.2.1]
    · cases accepted
    · cases accepted
  · intro parsed
    rw [parsed]

/-- The whole-body parser agrees with the limit on the section. -/
theorem parsePktSection_iff (within : offset ≤ maxCommandSectionBytes) :
    parsePktSection body = some ⟨lines, offset⟩ ↔
      sectionOf body =
        .ok ⟨lines, offset, body.take offset, body.drop offset⟩ := by
  rw [(parsersAgree body).inPrefix, sectionOf_eq_ok_iff]
  constructor
  · intro accepted
    exact parse_take accepted within
  · intro accepted
    rw [parse_of_front (List.take_prefix _ _) (by rw [accepted]; simp), accepted]

/-- The reader gives the answer of a limit on the section exactly for the cuts
in which no chunk overruns; that answer is `parsePktSection`'s for a section
within the limit; and all cuts of a body have one answer exactly when the body
is within the limit or its section is not. -/
theorem readPktSectionStream_cuts (chunks : List PktBytes) (body : PktBytes) :
    (answer chunks = sectionOf chunks.flatten ↔ ¬ Overruns [] chunks) ∧
    (∀ lines offset, offset ≤ maxCommandSectionBytes →
      (parsePktSection body = some ⟨lines, offset⟩ ↔
        sectionOf body = .ok ⟨lines, offset, body.take offset,
          body.drop offset⟩)) ∧
    ((∀ chunks chunks', Cuts body chunks → Cuts body chunks' →
        answer chunks = answer chunks') ↔
      body.length ≤ maxCommandSectionBytes ∨
        parsePktSectionPrefix (body.take maxCommandSectionBytes) =
          .incomplete) := by
  refine ⟨answer_iff chunks, fun _ _ => parsePktSection_iff, ?_⟩
  constructor
  · intro same
    by_contra otherwise
    rcases not_or.mp otherwise with ⟨long, decided⟩
    have beyond := Nat.lt_of_not_le long
    have one : Cuts body [body] := by
      constructor
      · rw [List.flatten_singleton]
      · intro empty
        rw [← List.mem_singleton.mp empty] at beyond
        exact absurd beyond (Nat.not_lt_zero _)
    have single := (answer_iff _).mpr (not_overruns_singletons body)
    rw [(cuts_singletons body).whole] at single
    have whole : answer [body] = sectionOf [body].flatten := by
      rw [same _ _ one (cuts_singletons body), single, one.whole]
    apply (answer_iff _).mp whole
    exact ⟨[], body, [], rfl, parse_nil, decided, beyond⟩
  · intro safe chunks chunks' cuts cuts'
    have first := (answer_iff _).mpr (not_overruns_of_cuts cuts safe)
    have second := (answer_iff _).mpr (not_overruns_of_cuts cuts' safe)
    rw [first, second, cuts.whole, cuts'.whole]

/-- A flush and 256 KiB of pack are refused in one chunk and taken in two. -/
theorem not_same_answer_packBehind :
    answer [FLUSH ++ List.replicate maxCommandSectionBytes 0] ≠
      answer [FLUSH, List.replicate maxCommandSectionBytes 0] := by
  have flush : ∀ more, parsePktSectionPrefix (FLUSH ++ more) = .ok [] 4 := by
    intro more
    have ran : run parsePktSectionPrefix.body (FLUSH ++ more) =
        ([], .ok more) := by
      rcases @four_append FLUSH more rfl with ⟨long, _, behind⟩
      apply run_exit
      rw [parsePktSectionPrefix.body, dif_pos long]
      exact if_pos decode_constants.1
    rw [parsePktSectionPrefix, ran]
    dsimp only
    rw [List.length_append, Nat.add_sub_cancel]
    rfl
  have refused : answer [FLUSH ++ List.replicate maxCommandSectionBytes 0] =
      .error exceeded := by
    rw [answer, readPktSectionStream, readSection, parse_nil]
    dsimp only
    rw [if_pos]
    · rfl
    · rw [List.nil_append, List.length_append, List.length_replicate]
      exact Nat.lt_add_of_pos_left (by decide)
  have taken : (answer [FLUSH, List.replicate maxCommandSectionBytes 0]).isOk := by
    rw [answer, readPktSectionStream, readSection, parse_nil]
    dsimp only
    rw [if_neg (by decide), readSection, List.nil_append,
      ← List.append_nil FLUSH, flush]
    rfl
  intro same
  rw [← same, refused] at taken
  cases taken

/-! ## Round trip -/

/-- A command that fits one line. -/
abbrev CommandLine := { payload : PktBytes // payload.length ≤ 65516 }

def commandSection (commands : List CommandLine) : PktBytes :=
  commands.flatMap (fun command => pktLine command.1) ++ flushPkt

def CommandLine.text (command : CommandLine) : CodePoints :=
  withoutLineEnd (Utf8.decode command.1)

theorem inPrefix_pktLine (command : CommandLine) (rest : PktBytes) :
    ∃ shorter, parsePktSectionPrefix.body (pktLine command.1 ++ rest) =
      .push command.text rest shorter := by
  rcases body_encode (.line command.1 command.2) rest with ⟨_, inBuffer⟩
  change decodePktLines.body (pktLine command.1 ++ rest) =
    .push (.line (Utf8.decode command.1) command.1) rest _ at inBuffer
  cases bodiesAgree (pktLine command.1 ++ rest) with
  | line payload rest' shorter _ _ inPrefix inBuffer' =>
    rcases Pass.push.inj (inBuffer.symm.trans inBuffer') with ⟨item, rfl⟩
    rw [← (PktItem.line.inj item).2] at inPrefix
    exact ⟨shorter, inPrefix⟩
  | flush _ _ _ _ _ _ inBuffer' => cases inBuffer'.symm.trans inBuffer
  | delimiter _ _ _ _ _ _ special _ _ inBuffer' =>
    rcases special with rfl | rfl <;> cases inBuffer'.symm.trans inBuffer
  | stop _ _ _ _ _ _ inBuffer' => cases inBuffer'.symm.trans inBuffer

theorem parse_commandSection (commands : List CommandLine) (pack : PktBytes) :
    parsePktSectionPrefix (commandSection commands ++ pack) =
      .ok (commands.map CommandLine.text) (commandSection commands).length := by
  have ran : run parsePktSectionPrefix.body (commandSection commands ++ pack) =
      (commands.map CommandLine.text, .ok pack) := by
    induction commands with
    | nil =>
      rcases @four_append FLUSH pack rfl with ⟨long, _, behind⟩
      apply run_exit
      change parsePktSectionPrefix.body (FLUSH ++ pack) = _
      rw [parsePktSectionPrefix.body, dif_pos long]
      refine (if_pos decode_constants.1).trans ?_
      rw [behind]
      rfl
    | cons command commands ih =>
      have next : commandSection (command :: commands) ++ pack =
          pktLine command.1 ++ (commandSection commands ++ pack) := by
        simp only [commandSection, List.flatMap_cons, List.append_assoc]
      rcases inPrefix_pktLine command (commandSection commands ++ pack) with
        ⟨_, pass⟩
      rw [next, run_push pass, ih, List.map_cons]
  rw [parsePktSectionPrefix, ran]
  dsimp only
  rw [List.length_append, Nat.add_sub_cancel]

/-- Commands that are framed within the limit come back as they were sent, and
the pack behind them whole, exactly when no chunk overruns. -/
theorem readPktSectionStream_roundTrip (commands : List CommandLine)
    (pack : PktBytes) {chunks : List PktBytes}
    (whole : chunks.flatten = commandSection commands ++ pack)
    (within : (commandSection commands).length ≤ maxCommandSectionBytes) :
    answer chunks =
        .ok ⟨commands.map CommandLine.text, (commandSection commands).length,
          commandSection commands, pack⟩ ↔
      ¬ Overruns [] chunks := by
  have parsed := parse_take (parse_commandSection commands pack) within
  have sectioned := sectionOf_eq_ok_iff.mpr parsed
  rw [List.take_left, List.drop_left, ← whole] at sectioned
  rw [← answer_iff, sectioned]

/-- A command of one byte, and a pack, cut within the header. -/
def cutHeader : List PktBytes :=
  [[0x30, 0x30, 0x30], [0x35, 0x61, 0x30, 0x30], [0x30, 0x30, 0x50]]

theorem readPktSectionStream_roundTrip_cut :
    answer cutHeader =
        .ok ⟨[CommandLine.text ⟨[0x61], by decide⟩],
          (commandSection [⟨[0x61], by decide⟩]).length,
          commandSection [⟨[0x61], by decide⟩], [0x50]⟩ ↔
      ¬ Overruns [] cutHeader :=
  @readPktSectionStream_roundTrip [⟨[0x61], by decide⟩] [0x50] cutHeader
    (by decide +kernel) (by decide +kernel)

end GitOnCloudflare.Receive
