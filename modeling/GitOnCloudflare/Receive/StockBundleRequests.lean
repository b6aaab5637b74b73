import GitOnCloudflare.Receive.StockBundle
import GitOnCloudflare.Foundations.CheckedFold
import Mathlib.Algebra.Order.BigOperators.Group.List

/-!
# Requests in a bundle

What the container has read when it accepts a request: the writes of one bundle
and nothing else, under the length that was declared.  What the Worker sends is
within the limits of the container.
-/

namespace GitOnCloudflare.Receive.StockBundle

open Foundations
open Foundations.ByteTable
open Foundations.CheckedFold

/-! ## Exact reads -/

variable {reader next : BundleReader} {bytes rest header : Bytes}

theorem readFull_sound {need : Nat} {message : String}
    (read : readFull reader need message = .ok (bytes, next)) :
    bytes.length = need ∧ reader.ahead = bytes ++ next.ahead ∧
      next.fails = reader.fails := by
  unfold readFull at read
  cases found : reader.exact need message with
  | error failure =>
    rw [found] at read
    cases read
  | ok result =>
    rw [found] at read
    cases read
    exact ChunkedReader.exact_sound found

theorem readFull_total (message : String) (ahead : reader.ahead = bytes ++ rest) :
    ∃ next, readFull reader bytes.length message = .ok (bytes, next) ∧
      next.ahead = rest ∧ next.fails = reader.fails := by
  rcases ChunkedReader.exact_total message ahead with ⟨next, read, same⟩
  refine ⟨next, ?_, same⟩
  unfold readFull
  rw [read]
  rfl

/-! ## The header -/

/-- What is read of a frame up to its first section. -/
structure HeaderFrame (decode : Bytes → Option StockReceiveRequest)
    (input : StockReceiveRequest) (header : Bytes) : Prop where
  decoded : decode header = some input
  valid : validateStockReceiveRequest input = .ok ()
  nonempty : header ≠ []
  bounded : header.length ≤ stockBundleHeaderBytes

theorem ofBigEndian_length (bounded : header.length ≤ stockBundleHeaderBytes) :
    ofBigEndian (bigEndian 4 header.length) = header.length := by
  apply ofBigEndian_of_lt
  exact Nat.lt_of_le_of_lt bounded (by decide)

section Header

variable {decode : Bytes → Option StockReceiveRequest} {reader next : BundleReader}
  {input : StockReceiveRequest} {headerLength : Nat}

theorem decodeStockBundleHeader_sound
    (read : decodeStockBundleHeader decode reader = .ok (input, headerLength, next)) :
    ∃ header, HeaderFrame decode input header ∧ headerLength = header.length ∧
      reader.ahead = requestMagic ++
        (bigEndian 4 header.length ++ (header ++ next.ahead)) ∧
      next.fails = reader.fails := by
  unfold decodeStockBundleHeader at read
  rcases bind_eq_ok.mp read with ⟨⟨magic, behindMagic⟩, readMagic, read⟩
  rcases readFull_sound readMagic with ⟨_, aheadMagic, failsMagic⟩
  dsimp only at read
  split at read
  · cases read
  next same =>
    rw [not_not] at same
    rcases bind_eq_ok.mp read with ⟨⟨lengthBytes, behindLength⟩, readLength, read⟩
    rcases readFull_sound readLength with ⟨four, aheadLength, failsLength⟩
    dsimp only at read
    split at read
    · cases read
    next within =>
      rcases not_or.mp within with ⟨positive, bounded⟩
      rcases bind_eq_ok.mp read with ⟨⟨header, behindHeader⟩, readHeader, read⟩
      rcases readFull_sound readHeader with ⟨counted, aheadHeader, failsHeader⟩
      dsimp only at read
      split at read
      · cases read
      next found decoded =>
        rcases bind_eq_ok.mp read with ⟨⟨⟩, valid, read⟩
        cases read
        refine ⟨header, ⟨decoded, valid, ?_, ?_⟩, counted.symm, ?_, ?_⟩
        · rintro rfl
          exact positive counted.symm
        · rw [counted]
          exact Nat.le_of_not_lt bounded
        · rw [aheadMagic, same, aheadLength, aheadHeader, counted,
            bigEndian_ofBigEndian four]
        · rw [failsHeader, failsLength, failsMagic]

theorem decodeStockBundleHeader_total (frame : HeaderFrame decode input header)
    (ahead : reader.ahead = requestMagic ++
      (bigEndian 4 header.length ++ (header ++ rest))) :
    ∃ next, decodeStockBundleHeader decode reader =
        .ok (input, header.length, next) ∧
      next.ahead = rest ∧ next.fails = reader.fails := by
  rcases readFull_total "invalid stock bundle magic" ahead with
    ⟨behindMagic, readMagic, aheadMagic, failsMagic⟩
  rcases readFull_total "stock bundle header is truncated" aheadMagic with
    ⟨behindLength, readLength, aheadLength, failsLength⟩
  rcases readFull_total "stock bundle header is truncated" aheadLength with
    ⟨behindHeader, readHeader, aheadHeader, failsHeader⟩
  refine ⟨behindHeader, ?_, aheadHeader, ?_⟩
  · unfold decodeStockBundleHeader
    apply bind_eq_ok.mpr
    refine ⟨_, readMagic, ?_⟩
    dsimp only
    rw [if_neg (not_not.mpr rfl)]
    apply bind_eq_ok.mpr
    rw [length_bigEndian] at readLength
    refine ⟨_, readLength, ?_⟩
    dsimp only
    rw [ofBigEndian_length frame.bounded, if_neg]
    · apply bind_eq_ok.mpr
      refine ⟨_, readHeader, ?_⟩
      dsimp only
      rw [frame.decoded]
      apply bind_eq_ok.mpr
      exact ⟨(), frame.valid, rfl⟩
    · rintro (empty | long)
      · exact frame.nonempty (List.length_eq_zero_iff.mp empty)
      · exact absurd frame.bounded (Nat.not_le_of_lt long)
  · rw [failsHeader, failsLength, failsMagic]

end Header

/-! ## The sections -/

/-- What a valid request declares of sizes and counts. -/
structure WithinLimits (input : StockReceiveRequest) : Prop where
  operationId : input.operationId ≠ "" ∧ input.operationId.utf8ByteSize ≤ 200
  request : 0 < input.inputRequestBytes ∧
    input.inputRequestBytes ≤ maxStockRequestBytes
  offset : 0 < input.packOffset ∧ input.packOffset < input.inputRequestBytes
  prerequisite : 0 < input.prerequisitePackBytes ∧
    input.prerequisitePackBytes ≤ maxStockMetadataBytes
  manifest : 0 < input.closureManifestBytes ∧
    input.closureManifestBytes ≤ maxStockMetadataBytes
  refs : input.advertisedRefs.length ≤ maxCommands
  commands : input.commands.length ≠ 0 ∧ input.commands.length ≤ maxCommands

variable {input request : StockReceiveRequest} {expected : Int}
  {received : ReceivedBundle} {limit : Nat} {body : BundleReader}
  {prerequisite manifest : Bytes}

theorem withinLimits_of_valid
    (valid : validateStockReceiveRequest input = .ok ()) :
    WithinLimits input := by
  unfold validateStockReceiveRequest at valid
  split at valid
  · cases valid
  next operationId =>
    split at valid
    · cases valid
    next request =>
      split at valid
      · cases valid
      next binding =>
        split at valid
        · cases valid
        next prerequisite =>
          split at valid
          · cases valid
          next manifest =>
            split at valid
            · cases valid
            next counts =>
              rcases not_or.mp operationId with ⟨filled, short⟩
              rcases not_or.mp request with ⟨_, request⟩
              rcases not_or.mp binding with ⟨_, binding⟩
              rcases not_or.mp prerequisite with ⟨_, prerequisite⟩
              rcases not_or.mp manifest with ⟨_, manifest⟩
              refine ⟨⟨filled, Nat.le_of_not_lt short⟩, ?_, ?_, ?_, ?_, ?_, ?_⟩
              all_goals omega

/-- The sections have the declared lengths. -/
structure ReceivedBundle.Declared (received : ReceivedBundle) : Prop where
  request : received.input.inputRequestBytes = received.request.length
  prerequisite :
    received.input.prerequisitePackBytes = received.prerequisite.length
  manifest : received.input.closureManifestBytes = received.manifest.length

theorem receiveStockBundleSection_sound
    (read : receiveStockBundleSection reader expected = .ok (bytes, next)) :
    expected = bytes.length ∧ reader.ahead = bytes ++ next.ahead ∧
      next.fails = reader.fails := by
  unfold receiveStockBundleSection at read
  split at read
  · cases read
  next within =>
    rcases readFull_sound read with ⟨counted, same⟩
    refine ⟨?_, same⟩
    rw [counted]
    omega

theorem receiveStockBundleSection_total (declared : expected = bytes.length)
    (positive : 0 < expected) (bounded : expected ≤ stockBundleArtifactBytes)
    (ahead : reader.ahead = bytes ++ rest) :
    ∃ next, receiveStockBundleSection reader expected = .ok (bytes, next) ∧
      next.ahead = rest ∧ next.fails = reader.fails := by
  rcases readFull_total "stock bundle input is truncated" ahead with
    ⟨next, read, same⟩
  refine ⟨next, ?_, same⟩
  unfold receiveStockBundleSection
  rw [if_neg (by omega), declared]
  exact read

theorem receiveStockBundleSections_sound
    (read : receiveStockBundleSections input reader = .ok (received, next)) :
    received.input = input ∧ received.Declared ∧
      reader.ahead = received.request ++
        (received.prerequisite ++ (received.manifest ++ next.ahead)) ∧
      next.fails = reader.fails := by
  unfold receiveStockBundleSections at read
  rcases bind_eq_ok.mp read with ⟨⟨request, behindRequest⟩, first, read⟩
  rcases bind_eq_ok.mp read with ⟨⟨prerequisite, behindPrerequisite⟩, second, read⟩
  rcases bind_eq_ok.mp read with ⟨⟨manifest, behindManifest⟩, third, read⟩
  cases read
  rcases receiveStockBundleSection_sound first with ⟨one, aheadOne, failsOne⟩
  rcases receiveStockBundleSection_sound second with ⟨two, aheadTwo, failsTwo⟩
  rcases receiveStockBundleSection_sound third with ⟨three, aheadThree, failsThree⟩
  refine ⟨rfl, ⟨one, two, three⟩, ?_, ?_⟩
  · rw [aheadOne, aheadTwo, aheadThree]
  · rw [failsThree, failsTwo, failsOne]

theorem receiveStockBundleSections_total (within : WithinLimits received.input)
    (declared : received.Declared)
    (ahead : reader.ahead = received.request ++
      (received.prerequisite ++ (received.manifest ++ rest))) :
    ∃ next, receiveStockBundleSections received.input reader =
        .ok (received, next) ∧
      next.ahead = rest ∧ next.fails = reader.fails := by
  have requests : maxStockRequestBytes ≤ stockBundleArtifactBytes := by decide
  have metadata : maxStockMetadataBytes ≤ stockBundleArtifactBytes := by decide
  rcases within with ⟨_, ⟨one, requestMost⟩, _, ⟨two, prerequisiteMost⟩,
    ⟨three, manifestMost⟩, _⟩
  rcases receiveStockBundleSection_total declared.request one (by omega) ahead with
    ⟨behindRequest, first, aheadOne, failsOne⟩
  rcases receiveStockBundleSection_total declared.prerequisite two (by omega)
    aheadOne with ⟨behindPrerequisite, second, aheadTwo, failsTwo⟩
  rcases receiveStockBundleSection_total declared.manifest three (by omega)
    aheadTwo with ⟨behindManifest, third, aheadThree, failsThree⟩
  refine ⟨behindManifest, ?_, aheadThree, ?_⟩
  · unfold receiveStockBundleSections
    apply bind_eq_ok.mpr
    refine ⟨_, first, ?_⟩
    apply bind_eq_ok.mpr
    refine ⟨_, second, ?_⟩
    apply bind_eq_ok.mpr
    exact ⟨_, third, rfl⟩
  · rw [failsThree, failsTwo, failsOne]

/-! ## The whole request -/

theorem maxBytesReader_within (within : body.ahead.length ≤ limit) :
    maxBytesReader limit body = body :=
  if_pos within

theorem fails_maxBytesReader (ends : (maxBytesReader limit body).fails = none) :
    maxBytesReader limit body = body := by
  unfold maxBytesReader at ends ⊢
  split
  · rfl
  next beyond =>
    rw [if_neg beyond] at ends
    cases ends

theorem flatten_writeRequestBundle (header a b c : Bytes) :
    (writeRequestBundle header [a, b, c]).flatten =
      requestMagic ++ (bigEndian 4 header.length ++ (header ++
        (a ++ (b ++ (c ++ []))))) := rfl

theorem length_writeRequestBundle (header a b c : Bytes) :
    (writeRequestBundle header [a, b, c]).flatten.length =
      12 + header.length + a.length + b.length + c.length := by
  have magic : requestMagic.length = 8 := rfl
  rw [flatten_writeRequestBundle]
  simp only [List.length_append, length_bigEndian, List.length_nil]
  omega

section Whole

variable (decode : Bytes → Option StockReceiveRequest) (body : BundleReader)

/-- The body is the writes of one bundle with these sections, to the last byte. -/
structure ReceivedBundle.IsBody (received : ReceivedBundle) (header : Bytes) :
    Prop where
  frame : HeaderFrame decode received.input header
  declared : received.Declared
  whole : body.ahead = (writeRequestBundle header
    [received.request, received.prerequisite, received.manifest]).flatten

variable {decode body} {contentLength : Int} {received : ReceivedBundle}

theorem length_isBody (isBody : received.IsBody decode body header) :
    (body.ahead.length : Int) =
      expectedRequest header.length received.input := by
  rcases isBody.declared with ⟨request, prerequisite, manifest⟩
  unfold expectedRequest
  rw [isBody.whole, length_writeRequestBundle, request, prerequisite, manifest]
  omega

theorem isBody_length_le (isBody : received.IsBody decode body header) :
    body.ahead.length ≤ maximumRequest := by
  have length := length_isBody isBody
  have within := withinLimits_of_valid isBody.frame.valid
  have header := isBody.frame.bounded
  have most : stockBundleInputBytes =
      maxStockRequestBytes + maxStockMetadataBytes + maxStockMetadataBytes := by
    decide
  rcases within with ⟨_, ⟨_, request⟩, _, ⟨_, prerequisite⟩, ⟨_, manifest⟩, _⟩
  unfold expectedRequest at length
  unfold maximumRequest
  omega

/-- The container accepts exactly the writes of one bundle under their length,
however they were cut. -/
theorem receiveStockBundle_iff :
    receiveStockBundle decode false contentLength body = .ok received ↔
      contentLength = body.ahead.length ∧ body.fails = none ∧
        ∃ header, received.IsBody decode body header := by
  unfold receiveStockBundle
  constructor
  · intro accepted
    split at accepted
    · cases accepted
    rcases bind_eq_ok.mp accepted with ⟨⟨input, headerLength, reader⟩, read, accepted⟩
    dsimp only at accepted
    split at accepted
    · cases accepted
    next lengths =>
      rw [if_neg Bool.false_ne_true] at accepted
      rcases bind_eq_ok.mp accepted with ⟨⟨sections, behind⟩, readSections, accepted⟩
      dsimp only at accepted
      split at accepted
      next ended =>
        cases accepted
        cases found : decodeStockBundleHeader decode
            (maxBytesReader maximumRequest body) with
        | error failure =>
          rw [found] at read
          cases read
        | ok result =>
          rw [found] at read
          cases read
          cases taken : receiveStockBundleSections input reader with
          | error failure =>
            rw [taken] at readSections
            cases readSections
          | ok result =>
            rw [taken] at readSections
            cases readSections
            rcases decodeStockBundleHeader_sound found with
              ⟨header, frame, rfl, ahead, failsHeader⟩
            rcases receiveStockBundleSections_sound taken with
              ⟨rfl, declared, aheadSections, failsSections⟩
            rcases ChunkedReader.atEnd_iff.mp ended with ⟨empty, ends⟩
            have unfailing := failsHeader.symm.trans (failsSections.symm.trans ends)
            have same := fails_maxBytesReader unfailing
            rw [same] at ahead unfailing
            have isBody : received.IsBody decode body header := by
              refine ⟨frame, declared, ?_⟩
              rw [ahead, aheadSections, empty, flatten_writeRequestBundle]
            refine ⟨?_, unfailing, header, isBody⟩
            rw [length_isBody isBody]
            exact not_not.mp (not_or.mp lengths).1
      · cases accepted
  · rintro ⟨rfl, ends, header, isBody⟩
    have most := isBody_length_le isBody
    have length := length_isBody isBody
    have within := withinLimits_of_valid isBody.frame.valid
    have whole := isBody.whole
    rw [flatten_writeRequestBundle] at whole
    rcases decodeStockBundleHeader_total isBody.frame whole with
      ⟨behindHeader, read, aheadHeader, failsHeader⟩
    rcases receiveStockBundleSections_total within isBody.declared aheadHeader with
      ⟨behind, taken, empty, failsSections⟩
    have positive : 0 < body.ahead.length := by
      rw [isBody.whole, length_writeRequestBundle]
      omega
    rw [if_neg (by omega), maxBytesReader_within most]
    apply bind_eq_ok.mpr
    refine ⟨(received.input, header.length, behindHeader), ?_, ?_⟩
    · rw [read]
      rfl
    dsimp only
    rw [if_neg (by omega), if_neg Bool.false_ne_true]
    apply bind_eq_ok.mpr
    refine ⟨(received, behind), ?_, ?_⟩
    · rw [taken]
      rfl
    dsimp only
    rw [if_pos (ChunkedReader.atEnd_iff.mpr
      ⟨empty, failsSections.trans (failsHeader.trans ends)⟩)]

end Whole

/-! ## What the Worker sends -/

theorem assertSafeBytes_eq_ok {value maximum : Int} {name : String} {done : Unit}
    (safe : assertSafeBytes value name maximum = .ok done) :
    0 ≤ value ∧ value ≤ maximum := by
  unfold assertSafeBytes at safe
  split at safe
  · cases safe
  next within =>
    omega

theorem sum_length_le_intercalate (separator : List Char)
    (items : List (List Char)) :
    (items.map List.length).sum ≤ (List.intercalate separator items).length := by
  induction items with
  | nil => exact Nat.zero_le _
  | cons item items ih =>
    cases items with
    | nil =>
      rw [List.intercalate_singleton]
      exact Nat.le_refl _
    | cons next items =>
      rw [List.intercalate_cons_cons, List.map_cons, List.sum_cons, List.length_append,
        List.length_append]
      omega

theorem length_le_encodeText (text : List Char) :
    text.length ≤ (encodeText text).length := by
  unfold encodeText
  induction text with
  | nil => exact Nat.le_refl _
  | cons char text ih =>
    have positive := Char.utf8Size_pos char
    rw [List.flatMap_cons, List.length_append, String.length_utf8EncodeChar,
      List.length_cons]
    omega

theorem length_jsonObject (members : List (List Char)) :
    (members.map List.length).sum + 2 ≤ (jsonObject members).length := by
  have inside := sum_length_le_intercalate [','] members
  unfold jsonObject
  rw [List.length_cons, List.length_append, List.length_singleton]
  omega

theorem length_jsonMember (name : String) (value : List Char) :
    (jsonMember name value).length = (quote name).length + 1 + value.length := by
  unfold jsonMember
  rw [List.length_append, List.length_cons]
  omega

theorem two_le_length_quote (text : String) : 2 ≤ (quote text).length := by
  unfold quote
  rw [List.length_cons, List.length_append, List.length_singleton]
  omega

theorem length_jsonRef (ref : StockAdvertisedRef) : 16 ≤ (jsonRef ref).length := by
  have whole := length_jsonObject [jsonMember "name" (quote ref.name),
    jsonMember "oid" (quote ref.oid)]
  have name : (quote "name").length = 6 := by decide
  have oid : (quote "oid").length = 5 := by decide
  have nameValue := two_le_length_quote ref.name
  have oidValue := two_le_length_quote ref.oid
  simp only [List.map_cons, List.map_nil, List.sum_cons, List.sum_nil,
    length_jsonMember] at whole
  unfold jsonRef
  omega

theorem length_jsonCommand (command : ReceiveCommand) :
    16 ≤ (jsonCommand command).length := by
  have whole := length_jsonObject [jsonMember "oldOid" (quote command.oldOid),
    jsonMember "newOid" (quote command.newOid), jsonMember "ref" (quote command.ref)]
  have oldOid : (quote "oldOid").length = 8 := by decide
  have newOid : (quote "newOid").length = 8 := by decide
  simp only [List.map_cons, List.map_nil, List.sum_cons, List.sum_nil,
    length_jsonMember] at whole
  unfold jsonCommand
  omega

theorem length_jsonArray {items : List (List Char)} {share : Nat}
    (whole : ∀ item ∈ items, share ≤ item.length) :
    items.length * share ≤ (jsonArray items).length := by
  have shared := List.card_nsmul_le_sum (items.map List.length) share (by
    intro length member
    rcases List.mem_map.mp member with ⟨item, placed, rfl⟩
    exact whole item placed)
  have inside := sum_length_le_intercalate [','] items
  rw [List.length_map] at shared
  change items.length * share ≤ _ at shared
  unfold jsonArray
  rw [List.length_cons, List.length_append, List.length_singleton]
  omega

/-- A member of the header is not longer than its bytes. -/
theorem length_member_le {members : List (List Char)} {name : String}
    {value : List Char} (placed : jsonMember name value ∈ members) :
    value.length ≤ (encodeText (jsonObject members)).length := by
  have one := List.single_le_sum (fun _ _ => Nat.zero_le _) _
    (List.mem_map_of_mem placed : (jsonMember name value).length ∈ _)
  have whole := length_jsonObject members
  have bytes := length_le_encodeText (jsonObject members)
  rw [length_jsonMember] at one
  omega

/-- In a header within its bound there is no room for more refs or commands than
the container takes. -/
theorem counts_of_header
    (bounded : (encodeText (stockHostRequest request)).length ≤
      stockBundleHeaderBytes) :
    request.advertisedRefs.length ≤ maxCommands ∧
      request.commands.length ≤ maxCommands := by
  have refs : (request.advertisedRefs.map jsonRef).length * 16 ≤ _ :=
    length_jsonArray (by
      intro item member
      rcases List.mem_map.mp member with ⟨ref, _, rfl⟩
      exact length_jsonRef ref)
  have commands : (request.commands.map jsonCommand).length * 16 ≤ _ :=
    length_jsonArray (by
      intro item member
      rcases List.mem_map.mp member with ⟨command, _, rfl⟩
      exact length_jsonCommand command)
  have refsPlaced : (jsonArray (request.advertisedRefs.map jsonRef)).length ≤
      (encodeText (stockHostRequest request)).length := by
    apply @length_member_le _ "advertisedRefs"
    simp only [List.mem_cons, true_or, or_true]
  have commandsPlaced : (jsonArray (request.commands.map jsonCommand)).length ≤
      (encodeText (stockHostRequest request)).length := by
    apply @length_member_le _ "commands"
    simp only [List.mem_cons, true_or, or_true]
  have room : stockBundleHeaderBytes = maxCommands * 16 := by decide
  rw [List.length_map] at refs commands
  constructor
  · omega
  · omega

theorem size_utf8Encode_ascii {text : List Char}
    (ascii : ∀ char ∈ text, char.toNat < 128) :
    text.utf8Encode.size = text.length := by
  induction text with
  | nil => rfl
  | cons char text ih =>
    have narrow : char.utf8Size = 1 := by
      rw [Char.utf8Size_eq_one_iff]
      exact Nat.le_of_lt_succ (ascii char List.mem_cons_self)
    have one : [char].utf8Encode.size = char.utf8Size := by
      rw [List.utf8Encode_singleton, List.size_toByteArray,
        String.length_utf8EncodeChar]
    rw [List.utf8Encode_cons, ByteArray.size_append, one, narrow, List.length_cons,
      ih fun other member => ascii other (List.mem_cons_of_mem _ member)]
    omega

theorem ascii_of_isAlphanum {char : Char} (alphanumeric : char.isAlphanum = true) :
    char.toNat < 128 := by
  delta Char.isAlphanum Char.isAlpha Char.isUpper Char.isLower Char.isDigit
    at alphanumeric
  simp only [Bool.or_eq_true, Bool.and_eq_true, decide_eq_true_eq, ge_iff_le,
    UInt32.le_iff_toNat_le] at alphanumeric
  have same : char.toNat = char.val.toNat := rfl
  rw [same]
  have upper : 'Z'.val.toNat = 90 := rfl
  have lower : 'z'.val.toNat = 122 := rfl
  have nine : '9'.val.toNat = 57 := rfl
  omega

/-- An operation id of the Worker is one of the container. -/
theorem operationId_within {id : String}
    (valid : isValidNativeReceiveOperationId id = true) :
    id ≠ "" ∧ id.utf8ByteSize ≤ 200 := by
  unfold isValidNativeReceiveOperationId at valid
  simp only [Bool.and_eq_true, decide_eq_true_eq, List.all_eq_true,
    Bool.or_eq_true, beq_iff_eq] at valid
  rcases valid with ⟨⟨filled, short⟩, all⟩
  have size : id.utf8ByteSize = id.toList.length := by
    rw [← size_utf8Encode_ascii, String.utf8Encode_toList]
    · rfl
    · intro char member
      rcases all char member with (alphanumeric | same) | same
      · exact ascii_of_isAlphanum alphanumeric
      · rw [same]
        decide
      · rw [same]
        decide
  constructor
  · rintro rfl
    exact absurd filled (by decide)
  · omega

/-- What planning lets through keeps to the limits of the container, as soon as
no part is empty. -/
theorem withinLimits_of_plan {packBytes : Int}
    (planned : checkPlan request.inputRequestBytes packBytes request.packOffset
      prerequisite manifest = .ok ())
    (bounded : (encodeText (stockHostRequest request)).length ≤
      stockBundleHeaderBytes)
    (valid : isValidNativeReceiveOperationId request.operationId = true)
    (offset : 0 < request.packOffset) (pack : 0 < packBytes)
    (prerequisiteBytes : request.prerequisitePackBytes = prerequisite.length)
    (manifestBytes : request.closureManifestBytes = manifest.length)
    (prerequisiteFilled : prerequisite ≠ []) (manifestFilled : manifest ≠ [])
    (commanded : request.commands ≠ []) : WithinLimits request := by
  unfold checkPlan at planned
  rcases bind_eq_ok.mp planned with ⟨_, bytes, planned⟩
  rcases bind_eq_ok.mp planned with ⟨_, _, planned⟩
  rcases bind_eq_ok.mp planned with ⟨_, _, planned⟩
  have inputs : maxInputPackBytes = maxStockRequestBytes := rfl
  have packs : maxInputPackBytes = maxStockMetadataBytes := rfl
  have manifests : maxManifestBytes ≤ maxStockMetadataBytes := by decide
  rcases assertSafeBytes_eq_ok bytes with ⟨_, requestMost⟩
  rcases counts_of_header bounded with ⟨refs, commands⟩
  have prerequisitePositive := List.length_pos_iff.mpr prerequisiteFilled
  have manifestPositive := List.length_pos_iff.mpr manifestFilled
  have commandsPositive := List.length_pos_iff.mpr commanded
  split at planned
  · cases planned
  next span =>
    split at planned
    · cases planned
    next prerequisiteMost =>
      split at planned
      · cases planned
      next manifestMost =>
        refine ⟨operationId_within valid, ?_, ?_, ?_, ?_, refs, ?_⟩
        all_goals omega

theorem requestBundle_eq_ok {input : Bytes} {contentLength : Nat}
    {writes : List Bytes}
    (sent : requestBundle header input prerequisite manifest =
      .ok (contentLength, writes)) :
    header.length ≤ stockBundleHeaderBytes ∧ contentLength ≤ maximumRequest ∧
      0 < contentLength ∧ contentLength = writes.flatten.length ∧
      writes = writeRequestBundle header [input, prerequisite, manifest] := by
  unfold requestBundle at sent
  dsimp only at sent
  split at sent
  · cases sent
  next within =>
    rcases not_or.mp within with ⟨headerMost, requestMost⟩
    cases sent
    have headers : bundleHeaderMaxBytes = stockBundleHeaderBytes := rfl
    have requests : bundleRequestMaxBytes = maximumRequest := rfl
    refine ⟨by omega, by omega, by omega, ?_, rfl⟩
    rw [length_writeRequestBundle]

end GitOnCloudflare.Receive.StockBundle
