import GitOnCloudflare.Core.PktLineFraming
import GitOnCloudflare.Fetch.Sideband

/-!
# Conclusive side-band responses

Every chunk of the response is a packet or the last flush, and the pack bytes
that were sent are a prefix of the pack, in every run.  A response that ends
without a fatal packet carries the whole pack unless the loop or the transform
has found the abort signal set while part of the pack was still to come.
-/

namespace GitOnCloudflare.Fetch

open GitOnCloudflare.Core (PktBytes pktLine flushPkt decodePktLines)
open Foundations.EventRun

/-! ## Slices -/

variable {band : Band} {payload pack : PktBytes} {state : StreamState}
  {event : StreamEvent}
  {rounds : Nat}

theorem sidebandSlices_band :
    ∀ packet ∈ sidebandSlices band rounds payload, packet.band = band := by
  induction rounds generalizing payload with
  | zero =>
    intro packet none
    cases none
  | succ rounds ih =>
    intro packet member
    rw [sidebandSlices] at member
    split at member
    · cases member
    · rcases List.mem_cons.mp member with rfl | member
      · rfl
      · exact ih packet member

theorem createSidebandPacketChunks_band :
    ∀ packet ∈ createSidebandPacketChunks band payload, packet.band = band := by
  intro packet member
  unfold createSidebandPacketChunks at member
  split at member
  · cases List.mem_singleton.mp member
    rfl
  · exact sidebandSlices_band packet member

theorem sidebandSlices_payload (enough : payload.length ≤ rounds) :
    (sidebandSlices band rounds payload).flatMap SidebandPacket.payload =
      payload := by
  induction rounds generalizing payload with
  | zero =>
    rw [List.eq_nil_of_length_eq_zero (Nat.le_zero.mp enough)]
    rfl
  | succ rounds ih =>
    rw [sidebandSlices]
    split
    · next empty =>
        rw [empty]
        rfl
    · next some_ =>
        have positive := List.length_pos_iff.mpr some_
        have limit : 0 < sidebandPayloadMaxBytes := by decide
        rw [List.flatMap_cons, ih, List.take_append_drop]
        rw [List.length_drop]
        omega

/-- The payloads of the packets are the payload. -/
theorem createSidebandPacketChunks_payload (band : Band) (payload : PktBytes) :
    (createSidebandPacketChunks band payload).flatMap SidebandPacket.payload =
      payload := by
  unfold createSidebandPacketChunks
  split
  · next empty =>
      rw [empty]
      rfl
  · exact sidebandSlices_payload le_rfl

/-- What the packets of band 1 carry. -/
def packPayload (packets : List SidebandPacket) : PktBytes :=
  packets.flatMap fun packet =>
    if packet.band = .pack then packet.payload else []

theorem packPayload_nil : packPayload [] = [] := rfl

theorem packPayload_append (first second : List SidebandPacket) :
    packPayload (first ++ second) = packPayload first ++ packPayload second :=
  List.flatMap_append

theorem packPayload_chunks (payload : PktBytes) :
    packPayload (createSidebandPacketChunks .pack payload) = payload := by
  conv_rhs => rw [← createSidebandPacketChunks_payload .pack payload]
  apply List.flatMap_congr
  intro packet member
  rw [if_pos (createSidebandPacketChunks_band packet member)]

theorem packPayload_other {packets : List SidebandPacket}
    (other : ∀ packet ∈ packets, packet.band ≠ .pack) :
    packPayload packets = [] := by
  apply List.flatMap_eq_nil_iff.mpr
  intro packet member
  exact if_neg (other packet member)

theorem packPayload_progress (messages : List PktBytes) :
    packPayload (messages.flatMap emitProgress) = [] := by
  apply packPayload_other
  intro packet member
  rcases List.mem_flatMap.mp member with ⟨message, _, member⟩
  rw [createSidebandPacketChunks_band packet member]
  decide

theorem packPayload_fatal (message : PktBytes) :
    packPayload (emitFatal message) = [] := by
  apply packPayload_other
  intro packet member
  rw [createSidebandPacketChunks_band packet member]
  decide

/-- A fatal message is at least one packet. -/
theorem emitFatal_ne_nil (message : PktBytes) : emitFatal message ≠ [] := by
  intro none
  have payload := createSidebandPacketChunks_payload .fatal
    (asciiBytes "fatal: " ++ message ++ [0x0a])
  rw [show createSidebandPacketChunks .fatal
    (asciiBytes "fatal: " ++ message ++ [0x0a]) = [] from none] at payload
  have size := congrArg List.length payload
  rw [List.length_append] at size
  simp at size

/-! ## The account of the pack -/

def ResponseChunk.packets : ResponseChunk → List SidebandPacket
  | .packet sent => [sent]
  | .flush => []

def sentPackets (out : List ResponseChunk) : List SidebandPacket :=
  out.flatMap ResponseChunk.packets

theorem sentPackets_append (first second : List ResponseChunk) :
    sentPackets (first ++ second) = sentPackets first ++ sentPackets second :=
  List.flatMap_append

theorem sentPackets_map (packets : List SidebandPacket) :
    sentPackets (packets.map .packet) = packets := by
  rw [sentPackets, List.flatMap_map]
  exact List.flatMap_singleton' packets

/-- What band 1 of the response has carried so far. -/
def sentPack (out : List ResponseChunk) : PktBytes :=
  packPayload (sentPackets out)

theorem sentPack_append (first second : List ResponseChunk) :
    sentPack (first ++ second) = sentPack first ++ sentPack second := by
  rw [sentPack, sentPackets_append, packPayload_append]
  rfl

theorem sentPack_packets (packets : List SidebandPacket) :
    sentPack (packets.map .packet) = packPayload packets := by
  rw [sentPack, sentPackets_map]

theorem sentPack_flush : sentPack [.flush] = [] := rfl

def Place.isOpen : Place → Bool
  | .closed => false
  | .cancelled => false
  | _ => true

/-- The packet between the reader and the controller. -/
def Place.held : Place → List SidebandPacket
  | .holding value => [value]
  | .sending value => [value]
  | _ => []

namespace StreamState

/-- What may still be sent, in order. -/
def left (state : StreamState) : PktBytes :=
  if state.place.isOpen then
    packPayload state.place.held ++ packPayload state.queue ++
      (if state.upstream = .failed then [] else state.source.flatten)
  else
    []

def account (state : StreamState) : PktBytes :=
  sentPack state.out ++ state.left

theorem sentPack_sendProgress (state : StreamState) :
    sentPack state.sendProgress.out = sentPack state.out := by
  rw [sendProgress, sentPack_append, sentPack_packets, packPayload_progress,
    List.append_nil]

theorem sentPack_complete (state : StreamState) :
    sentPack state.complete.out = sentPack state.out := by
  rw [complete, sentPack_append, sentPack_sendProgress, sentPack_flush,
    List.append_nil]

theorem sentPack_closeWithFatal (state : StreamState) (message : PktBytes) :
    sentPack (state.closeWithFatal message).out = sentPack state.out := by
  rw [closeWithFatal, sentPack_append, sentPack_append, sentPack_packets,
    packPayload_fatal, sentPack_flush, List.append_nil, List.append_nil]

/-- The next state sends packets, and the flush when it closes the
response. -/
structure Extends (state next : StreamState) (packets : List SidebandPacket) :
    Prop where
  out : next.out = state.out ++ packets.map .packet ++
    (if next.place = .closed ∧ state.place ≠ .closed then [.flush] else [])
  closed : state.place = .closed → next.place = .closed ∧ packets = []

/-- What a step does to the response and to the pack that is left. -/
structure Effect (state next : StreamState) : Prop where
  shape : ∃ packets, Extends state next packets
  shorter : next.account <+: state.account
  kept : next.upstream ≠ .failed → next.place.isOpen = true →
    next.account = state.account ∧ state.upstream ≠ .failed ∧
      state.place.isOpen = true

theorem Effect.keeps {next : StreamState}
    (shape : ∃ packets, Extends state next packets)
    (account : next.account = state.account)
    (upstream : next.upstream ≠ .failed → state.upstream ≠ .failed)
    (open_ : next.place.isOpen = true → state.place.isOpen = true) :
    Effect state next where
  shape := shape
  shorter := account ▸ List.prefix_rfl
  kept notFailed isOpen := ⟨account, upstream notFailed, open_ isOpen⟩

theorem Effect.closes {next : StreamState}
    (shape : ∃ packets, Extends state next packets)
    (sent : sentPack next.out = sentPack state.out)
    (closed : next.place.isOpen = false) : Effect state next where
  shape := shape
  shorter := by
    rw [account, account, sent, left, closed, if_neg (by decide), List.append_nil]
    exact List.prefix_append _ _
  kept notFailed isOpen := by
    rw [closed] at isOpen
    cases isOpen

/-- A step that sends nothing and leaves the response as it is. -/
theorem extends_quiet {next : StreamState} (out : next.out = state.out)
    (place : next.place = .closed ↔ state.place = .closed) :
    ∃ packets, Extends state next packets := by
  refine ⟨[], ?_, fun closed => ⟨place.mpr closed, rfl⟩⟩
  rw [out, if_neg (fun both => both.2 (place.mp both.1))]
  simp

/-- A step that sends packets and goes on. -/
theorem extends_packets {state next : StreamState} {packets : List SidebandPacket}
    (out : next.out = state.out ++ packets.map .packet)
    (before : state.place ≠ .closed) (after : next.place ≠ .closed) :
    ∃ packets, Extends state next packets := by
  refine ⟨packets, ?_, fun closed => absurd closed before⟩
  rw [out, if_neg (fun both => after both.1), List.append_nil]

theorem extends_fatal (before : state.place ≠ .closed) (message : PktBytes) :
    ∃ packets, Extends state (state.closeWithFatal message) packets := by
  refine ⟨emitFatal message, ?_, fun closed => absurd closed before⟩
  rw [if_pos ⟨rfl, before⟩]
  rfl

theorem extends_complete (before : state.place ≠ .closed) :
    ∃ packets, Extends state state.complete packets := by
  refine ⟨state.progressMessages.flatMap emitProgress, ?_, fun closed => absurd closed before⟩
  rw [if_pos ⟨rfl, before⟩]
  rfl

theorem effect_fatal (before : state.place ≠ .closed) (message : PktBytes) :
    Effect state (state.closeWithFatal message) :=
  .closes (extends_fatal before message) (sentPack_closeWithFatal state message)
    rfl

theorem effect_complete (before : state.place ≠ .closed) :
    Effect state state.complete :=
  .closes (extends_complete before) (sentPack_complete state) rfl

/-- A step that only moves the loop on. -/
theorem effect_moves {place : Place} (before : state.place.isOpen = true)
    (after : place.isOpen = true) (held : place.held = state.place.held) :
    Effect state { state with place } := by
  refine .keeps (extends_quiet rfl ?_) ?_ id fun _ => before
  · constructor
    · intro same
      rw [show place = .closed from same] at after
      cases after
    · intro same
      rw [same] at before
      cases before
  · simp only [account, left, before, after, held]

/-- A step that sends the pending progress and may move on. -/
theorem effect_sendProgress {state : StreamState} {place : Place}
    (before : state.place.isOpen = true) (after : place.isOpen = true)
    (held : place.held = state.place.held) :
    Effect state { state.sendProgress with place } := by
  refine .keeps (extends_packets rfl ?_ ?_) ?_ id fun _ => before
  · intro same
    rw [same] at before
    cases before
  · intro same
    rw [show place = .closed from same] at after
    cases after
  · have sent := sentPack_sendProgress state
    simp only [account, left, before, after, held]
    rw [show StreamState.out _ = state.sendProgress.out from rfl, sent]
    rfl

theorem effect_of_step {next : StreamState}
    (stepped : streamStep state event = some next) : Effect state next := by
  cases event with
  | push message =>
    cases stepped
    exact .keeps (extends_quiet rfl Iff.rfl) rfl id id
  | abort =>
    cases stepped
    exact .keeps (extends_quiet rfl Iff.rfl) rfl id id
  | heartbeatFailure =>
    cases stepped
    exact .keeps (extends_quiet rfl Iff.rfl) rfl id id
  | cancel =>
    simp only [streamStep] at stepped
    split at stepped
    · cases stepped
    · next notClosed =>
        cases stepped
        refine .closes (extends_quiet rfl ?_) rfl rfl
        constructor
        · intro same
          cases same
        · intro same
          exact absurd same notClosed
  | transform =>
    simp only [streamStep] at stepped
    split at stepped
    · cases stepped
    · next chunk source has =>
        split at stepped
        · next flows =>
            cases stepped
            refine .keeps (extends_quiet rfl Iff.rfl) ?_ id id
            simp only [account, left, has, flows.2.1, packPayload_append,
              packPayload_chunks, List.flatten_cons]
            simp
        · cases stepped
  | terminate =>
    simp only [streamStep] at stepped
    split at stepped
    · next ends =>
        cases stepped
        refine .keeps (extends_quiet rfl Iff.rfl) ?_ ?_ id
        · simp only [account, left, ends.2.1]
          rfl
        · intro _
          rw [ends.2.1]
          decide
    · cases stepped
  | finish =>
    simp only [streamStep] at stepped
    split at stepped
    · next ends =>
        cases stepped
        refine .keeps (extends_quiet rfl Iff.rfl) ?_ ?_ id
        · simp only [account, left, ends.2.1]
          rfl
        · intro _
          rw [ends.2.1]
          decide
    · cases stepped
  | sourceFailure =>
    simp only [streamStep] at stepped
    split at stepped
    · cases stepped
      refine ⟨extends_quiet rfl Iff.rfl, ?_, fun notFailed => absurd rfl notFailed⟩
      simp only [account, left]
      split
      · apply (List.prefix_append_right_inj _).mpr
        rw [if_true, packPayload_nil, List.append_nil, List.append_nil,
          List.append_assoc]
        exact List.prefix_append _ _
      · exact List.prefix_rfl
    · cases stepped
  | resolved =>
    simp only [streamStep] at stepped
    split at stepped
    · next at' =>
        cases stepped
        exact effect_moves (by rw [at'.1]; rfl) rfl (by rw [at'.1]; rfl)
    · cases stepped
  | unresolved message =>
    simp only [streamStep] at stepped
    split at stepped
    · next at' =>
        cases stepped
        exact effect_fatal (by rw [at']; decide) message
    · cases stepped
  | begin =>
    simp only [streamStep] at stepped
    split at stepped
    · next at' =>
        cases stepped
        exact effect_sendProgress (by rw [at']; rfl) rfl (by rw [at']; rfl)
    · cases stepped
  | breakOff =>
    simp only [streamStep] at stepped
    split at stepped
    · next at' =>
        cases stepped
        exact effect_complete (by rw [at'.1]; decide)
    · cases stepped
  | read =>
    simp only [streamStep] at stepped
    split at stepped
    · next at' =>
        cases stepped
        exact effect_moves (by rw [at'.1]; rfl) rfl (by rw [at'.1]; rfl)
    · cases stepped
  | take =>
    simp only [streamStep] at stepped
    split at stepped
    · cases stepped
    · next value queue has =>
        split at stepped
        · next at' =>
            cases stepped
            refine .keeps (extends_quiet rfl ?_) ?_ id ?_
            · rw [at']
              constructor <;> intro same <;> cases same
            · simp only [account, left, at', has]
              simp [Place.isOpen, Place.held, packPayload]
            · intro _
              rw [at']
              rfl
        · cases stepped
  | done =>
    simp only [streamStep] at stepped
    split at stepped
    · next at' =>
        cases stepped
        exact effect_complete (by rw [at'.1]; decide)
    · cases stepped
  | readFailure message =>
    simp only [streamStep] at stepped
    split at stepped
    · next at' =>
        cases stepped
        exact effect_fatal (by rw [at'.1]; decide) message
    · cases stepped
  | onChunk =>
    simp only [streamStep] at stepped
    split at stepped
    · next value at' =>
        split at stepped
        · cases stepped
          exact effect_moves (by rw [at']; rfl) rfl (by rw [at']; rfl)
        · cases stepped
    · cases stepped
  | leaseFailure message =>
    simp only [streamStep] at stepped
    split at stepped
    · next value at' =>
        split at stepped
        · cases stepped
          exact effect_fatal (by rw [at']; intro same; cases same) message
        · cases stepped
    · cases stepped
  | sendPending =>
    simp only [streamStep] at stepped
    split at stepped
    · next value at' =>
        cases stepped
        have moved := @effect_sendProgress state state.place (by rw [at']; rfl)
          (by rw [at']; rfl) rfl
        exact moved
    · cases stepped
  | capacityFailure message =>
    simp only [streamStep] at stepped
    split at stepped
    · next value at' =>
        split at stepped
        · cases stepped
          exact effect_fatal (by rw [at']; intro same; cases same) message
        · cases stepped
    · cases stepped
  | enqueue =>
    simp only [streamStep] at stepped
    split at stepped
    · next value at' =>
        cases stepped
        refine .keeps (@extends_packets _ _ [value] rfl ?_ ?_) ?_ id ?_
        · rw [at']
          intro same
          cases same
        · intro same
          cases same
        · simp only [account, left, at', sentPack_append]
          simp [Place.isOpen, Place.held, sentPack, sentPackets,
            ResponseChunk.packets, packPayload]
        · intro _
          rw [at']
          rfl
    · cases stepped

/-! ## Invariants of all runs -/

/-- Packets, and the flush of a response that is closed. -/
def Shaped (state : StreamState) : Prop :=
  ∃ packets : List SidebandPacket, state.out =
    packets.map .packet ++ (if state.place = .closed then [.flush] else [])

theorem Shaped.extends {next : StreamState} {packets : List SidebandPacket}
    (grows : Extends state next packets) (shaped : Shaped state) :
    Shaped next := by
  rcases shaped with ⟨before, out⟩
  rcases Decidable.em (state.place = .closed) with closed | open_
  · rcases grows.closed closed with ⟨closed', rfl⟩
    refine ⟨before, ?_⟩
    rw [grows.out, out, if_pos closed, if_pos closed',
      if_neg fun both => both.2 closed]
    simp
  · refine ⟨before ++ packets, ?_⟩
    rw [grows.out, out, if_neg open_, List.append_nil, List.map_append]
    congr 1
    rcases Decidable.em (next.place = .closed) with closed' | open'
    · rw [if_pos closed', if_pos ⟨closed', open_⟩]
    · rw [if_neg open', if_neg fun both => open' both.1]

/-- The pack is never sent out of order or twice; while the response goes on
and the pack has not failed, nothing of it is lost. -/
structure Accounted (pack : PktBytes) (state : StreamState) : Prop where
  shaped : Shaped state
  within : state.account <+: pack
  whole : state.upstream ≠ .failed → state.place.isOpen = true →
    state.account = pack

theorem Accounted.next {pack : PktBytes} {state next : StreamState}
    {event : StreamEvent} (stepped : streamStep state event = some next)
    (accounted : Accounted pack state) : Accounted pack next where
  shaped := by
    rcases (effect_of_step stepped).shape with ⟨packets, grows⟩
    exact accounted.shaped.extends grows
  within := (effect_of_step stepped).shorter.trans accounted.within
  whole notFailed isOpen := by
    rcases (effect_of_step stepped).kept notFailed isOpen with
      ⟨same, notFailed, isOpen⟩
    exact same.trans (accounted.whole notFailed isOpen)

theorem accounted_start (chunks : List PktBytes) :
    Accounted chunks.flatten (start chunks) := by
  have sent : (start chunks).account = chunks.flatten := by
    rw [account, start, sentPack_packets, emitProgress]
    rw [packPayload_other]
    · rfl
    · intro packet member
      rw [createSidebandPacketChunks_band packet member]
      decide
  exact ⟨⟨_, (List.append_nil _).symm⟩, sent ▸ List.prefix_rfl, fun _ _ => sent⟩

theorem Accounted.sent_prefix (accounted : Accounted pack state) :
    sentPack state.out <+: pack :=
  (List.prefix_append _ _).trans accounted.within

/-- Once the pack has come to its end and the queue is empty, all of it has
been sent. -/
theorem Accounted.sent_all (accounted : Accounted pack state)
    (notFailed : state.upstream ≠ .failed) (reading : state.place = .reading)
    (queue : state.queue = []) (source : state.source.flatten = []) :
    sentPack state.out = pack := by
  have whole := accounted.whole notFailed (by rw [reading]; rfl)
  simpa [account, left, reading, queue, source, Place.held, packPayload] using
    whole

end StreamState

/-! ## Framing -/

theorem SidebandPacket.fits_line (packet : SidebandPacket) :
    (packet.band.byte :: packet.payload).length ≤ 65516 :=
  Nat.succ_le_succ packet.fits

/-- The packet a reader takes a chunk of the response for. -/
def ResponseChunk.line : ResponseChunk → Core.Packet
  | .packet sent => .line (sent.band.byte :: sent.payload) sent.fits_line
  | .flush => .flush

theorem ResponseChunk.bytes_eq_encode (chunk : ResponseChunk) :
    chunk.bytes = chunk.line.encode := by
  cases chunk <;> rfl

/-- A frame with its own length in front, of at most 65520 bytes, and one band
byte before the payload. -/
def SidebandPacket.Framed (packet : SidebandPacket) : Prop :=
  packet.bytes.length ≤ 65520 ∧
    Core.strictLength (packet.bytes.take 4) = some packet.bytes.length ∧
    packet.bytes.drop 4 = packet.band.byte :: packet.payload

theorem SidebandPacket.framed (packet : SidebandPacket) : packet.Framed := by
  have fits := packet.fits_line
  have small : (packet.band.byte :: packet.payload).length + 4 < 65536 := by omega
  have size := Core.length_toHex4 small
  rcases @Core.four_append _ (packet.band.byte :: packet.payload) size with
    ⟨_, front, behind⟩
  have length : packet.bytes.length =
      (packet.band.byte :: packet.payload).length + 4 := by
    rw [SidebandPacket.bytes, pktLine, List.length_append, size, Nat.add_comm]
  refine ⟨by omega, ?_, behind⟩
  rw [length, SidebandPacket.bytes, pktLine, front]
  exact Core.strictLength_toHex4 small

/-- What holds of a response at every moment. -/
structure WellFramed (pack : PktBytes) (out : List ResponseChunk) : Prop where
  framed : ∀ packet ∈ sentPackets out, packet.Framed
  decoded : decodePktLines (out.flatMap ResponseChunk.bytes) =
    out.map fun chunk => chunk.line.item
  last : ∀ front rest, out = front ++ .flush :: rest → rest = []
  payloads : sentPack out <+: pack

theorem flush_last {packets : List SidebandPacket} {ending : List ResponseChunk}
    (ends : ending = [] ∨ ending = [.flush]) {front rest : List ResponseChunk}
    (out : packets.map .packet ++ ending = front ++ .flush :: rest) :
    rest = [] := by
  induction packets generalizing front with
  | nil =>
    rcases ends with rfl | rfl
    · cases front <;> cases out
    · cases front with
      | nil =>
        cases out
        rfl
      | cons _ front => cases front <;> cases out
  | cons packet packets ih =>
    cases front with
    | nil => cases out
    | cons _ front => exact ih (List.cons.inj out).2

theorem StreamState.Accounted.wellFramed (accounted : state.Accounted pack) :
    WellFramed pack state.out where
  framed packet _ := packet.framed
  decoded := by
    have lines : state.out.flatMap ResponseChunk.bytes =
        (state.out.map ResponseChunk.line).flatMap Core.Packet.encode := by
      rw [List.flatMap_map]
      exact congrArg (List.flatMap · state.out)
        (funext ResponseChunk.bytes_eq_encode)
    rw [lines, decodePktLines, Core.run_encode, List.map_map]
    rfl
  last front rest split := by
    rcases accounted.shaped with ⟨packets, out⟩
    rw [out] at split
    apply flush_last _ split
    split
    · exact .inr rfl
    · exact .inl rfl
  payloads := accounted.sent_prefix

/-! ## Responses that are cut off -/

/-- A response that ends with a flush and no fatal packet. -/
def EndsPlain (out : List ResponseChunk) : Prop :=
  .flush ∈ out ∧ ∀ packet ∈ sentPackets out, packet.band ≠ .fatal

instance (out : List ResponseChunk) : Decidable (EndsPlain out) :=
  inferInstanceAs (Decidable (_ ∧ _))

/-- The loop breaks off before all of the pack has been relayed, or the
transform terminates with bytes of the pack still to come. -/
def CutsOff (pack : PktBytes) (state : StreamState) (event : StreamEvent) :
    Prop :=
  (event = .breakOff ∧ sentPack state.out ≠ pack) ∨
    (event = .terminate ∧ state.place.isOpen = true ∧
      state.source.flatten ≠ [])

namespace StreamState

/-- A fatal packet has been sent. -/
def Fatal (out : List ResponseChunk) : Prop :=
  ∃ packet ∈ sentPackets out, packet.band = .fatal

theorem fatal_closeWithFatal (state : StreamState) (message : PktBytes) :
    Fatal (state.closeWithFatal message).out := by
  rcases List.exists_mem_of_ne_nil _ (emitFatal_ne_nil message) with
    ⟨packet, member⟩
  refine ⟨packet, ?_, createSidebandPacketChunks_band packet member⟩
  rw [closeWithFatal, sentPackets_append, sentPackets_append, sentPackets_map]
  apply List.mem_append_left
  exact List.mem_append_right _ member

/-- How a step comes to a response that does not go on. -/
theorem ending_of_step {next : StreamState}
    (stepped : streamStep state event = some next)
    (after : next.place.isOpen = false) :
    (next.out = state.out ∧ (next.place = .closed → state.place = .closed)) ∨
      (∃ message, next = state.closeWithFatal message) ∨
      next = state.complete ∧ (event = .breakOff ∨
        state.place = .reading ∧ state.queue = [] ∧ state.upstream = .closed) := by
  cases event with
  | unresolved message =>
    simp only [streamStep] at stepped
    split at stepped
    · cases stepped
      exact .inr (.inl ⟨message, rfl⟩)
    · cases stepped
  | readFailure message =>
    simp only [streamStep] at stepped
    split at stepped
    · cases stepped
      exact .inr (.inl ⟨message, rfl⟩)
    · cases stepped
  | leaseFailure message =>
    simp only [streamStep] at stepped
    split at stepped
    · split at stepped
      · cases stepped
        exact .inr (.inl ⟨message, rfl⟩)
      · cases stepped
    · cases stepped
  | capacityFailure message =>
    simp only [streamStep] at stepped
    split at stepped
    · split at stepped
      · cases stepped
        exact .inr (.inl ⟨message, rfl⟩)
      · cases stepped
    · cases stepped
  | breakOff =>
    simp only [streamStep] at stepped
    split at stepped
    · cases stepped
      exact .inr (.inr ⟨rfl, .inl rfl⟩)
    · cases stepped
  | done =>
    simp only [streamStep] at stepped
    split at stepped
    · next ends =>
        cases stepped
        exact .inr (.inr ⟨rfl, .inr ends⟩)
    · cases stepped
  -- the others send nothing here, or go on
  | _ => grind [streamStep, sendProgress, Place.isOpen]

theorem sentPack_of_ending {next : StreamState}
    (stepped : streamStep state event = some next)
    (after : next.place.isOpen = false) :
    sentPack next.out = sentPack state.out := by
  rcases ending_of_step stepped after with
    ⟨out, _⟩ | ⟨message, rfl⟩ | ⟨rfl, _⟩
  · rw [out]
  · exact sentPack_closeWithFatal state message
  · exact sentPack_complete state

/-- How a step closes the stream the loop reads. -/
theorem upstream_of_step {next : StreamState}
    (stepped : streamStep state event = some next)
    (after : next.upstream = .closed) :
    next.source = state.source ∧
      (state.upstream = .closed ∨ event = .terminate ∨ state.source = []) := by
  cases event with
  | terminate =>
    simp only [streamStep] at stepped
    split at stepped
    · cases stepped
      exact ⟨rfl, .inr (.inl rfl)⟩
    · cases stepped
  | finish =>
    simp only [streamStep] at stepped
    split at stepped
    · next ends =>
        cases stepped
        exact ⟨rfl, .inr (.inr ends.2.2)⟩
    · cases stepped
  | _ => grind [streamStep, sendProgress, closeWithFatal, complete]

/-- A stream that is closed stays closed. -/
theorem upstream_stays {next : StreamState}
    (stepped : streamStep state event = some next)
    (before : state.upstream = .closed) : next.upstream = .closed := by
  cases event <;>
    grind [streamStep, sendProgress, closeWithFatal, complete]

/-- A response that has ended does not go on. -/
theorem isOpen_of_step {next : StreamState}
    (stepped : streamStep state event = some next)
    (isOpen : next.place.isOpen = true) : state.place.isOpen = true := by
  cases event <;>
    grind [streamStep, sendProgress, closeWithFatal, complete, Place.isOpen]

/-- The invariant of the runs that are not cut off. -/
structure Uncut (pack : PktBytes) (state : StreamState) : Prop where
  accounted : Accounted pack state
  ended : state.upstream = .closed → state.place.isOpen = true →
    state.source.flatten = []
  closed : state.place = .closed → Fatal state.out ∨ sentPack state.out = pack

theorem Uncut.next {pack : PktBytes} {state next : StreamState}
    {event : StreamEvent} (uncut : ¬ CutsOff pack state event)
    (stepped : streamStep state event = some next)
    (invariant : Uncut pack state) : Uncut pack next where
  accounted := invariant.accounted.next stepped
  ended after isOpen := by
    have goesOn := isOpen_of_step stepped isOpen
    rcases upstream_of_step stepped after with ⟨source, before | rfl | empty⟩
    · rw [source]
      exact invariant.ended before goesOn
    · rw [source]
      by_contra more
      exact uncut (.inr ⟨rfl, goesOn, more⟩)
    · rw [source, empty]
      rfl
  closed after := by
    have sent := sentPack_of_ending stepped (by rw [after]; rfl)
    rcases ending_of_step stepped (by rw [after]; rfl) with
      ⟨out, closed⟩ | ⟨message, rfl⟩ | ⟨_, rfl | ⟨reading, queue, upstream⟩⟩
    · rw [out]
      exact invariant.closed (closed after)
    · exact .inl (fatal_closeWithFatal state message)
    · right
      rw [sent]
      by_contra more
      exact uncut (.inl ⟨rfl, more⟩)
    · right
      rw [sent]
      apply invariant.accounted.sent_all _ reading queue
      · exact invariant.ended upstream (by rw [reading]; rfl)
      · rw [upstream]
        decide

theorem uncut_start (chunks : List PktBytes) :
    Uncut chunks.flatten (start chunks) where
  accounted := accounted_start chunks
  ended closed := by cases closed
  closed closed := by cases closed

theorem Uncut.sent_of_endsPlain (invariant : Uncut pack state)
    (plain : EndsPlain state.out) : sentPack state.out = pack := by
  rcases Decidable.em (state.place = .closed) with closed | open_
  · rcases invariant.closed closed with ⟨packet, member, fatal⟩ | whole
    · exact absurd fatal (plain.2 packet member)
    · exact whole
  · rcases invariant.accounted.shaped with ⟨packets, out⟩
    have flushed := plain.1
    rw [out, if_neg open_, List.append_nil] at flushed
    rcases List.mem_map.mp flushed with ⟨_, _, same⟩
    cases same

/-- The invariant of the runs that have been cut off. -/
structure Cut (pack : PktBytes) (state : StreamState) : Prop where
  accounted : Accounted pack state
  partly : sentPack state.out ≠ pack
  ended : state.place.isOpen = true →
    state.upstream = .closed ∧ state.source.flatten ≠ []

/-- With bytes of the pack left, not all of it has been sent. -/
theorem Accounted.sent_ne (accounted : Accounted pack state)
    (isOpen : state.place.isOpen = true) (notFailed : state.upstream ≠ .failed)
    (more : state.source.flatten ≠ []) : sentPack state.out ≠ pack := by
  intro all
  have whole := accounted.whole notFailed isOpen
  rw [account, all, left, if_pos isOpen, if_neg notFailed] at whole
  have none := List.append_right_eq_self.mp whole
  exact more (List.append_eq_nil_iff.mp none).2

theorem cut_of_cutsOff {next : StreamState}
    (cuts : ¬ ¬ CutsOff pack state event)
    (stepped : streamStep state event = some next)
    (accounted : Accounted pack state) : Cut pack next := by
  rcases not_not.mp cuts with ⟨rfl, partly⟩ | ⟨rfl, isOpen, more⟩
  · have closed : next.place.isOpen = false := by
      simp only [streamStep] at stepped
      split at stepped
      · cases stepped
        rfl
      · cases stepped
    refine ⟨accounted.next stepped, ?_, ?_⟩
    · rw [sentPack_of_ending stepped closed]
      exact partly
    · intro isOpen
      rw [closed] at isOpen
      cases isOpen
  · have opened : state.upstream = .opened ∧
        next = { state with upstream := .closed } := by
      simp only [streamStep] at stepped
      split at stepped
      · next ends =>
          cases stepped
          exact ⟨ends.2.1, rfl⟩
      · cases stepped
    refine ⟨accounted.next stepped, ?_, ?_⟩
    · rw [opened.2]
      exact accounted.sent_ne isOpen (by rw [opened.1]; decide) more
    · intro _
      rw [opened.2]
      exact ⟨rfl, more⟩

theorem Cut.next {pack : PktBytes} {state next : StreamState}
    {event : StreamEvent} (stepped : streamStep state event = some next)
    (cut : Cut pack state) : Cut pack next := by
  have accounted := cut.accounted.next stepped
  rcases Bool.eq_false_or_eq_true next.place.isOpen with isOpen | closed
  · -- the stream has been closed with bytes to come, and stays so
    rcases cut.ended (isOpen_of_step stepped isOpen) with ⟨before, more⟩
    have after := upstream_stays stepped before
    have source := (upstream_of_step stepped after).1
    rw [← source] at more
    exact ⟨accounted, accounted.sent_ne isOpen (by rw [after]; decide) more,
      fun _ => ⟨after, more⟩⟩
  · refine ⟨accounted, ?_, ?_⟩
    · rw [sentPack_of_ending stepped closed]
      exact cut.partly
    · intro isOpen
      rw [closed] at isOpen
      cases isOpen

end StreamState

/-- Every run keeps the response well framed; one that ends without a fatal
packet carries the whole pack exactly when no step of the run has cut it off. -/
theorem sideband_conclusive (chunks : List PktBytes) (events : List StreamEvent)
    (state : StreamState)
    (ran : run streamStep (.start chunks) events = some state) :
    WellFramed chunks.flatten state.out ∧
      (EndsPlain state.out →
        (sentPack state.out = chunks.flatten ↔
          Meets streamStep
            (fun before event => ¬ CutsOff chunks.flatten before event)
            (.start chunks) events)) := by
  have start := StreamState.accounted_start chunks
  constructor
  · exact (run_preserves StreamState.Accounted.next ran start).wellFramed
  · intro plain
    constructor
    · intro whole
      by_contra fails
      have cut : state.Cut chunks.flatten :=
        run_preserves_of_not_meets (fun stepped => StreamState.Accounted.next stepped)
          (fun cuts stepped => StreamState.cut_of_cutsOff cuts stepped)
          (fun stepped => StreamState.Cut.next stepped) fails ran start
      exact cut.partly whole
    · intro uncut
      exact (run_preserves_of_meets StreamState.Uncut.next uncut ran
        (StreamState.uncut_start chunks)).sent_of_endsPlain plain

/-- A pack that is read to its end. -/
def wholeRun : List StreamEvent :=
  [.resolved, .begin, .transform, .push [0x61], .read, .take, .onChunk,
    .transform, .finish, .sendPending, .enqueue, .read, .take, .onChunk,
    .enqueue, .read, .done]

theorem sideband_conclusive_whole :
    ∃ state, run streamStep (.start [[1, 2], [3]]) wholeRun = some state ∧
      WellFramed [1, 2, 3] state.out ∧
      Meets streamStep (fun before event => ¬ CutsOff [1, 2, 3] before event)
        (.start [[1, 2], [3]]) wholeRun := by
  have taken : (run streamStep (.start [[1, 2], [3]]) wholeRun).isSome = true := by
    decide +kernel
  rcases Option.isSome_iff_exists.mp taken with ⟨state, ran⟩
  have ends : ∀ state ∈ run streamStep (.start [[1, 2], [3]]) wholeRun,
      EndsPlain state.out ∧ sentPack state.out = [1, 2, 3] := by
    decide +kernel
  rcases ends state ran with ⟨plain, whole⟩
  rcases sideband_conclusive [[1, 2], [3]] wholeRun state ran with
    ⟨framed, exact_⟩
  exact ⟨state, ran, framed, (exact_ plain).mp whole⟩

/-- The heartbeat fails while the second packet is on its way. -/
def cutRun : List StreamEvent :=
  [.resolved, .begin, .transform, .read, .take, .onChunk, .sendPending,
    .enqueue, .transform, .heartbeatFailure, .breakOff]

theorem breakOff_cuts_pack :
    ∃ state ∈ run streamStep (.start [[1], [2]]) cutRun,
      EndsPlain state.out ∧ sentPack state.out ≠ [1, 2] := by
  have taken : (run streamStep (.start [[1], [2]]) cutRun).isSome = true := by
    decide +kernel
  rcases Option.isSome_iff_exists.mp taken with ⟨state, ran⟩
  have ends : ∀ state ∈ run streamStep (.start [[1], [2]]) cutRun,
      EndsPlain state.out ∧ sentPack state.out ≠ [1, 2] := by
    decide +kernel
  exact ⟨state, ran, ends state ran⟩

end GitOnCloudflare.Fetch
