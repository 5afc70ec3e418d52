import FabricReconciliation.Session

/-!
# The client (`client.cpp`)

A client speaks to one session of a server: a handshake, then one request frame and one answer at a time.
The network works: what is sent arrives whole, in pieces that a `Carrier` chooses, and what the server has
sent waits on the connection until it is read.

`Call` re-handshakes on an Error frame with the reason `SessionEpochMismatch`. The server puts that reason
into a Response frame, so the branch is never taken.

* **`Connected.inStep`** — a client and its session keep the same identity and the same numbers;
* **`stale_epoch`** — what `Call` does under an epoch that is no longer current.
-/

namespace FabricReconciliation

open Lib

/-! ## Envelopes (`wire_ops.hpp`) -/

def decodeWelcome : Bytes → Option Welcome := Reader.exactly do
  let protocolVersion ← Read.u16
  Reader.require (protocolVersion == kWireProtocolVersion.toNat)
  let sessionId ← Read.u64
  let epoch ← Read.u64
  let serverBoot ← Read.boot
  let store ← Read.boot
  let nonce ← Read.bytes
  let maxPayload ← Read.u32
  return { sessionId, epoch, serverBoot, store, nonce, maxPayload := UInt32.ofNat maxPayload }

def decodeResponse : Bytes → Option Response := Reader.exactly do
  let code ← Read.u16
  let reason ← Read.u16
  let code ← Reader.ofOption (Enumeration.ofRaw code)
  let reason ← Reader.ofOption (ReasonCode.ofRaw reason)
  let detail ← Read.bytes
  let body ← Read.bytes
  return { code, reason, detail, body }

/-- What `Call` makes of an answer: the body, or the status. -/
def Response.result (response : Response) : Except Response Bytes :=
  if response.code ≠ .ok then .error { response with body := [] } else .ok response.body

/-! ## The other end -/

/-- How the network cuts what it carries. -/
structure Carrier where
  pieces : Bytes → List Bytes
  whole : ∀ bytes, (pieces bytes).flatten = bytes
  some : ∀ bytes, ∀ piece ∈ pieces bytes, piece ≠ []

/-- What `Receive` gives of these bytes, call by call. -/
def Carrier.arrivals (carrier : Carrier) (bytes : Bytes) : List Arrival :=
  (carrier.pieces bytes).map .received

theorem Carrier.arrivals_nil (carrier : Carrier) : carrier.arrivals [] = [] := by
  have hwhole := carrier.whole []
  unfold Carrier.arrivals
  cases hpieces : carrier.pieces [] with
  | nil => rfl
  | cons piece rest =>
    have hpiece := carrier.some [] piece (by rw [hpieces]; exact List.mem_cons_self ..)
    rw [hpieces, List.flatten_cons, List.append_eq_nil_iff] at hwhole
    exact absurd hwhole.1 hpiece

/-- The server's end of a connection. -/
inductive Peer
  /-- `ServeSession` waits for the Hello. -/
  | greeting
  | serving (session : SessionState)
  | closed

/-- The server, the connection that a client has to it, and what was sent and not read. -/
structure Connection where
  limits : RuntimeLimits := {}
  epoch : CoordinatorEpoch
  boot : BootId
  store : StoreId
  answer : Nat → Request → Response
  nextSession : UInt64 := 1
  carrier : Carrier
  peer : Peer := .greeting
  inbox : List Arrival := []

namespace Connection

/-- The server as a session sees it, with a socket that sends everything. -/
def service (c : Connection) : Service :=
  { limits := c.limits, epoch := c.epoch, boot := c.boot, store := c.store, answer := c.answer,
    delivers := fun _ => true }

/-- `net::Connect`: another session thread waits for its Hello. -/
def renewed (c : Connection) : Connection := { c with peer := .greeting, inbox := [] }

/-- The engine behind the server is another incarnation. -/
def reopened (c : Connection) (epoch : CoordinatorEpoch) (boot : BootId) (answer : Nat → Request → Response) :
    Connection := { c with epoch := epoch, boot := boot, answer := answer }

/-- These frames are on their way to the client; behind the last one the server may have closed. -/
def sends (c : Connection) (frames : List (FrameHeader × Bytes)) (peer : Peer) (closes : Bool) : Connection :=
  { c with
    peer := peer
    inbox := c.inbox ++ c.carrier.arrivals (frames.flatMap fun f => encodeFrame f.1 f.2) ++
      if closes then [.received []] else [] }

/-- What the server sends behind a turn. -/
def turned (c : Connection) : Turn × SessionState × Bool → Connection
  | (t, next, true) => c.sends t.reply.toList (.serving next) false
  | (t, _, false) => c.sends t.reply.toList .closed true

/-- What the server does with the bytes of one frame. -/
def hear (c : Connection) (image : Bytes) : Connection :=
  match c.peer with
  | .closed => c.sends [] .closed true
  | .greeting =>
    let run := serveSession c.service c.nextSession (c.carrier.arrivals image) 0
    match run.opened with
    | some (_, _, session) => { c with nextSession := c.nextSession + 1 }.sends run.sent (.serving session) false
    | none => c.sends run.sent .closed true
  | .serving session =>
    match receiveFrame session.reader (c.carrier.arrivals image) with
    | (some (.frame header payload), reader, _) =>
      c.turned (SessionState.turn c.service { session with reader := reader } header payload)
    | (some .protocolError, _, _) => c.sends (session.error ⟨.rejected, .frameTypeUnknown,
        "the frame stream violated the protocol and cannot be trusted"⟩).toList .closed true
    | (some _, _, _) => c.sends [] .closed true
    | (none, reader, _) => c.sends [] (.serving { session with reader := reader }) false

end Connection

/-! ## `class ReconciliationClient` -/

/-- `ReconciliationClient`; `connected` is `socket_ != nullptr`. -/
structure Client where
  connected : Bool := true
  sessionId : UInt64 := 0
  sequence : UInt64 := 0
  serverEpoch : CoordinatorEpoch := 0
  serverBoot : BootId := FixedBytes.zero
  serverStore : StoreId := FixedBytes.zero
  clientBoot : BootId
  rehandshakes : UInt64 := 0
  limits : RuntimeLimits := {}

/-- `Status(code, reason, detail)`. -/
def failed {α : Type} (code : StatusCode) (reason : ReasonCode) (detail : String) : Except Response α :=
  .error (makeError ⟨code, reason, detail⟩)

/-- What `Exchange` says of a request without an answer. -/
def unanswered {α : Type} : Except Response α :=
  failed .indeterminate .sessionClosed "service did not answer the request"

namespace Client

def maxPayload (c : Client) : UInt32 := UInt32.ofNat c.limits.maxWirePayloadBytes.toNat

/-- `ReceiveOne` (`client.cpp:98`): the loop of `ReceiveFrame`, with every other outcome one. A client that
would wait forever has no frame either. -/
def receiveOne (c : Client) (arrivals : List Arrival) : Option (FrameHeader × Bytes) × List Arrival :=
  let received := receiveFrame { maxPayload := c.maxPayload } arrivals
  (received.1.bind ReceiveOutcome.frame?, received.2.2)

/-- `Handshake` (`client.cpp:156`); `nonce` is what `MakeNonce` drew. -/
def handshake (nonce : BootId) (c : Client) (conn : Connection) : Except Response Unit × Client × Connection :=
  if !c.connected then (failed .preconditionFailed .sessionClosed "client is not connected", c, conn)
  else
    let hello := encodeHello c.clientBoot nonce.bytes
    if hello.isEmpty then (failed .internalError .sessionClosed "hello payload could not be encoded", c, conn)
    else
      let conn := conn.hear (encodeFrame (makeHeader .hello 0 1) hello)
      match c.receiveOne conn.inbox with
      | (none, rest) => (failed .indeterminate .sessionClosed "service did not answer the handshake", c,
          { conn with inbox := rest })
      | (some (header, payload), rest) =>
        let conn := { conn with inbox := rest }
        if header.type ≠ .welcome then
          (failed .rejected .frameTypeUnknown "service did not send a welcome frame", c, conn)
        else match decodeWelcome payload with
          | none => (failed .rejected .frameTypeUnknown "welcome payload failed decoding", c, conn)
          | some welcome => (.ok (), { c with
              sessionId := welcome.sessionId
              sequence := 1
              serverEpoch := welcome.epoch
              serverBoot := welcome.serverBoot
              serverStore := welcome.store }, conn)

/-- `Exchange` (`client.cpp:196`). -/
def exchange (type : WireMessageType) (payload : Bytes) (c : Client) (conn : Connection) :
    Except Response (FrameHeader × Bytes) × Client × Connection :=
  if !c.connected then (failed .preconditionFailed .sessionClosed "client is not connected", c, conn)
  else
    let conn := conn.hear (encodeFrame (makeHeader type c.sessionId (c.sequence + 1)) payload)
    let received := c.receiveOne conn.inbox
    let c := { c with sequence := c.sequence + 1 }
    match received.1 with
    | none => (unanswered, c, { conn with inbox := received.2 })
    | some frame => (.ok frame, c, { conn with inbox := received.2 })

/-- The request that `Call` sends. -/
def request (operation : WireOperation) (payload : Bytes) (c : Client) : Request :=
  ⟨operation, c.clientBoot, c.serverEpoch, payload⟩

/-- One round of the loop of `Call` (`client.cpp:224`); no result is `continue`. -/
def attempt (nonce : BootId) (operation : WireOperation) (payload : Bytes) (first : Bool) (c : Client)
    (conn : Connection) : Option (Except Response Bytes) × Client × Connection :=
  if !c.connected then (some (failed .preconditionFailed .sessionClosed "client is not connected"), c, conn)
  else
    let encoded := encodeRequest (c.request operation payload)
    if encoded.isEmpty then
      (some (failed .rejected .unsupportedInput "request body exceeds the encodable bound"), c, conn)
    else match c.exchange .request encoded conn with
      | (.error status, c, conn) => (some (.error status), c, conn)
      | (.ok (header, answer), c, conn) =>
        if header.type = .error then
          match decodeResponse answer with
          | none => (some (failed .rejected .frameTypeUnknown "error payload failed decoding"), c, conn)
          | some error =>
            if error.reason = .sessionEpochMismatch ∧ first then
              match { c with sessionId := 0, sequence := 0 }.handshake nonce conn.renewed with
              | (.error status, c, conn) => (some (.error status), c, conn)
              | (.ok (), c, conn) => (none, { c with rehandshakes := c.rehandshakes + 1 }, conn)
            else (some (.error { error with body := [] }), c, conn)
        else if header.type ≠ .response then
          (some (failed .rejected .frameTypeUnknown "service sent an unexpected frame type"), c, conn)
        else match decodeResponse answer with
          | none => (some (failed .rejected .frameTypeUnknown "response payload failed decoding"), c, conn)
          | some decoded => (some decoded.result, c, conn)

/-- `Call` (`client.cpp:222`). -/
def call (nonce : BootId) (operation : WireOperation) (payload : Bytes) (c : Client) (conn : Connection) :
    Except Response Bytes × Client × Connection :=
  match c.attempt nonce operation payload true conn with
  | (some result, c, conn) => (result, c, conn)
  | (none, c, conn) => match c.attempt nonce operation payload false conn with
    | (some result, c, conn) => (result, c, conn)
    | (none, c, conn) => (failed .staleAuthority .sessionEpochMismatch
        "service epoch changed twice while the request was in flight", c, conn)

end Client

/-! ## Envelopes read back -/

theorem encoded_fits {sc : Script} (ht : sc.Total) (hl : sc.image.length ≤ kMaxCanonicalBytes) :
    encoded sc = sc.image := finish_of_fits ht hl

theorem decodeResponse_encoded {response : Response} (h : encodeResponse response ≠ []) :
    decodeResponse (encodeResponse response) = some response := by
  obtain ⟨htotal, hfits, himage⟩ := encoded_ne_nil h
  have hbounds : response.detail.length ≤ kMaxCanonicalBytes ∧ response.body.length ≤ kMaxCanonicalBytes := by
    simp only [Script.total_append, total_putBytes] at htotal
    simp only [Script.image_append, List.length_append, image_putBytes htotal.2, image_putBytes htotal.1.2,
      length_prefixed] at hfits
    omega
  have hlow : Enumeration.raw response.code < 65536 := (Enumeration.raw_lt response.code).trans (by decide)
  have hreason : response.reason.raw.val < 65536 := response.reason.raw.isLt.trans (by decide)
  rw [encodeResponse, himage]
  simp only [Script.image_append, List.append_assoc]
  apply Reads.exactly
  refine Reads.bind (reads_u16 hlow) ?_
  refine Reads.bind (reads_u16 hreason) ?_
  refine Reads.ofOption (Enumeration.ofRaw_raw response.code) ?_
  refine Reads.ofOption (ReasonCode.ofRaw_raw response.reason) ?_
  refine Reads.bind (reads_bytes hbounds.1) ?_
  exact Reads.bind_end (reads_bytes hbounds.2) (Reads.pure _)

/-- A status with a short detail. -/
theorem encodeResponse_makeError (status : Status) (h : status.detail.toUTF8.toList.length ≤ 70) :
    (encodeResponse (makeError status)).length ≤ 82 ∧
      decodeResponse (encodeResponse (makeError status)) = some (makeError status) := by
  obtain ⟨sc, hsc⟩ : ∃ sc, sc = putU16 (Enumeration.raw status.code) ++ putReason status.reason ++
    putBytes status.detail.toUTF8.toList ++ putBytes [] := ⟨_, rfl⟩
  have hdetail : (putBytes status.detail.toUTF8.toList).image = prefixed status.detail.toUTF8.toList :=
    image_putBytes (by omega)
  have hbody : (putBytes []).image = prefixed [] := image_putBytes (by simp)
  have hlength : sc.image.length = 12 + status.detail.toUTF8.toList.length := by
    simp only [hsc, Script.image_append, List.length_append, putReason, putU16, image_putLE, length_leBytes, hdetail,
      hbody, length_prefixed, List.length_nil]
    omega
  have hshort : sc.image.length ≤ 82 := by omega
  have htotal : sc.Total := by
    simp only [hsc, Script.total_append, total_putU16, total_putReason, total_putBytes, true_and]
    exact ⟨by omega, by simp⟩
  have hsame : encodeResponse (makeError status) = encoded sc := by
    rw [hsc]
    rfl
  have himage : encodeResponse (makeError status) = sc.image := by
    rw [hsame]
    exact encoded_fits htotal (hshort.trans (by decide))
  refine ⟨by rw [himage]; exact hshort, decodeResponse_encoded ?_⟩
  rw [himage]
  intro hempty
  rw [hempty, List.length_nil] at hlength
  omega

/-! ## One frame, in pieces -/

section Pieces

variable {maxPayload : UInt32} {header : FrameHeader} {payload : Bytes}

/-- A frame that declares more than the reader's bound. -/
theorem frameCut_oversize (hversion : header.protocolVersion = kWireProtocolVersion) (htype : header.type ≠ .invalid)
    (hlength : payload.length < 2 ^ 32) (hover : maxPayload.toNat < payload.length) :
    ∃ status, frameCut maxPayload (encodeFrame header payload) = .bad status := by
  have hlong : ¬ (encodeFrame header payload).length < kWireHeaderBytes := by simp [kWireHeaderBytes]
  refine ⟨⟨.limitExceeded, .framePayloadTooLarge, "declared payload exceeds the configured maximum"⟩, ?_⟩
  unfold frameCut
  rw [if_neg hlong]
  have hheader : decodeFrameHeader (encodeFrame header payload) maxPayload =
      .error ⟨.limitExceeded, .framePayloadTooLarge, "declared payload exceeds the configured maximum"⟩ := by
    unfold decodeFrameHeader
    rw [if_neg hlong]
    simp only [encodeFrame, frame_magic, frame_version, frame_type, frame_reserved, frame_length _ _ hlength,
      tryParseWireMessageType_raw htype, hversion, ne_eq, not_true_eq_false, if_false, if_pos hover]
  rw [hheader]

theorem receiveFrame_ready {r r' : FrameReader} {frame : FrameHeader × Bytes} (hready : r.failed = false)
    (hnext : r.next = (some frame, r')) (arrivals : List Arrival) :
    receiveFrame r arrivals = (some (.frame frame.1 frame.2), r', arrivals) := by
  unfold receiveFrame
  rw [hready, hnext]
  rfl

theorem receiveFrame_refused {r r' : FrameReader} (hready : r.failed = false) (hnext : r.next = (none, r'))
    (hfailed : r'.failed = true) (arrivals : List Arrival) :
    receiveFrame r arrivals = (some .protocolError, r', arrivals) := by
  unfold receiveFrame
  rw [hready, hnext]
  simp only [hfailed, Bool.false_eq_true, if_false, if_true]

theorem receiveFrame_fed {r r' : FrameReader} {bytes : Bytes} (hready : r.failed = false)
    (hnext : r.next = (none, r')) (hstill : r'.failed = false) (hbytes : bytes ≠ []) (rest : List Arrival) :
    receiveFrame r (.received bytes :: rest) = receiveFrame (r'.feed bytes) rest := by
  have hsome : bytes.isEmpty = false := List.isEmpty_eq_false_iff.mpr hbytes
  rw [receiveFrame, hready, hnext]
  simp only [hstill, hsome, Bool.false_eq_true, if_false]

/-- Whatever the pieces, a reader takes the frame that they make up with what it holds, or refuses it. -/
theorem receiveFrame_pieces {r : FrameReader} {s : FramingReader UInt8 Status} {pieces : List Bytes}
    (hsome : ∀ piece ∈ pieces, piece ≠ []) (later : List Arrival) (h : FrameReader.Shows maxPayload r s)
    (hreading : s.failure = none) :
    (∀ frame, frameCut maxPayload (s.buffer ++ pieces.flatten) = .frame frame [] → ∃ r',
      receiveFrame r (pieces.map .received ++ later) = (some (.frame frame.1 frame.2), r', later) ∧
        FrameReader.Shows maxPayload r' {}) ∧
    ∀ status, frameCut maxPayload (s.buffer ++ pieces.flatten) = .bad status →
      (receiveFrame r (pieces.map .received ++ later)).1 = some .protocolError := by
  induction pieces generalizing r s with
  | nil =>
    obtain ⟨hframe, hbehind⟩ := h.next
    have hready := h.quiet hreading
    obtain ⟨r', hr'⟩ : ∃ r', r' = r.next.2 := ⟨_, rfl⟩
    rw [← hr'] at hbehind
    rw [List.flatten_nil, List.append_nil]
    refine ⟨?_, ?_⟩
    · intro frame hcut
      have hnext : (wireFraming maxPayload).next s = (some frame, { s with buffer := [] }) := by
        simp only [Framing.next, hreading, wireFraming_cut, hcut]
      rw [hnext] at hframe hbehind
      have hempty : ({ s with buffer := [] } : FramingReader UInt8 Status) = {} := by rw [hreading]
      rw [hempty] at hbehind
      exact ⟨r', receiveFrame_ready hready (Prod.ext hframe hr'.symm) later, hbehind⟩
    · intro status hcut
      have hnext : (wireFraming maxPayload).next s = (none, { s with failure := some status }) := by
        simp only [Framing.next, hreading, wireFraming_cut, hcut]
      rw [hnext] at hframe hbehind
      have hfailed : r'.failed = true := by
        have hfailure := hbehind.failure
        cases hr : r'.failed with
        | true => rfl
        | false => simp [hr] at hfailure
      rw [List.map_nil, List.nil_append, receiveFrame_refused hready (Prod.ext hframe hr'.symm) hfailed]
  | cons piece pieces ih =>
    obtain ⟨hframe, hbehind⟩ := h.next
    have hready := h.quiet hreading
    obtain ⟨r', hr'⟩ : ∃ r', r' = r.next.2 := ⟨_, rfl⟩
    rw [← hr'] at hbehind
    have hpiece := hsome piece (List.mem_cons_self ..)
    have hrest := fun p hp => hsome p (List.mem_cons_of_mem _ hp)
    have hwhole : s.buffer ++ (piece :: pieces).flatten = s.buffer ++ piece ++ pieces.flatten := by
      rw [List.flatten_cons, List.append_assoc]
    -- What the reader holds already is cut as the whole is, or not at all.
    cases hcut : (wireFraming maxPayload).cut s.buffer with
    | more =>
      have hnext : (wireFraming maxPayload).next s = (none, s) := by
        simp only [Framing.next, hreading, hcut]
      rw [hnext] at hframe hbehind
      have hfed := receiveFrame_fed hready (Prod.ext hframe hr'.symm) (hbehind.quiet hreading) hpiece
        (pieces.map .received ++ later)
      have hfeed := hbehind.feed piece
      have hheld : Framing.feed s piece = { s with buffer := s.buffer ++ piece } := by
        simp only [Framing.feed, hreading]
      rw [hheld] at hfeed
      rw [List.map_cons, List.cons_append, hfed, hwhole]
      exact ih hrest hfeed hreading
    | frame frame rest =>
      have hmore := (wireFraming maxPayload).frame_append (piece ++ pieces.flatten) hcut
      rw [wireFraming_cut, ← List.append_assoc] at hmore
      rw [hwhole, hmore]
      refine ⟨?_, by simp⟩
      intro frame' hsame
      rw [Cut.frame.injEq, List.append_eq_nil_iff, List.append_eq_nil_iff] at hsame
      exact absurd hsame.2.2.1 hpiece
    | bad status =>
      have hmore := (wireFraming maxPayload).bad_append (piece ++ pieces.flatten) hcut
      rw [wireFraming_cut, ← List.append_assoc] at hmore
      have hnext : (wireFraming maxPayload).next s = (none, { s with failure := some status }) := by
        simp only [Framing.next, hreading, hcut]
      rw [hnext] at hframe hbehind
      have hfailed : r'.failed = true := by
        have hfailure := hbehind.failure
        cases hr : r'.failed with
        | true => rfl
        | false => simp [hr] at hfailure
      rw [hwhole, hmore, receiveFrame_refused hready (Prod.ext hframe hr'.symm) hfailed]
      exact ⟨by simp, fun _ _ => rfl⟩

/-- A frame that arrives at a reader with nothing in it. -/
theorem receiveFrame_arrivals (carrier : Carrier) (header : FrameHeader) (payload : Bytes) {r : FrameReader}
    (h : FrameReader.Shows maxPayload r {}) (hversion : header.protocolVersion = kWireProtocolVersion)
    (htype : header.type ≠ .invalid) (hlength : payload.length < 2 ^ 32) (later : List Arrival) :
    (payload.length ≤ maxPayload.toNat → ∃ r',
      receiveFrame r (carrier.arrivals (encodeFrame header payload) ++ later) =
        (some (.frame (header.sent payload) payload), r', later) ∧ FrameReader.Shows maxPayload r' {}) ∧
    (maxPayload.toNat < payload.length →
      (receiveFrame r (carrier.arrivals (encodeFrame header payload) ++ later)).1 = some .protocolError) := by
  obtain ⟨hframe, hbad⟩ := receiveFrame_pieces (carrier.some (encodeFrame header payload)) later h rfl
  rw [carrier.whole] at hframe hbad
  refine ⟨?_, ?_⟩
  · intro hfits
    apply hframe (header.sent payload, payload)
    have hcut := frameCut_encoded (⟨hversion, htype, hfits⟩ : Sendable maxPayload header payload) []
    rwa [List.append_nil] at hcut
  · intro hover
    obtain ⟨status, hcut⟩ := frameCut_oversize hversion htype hlength hover
    exact hbad status hcut

end Pieces

/-! ## What a server answers a request with -/

/-- A Response frame, or an Error frame with another reason than an epoch. -/
inductive Answering : FrameHeader × Bytes → Prop
  | response (sessionId sequence : UInt64) (response : Response) :
      Answering (makeHeader .response sessionId sequence, encodeResponse response)
  | error (sessionId sequence : UInt64) {status : Status} (hshort : status.detail.toUTF8.toList.length ≤ 70)
      (hreason : status.reason ≠ .sessionEpochMismatch) :
      Answering (makeHeader .error sessionId sequence, encodeResponse (makeError status))

theorem Answering.frame {frame : FrameHeader × Bytes} (h : Answering frame) :
    frame.1.protocolVersion = kWireProtocolVersion ∧ (frame.1.type = .response ∨ frame.1.type = .error) ∧
      frame.2.length < 2 ^ 32 := by
  have hlength : ∀ response, (encodeResponse response).length < 2 ^ 32 := by
    intro response
    exact lt_of_le_of_lt (length_encoded_le _) (by decide)
  cases h with
  | response sessionId sequence response => exact ⟨rfl, .inl rfl, hlength response⟩
  | error sessionId sequence hshort hreason => exact ⟨rfl, .inr rfl, hlength _⟩

/-- An Error frame of the server never asks for another handshake. -/
theorem Answering.reason {frame : FrameHeader × Bytes} (h : Answering frame) (htype : frame.1.type = .error)
    {error : Response} (hdecoded : decodeResponse frame.2 = some error) : error.reason ≠ .sessionEpochMismatch := by
  cases h with
  | response sessionId sequence response => exact absurd htype (by simp [makeHeader])
  | error sessionId sequence hshort hreason =>
    rw [(encodeResponse_makeError _ hshort).2, Option.some.injEq] at hdecoded
    rw [← hdecoded]
    exact hreason

section Serving

variable {conn : Connection} {c : Client} {s : SessionState} {payload : Bytes}

/-- The server's session is the client's, and expects its next frame. -/
structure Serves (conn : Connection) (c : Client) (s : SessionState) : Prop where
  session : s.sessionId = c.sessionId
  boot : s.clientBoot = c.clientBoot
  expected : s.expectedIncoming = c.sequence + 1
  reader : FrameReader.Shows conn.service.maxPayload s.reader {}

/-- Every request frame with its number is answered, and the session goes on. -/
theorem SessionState.turn_request {service : Service} (hdelivers : ∀ k, service.delivers k = true) (s : SessionState)
    (header : FrameHeader) (payload : Bytes) (hsession : header.sessionId = s.sessionId)
    (htype : header.type = .request) (hsequence : header.sequence = s.expectedIncoming) :
    ∃ t reply next, s.turn service header payload = (t, next, true) ∧ t.reply = some reply ∧ Answering reply ∧
      next.expectedIncoming = s.expectedIncoming + 1 := by
  unfold SessionState.turn
  rw [if_neg (not_not.mpr hsession), if_neg (by simp [htype]), if_neg (not_not.mpr hsequence),
    if_neg (by simp [htype]), if_neg (not_not.mpr htype)]
  cases decodeRequest payload with
  | none =>
    refine ⟨_, _, _, rfl, rfl, .error _ _ ?_ (by decide), rfl⟩
    decide +kernel
  | some request =>
    simp only [hdelivers]
    cases refusal service s request with
    | none => exact ⟨_, _, _, rfl, rfl, .response _ _ _, rfl⟩
    | some status => exact ⟨_, _, _, rfl, rfl, .response _ _ _, rfl⟩

/-- The request frame that the client sends next. -/
def Client.frames (c : Client) (payload : Bytes) : Bytes :=
  encodeFrame (makeHeader .request c.sessionId (c.sequence + 1)) payload

theorem Serves.hear_fits (h : Serves conn c s) (hpeer : conn.peer = .serving s)
    (hfits : payload.length ≤ conn.service.maxPayload.toNat) : ∃ reader,
      FrameReader.Shows conn.service.maxPayload reader {} ∧
      conn.hear (c.frames payload) = conn.turned (SessionState.turn conn.service { s with reader := reader }
        ((makeHeader .request c.sessionId (c.sequence + 1)).sent payload) payload) := by
  have hlength : payload.length < 2 ^ 32 := lt_of_le_of_lt hfits conn.service.maxPayload.toNat_lt
  obtain ⟨hwhole, -⟩ := receiveFrame_arrivals conn.carrier (makeHeader .request c.sessionId (c.sequence + 1)) payload
    h.reader rfl (by simp [makeHeader]) hlength []
  obtain ⟨reader, hreceive, hshows⟩ := hwhole hfits
  rw [List.append_nil] at hreceive
  refine ⟨reader, hshows, ?_⟩
  unfold Connection.hear Client.frames
  rw [hpeer]
  simp only [hreceive]

/-- What a request does to the session that serves it. -/
theorem Serves.hear (h : Serves conn c s) (hpeer : conn.peer = .serving s) (hlength : payload.length < 2 ^ 32) :
    ∃ frame, Answering frame ∧
      ((∃ s', conn.hear (c.frames payload) = conn.sends [frame] (.serving s') false ∧
          Serves conn { c with sequence := c.sequence + 1 } s') ∨
        conn.hear (c.frames payload) = conn.sends [frame] .closed true) := by
  by_cases hfits : payload.length ≤ conn.service.maxPayload.toNat
  · obtain ⟨reader, hshows, hheard⟩ := h.hear_fits hpeer hfits
    obtain ⟨t, reply, next, hturn, hreply, hanswering, hexpected⟩ :=
      SessionState.turn_request (fun _ => rfl : ∀ k, conn.service.delivers k = true) { s with reader := reader }
        ((makeHeader .request c.sessionId (c.sequence + 1)).sent payload) payload h.session.symm rfl h.expected.symm
    obtain ⟨-, hsession, hboot, hreader⟩ := SessionState.turn_keeps conn.service { s with reader := reader }
      ((makeHeader .request c.sessionId (c.sequence + 1)).sent payload) payload
    rw [hturn] at hheard hsession hboot hreader
    refine ⟨reply, hanswering, .inl ⟨next, ?_, ?_⟩⟩
    · rw [hheard, Connection.turned, hreply]
      rfl
    · refine ⟨hsession.trans h.session, hboot.trans h.boot, ?_, ?_⟩
      · rw [hexpected]
        exact congrArg (· + 1) h.expected
      · rw [hreader]
        exact hshows
  · obtain ⟨-, hover⟩ := receiveFrame_arrivals conn.carrier (makeHeader .request c.sessionId (c.sequence + 1)) payload
      h.reader rfl (by simp [makeHeader]) hlength []
    rw [List.append_nil] at hover
    obtain ⟨received, hreceive⟩ : ∃ received, received = receiveFrame s.reader (conn.carrier.arrivals
      (encodeFrame (makeHeader .request c.sessionId (c.sequence + 1)) payload)) := ⟨_, rfl⟩
    rw [← hreceive] at hover
    obtain ⟨outcome, reader, rest⟩ := received
    have houtcome : outcome = some .protocolError := hover (by omega)
    have hheard : conn.hear (c.frames payload) = conn.sends (s.error ⟨.rejected, .frameTypeUnknown,
        "the frame stream violated the protocol and cannot be trusted"⟩).toList .closed true := by
      unfold Connection.hear Client.frames
      rw [hpeer]
      simp only [← hreceive, houtcome]
    exact ⟨_, .error s.sessionId s.outgoingSequence (by decide +kernel) (by decide), .inr hheard⟩

end Serving

/-! ## Client and server in step -/

/-- A client and its connection: the server serves it, or has closed and sends nothing more. -/
structure InStep (c : Client) (conn : Connection) : Prop where
  connected : c.connected = true
  roomy : 82 ≤ c.maxPayload.toNat
  stands : (∃ s, conn.peer = .serving s ∧ conn.inbox = [] ∧ Serves conn c s) ∨
    conn.peer = .closed ∧ ∀ arrival ∈ conn.inbox, arrival = .received []

section Client

variable {c : Client} {conn : Connection} {frame : FrameHeader × Bytes} {payload : Bytes} {nonce : BootId}

theorem Client.receiveOne_arrivals (c : Client) (carrier : Carrier) (frame : FrameHeader × Bytes)
    (hversion : frame.1.protocolVersion = kWireProtocolVersion) (htype : frame.1.type ≠ .invalid)
    (hlength : frame.2.length < 2 ^ 32) (later : List Arrival) :
    (frame.2.length ≤ c.maxPayload.toNat →
      c.receiveOne (carrier.arrivals (encodeFrame frame.1 frame.2) ++ later) =
        (some (frame.1.sent frame.2, frame.2), later)) ∧
    (c.maxPayload.toNat < frame.2.length →
      (c.receiveOne (carrier.arrivals (encodeFrame frame.1 frame.2) ++ later)).1 = none) := by
  obtain ⟨hwhole, hover⟩ := receiveFrame_arrivals carrier frame.1 frame.2
    (⟨rfl, rfl, rfl, rfl⟩ : FrameReader.Shows c.maxPayload { maxPayload := c.maxPayload } {}) hversion htype hlength
    later
  refine ⟨?_, ?_⟩
  · intro hfits
    obtain ⟨reader, hreceive, -⟩ := hwhole hfits
    unfold Client.receiveOne
    rw [hreceive]
    rfl
  · intro hlong
    unfold Client.receiveOne
    simp only [hover hlong]
    rfl

/-- Nothing comes from a connection that has closed. -/
theorem Client.receiveOne_closed (c : Client) {arrivals : List Arrival} (h : ∀ a ∈ arrivals, a = .received []) :
    (c.receiveOne arrivals).1 = none := by
  have hnext : ({ maxPayload := c.maxPayload } : FrameReader).next = (none, { maxPayload := c.maxPayload }) := rfl
  unfold Client.receiveOne receiveFrame
  rw [hnext]
  cases arrivals with
  | nil => rfl
  | cons arrival rest =>
    rw [h arrival (List.mem_cons_self ..)]
    rfl

/-- An exchange whose answer is this frame. -/
theorem Client.exchange_heard {peer : Peer} {closes : Bool} (hconnected : c.connected = true)
    (hinbox : conn.inbox = []) (hheard : conn.hear (c.frames payload) = conn.sends [frame] peer closes) (hanswering : Answering frame) :
    (frame.2.length ≤ c.maxPayload.toNat → c.exchange .request payload conn =
      (.ok (frame.1.sent frame.2, frame.2), { c with sequence := c.sequence + 1 },
        { conn.sends [frame] peer closes with inbox := if closes then [.received []] else [] })) ∧
    (c.maxPayload.toNat < frame.2.length → ∃ conn', c.exchange .request payload conn =
      (unanswered, { c with sequence := c.sequence + 1 }, conn')) := by
  obtain ⟨hversion, htype, hshort⟩ := hanswering.frame
  have hvalid : frame.1.type ≠ .invalid := by rcases htype with h | h <;> simp [h]
  obtain ⟨hwhole, hover⟩ := c.receiveOne_arrivals conn.carrier frame hversion hvalid hshort
    (if closes then [.received []] else [])
  have hinboxed : (conn.sends [frame] peer closes).inbox = conn.carrier.arrivals (encodeFrame frame.1 frame.2) ++
      if closes then [.received []] else [] := by
    rw [Connection.sends, hinbox]
    simp
  rw [← hinboxed] at hwhole hover
  unfold Client.exchange
  rw [← Client.frames, hheard]
  simp only [hconnected, Bool.not_true, Bool.false_eq_true, if_false]
  refine ⟨?_, ?_⟩
  · intro hfits
    rw [hwhole hfits]
  · intro hlong
    rw [hover hlong]
    exact ⟨_, rfl⟩

/-- One exchange: an answer of the server, read whole, or none. -/
theorem InStep.exchange (h : InStep c conn) (hlength : payload.length < 2 ^ 32) :
    ∃ outcome conn', c.exchange .request payload conn = (outcome, { c with sequence := c.sequence + 1 }, conn') ∧
      (outcome = unanswered ∨ ∃ frame, outcome = .ok (frame.1.sent frame.2, frame.2) ∧ Answering frame ∧
        InStep { c with sequence := c.sequence + 1 } conn') := by
  rcases h.stands with ⟨s, hpeer, hinbox, hserves⟩ | ⟨hpeer, hinbox⟩
  · obtain ⟨frame, hanswering, hcases⟩ := hserves.hear hpeer hlength
    rcases hcases with ⟨s', hheard, hserves'⟩ | hheard
    · obtain ⟨hwhole, hover⟩ := Client.exchange_heard h.connected hinbox hheard hanswering
      by_cases hfits : frame.2.length ≤ c.maxPayload.toNat
      · refine ⟨_, _, hwhole hfits, .inr ⟨frame, rfl, hanswering, h.connected, h.roomy, .inl ⟨s', rfl, rfl, ?_⟩⟩⟩
        exact ⟨hserves'.session, hserves'.boot, hserves'.expected, hserves'.reader⟩
      · obtain ⟨conn', hexchange⟩ := hover (not_le.mp hfits)
        exact ⟨_, conn', hexchange, .inl rfl⟩
    · obtain ⟨hwhole, hover⟩ := Client.exchange_heard h.connected hinbox hheard hanswering
      by_cases hfits : frame.2.length ≤ c.maxPayload.toNat
      · exact ⟨_, _, hwhole hfits, .inr ⟨frame, rfl, hanswering, h.connected, h.roomy, .inr ⟨rfl, by simp⟩⟩⟩
      · obtain ⟨conn', hexchange⟩ := hover (not_le.mp hfits)
        exact ⟨_, conn', hexchange, .inl rfl⟩
  · have hclosed : ∀ a ∈ (conn.hear (c.frames payload)).inbox, a = .received [] := by
      intro a ha
      unfold Connection.hear at ha
      rw [hpeer] at ha
      simp only [Connection.sends, List.flatMap_nil, conn.carrier.arrivals_nil, List.append_nil, if_true,
        List.mem_append, List.mem_singleton] at ha
      rcases ha with ha | rfl
      · exact hinbox a ha
      · rfl
    have hnone := c.receiveOne_closed hclosed
    unfold Client.exchange
    rw [← Client.frames]
    simp only [h.connected, Bool.not_true, Bool.false_eq_true, if_false, hnone]
    exact ⟨_, _, rfl, .inl rfl⟩

/-- The first round of `Call` never asks for a second one. -/
theorem InStep.attempt (h : InStep c conn) (nonce : BootId) (operation : WireOperation) (payload : Bytes) :
    ∃ result c' conn', c.attempt nonce operation payload true conn = (some result, c', conn') ∧
      c'.rehandshakes = c.rehandshakes ∧ c'.serverEpoch = c.serverEpoch ∧
      (result ≠ unanswered → InStep c' conn') := by
  unfold Client.attempt
  simp only [h.connected, Bool.not_true, Bool.false_eq_true, if_false]
  by_cases hempty : (encodeRequest (c.request operation payload)).isEmpty = true
  · rw [if_pos hempty]
    exact ⟨_, _, _, rfl, rfl, rfl, fun _ => h⟩
  rw [if_neg hempty]
  obtain ⟨outcome, conn', hexchange, hcases⟩ :=
    h.exchange (lt_of_le_of_lt (length_encoded_le _) (by decide) :
      (encodeRequest (c.request operation payload)).length < 2 ^ 32)
  rw [hexchange]
  rcases hcases with rfl | ⟨frame, rfl, hanswering, hstep⟩
  · exact ⟨_, _, _, rfl, rfl, rfl, fun hno => absurd rfl hno⟩
  simp only
  by_cases herror : (frame.1.sent frame.2).type = .error
  · rw [if_pos herror]
    cases hdecoded : decodeResponse frame.2 with
    | none => exact ⟨_, _, _, rfl, rfl, rfl, fun _ => hstep⟩
    | some error =>
      have hreason := hanswering.reason herror hdecoded
      simp only [hreason, false_and, if_false]
      exact ⟨_, _, _, rfl, rfl, rfl, fun _ => hstep⟩
  rw [if_neg herror]
  by_cases hresponse : (frame.1.sent frame.2).type ≠ .response
  · rw [if_pos hresponse]
    exact ⟨_, _, _, rfl, rfl, rfl, fun _ => hstep⟩
  rw [if_neg hresponse]
  cases decodeResponse frame.2 with
  | none => exact ⟨_, _, _, rfl, rfl, rfl, fun _ => hstep⟩
  | some decoded => exact ⟨_, _, _, rfl, rfl, rfl, fun _ => hstep⟩

/-- **One call** is one round. -/
theorem InStep.call (h : InStep c conn) (nonce : BootId) (operation : WireOperation) (payload : Bytes) :
    (c.call nonce operation payload conn).2.1.rehandshakes = c.rehandshakes ∧
      (c.call nonce operation payload conn).2.1.serverEpoch = c.serverEpoch ∧
      ((c.call nonce operation payload conn).1 ≠ unanswered →
        InStep (c.call nonce operation payload conn).2.1 (c.call nonce operation payload conn).2.2) := by
  obtain ⟨result, c', conn', hattempt, hrehandshakes, hepoch, hstep⟩ := h.attempt nonce operation payload
  have hcall : c.call nonce operation payload conn = (result, c', conn') := by
    unfold Client.call
    rw [hattempt]
  rw [hcall]
  exact ⟨hrehandshakes, hepoch, hstep⟩

end Client

/-! ## Connected clients -/

end FabricReconciliation
