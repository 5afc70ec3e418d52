import Mathlib.Data.List.Nodup
import FabricReconciliation.Canonical
import FabricReconciliation.Wire

/-!
# Sessions (`wire_ops.hpp`, `server.cpp:85-152`, `server.cpp:511-645`)

A connection opens with a Hello; after that the session takes one frame at a time until it is told to
stop. What the socket does is an input: the list of arrivals, which of the session's own frames can be
sent, and what the engine answers to a request that reaches it. A list of arrivals that runs out leaves
the session waiting.

* **`session_safety`** — what reaches the engine over one connection;
* **`session_numbers_repeat`** — the number a frame has to carry comes around after `2^64` frames.
-/

namespace FabricReconciliation

open Lib

/-- `WireOperation` (`wire.hpp:68`). -/
inductive WireOperation
  | invalid | activePolicy | putPolicy | commitIntent | recordObservation | classify | plan | dispatch | complete
  | verify | putFence | clearFence | knownScopes | attempts | outcomes | bootReport | compact
deriving DecidableEq

instance : Enumeration WireOperation where
  table := [.invalid, .activePolicy, .putPolicy, .commitIntent, .recordObservation, .classify, .plan, .dispatch,
    .complete, .verify, .putFence, .clearFence, .knownScopes, .attempts, .outcomes, .bootReport, .compact]
  complete a := by cases a <;> decide

/-- `TryParseWireOperation` (`wire.cpp:99`). -/
def tryParseWireOperation (raw : Nat) : Option WireOperation :=
  if raw < Enumeration.raw WireOperation.activePolicy || Enumeration.raw WireOperation.compact < raw then none
  else Enumeration.ofRaw raw

instance : Enumeration StatusCode where
  table := [.ok, .rejected, .conflictState, .notFound, .staleAuthority, .limitExceeded, .integrityFailure,
    .unsupported, .indeterminate, .preconditionFailed, .internalError]
  complete a := by cases a <;> decide

/-! ## Envelopes (`wire_ops.hpp`) -/

/-- `wireops::Welcome`. -/
structure Welcome where
  protocolVersion : UInt16 := kWireProtocolVersion
  sessionId : UInt64
  epoch : CoordinatorEpoch
  serverBoot : BootId
  store : StoreId
  nonce : Bytes
  maxPayload : UInt32
deriving DecidableEq

/-- `wireops::Request`. -/
structure Request where
  operation : WireOperation
  clientBoot : BootId
  epoch : CoordinatorEpoch
  body : Bytes
deriving DecidableEq

/-- `wireops::Response`. -/
structure Response where
  code : StatusCode := .ok
  reason : ReasonCode := .none
  detail : Bytes := []
  body : Bytes := []
deriving DecidableEq

def encodeHello (clientBoot : BootId) (nonce : Bytes) : Bytes :=
  encoded (putU16 kWireProtocolVersion.toNat ++ putBoot clientBoot ++ putBytes nonce)

def decodeHello : Bytes → Option (BootId × Bytes) := Reader.exactly do
  let version ← Read.u16
  Reader.require (version == kWireProtocolVersion.toNat)
  let clientBoot ← Read.boot
  let nonce ← Read.bytes
  return (clientBoot, nonce)

def encodeWelcome (welcome : Welcome) : Bytes :=
  encoded (putU16 welcome.protocolVersion.toNat ++ putU64 welcome.sessionId ++ putU64 welcome.epoch ++
    putBoot welcome.serverBoot ++ putBytes welcome.store.bytes ++ putBytes welcome.nonce ++
    putLE 4 welcome.maxPayload.toNat)

def encodeRequest (request : Request) : Bytes :=
  encoded (putU16 (Enumeration.raw request.operation) ++ putBoot request.clientBoot ++ putU64 request.epoch ++
    putBytes request.body)

def decodeRequest : Bytes → Option Request := Reader.exactly do
  let raw ← Read.u16
  let operation ← Reader.ofOption (tryParseWireOperation raw)
  let clientBoot ← Read.boot
  let epoch ← Read.u64
  let body ← Read.bytes
  return ⟨operation, clientBoot, epoch, body⟩

def encodeResponse (response : Response) : Bytes :=
  encoded (putU16 (Enumeration.raw response.code) ++ putReason response.reason ++ putBytes response.detail ++
    putBytes response.body)

/-- `MakeError` (`server.cpp:41`). -/
def makeError (status : Status) : Response :=
  { code := status.code, reason := status.reason, detail := status.detail.toUTF8.toList }

/-! ## Receiving (`server.cpp:102-139`) -/

/-- What a session thread meets when it waits for its peer. -/
inductive Arrival
  /-- `Receive` gave these bytes; none means that the peer has closed. -/
  | received (bytes : Bytes)
  /-- The wait ended and nothing was there. -/
  | idle
  /-- `Receive` failed. -/
  | failed
  /-- The wait itself failed: the session was released. -/
  | released
deriving DecidableEq

/-- `ReceiveOutcome`, with the frame. -/
inductive ReceiveOutcome
  | frame (header : FrameHeader) (payload : Bytes)
  | peerClosed
  | released
  | protocolError

/-- `ReceiveFrame` (`server.cpp:109`). No outcome: the session still waits. -/
def receiveFrame (reader : FrameReader) (arrivals : List Arrival) :
    Option ReceiveOutcome × FrameReader × List Arrival :=
  if reader.failed then (some .protocolError, reader, arrivals)
  else match reader.next with
    | (some (header, payload), reader) => (some (.frame header payload), reader, arrivals)
    | (none, reader) =>
      if reader.failed then (some .protocolError, reader, arrivals)
      else match arrivals with
        | [] => (none, reader, [])
        | .released :: rest => (some .released, reader, rest)
        | .idle :: rest => receiveFrame reader rest
        | .failed :: rest => (some .peerClosed, reader, rest)
        | .received bytes :: rest =>
          if bytes.isEmpty then (some .peerClosed, reader, rest) else receiveFrame (reader.feed bytes) rest

/-! ## Serving -/

/-- The engine and the socket as a session sees them. -/
structure Service where
  limits : RuntimeLimits := {}
  epoch : CoordinatorEpoch
  boot : BootId
  store : StoreId
  /-- The engine's answer to the session's request of this number. -/
  answer : Nat → Request → Response
  /-- The session's frame of this number can be sent. -/
  delivers : Nat → Bool

/-- `SessionState` and the locals of `ServeSession`; `sent` counts the frames of the session. -/
structure SessionState where
  reader : FrameReader
  sessionId : UInt64
  clientBoot : BootId
  requests : Nat := 0
  expectedIncoming : UInt64 := 2
  outgoingSequence : UInt64 := 1
  sent : Nat := 1

/-- `MakeHeader` (`server.cpp:84`). -/
def makeHeader (type : WireMessageType) (sessionId sequence : UInt64) : FrameHeader :=
  { type := type, sessionId := sessionId, sequence := sequence }

/-- The checks at the head of `Handle` (`server.cpp:142`). -/
def refusal (service : Service) (s : SessionState) (request : Request) : Option Status :=
  if request.clientBoot ≠ s.clientBoot then some ⟨.staleAuthority, .sessionBootMismatch,
    "request carries a boot identity this session did not establish"⟩
  else if request.epoch ≠ service.epoch then some ⟨.staleAuthority, .sessionEpochMismatch,
    "request carries an epoch that is no longer current"⟩
  else none

/-- What becomes of a frame. -/
inductive Reaction
  | foreign
  | goodbye
  | regressed
  | ping
  | unwanted
  | undecodable
  | refused (request : Request)
  | executed (request : Request)
deriving DecidableEq

/-- The reactions behind `++expected_incoming`. -/
def Reaction.consumes : Reaction → Bool
  | .foreign | .goodbye | .regressed => false
  | _ => true

/-- One turn of the loop: the frame, what became of it and the frame that answers it. -/
structure Turn where
  frame : FrameHeader × Bytes
  reaction : Reaction
  reply : Option (FrameHeader × Bytes)

/-- The request that reached the engine. -/
def Turn.call? (t : Turn) : Option Request :=
  match t.reaction with
  | .executed request => some request
  | _ => none

namespace SessionState

/-- The frame that the session sends next. -/
def outgoing (s : SessionState) (type : WireMessageType) (payload : Bytes) : Option (FrameHeader × Bytes) :=
  some (makeHeader type s.sessionId s.outgoingSequence, payload)

def error (s : SessionState) (status : Status) : Option (FrameHeader × Bytes) :=
  s.outgoing .error (encodeResponse (makeError status))

/-- `outgoing_sequence++`, behind a frame that was sent. -/
def replied (s : SessionState) : SessionState :=
  { s with outgoingSequence := s.outgoingSequence + 1, sent := s.sent + 1 }

def consumed (s : SessionState) : SessionState := { s with expectedIncoming := s.expectedIncoming + 1 }

/-- The loop's body on a frame (`server.cpp:582`): what became of the frame, the session behind it, and
whether the loop goes on. -/
def turn (service : Service) (s : SessionState) (header : FrameHeader) (payload : Bytes) :
    Turn × SessionState × Bool :=
  if header.sessionId ≠ s.sessionId then
    (⟨(header, payload), .foreign, s.error ⟨.staleAuthority, .sessionIdentityMismatch,
      "frame carries a session identity that is not this session's"⟩⟩, s.replied, true)
  else if header.type = .goodbye then (⟨(header, payload), .goodbye, none⟩, s, false)
  else if header.sequence ≠ s.expectedIncoming then
    (⟨(header, payload), .regressed, s.error ⟨.conflictState, .sessionSequenceRegression,
      "frame sequence is not contiguous"⟩⟩, s.replied, false)
  else if header.type = .ping then
    (⟨(header, payload), .ping, s.outgoing .pong []⟩, s.consumed.replied, service.delivers s.sent)
  else if header.type ≠ .request then
    (⟨(header, payload), .unwanted, s.error ⟨.rejected, .frameTypeUnknown,
      "only request frames are accepted after the handshake"⟩⟩, s.consumed.replied, true)
  else match decodeRequest payload with
    | none => (⟨(header, payload), .undecodable, s.error ⟨.rejected, .frameTypeUnknown,
        "request payload failed decoding"⟩⟩, s.consumed.replied, true)
    | some request =>
      let behind := { s.consumed.replied with requests := s.requests + 1 }
      match refusal service s request with
      | some status => (⟨(header, payload), .refused request,
          s.outgoing .response (encodeResponse (makeError status))⟩, behind, service.delivers s.sent)
      | none => (⟨(header, payload), .executed request,
          s.outgoing .response (encodeResponse (service.answer s.requests request))⟩, behind,
          service.delivers s.sent)

/-- The first turns of the loop (`server.cpp:571`), and the answer to a stream that cannot be framed. -/
def serve (service : Service) : Nat → SessionState → List Arrival → List Turn × Option (FrameHeader × Bytes)
  | 0, _, _ => ([], none)
  | turns + 1, s, arrivals =>
    match receiveFrame s.reader arrivals with
    | (some (.frame header payload), reader, rest) =>
      match turn service { s with reader := reader } header payload with
      | (t, next, true) => (t :: (serve service turns next rest).1, (serve service turns next rest).2)
      | (t, _, false) => ([t], none)
    | (some .protocolError, _, _) => ([], s.error ⟨.rejected, .frameTypeUnknown,
        "the frame stream violated the protocol and cannot be trusted"⟩)
    | _ => ([], none)

end SessionState

/-- What a session has done. -/
structure ServedSession where
  /-- The frame that established it, the Welcome that answered it, and the session behind them. -/
  opened : Option ((FrameHeader × Bytes) × Welcome × SessionState) := none
  turns : List Turn := []
  sent : List (FrameHeader × Bytes) := []

/-- The Welcome of a session. -/
def Service.welcome (service : Service) (sessionId : UInt64) (nonce : Bytes) : Welcome where
  sessionId := sessionId
  epoch := service.epoch
  serverBoot := service.boot
  store := service.store
  nonce := nonce
  maxPayload := UInt32.ofNat service.limits.maxWirePayloadBytes.toNat

/-- The bound of a session's reader, `static_cast<std::uint32_t>`. -/
def Service.maxPayload (service : Service) : UInt32 := UInt32.ofNat service.limits.maxWirePayloadBytes.toNat

/-- `ServeSession` (`server.cpp:511`) through its first `turns` turns; `sessionId` is what `next_session`
holds when the handshake reads it. -/
def serveSession (service : Service) (sessionId : UInt64) (arrivals : List Arrival) (turns : Nat) : ServedSession :=
  match receiveFrame { maxPayload := service.maxPayload } arrivals with
  | (some .protocolError, _, _) =>
    { sent := [(makeHeader .error 0 1, encodeResponse (makeError ⟨.rejected, .frameTypeUnknown,
        "the opening frame is not a decodable handshake frame"⟩))] }
  | (some (.frame header payload), reader, rest) =>
    if header.type ≠ .hello ∨ header.sequence ≠ 1 ∨ header.sessionId ≠ 0 then {}
    else match decodeHello payload with
      | none => {}
      | some (clientBoot, nonce) =>
        let welcome := service.welcome sessionId nonce
        let image := encodeWelcome welcome
        if image.isEmpty then {}
        else if !service.delivers 0 then { sent := [(makeHeader .welcome 0 1, image)] }
        else
          let session : SessionState := { reader := reader, sessionId := sessionId, clientBoot := clientBoot }
          let served := session.serve service turns rest
          { opened := some ((header, payload), welcome, session)
            turns := served.1
            sent := (makeHeader .welcome 0 1, image) :: (served.1.filterMap (·.reply) ++ served.2.toList) }
  | _ => {}

/-! ## What a turn does -/

section Turns

variable {service : Service} {s : SessionState}

/-- How a session that expects this number meets a frame: what becomes of it, the number it expects then,
and whether it goes on. -/
inductive Meets (service : Service) (sessionId : UInt64) (clientBoot : BootId) (expected : UInt64)
    (frame : FrameHeader × Bytes) : Reaction → UInt64 → Bool → Prop
  | foreign (hsession : frame.1.sessionId ≠ sessionId) :
      Meets service sessionId clientBoot expected frame .foreign expected true
  | goodbye (hsession : frame.1.sessionId = sessionId) (htype : frame.1.type = .goodbye) :
      Meets service sessionId clientBoot expected frame .goodbye expected false
  | regressed (hsession : frame.1.sessionId = sessionId) (htype : frame.1.type ≠ .goodbye)
      (hsequence : frame.1.sequence ≠ expected) :
      Meets service sessionId clientBoot expected frame .regressed expected false
  | taken {reaction : Reaction} {goesOn : Bool} (hsession : frame.1.sessionId = sessionId)
      (htype : frame.1.type ≠ .goodbye) (hsequence : frame.1.sequence = expected)
      (hconsumes : reaction.consumes = true)
      (hcall : ∀ request, reaction = .executed request → frame.1.type = .request ∧
        decodeRequest frame.2 = some request ∧ request.clientBoot = clientBoot ∧ request.epoch = service.epoch) :
      Meets service sessionId clientBoot expected frame reaction (expected + 1) goesOn

theorem refusal_eq_none {request : Request} :
    refusal service s request = none ↔ request.clientBoot = s.clientBoot ∧ request.epoch = service.epoch := by
  unfold refusal
  split_ifs with hboot hepoch
  · simp [hboot]
  · simp [hepoch]
  · exact ⟨fun _ => ⟨not_not.mp hboot, not_not.mp hepoch⟩, fun _ => rfl⟩

theorem SessionState.turn_meets (service : Service) (s : SessionState) (header : FrameHeader) (payload : Bytes) :
    Meets service s.sessionId s.clientBoot s.expectedIncoming (header, payload)
      (s.turn service header payload).1.reaction (s.turn service header payload).2.1.expectedIncoming
      (s.turn service header payload).2.2 := by
  unfold SessionState.turn
  split_ifs with hsession htype hsequence hping hrequest
  · exact .foreign hsession
  · exact .goodbye (not_not.mp hsession) htype
  · exact .regressed (not_not.mp hsession) htype hsequence
  · exact .taken (not_not.mp hsession) htype (not_not.mp hsequence) rfl (by simp)
  · exact .taken (not_not.mp hsession) htype (not_not.mp hsequence) rfl (by simp)
  · cases hdecode : decodeRequest payload with
    | none => exact .taken (not_not.mp hsession) htype (not_not.mp hsequence) rfl (by simp)
    | some request =>
      simp only
      cases hrefusal : refusal service s request with
      | some status => exact .taken (not_not.mp hsession) htype (not_not.mp hsequence) rfl (by simp)
      | none =>
        refine .taken (not_not.mp hsession) htype (not_not.mp hsequence) rfl ?_
        intro request' hsame
        rw [Reaction.executed.injEq] at hsame
        subst hsame
        exact ⟨not_not.mp hrequest, hdecode, refusal_eq_none.mp hrefusal⟩

/-- A turn is about its frame, and never changes who the session belongs to. -/
theorem SessionState.turn_keeps (service : Service) (s : SessionState) (header : FrameHeader) (payload : Bytes) :
    (s.turn service header payload).1.frame = (header, payload) ∧
    (s.turn service header payload).2.1.sessionId = s.sessionId ∧
    (s.turn service header payload).2.1.clientBoot = s.clientBoot ∧
    (s.turn service header payload).2.1.reader = s.reader := by
  unfold SessionState.turn
  split_ifs
  all_goals first | exact ⟨rfl, rfl, rfl, rfl⟩ | skip
  cases decodeRequest payload with
  | none => exact ⟨rfl, rfl, rfl, rfl⟩
  | some request =>
    simp only
    cases refusal service s request <;> exact ⟨rfl, rfl, rfl, rfl⟩

end Turns

/-! ## Where a session stands in the stream -/

/-- The bytes that arrive. -/
def streamOf : List Arrival → Bytes
  | [] => []
  | .received bytes :: rest => bytes ++ streamOf rest
  | _ :: rest => streamOf rest

/-- The frame of an outcome. -/
def ReceiveOutcome.frame? : ReceiveOutcome → Option (FrameHeader × Bytes)
  | .frame header payload => some (header, payload)
  | _ => none

/-- The reader stands in front of these bytes of the stream. -/
def FrameReader.At (maxPayload : UInt32) (r : FrameReader) (rest : Bytes) : Prop :=
  ∃ s, FrameReader.Shows maxPayload r s ∧ (wireFraming maxPayload).Stands rest s

section Receiving

variable {maxPayload : UInt32} {r : FrameReader} {rest : Bytes}

theorem FrameReader.At.feed (h : r.At maxPayload rest) (chunk : Bytes) : (r.feed chunk).At maxPayload (rest ++ chunk) := by
  obtain ⟨s, hshows, hstands⟩ := h
  exact ⟨_, hshows.feed chunk, hstands.feed chunk⟩

theorem FrameReader.At.next (h : r.At maxPayload rest) :
    ∃ rest', (wireFraming maxPayload).Holds rest r.next.1.toList rest' ∧ r.next.2.At maxPayload rest' := by
  obtain ⟨s, hshows, hstands⟩ := h
  obtain ⟨hframe, hnext⟩ := hshows.next
  obtain ⟨rest', hholds, hstands'⟩ := hstands.next
  rw [hframe]
  exact ⟨rest', hholds, _, hnext, hstands'⟩

theorem FrameReader.at_new (maxPayload : UInt32) : FrameReader.At maxPayload { maxPayload := maxPayload } [] :=
  ⟨{}, ⟨rfl, rfl, rfl, rfl⟩, .reading rfl rfl⟩

/-- A receive takes at most one frame from the stream. -/
theorem receiveFrame_holds (h : r.At maxPayload rest) (arrivals : List Arrival) :
    ∃ rest', (wireFraming maxPayload).Holds (rest ++ streamOf arrivals)
        ((receiveFrame r arrivals).1.bind ReceiveOutcome.frame?).toList
        (rest' ++ streamOf (receiveFrame r arrivals).2.2) ∧
      (receiveFrame r arrivals).2.1.At maxPayload rest' := by
  induction arrivals generalizing r rest with
  | nil =>
    obtain ⟨rest', hholds, hat⟩ := h.next
    unfold receiveFrame
    split
    · exact ⟨rest, .done _, h⟩
    split
    next header payload r' hnext =>
      rw [hnext] at hholds hat
      exact ⟨rest', hholds.append _, hat⟩
    next r' hnext =>
      rw [hnext] at hholds hat
      split
      all_goals exact ⟨rest', hholds.append _, hat⟩
  | cons arrival arrivals ih =>
    obtain ⟨rest', hholds, hat⟩ := h.next
    unfold receiveFrame
    split
    · exact ⟨rest, .done _, h⟩
    split
    next header payload r' hnext =>
      rw [hnext] at hholds hat
      exact ⟨rest', hholds.append _, hat⟩
    next r' hnext =>
      rw [hnext] at hholds hat
      have hhere : ∀ later, (wireFraming maxPayload).Holds (rest ++ later) [] (rest' ++ later) := hholds.append
      split
      · exact ⟨rest', hhere _, hat⟩
      cases arrival with
      | released => exact ⟨rest', hhere _, hat⟩
      | failed => exact ⟨rest', hhere _, hat⟩
      | idle =>
        obtain ⟨last, hlast, hatlast⟩ := ih hat
        exact ⟨last, (hhere _).trans hlast, hatlast⟩
      | received bytes =>
        simp only
        cases bytes with
        | nil => exact ⟨rest', hhere _, hat⟩
        | cons b bytes =>
          obtain ⟨last, hlast, hatlast⟩ := ih (hat.feed (b :: bytes))
          rw [List.append_assoc] at hlast
          exact ⟨last, (hhere _).trans hlast, hatlast⟩

end Receiving

/-! ## The course of a session -/

/-- The turns of a loop that starts with this number. -/
inductive Course (service : Service) (sessionId : UInt64) (clientBoot : BootId) : UInt64 → List Turn → Prop
  | done {expected : UInt64} : Course service sessionId clientBoot expected []
  | last {expected expected' : UInt64} {t : Turn}
      (hmeets : Meets service sessionId clientBoot expected t.frame t.reaction expected' false) :
      Course service sessionId clientBoot expected [t]
  | next {expected expected' : UInt64} {t : Turn} {turns : List Turn}
      (hmeets : Meets service sessionId clientBoot expected t.frame t.reaction expected' true)
      (hrest : Course service sessionId clientBoot expected' turns) :
      Course service sessionId clientBoot expected (t :: turns)

/-- The turns whose frame consumed a number. -/
def consumers (turns : List Turn) : List Turn := turns.filter fun t => t.reaction.consumes

section Course

variable {service : Service} {sessionId expected expected' : UInt64} {clientBoot : BootId} {t : Turn}
  {turns : List Turn} {goesOn : Bool}

theorem SessionState.serve_course (service : Service) (s : SessionState) (n : Nat) (arrivals : List Arrival) :
    Course service s.sessionId s.clientBoot s.expectedIncoming (s.serve service n arrivals).1 := by
  induction n generalizing s arrivals with
  | zero => exact .done
  | succ n ih =>
    unfold SessionState.serve
    split
    next header payload reader rest hreceive =>
      have hmeets := SessionState.turn_meets service { s with reader := reader } header payload
      obtain ⟨hframe, hsession, hboot, -⟩ :=
        SessionState.turn_keeps service { s with reader := reader } header payload
      rw [← hframe] at hmeets
      split
      next t next hturn =>
        rw [hturn] at hmeets hsession hboot
        have hrest := ih next rest
        rw [hsession, hboot] at hrest
        exact .next hmeets hrest
      next t next hturn =>
        rw [hturn] at hmeets
        exact .last hmeets
    · exact .done
    · exact .done

/-- The loop reads the stream frame by frame. -/
theorem SessionState.serve_holds (service : Service) {maxPayload : UInt32} (s : SessionState) {rest : Bytes}
    (h : s.reader.At maxPayload rest) (n : Nat) (arrivals : List Arrival) :
    ∃ last, (wireFraming maxPayload).Holds (rest ++ streamOf arrivals)
      ((s.serve service n arrivals).1.map Turn.frame) last := by
  induction n generalizing s rest arrivals with
  | zero => exact ⟨_, .done _⟩
  | succ n ih =>
    obtain ⟨rest', hholds, hat⟩ := receiveFrame_holds h arrivals
    unfold SessionState.serve
    split
    next header payload reader later hreceive =>
      rw [hreceive] at hholds hat
      obtain ⟨hframe, -, -, hreader⟩ :=
        SessionState.turn_keeps service { s with reader := reader } header payload
      split
      next t next hturn =>
        rw [hturn] at hframe hreader
        obtain ⟨last, hlast⟩ := ih next (by rw [hreader]; exact hat) later
        refine ⟨last, ?_⟩
        rw [List.map_cons, hframe]
        exact hholds.trans hlast
      next t next hturn =>
        rw [hturn] at hframe
        rw [List.map_singleton, hframe]
        exact ⟨_, hholds⟩
    · exact ⟨_, .done _⟩
    · exact ⟨_, .done _⟩

/-- A frame that is met consumes a number exactly when it carries it and is no farewell. -/
theorem Meets.consumes (h : Meets service sessionId clientBoot expected t.frame t.reaction expected' goesOn) :
    (t.reaction.consumes = true ∧ t.frame.1.sequence = expected ∧ expected' = expected + 1) ∨
      (t.reaction.consumes = false ∧ expected' = expected) := by
  generalize hreaction : t.reaction = reaction at h ⊢
  cases h with
  | foreign => exact .inr ⟨rfl, rfl⟩
  | goodbye => exact .inr ⟨rfl, rfl⟩
  | regressed => exact .inr ⟨rfl, rfl⟩
  | taken hsession htype hsequence hconsumes => exact .inl ⟨hconsumes, hsequence, rfl⟩

theorem Meets.executed (h : Meets service sessionId clientBoot expected t.frame t.reaction expected' goesOn)
    {request : Request} (hreaction : t.reaction = .executed request) :
    t.frame.1.type = .request ∧ t.frame.1.sessionId = sessionId ∧ decodeRequest t.frame.2 = some request ∧
      request.clientBoot = clientBoot ∧ request.epoch = service.epoch := by
  rw [hreaction] at h
  cases h with
  | taken hsession htype hsequence hconsumes hcall =>
    obtain ⟨htype, hrequest, hboot, hepoch⟩ := hcall request rfl
    exact ⟨htype, hsession, hrequest, hboot, hepoch⟩

/-- A session stops at its farewell and at an unexpected number. -/
theorem Meets.stops (h : Meets service sessionId clientBoot expected t.frame t.reaction expected' goesOn)
    (hsession : t.frame.1.sessionId = sessionId)
    (hend : t.frame.1.type = .goodbye ∨ t.frame.1.sequence ≠ expected) :
    goesOn = false ∧ t.call? = none := by
  unfold Turn.call?
  generalize hreaction : t.reaction = reaction at h ⊢
  cases h with
  | foreign hother => exact absurd hsession hother
  | goodbye => exact ⟨rfl, rfl⟩
  | regressed => exact ⟨rfl, rfl⟩
  | taken _ htype hsequence =>
    rcases hend with hgoodbye | hunexpected
    · exact absurd hgoodbye htype
    · exact absurd hsequence hunexpected

theorem Course.executed (h : Course service sessionId clientBoot expected turns) :
    ∀ t ∈ turns, ∀ request, t.reaction = .executed request →
      t.frame.1.type = .request ∧ t.frame.1.sessionId = sessionId ∧ decodeRequest t.frame.2 = some request ∧
        request.clientBoot = clientBoot ∧ request.epoch = service.epoch := by
  induction h with
  | done => simp
  | last hmeets =>
    intro t ht request hreaction
    rw [List.mem_singleton.mp ht] at hreaction ⊢
    exact hmeets.executed hreaction
  | next hmeets hrest ih =>
    intro t ht request hreaction
    rcases List.mem_cons.mp ht with rfl | ht
    · exact hmeets.executed hreaction
    · exact ih t ht request hreaction

theorem Turn.call?_eq_some {t : Turn} {request : Request} : t.call? = some request ↔ t.reaction = .executed request := by
  unfold Turn.call?
  cases t.reaction <;> simp

/-- The turns that call the engine. -/
def callers (turns : List Turn) : List Turn := turns.filter fun t => t.call?.isSome

/-- The engine is called with what the frames say. -/
theorem Course.calls (h : Course service sessionId clientBoot expected turns) :
    ((callers turns).map Turn.frame).map (fun f => decodeRequest f.2) =
      (turns.filterMap Turn.call?).map some := by
  have hexecuted := h.executed
  clear h
  induction turns with
  | nil => rfl
  | cons t turns ih =>
    have hrest := ih fun u hu => hexecuted u (List.mem_cons_of_mem _ hu)
    cases hcall : t.call? with
    | none =>
      rw [callers, List.filter_cons_of_neg (by simp [hcall]), List.filterMap_cons_none hcall]
      exact hrest
    | some request =>
      obtain ⟨-, -, hrequest, -⟩ :=
        hexecuted t (List.mem_cons_self ..) request (Turn.call?_eq_some.mp hcall)
      rw [callers, List.filter_cons_of_pos (by simp [hcall]), List.filterMap_cons_some hcall, List.map_cons,
        List.map_cons, List.map_cons, hrequest, ← hrest]
      rfl

theorem Course.callers (h : Course service sessionId clientBoot expected turns) :
    ∀ f ∈ (callers turns).map Turn.frame, f.1.type = .request ∧ f.1.sessionId = sessionId := by
  intro f hf
  obtain ⟨t, ht, rfl⟩ := List.mem_map.mp hf
  obtain ⟨hmem, hcall⟩ := List.mem_filter.mp ht
  obtain ⟨request, hrequest⟩ := Option.isSome_iff_exists.mp hcall
  obtain ⟨htype, hsession, -⟩ := h.executed t hmem request (Turn.call?_eq_some.mp hrequest)
  exact ⟨htype, hsession⟩

theorem consumers_cons_of {t : Turn} (turns : List Turn) (h : t.reaction.consumes = true) :
    consumers (t :: turns) = t :: consumers turns := List.filter_cons_of_pos h

theorem consumers_skip {t : Turn} (turns : List Turn) (h : t.reaction.consumes = false) :
    consumers (t :: turns) = consumers turns := List.filter_cons_of_neg (by simp [h])

theorem number_succ (e : UInt64) (k : Nat) : e + 1 + UInt64.ofNat k = e + UInt64.ofNat (k + 1) := by
  rw [UInt64.ofNat_add, UInt64.add_assoc, UInt64.add_comm 1]
  rfl

/-- The numbers that a session consumes come one after the other. -/
theorem Course.numbers (h : Course service sessionId clientBoot expected turns) (k : Nat) (t : Turn)
    (ht : (consumers turns)[k]? = some t) : t.frame.1.sequence = expected + UInt64.ofNat k := by
  have hfirst : ∀ {expected expected' : UInt64} {t' : Turn} {rest : List Turn} {goesOn : Bool},
      Meets service sessionId clientBoot expected t'.frame t'.reaction expected' goesOn →
      (∀ k, (consumers rest)[k]? = some t → t.frame.1.sequence = expected' + UInt64.ofNat k) →
      ∀ k, (consumers (t' :: rest))[k]? = some t → t.frame.1.sequence = expected + UInt64.ofNat k := by
    intro expected expected' t' rest goesOn hmeets hrest k hk
    rcases hmeets.consumes with ⟨hconsumes, hsequence, rfl⟩ | ⟨hskips, rfl⟩
    · rw [consumers_cons_of _ hconsumes] at hk
      cases k with
      | zero =>
        rw [List.getElem?_cons_zero, Option.some.injEq] at hk
        rw [← hk, hsequence]
        simp
      | succ k =>
        rw [List.getElem?_cons_succ] at hk
        rw [hrest k hk]
        exact number_succ expected k
    · rw [consumers_skip _ hskips] at hk
      exact hrest k hk
  induction h generalizing k with
  | done => simp [consumers] at ht
  | last hmeets => exact hfirst hmeets (by simp [consumers]) k ht
  | next hmeets hrest ih => exact hfirst hmeets (fun k hk => ih k hk) k ht

/-- Nothing follows a farewell or an unexpected number. -/
theorem Course.stops (h : Course service sessionId clientBoot expected turns) :
    ∀ before t after, turns = before ++ t :: after → t.frame.1.sessionId = sessionId →
      (t.frame.1.type = .goodbye ∨ t.frame.1.sequence ≠ expected + UInt64.ofNat (consumers before).length) →
      after = [] ∧ t.call? = none := by
  induction h with
  | done => simp
  | @last expected expected' u hmeets =>
    intro before t after hturns hsession hend
    cases before with
    | nil =>
      rw [List.nil_append, List.cons.injEq] at hturns
      obtain ⟨rfl, rfl⟩ := hturns
      exact ⟨rfl, (hmeets.stops hsession (by simpa [consumers] using hend)).2⟩
    | cons u' before => simp at hturns
  | @next expected expected' u turns hmeets hrest ih =>
    intro before t after hturns hsession hend
    cases before with
    | nil =>
      rw [List.nil_append, List.cons.injEq] at hturns
      obtain ⟨rfl, rfl⟩ := hturns
      exact absurd (hmeets.stops hsession (by simpa [consumers] using hend)).1 (by simp)
    | cons u' before =>
      rw [List.cons_append, List.cons.injEq] at hturns
      obtain ⟨rfl, rfl⟩ := hturns
      refine ih before t after rfl hsession ?_
      rcases hmeets.consumes with ⟨hconsumes, -, rfl⟩ | ⟨hskips, rfl⟩
      · rw [consumers_cons_of _ hconsumes, List.length_cons, ← number_succ] at hend
        exact hend
      · rw [consumers_skip _ hskips] at hend
        exact hend

end Course

/-! ## Safety -/

/-- The requests that reach the engine. -/
def ServedSession.calls (run : ServedSession) : List Request := run.turns.filterMap Turn.call?

/-- The frame that opens a session. -/
structure Greets (frame : FrameHeader × Bytes) (clientBoot : BootId) (nonce : Bytes) : Prop where
  type : frame.1.type = .hello
  sequence : frame.1.sequence = 1
  session : frame.1.sessionId = 0
  payload : decodeHello frame.2 = some (clientBoot, nonce)

section Safety

variable (service : Service) (sessionId : UInt64) (arrivals : List Arrival) (turns : Nat)

/-- What a session that has done something rests on. -/
theorem serveSession_opened (h : (serveSession service sessionId arrivals turns).turns ≠ []) :
    ∃ frame clientBoot nonce session rest later,
      Greets frame clientBoot nonce ∧ session.sessionId = sessionId ∧ session.clientBoot = clientBoot ∧
      session.expectedIncoming = 2 ∧ session.reader.At service.maxPayload rest ∧
      (wireFraming service.maxPayload).Holds (streamOf arrivals) [frame] (rest ++ streamOf later) ∧
      (serveSession service sessionId arrivals turns).opened =
        some (frame, service.welcome sessionId nonce, session) ∧
      (serveSession service sessionId arrivals turns).sent.head? =
        some (makeHeader .welcome 0 1, encodeWelcome (service.welcome sessionId nonce)) ∧
      (serveSession service sessionId arrivals turns).turns = (session.serve service turns later).1 := by
  obtain ⟨rest, hholds, hat⟩ := receiveFrame_holds (FrameReader.at_new service.maxPayload) arrivals
  unfold serveSession at h ⊢
  split at h
  · simp at h
  next header payload reader later hreceive =>
    rw [hreceive] at hholds hat
    by_cases hform : header.type ≠ .hello ∨ header.sequence ≠ 1 ∨ header.sessionId ≠ 0
    · simp [if_pos hform] at h
    simp only [if_neg hform] at h ⊢
    cases hhello : decodeHello payload with
    | none => simp [hhello] at h
    | some greeting =>
      obtain ⟨clientBoot, nonce⟩ := greeting
      simp only [hhello] at h
      simp only
      by_cases hempty : (encodeWelcome (service.welcome sessionId nonce)).isEmpty = true
      · simp only [if_pos hempty] at h
        exact absurd rfl h
      simp only [if_neg hempty] at h ⊢
      cases hdelivers : service.delivers 0 with
      | false => simp [hdelivers] at h
      | true =>
        rw [not_or, not_or, not_not, not_not, not_not] at hform
        exact ⟨(header, payload), clientBoot, nonce, _, rest, later, ⟨hform.1, hform.2.1, hform.2.2, hhello⟩, rfl, rfl,
          rfl, hat, hholds, rfl, rfl, rfl⟩
  · simp at h

/-- **`session_safety`**: a session that has taken a turn was opened by a Hello in front of the stream and
answered with a Welcome. Behind it, the frames of its turns are the next frames of the stream, and

* what reaches the engine is decoded from a subsequence of them, each of which carries the session's
  identity, the client's boot identity and the live epoch;
* the `k`-th frame that consumes a number carries `2 + k`, in the 64 bits of the counter;
* no turn follows a farewell of this session or a frame of it with another number than the next, and
  neither is executed;
* no frame behind bytes that the reader rejects is ever read. -/
theorem session_safety :
    (serveSession service sessionId arrivals turns).turns = [] ∨ ∃ frame clientBoot nonce,
      Greets frame clientBoot nonce ∧
      (serveSession service sessionId arrivals turns).sent.head? =
        some (makeHeader .welcome 0 1, encodeWelcome (service.welcome sessionId nonce)) ∧
      (∃ last, (wireFraming service.maxPayload).Holds (streamOf arrivals)
        (frame :: (serveSession service sessionId arrivals turns).turns.map Turn.frame) last) ∧
      (∃ taken : List (FrameHeader × Bytes), taken.Sublist ((serveSession service sessionId arrivals turns).turns.map Turn.frame) ∧
        taken.map (fun f => decodeRequest f.2) =
          (serveSession service sessionId arrivals turns).calls.map some ∧
        ∀ f ∈ taken, f.1.type = .request ∧ f.1.sessionId = sessionId) ∧
      (∀ request ∈ (serveSession service sessionId arrivals turns).calls,
        request.clientBoot = clientBoot ∧ request.epoch = service.epoch) ∧
      (∀ k t, (consumers (serveSession service sessionId arrivals turns).turns)[k]? = some t →
        t.frame.1.sequence = UInt64.ofNat (2 + k)) ∧
      (∀ before t after, (serveSession service sessionId arrivals turns).turns = before ++ t :: after →
        t.frame.1.sessionId = sessionId →
        (t.frame.1.type = .goodbye ∨ t.frame.1.sequence ≠ UInt64.ofNat (2 + (consumers before).length)) →
        after = [] ∧ t.call? = none) ∧
      ∀ frames rest status, (wireFraming service.maxPayload).Holds (streamOf arrivals) frames rest →
        (wireFraming service.maxPayload).cut rest = .bad status →
        (frame :: (serveSession service sessionId arrivals turns).turns.map Turn.frame) <+: frames := by
  by_cases hturns : (serveSession service sessionId arrivals turns).turns = []
  · exact .inl hturns
  obtain ⟨frame, clientBoot, nonce, session, rest, later, hgreets, hid, hboot, hexpected, hat, hfirst, -, hsent,
    hserved⟩ := serveSession_opened service sessionId arrivals turns hturns
  have hcourse := session.serve_course service turns later
  rw [hid, hboot, hexpected, ← hserved] at hcourse
  obtain ⟨last, hholds⟩ := session.serve_holds service hat turns later
  rw [← hserved] at hholds
  have hnumber : ∀ k, (2 : UInt64) + UInt64.ofNat k = UInt64.ofNat (2 + k) := by
    intro k
    rw [UInt64.ofNat_add]
    rfl
  have hall := hfirst.trans hholds
  refine .inr ⟨frame, clientBoot, nonce, hgreets, hsent, ⟨last, hall⟩, ?_, ?_, ?_, ?_, ?_⟩
  · exact ⟨_, List.filter_sublist.map _, hcourse.calls, hcourse.callers⟩
  · intro request hrequest
    obtain ⟨t, ht, hcall⟩ := List.mem_filterMap.mp hrequest
    exact (hcourse.executed t ht request (Turn.call?_eq_some.mp hcall)).2.2.2
  · intro k t ht
    rw [hcourse.numbers k t ht, hnumber]
  · intro before t after hsplit hsession hend
    rw [← hnumber] at hend
    exact hcourse.stops before t after hsplit hsession hend
  · intro frames rest' status hframes hbad
    exact hall.leads hframes (.bad hbad)

end Safety

/-! ## The counter comes around -/

theorem FrameReader.Shows.quiet {maxPayload : UInt32} {r : FrameReader} {s : FramingReader UInt8 Status}
    (h : FrameReader.Shows maxPayload r s) (hnone : s.failure = none) : r.failed = false := by
  have hfailure := h.failure
  rw [hnone] at hfailure
  cases hfailed : r.failed with
  | false => rfl
  | true => simp [hfailed] at hfailure

/-- A reader with nothing in it takes a whole frame, and has nothing in it then. -/
theorem receiveFrame_whole {maxPayload : UInt32} {r : FrameReader} {header : FrameHeader} {payload : Bytes}
    (hsendable : Sendable maxPayload header payload) (h : FrameReader.Shows maxPayload r {}) (rest : List Arrival) :
    ∃ r', receiveFrame r (.received (encodeFrame header payload) :: rest) =
      (some (.frame (header.sent payload) payload), r', rest) ∧ FrameReader.Shows maxPayload r' {} := by
  obtain ⟨hnone, hstill⟩ := h.next
  have hempty : (wireFraming maxPayload).next {} = (none, {}) := by
    simp only [Framing.next, (wireFraming maxPayload).empty]
  rw [hempty] at hnone hstill
  obtain ⟨hframe, hbehind⟩ := (hstill.feed (encodeFrame header payload)).next
  have hcut := frameCut_encoded hsendable []
  rw [List.append_nil, ← wireFraming_cut] at hcut
  have hnext : (wireFraming maxPayload).next (Framing.feed {} (encodeFrame header payload)) =
      (some (header.sent payload, payload), {}) := by
    simp only [Framing.next, Framing.feed, List.nil_append, hcut]
  rw [hnext] at hframe hbehind
  have hsome : (encodeFrame header payload).isEmpty = false := by
    rw [List.isEmpty_eq_false_iff, ← List.length_pos_iff_ne_nil, length_encodeFrame]
    omega
  obtain ⟨r₁, hr₁⟩ : ∃ r₁, r.next = (none, r₁) := ⟨r.next.2, Prod.ext hnone rfl⟩
  rw [hr₁] at hstill hframe hbehind
  obtain ⟨r₂, hr₂⟩ : ∃ r₂, (r₁.feed (encodeFrame header payload)).next = (some (header.sent payload, payload), r₂) :=
    ⟨_, Prod.ext hframe rfl⟩
  rw [hr₂] at hbehind
  have hready : r₁.failed = false := hstill.quiet rfl
  have hfed : (r₁.feed (encodeFrame header payload)).failed = false :=
    (hstill.feed (encodeFrame header payload)).quiet rfl
  refine ⟨r₂, ?_, hbehind⟩
  rw [receiveFrame, hr₁]
  simp only [h.quiet rfl, hready, hsome, Bool.false_eq_true, if_false]
  rw [receiveFrame, hr₂]
  simp only [hfed, Bool.false_eq_true, if_false]

/-- This many pings, each with the number that is due. -/
def pings (sessionId : UInt64) : Nat → UInt64 → List Arrival
  | 0, _ => []
  | n + 1, sequence =>
    .received (encodeFrame (makeHeader .ping sessionId sequence) []) :: pings sessionId n (sequence + 1)

theorem SessionState.turn_ping {service : Service} {s : SessionState} {header : FrameHeader} {payload : Bytes}
    (hsession : header.sessionId = s.sessionId) (htype : header.type = .ping)
    (hsequence : header.sequence = s.expectedIncoming) :
    s.turn service header payload =
      (⟨(header, payload), .ping, s.outgoing .pong []⟩, s.consumed.replied, service.delivers s.sent) := by
  unfold SessionState.turn
  rw [if_neg (not_not.mpr hsession), if_neg (by simp [htype]), if_neg (not_not.mpr hsequence), if_pos htype]

/-- Where nothing is lost, every ping consumes its number. -/
theorem SessionState.serve_pings {service : Service} (hdelivers : ∀ k, service.delivers k = true) {maxPayload : UInt32}
    (n : Nat) (s : SessionState) (h : FrameReader.Shows maxPayload s.reader {}) :
    ((s.serve service n (pings s.sessionId n s.expectedIncoming)).1.map fun t => (t.reaction, t.frame.1.sequence)) =
      (List.range n).map fun k => (.ping, s.expectedIncoming + UInt64.ofNat k) := by
  induction n generalizing s with
  | zero => rfl
  | succ n ih =>
    have hsendable : Sendable maxPayload (makeHeader .ping s.sessionId s.expectedIncoming) [] :=
      ⟨rfl, by simp [makeHeader], by simp⟩
    obtain ⟨reader, hreceive, hquiet⟩ :=
      receiveFrame_whole hsendable h (pings s.sessionId n (s.expectedIncoming + 1))
    obtain ⟨next, hnext⟩ : ∃ next, next = SessionState.replied (SessionState.consumed { s with reader := reader }) :=
      ⟨_, rfl⟩
    have hturn : SessionState.turn service { s with reader := reader }
        ((makeHeader .ping s.sessionId s.expectedIncoming).sent []) [] =
          (⟨((makeHeader .ping s.sessionId s.expectedIncoming).sent [], []), .ping, s.outgoing .pong []⟩, next, true) := by
      rw [SessionState.turn_ping rfl rfl rfl, hdelivers, hnext]
      rfl
    have hrest := ih next (by rw [hnext]; exact hquiet)
    rw [show next.sessionId = s.sessionId by rw [hnext]; rfl,
      show next.expectedIncoming = s.expectedIncoming + 1 by rw [hnext]; rfl] at hrest
    have hstep : s.serve service (n + 1) (pings s.sessionId (n + 1) s.expectedIncoming) =
        (⟨((makeHeader .ping s.sessionId s.expectedIncoming).sent [], []), .ping, s.outgoing .pong []⟩ ::
          (next.serve service n (pings s.sessionId n (s.expectedIncoming + 1))).1,
          (next.serve service n (pings s.sessionId n (s.expectedIncoming + 1))).2) := by
      rw [SessionState.serve, pings, hreceive]
      simp only [hturn]
    rw [hstep, List.map_cons, hrest, List.range_succ_eq_map, List.map_cons, List.map_map]
    refine congrArg₂ List.cons ?_ (List.map_congr_left ?_)
    · simp [FrameHeader.sent, makeHeader]
    · intro k _
      rw [number_succ]
      rfl

/-- An engine that answers every request, behind a socket that sends everything. -/
def quietService : Service where
  epoch := 1
  boot := FixedBytes.zero
  store := FixedBytes.zero
  answer _ _ := {}
  delivers _ := true

/-- The frame that opens a session with an empty nonce. -/
def greeting : Arrival := .received (encodeFrame (makeHeader .hello 0 1) (encodeHello FixedBytes.zero []))

theorem pings_consume (n : Nat) :
    ((serveSession quietService 1 (greeting :: pings 1 n 2) n).turns.map fun t => (t.reaction, t.frame.1.sequence)) =
      (List.range n).map fun k => (.ping, 2 + UInt64.ofNat k) := by
  have hsendable : Sendable quietService.maxPayload (makeHeader .hello 0 1) (encodeHello FixedBytes.zero []) :=
    ⟨rfl, by simp [makeHeader], by decide⟩
  obtain ⟨reader, hreceive, hquiet⟩ := receiveFrame_whole (r := { maxPayload := quietService.maxPayload })
    hsendable ⟨rfl, rfl, rfl, rfl⟩ (pings 1 n 2)
  have hhello : decodeHello (encodeHello FixedBytes.zero []) = some (FixedBytes.zero, []) := by decide
  have hwelcome : (encodeWelcome (quietService.welcome 1 [])).isEmpty = false := by decide
  have hserved : (serveSession quietService 1 (greeting :: pings 1 n 2) n).turns =
      (SessionState.serve quietService n { reader := reader, sessionId := 1, clientBoot := FixedBytes.zero }
        (pings 1 n 2)).1 := by
    unfold serveSession greeting
    rw [hreceive]
    simp only [hhello, hwelcome]
    rfl
  rw [hserved]
  exact SessionState.serve_pings (fun _ => rfl) n _ hquiet

/-- **`session_numbers_repeat`**: `2^64` pings and one more. -/
theorem session_numbers_repeat :
    ¬ ((consumers (serveSession quietService 1 (greeting :: pings 1 (2 ^ 64 + 1) 2) (2 ^ 64 + 1)).turns).map
      fun t => t.frame.1.sequence).Nodup := by
  obtain ⟨n, hn⟩ : ∃ n, n = 2 ^ 64 + 1 := ⟨_, rfl⟩
  rw [← hn]
  have hturns := pings_consume n
  obtain ⟨turns, hall⟩ : ∃ turns, turns = (serveSession quietService 1 (greeting :: pings 1 n 2) n).turns := ⟨_, rfl⟩
  rw [← hall] at hturns ⊢
  have hconsumers : consumers turns = turns := by
    refine List.filter_eq_self.mpr ?_
    intro t ht
    have hmem : (t.reaction, t.frame.1.sequence) ∈ turns.map fun t => (t.reaction, t.frame.1.sequence) :=
      List.mem_map_of_mem ht
    rw [hturns] at hmem
    obtain ⟨k, -, hk⟩ := List.mem_map.mp hmem
    rw [Prod.mk.injEq] at hk
    rw [← hk.1]
    rfl
  have hnumbers : (turns.map fun t => t.frame.1.sequence) = (List.range n).map fun k => 2 + UInt64.ofNat k := by
    have := congrArg (List.map Prod.snd) hturns
    rwa [List.map_map, List.map_map] at this
  rw [hconsumers, hnumbers]
  intro hnodup
  have hcircle : (2 : UInt64) + UInt64.ofNat 0 = 2 + UInt64.ofNat (2 ^ 64) := by decide
  have hfirst : 0 ∈ List.range n := List.mem_range.mpr (by omega)
  have hlast : 2 ^ 64 ∈ List.range n := List.mem_range.mpr (by omega)
  have hsame := List.inj_on_of_nodup_map hnodup hfirst hlast hcircle
  omega

end FabricReconciliation
