import Netband.Coordinator
import Netband.Sanitize
import Netband.Upload

/-!
The requests of a bandwidth test: what is asked of the outside, how a request that failed is
described, and the progress of a test.

A test can be dropped wherever it waits for an answer, so it is a saving computation: the states
that it saves are those in which it waits. An answer may never come; then the computation fails.
Answers and readings of the clocks are functions of their number.
-/

namespace Netband.Bandwidth

open Netband.Time Netband.Model Netband.Coordinator Netband.Effects Netband.Upload Saving

/-! ### Requests -/

abbrev RequestId := ℕ

inductive RequestDirection
  | download | upload
  deriving DecidableEq

structure IpAddr where
  text : String
  isIpv4 : Bool
  deriving DecidableEq

structure SocketAddr where
  ip : IpAddr
  port : ℕ
  deriving DecidableEq

/-- A parsed URL: its text and the parts that are asked for. -/
structure Url where
  text : String
  scheme : String
  hostStr : Option String
  port : Option ℕ
  portOrKnownDefault : Option ℕ
  deriving DecidableEq

structure EndpointCandidate where
  downloadUrl : Url
  uploadUrl : Url
  logicalServer : String
  providerId : String
  providerKind : ProviderKind
  tlsServerName : Option String
  caCert : Option String
  allowInsecure : Bool
  deriving DecidableEq

inductive FailureDisposition
  | providerWide | tryNextTarget | terminal
  deriving DecidableEq

structure RetryAfter where
  delay : ℕ
  deadline : ℤ
  deriving DecidableEq

structure RequestFailure where
  elapsed : ℕ
  finishedMonotonic : ℕ
  startedAtUtc : ℤ
  finishedAtUtc : ℤ
  direction : Option RequestDirection
  stage : RequestStage
  outcome : Outcome
  errorKind : ErrorKind
  message : String
  serverName : Option String
  requestUrl : Option String
  localIp : Option IpAddr
  remoteIp : Option IpAddr
  osErrorCode : Option ℤ
  requestId : RequestId
  httpStatus : Option ℕ
  retryAfter : Option RetryAfter
  disposition : FailureDisposition
  deriving DecidableEq

/-! ### The outside -/

structure IoError where
  text : String
  rawOsError : Option ℤ

/-- An error of a WebSocket, with the I/O error that it may be. -/
structure WebSocketError where
  text : String
  io : Option IoError

structure TcpStream where
  localAddr : Option IpAddr

/-- The headers that a handshake is sent with. -/
structure WebsocketRequest where
  protocol : String
  userAgent : String
  host : Option String

/-- The answer to a handshake: the protocol that was selected, or a response that is no handshake,
whose `Retry-After` may not be text. -/
inductive Handshake
  | accepted (protocol : Option String)
  | http (status : ℕ) (retryAfter : Option (Option String))
  | failed (error : WebSocketError)

/-- A target of a Locate response. -/
structure LocateResult where
  machine : String
  urls : String → Option String

/-- The answer to a Locate request. -/
inductive LocateAnswer
  | refused (error : String) (isTimeout : Bool)
  | response (status : ℕ) (retryAfter : Option (Option String))

inductive AdmissionReservation
  | untracked
  | reserved (accountingDate : ℤ) (dailyBandwidthStarts : ℕ)
  deriving DecidableEq

/-- What a test uses of other programs and of the system. An answer that is `none` never comes. A
download is what its socket yields one after another, and whether it then ends. -/
structure Outside where
  utc : ℕ → ℤ
  monotonic : ℕ → ℕ
  parseHttpDate : String → Option ℤ
  parseUrl : String → Option Url
  parseLocate : List UInt8 → Except String (List LocateResult)
  parseMeasurement : String → Option WireMeasurement
  bindsHttp : Bool
  httpClient : Except String Unit
  locate : ℕ → Option LocateAnswer
  locateBody : ℕ → Option (Except String (List UInt8))
  reserve : ℤ → Except String AdmissionReservation
  resolve : ℕ → String → ℕ → Option (Except String (List SocketAddr))
  connect : ℕ → SocketAddr → Option String → Option (Except IoError TcpStream)
  rootStore : ℕ → Option String → Except String Unit
  tlsName : String → Except String Unit
  tlsConnect : ℕ → String → Option (Except String Unit)
  clientRequest : String → Except String Unit
  headerValue : String → Bool
  handshake : ℕ → WebsocketRequest → Option Handshake
  downloads : ℕ → List (Except WebSocketError Message) × Bool
  uploads : ℕ → List (ℕ × Socket WebSocketError)

/-! ### Progress -/

structure DirectionMeasurement where
  requestId : RequestId
  bytes : ℕ
  elapsed : ℕ
  remoteIp : IpAddr
  localIp : IpAddr
  metrics : TcpMetrics
  deriving DecidableEq

structure AttemptProgress where
  startedMonotonic : ℕ
  stageStartedMonotonic : ℕ
  startedAtUtc : ℤ
  download : Option DirectionMeasurement := none
  upload : Option DirectionMeasurement := none
  failures : List RequestFailure := []
  serverName : Option String := none
  active : RequestFailure

/-- What a server is asked for. -/
inductive Call
  | resolve (host : String) (port : ℕ)
  | connect (remote : SocketAddr)
  deriving DecidableEq

structure Contact where
  server : EndpointCandidate
  direction : RequestDirection
  requestId : RequestId
  call : Call
  deriving DecidableEq

/-- The readings and answers so far, the identifiers that were made, the calls to servers, what the
gate answered, and the phase that is shown to others. -/
structure World where
  readings : ℕ := 0
  requestIds : ℕ := 0
  contacts : List Contact := []
  admission : Option (Except String AdmissionReservation) := none
  phase : Option LoadPhase := none

structure State extends World where
  progress : AttemptProgress

/-- A computation of a test; it fails where it waits forever. -/
abbrev Op (α : Type) := Saving State Unit α

variable (o : Outside)

def World.utcNow (w : World) : ℤ × World :=
  (o.utc w.readings, { w with readings := w.readings + 1 })

def World.instantNow (w : World) : ℕ × World :=
  (o.monotonic w.readings, { w with readings := w.readings + 1 })

def World.newRequestId (w : World) : RequestId × World :=
  (w.requestIds, { w with requestIds := w.requestIds + 1 })

def World.simple (stage : RequestStage) (errorKind : ErrorKind) (message : String)
    (requestUrl : Option String) (requestId : RequestId) (w : World) : RequestFailure × World :=
  let (now, w) := w.utcNow o
  let (finishedMonotonic, w) := w.instantNow o
  ({ elapsed := 0
     finishedMonotonic
     startedAtUtc := now
     finishedAtUtc := now
     direction := none
     stage
     outcome := .error
     errorKind
     message
     serverName := none
     requestUrl
     localIp := none
     remoteIp := none
     osErrorCode := none
     requestId
     httpStatus := none
     retryAfter := none
     disposition := .terminal }, w)

def AttemptProgress.new (stage : RequestStage) (w : World) : AttemptProgress × World :=
  let (requestId, w) := w.newRequestId
  let (active, w) := w.simple o stage .internal "" none requestId
  ({ startedMonotonic := active.finishedMonotonic
     stageStartedMonotonic := active.finishedMonotonic
     startedAtUtc := active.startedAtUtc
     active }, w)

def onWorld {α : Type} (f : World → α × World) : Op α :=
  edit fun s => ((f s.toWorld).1, { s with toWorld := (f s.toWorld).2 })

def onProgress (f : AttemptProgress → AttemptProgress) : Op Unit :=
  modify fun s => { s with progress := f s.progress }

def utcNow : Op ℤ := onWorld (World.utcNow o)
def instantNow : Op ℕ := onWorld (World.instantNow o)
def newRequestId : Op RequestId := onWorld World.newRequestId

def RequestFailure.simple (stage : RequestStage) (errorKind : ErrorKind) (message : String)
    (requestUrl : Option String) (requestId : RequestId) : Op RequestFailure :=
  onWorld (World.simple o stage errorKind message requestUrl requestId)

def modifyActive (f : RequestFailure → RequestFailure) : Op Unit :=
  onProgress fun p => { p with active := f p.active }

def beginStage (stage : RequestStage) : Op Unit := do
  modifyActive fun active => { active with stage }
  let startedAtUtc ← utcNow o
  modifyActive fun active => { active with startedAtUtc }
  let stageStartedMonotonic ← instantNow o
  onProgress fun p => { p with stageStartedMonotonic }

/-- A failure as that of the active request. -/
def AttemptProgress.attribute (p : AttemptProgress) (failure : RequestFailure) : RequestFailure :=
  { failure with
    startedAtUtc := p.active.startedAtUtc
    elapsed := failure.finishedMonotonic - p.stageStartedMonotonic
    direction := p.active.direction
    requestId := p.active.requestId
    serverName := failure.serverName <|> p.active.serverName }

def AttemptProgress.recordFailure (failure : RequestFailure) (p : AttemptProgress) :
    AttemptProgress :=
  { p with failures := p.failures ++ [p.attribute failure] }

def recordFailure (failure : RequestFailure) : Op Unit :=
  onProgress (AttemptProgress.recordFailure failure)

def reportPhase (value : LoadPhase) : Op Unit :=
  modify fun s => { s with phase := s.phase.map fun _ => value }

/-- Call a server. -/
def contact (server : EndpointCandidate) (direction : RequestDirection) (requestId : RequestId)
    (call : Call) : Op Unit :=
  onWorld fun w => ((), { w with contacts := w.contacts ++ [⟨server, direction, requestId, call⟩] })

/-- Wait for an answer. -/
def await {α : Type} (answer : ℕ → Option α) : Op α := do
  save
  let n ← onWorld fun w => (w.readings, { w with readings := w.readings + 1 })
  match answer n with
  | none => fail ()
  | some a => return a

/-! ### Computations that call no server -/

/-- What is left of a world by what calls no server. -/
structure World.Quiet (w w' : World) : Prop where
  contacts : w'.contacts = w.contacts
  admission : w'.admission = w.admission
  phase : w'.phase = w.phase
  requestIds : w.requestIds ≤ w'.requestIds

/-- The progress is the same, and no server was called. -/
structure State.Idle (s s' : State) : Prop where
  quiet : s.toWorld.Quiet s'.toWorld
  progress : s'.progress = s.progress

instance : IsPreorder State State.Idle where
  refl _ := ⟨⟨rfl, rfl, rfl, le_rfl⟩, rfl⟩
  trans _ _ _ h h' := {
    quiet := {
      contacts := h'.quiet.contacts.trans h.quiet.contacts
      admission := h'.quiet.admission.trans h.quiet.admission
      phase := h'.quiet.phase.trans h.quiet.phase
      requestIds := h.quiet.requestIds.trans h'.quiet.requestIds }
    progress := h'.progress.trans h.progress }

section idle
variable {o} {α : Type} {P : α → Prop}

lemma within_onWorld {f : World → α × World} (hf : ∀ w, w.Quiet (f w).2 ∧ P (f w).1) :
    Within State.Idle P (onWorld f) :=
  within_edit fun s => ⟨⟨(hf s.toWorld).1, rfl⟩, (hf s.toWorld).2⟩

lemma within_newRequestId : Within State.Idle (fun _ => True) newRequestId :=
  within_onWorld fun _ => ⟨⟨rfl, rfl, rfl, Nat.le_succ _⟩, trivial⟩

/-- Wait for the answer to the next reading. -/
lemma saves_await {answer : ℕ → Option α} {R : State → Prop} {s : State}
    {Q : α → State → Prop} {E : Unit → State → Prop} (hR : R s)
    (hnone : answer s.readings = none → E () { s with readings := s.readings + 1 })
    (hsome : ∀ a, answer s.readings = some a → Q a { s with readings := s.readings + 1 }) :
    Saves R s (await answer) Q E := by
  unfold await
  apply saves_bind
  apply saves_save hR
  apply saves_bind
  apply saves_edit
  dsimp only
  split
  · next hanswer => exact saves_fail (hnone hanswer)
  · next a hanswer => exact saves_pure (hsome a hanswer)

lemma completes_await {answer : ℕ → Option α} (h : ∀ n, (answer n).isSome) :
    Completes (await answer) := by
  unfold await
  refine completes_bind completes_save fun _ => completes_bind completes_edit fun n => ?_
  obtain ⟨a, ha⟩ := Option.isSome_iff_exists.mp (h n)
  rw [ha]
  exact completes_pure

/-- What `RequestFailure::simple` makes. -/
structure RequestFailure.Simple (stage : RequestStage) (errorKind : ErrorKind) (message : String)
    (requestUrl : Option String) (f : RequestFailure) : Prop where
  stage : f.stage = stage
  errorKind : f.errorKind = errorKind
  message : f.message = message
  requestUrl : f.requestUrl = requestUrl
  outcome : f.outcome = .error
  direction : f.direction = none
  serverName : f.serverName = none
  httpStatus : f.httpStatus = none
  retryAfter : f.retryAfter = none
  disposition : f.disposition = .terminal

lemma within_simple {stage : RequestStage} {errorKind : ErrorKind} {message : String}
    {requestUrl : Option String} {requestId : RequestId} : Within State.Idle
      (fun f => f.Simple stage errorKind message requestUrl ∧ f.requestId = requestId)
      (RequestFailure.simple o stage errorKind message requestUrl requestId) :=
  within_onWorld fun _ =>
    ⟨⟨rfl, rfl, rfl, le_rfl⟩, ⟨rfl, rfl, rfl, rfl, rfl, rfl, rfl, rfl, rfl, rfl⟩, rfl⟩

end idle

end Netband.Bandwidth
