import Netband.Provider

/-!
A bandwidth test: one candidate after another is asked for a download, and the first that is not
passed over also for an upload.

The loops of the source over addresses, messages and candidates are recursions on lists. An upload
is the loop of its own module, driven one poll after another.
-/

namespace Netband.Bandwidth

open Netband.Time Netband.Model Netband.Coordinator Netband.Effects Netband.Upload Saving

/-! ### Failures -/

def classifyHandshakeStatus (providerKind : ProviderKind) (httpStatus : Option ℕ) :
    Outcome × FailureDisposition :=
  if httpStatus = some 429 then (.rateLimited, .providerWide)
  else if httpStatus = some 503 ∧ providerKind = .mlab then (.noCapacity, .tryNextTarget)
  else if httpStatus = some 503 then (.noCapacity, .terminal)
  else (.error, .terminal)

variable (o : Outside)

def handshakeFailure (candidate : EndpointCandidate) (url : Url) (remoteIp localIp : IpAddr)
    (requestId : RequestId) (response : Option (ℕ × Option RetryAfter)) (message : String) :
    Op RequestFailure := do
  let classified := classifyHandshakeStatus candidate.providerKind (response.map Prod.fst)
  let now ← utcNow o
  let finishedMonotonic ← instantNow o
  return {
    elapsed := 0
    finishedMonotonic
    startedAtUtc := now
    finishedAtUtc := now
    direction := none
    stage := .websocketHandshake
    outcome := classified.1
    errorKind := .websocketHandshake
    message
    serverName := some candidate.logicalServer
    requestUrl := some url.text
    localIp := some localIp
    remoteIp := some remoteIp
    osErrorCode := none
    requestId
    httpStatus := response.map Prod.fst
    retryAfter := response.bind Prod.snd
    disposition := classified.2 }

def streamFailure (candidate : EndpointCandidate) (stage : RequestStage)
    (remoteIp localIp : IpAddr) (message : String) (osErrorCode : Option ℤ) :
    Op RequestFailure := do
  let now ← utcNow o
  let finishedMonotonic ← instantNow o
  let requestId ← newRequestId
  return {
    elapsed := 0
    finishedMonotonic
    startedAtUtc := now
    finishedAtUtc := now
    direction := none
    stage
    outcome := .error
    errorKind := match stage with
      | .download => .downloadFailed
      | .upload | .cleanup => .uploadFailed
      | _ => .io
    message
    serverName := some candidate.logicalServer
    requestUrl := some (match stage with
      | .upload | .cleanup => candidate.uploadUrl.text
      | _ => candidate.downloadUrl.text)
    localIp := some localIp
    remoteIp := some remoteIp
    osErrorCode
    requestId
    httpStatus := none
    retryAfter := none
    disposition := .terminal }

def WebSocketError.osError (error : WebSocketError) : Option ℤ := error.io.bind (·.rawOsError)

/-! ### Connections -/

def maxResolvedAddresses : ℕ := 8
def ndt7Subprotocol : String := "net.measurementlab.ndt.v7"

/-- The addresses of a host: itself, or what a lookup yields, each once and not too many. -/
def resolveAddresses (parseIp : String → Option IpAddr)
    (lookupHost : String → ℕ → Except String (List SocketAddr)) (host : String) (port : ℕ) :
    Except String (List SocketAddr) :=
  match parseIp host with
  | some ip => .ok [⟨ip, port⟩]
  | none =>
    match lookupHost host port with
    | .error error => .error ("DNS resolution failed: " ++ error)
    | .ok resolved =>
      let addresses := resolved.eraseDups.take maxResolvedAddresses
      if addresses.isEmpty then .error "DNS resolution returned no addresses" else .ok addresses

structure ConnectedSocket where
  remoteIp : IpAddr
  localIp : IpAddr

def wrapStream (url : Url) (candidate : EndpointCandidate) : Op (Except String Unit) :=
  if url.scheme = "ws" ∧ candidate.allowInsecure then return .ok ()
  else if url.scheme = "wss" then do
    let roots ← onWorld fun w =>
      (o.rootStore w.readings candidate.caCert, { w with readings := w.readings + 1 })
    match roots with
    | .error message => return .error message
    | .ok () =>
      match candidate.tlsServerName <|> url.hostStr with
      | none => return .error "TLS endpoint has no server name"
      | some name =>
        match o.tlsName name with
        | .error error => return .error ("invalid TLS server name: " ++ error)
        | .ok () =>
          let answer ← await fun n => o.tlsConnect n name
          return answer.mapError ("TLS handshake failed: " ++ ·)
  else return .error ("unsupported WebSocket scheme: " ++ url.scheme)

def websocketRequest (url : Url) (candidate : EndpointCandidate) :
    Except String WebsocketRequest :=
  match o.clientRequest url.text with
  | .error error => .error ("invalid WebSocket request: " ++ error)
  | .ok () =>
    match candidate.tlsServerName with
    | none => .ok { protocol := ndt7Subprotocol, userAgent, host := none }
    | some serverName =>
      let host := match url.port with
        | some port => if port ≠ 443 then serverName ++ ":" ++ toString port else serverName
        | none => serverName
      if o.headerValue host then
        .ok { protocol := ndt7Subprotocol, userAgent, host := some host }
      else .error "invalid TLS Host header"

/-- How the try of one address ends. -/
inductive Dialed
  | next
  | stopped
  | connected (socket : ConnectedSocket)

def unspecified (remote : SocketAddr) : IpAddr :=
  if remote.ip.isIpv4 then ⟨"0.0.0.0", true⟩ else ⟨"::", false⟩

/-- The body of the loop over the addresses. -/
def connectAddress (url : Url) (direction : RequestDirection) (candidate : EndpointCandidate)
    (interface : Option String) (requestId : RequestId) (remote : SocketAddr) : Op Dialed := do
  beginStage o .connect
  modifyActive fun active => { active with
    requestId
    remoteIp := some remote.ip
    localIp := none }
  contact candidate direction requestId (.connect remote)
  let tcp ← await fun n => o.connect n remote interface
  match tcp with
  | .error error =>
    let failure ← RequestFailure.simple o .connect .connect ("TCP connect failed: " ++ error.text)
      (some url.text) requestId
    recordFailure { failure with
      remoteIp := some remote.ip
      osErrorCode := error.rawOsError }
    return .next
  | .ok tcp =>
    let localIp := tcp.localAddr.getD (unspecified remote)
    modifyActive fun active => { active with localIp := some localIp }
    beginStage o .tls
    let stream ← wrapStream o url candidate
    match stream with
    | .error message =>
      let failure ← RequestFailure.simple o .tls .tls message (some url.text) requestId
      recordFailure { failure with
        localIp := some localIp
        remoteIp := some remote.ip }
      return .next
    | .ok () =>
      beginStage o .websocketHandshake
      match websocketRequest o url candidate with
      | .error message =>
        let failure ← RequestFailure.simple o .websocketHandshake .websocketHandshake message
          (some url.text) requestId
        recordFailure failure
        return .stopped
      | .ok request =>
        let answer ← await fun n => o.handshake n request
        match answer with
        | .accepted selected =>
          if selected ≠ some ndt7Subprotocol then
            let failure ← handshakeFailure o candidate url remote.ip localIp requestId none
              "server did not select the NDT7 WebSocket subprotocol"
            recordFailure failure
            return .stopped
          else return .connected ⟨remote.ip, localIp⟩
        | .http status retryHeader =>
          let receivedAt ← utcNow o
          let receivedMonotonic ← instantNow o
          let retryAfter := retryHeader.join.bind
            (parseRetryAfterValue o.parseHttpDate · receivedAt)
          let retryDetail := match retryHeader.isSome, retryAfter.isSome with
            | true, true => "Retry-After parsed"
            | true, false => "Retry-After malformed"
            | false, _ => "Retry-After missing"
          let failure ← handshakeFailure o candidate url remote.ip localIp requestId
            (some (status, retryAfter))
            ("WebSocket handshake returned HTTP " ++ toString status ++ "; " ++ retryDetail)
          recordFailure { failure with
            finishedAtUtc := receivedAt
            finishedMonotonic := receivedMonotonic }
          return .stopped
        | .failed error =>
          let failure ← handshakeFailure o candidate url remote.ip localIp requestId none
            ("WebSocket handshake failed: " ++ error.text)
          recordFailure failure
          return .next

/-- The first address goes under the identifier of the lookup. -/
def addressRequestId (index : ℕ) (requestId : RequestId) : Op RequestId :=
  if index = 0 then pure requestId else newRequestId

/-- The loop over the addresses. -/
def connectAddresses (url : Url) (direction : RequestDirection) (candidate : EndpointCandidate)
    (interface : Option String) (requestId : RequestId) :
    ℕ → List SocketAddr → Op (Option ConnectedSocket)
  | _, [] => return none
  | index, remote :: addresses => do
    let addressId ← addressRequestId index requestId
    let dialed ← connectAddress o url direction candidate interface addressId remote
    match dialed with
    | .next =>
      connectAddresses url direction candidate interface requestId (index + 1) addresses
    | .stopped => return none
    | .connected socket => return some socket

def connectWebsocket (url : Url) (direction : RequestDirection) (candidate : EndpointCandidate)
    (interface : Option String) : Op (Option ConnectedSocket) := do
  let requestId ← newRequestId
  let active ← RequestFailure.simple o .dns .internal "" (some url.text) requestId
  onProgress fun p => { p with
    active := { active with
      direction := some direction
      serverName := some candidate.logicalServer }
    stageStartedMonotonic := active.finishedMonotonic }
  match url.hostStr with
  | none =>
    let failure ← RequestFailure.simple o .dns .dns "NDT7 URL has no host" (some url.text) requestId
    recordFailure failure
    return none
  | some host =>
    let port := url.portOrKnownDefault.getD 443
    contact candidate direction requestId (.resolve host port)
    let addresses ← await fun n => o.resolve n host port
    match addresses with
    | .error message =>
      let failure ← RequestFailure.simple o .dns .dns message (some url.text) requestId
      recordFailure failure
      return none
    | .ok addresses =>
      connectAddresses o url direction candidate interface requestId 0 addresses

/-! ### Downloads -/

/-- What the loop over the messages of a download has so far. -/
structure Received where
  bytes : ℕ := 0
  metrics : TcpMetrics := {}
  completed : Bool := false

def Received.text (t : String) (r : Received) : Received :=
  { r with metrics := (updateMetrics o.parseMeasurement r.metrics t).1 }

def Received.binary (length : ℕ) (r : Received) : Received :=
  { r with bytes := min (r.bytes + length) u64Max }

/-- The loop over the messages of a download, up to a close, an error or the end. -/
def receive (candidate : EndpointCandidate) (socket : ConnectedSocket) (ends : Bool) :
    List (Except WebSocketError Message) → Received → Op Received
  | [], r => do
    save
    if ends then return r else fail ()
  | .ok (.binary length) :: messages, r => do
    save
    receive candidate socket ends messages (r.binary length)
  | .ok (.text t) :: messages, r => do
    save
    receive candidate socket ends messages (r.text o t)
  | .ok .close :: _, r => do
    save
    return { r with completed := true }
  | .ok _ :: messages, r => do
    save
    receive candidate socket ends messages r
  | .error error :: _, r => do
    save
    let failure ← streamFailure o candidate .download socket.remoteIp socket.localIp error.text
      error.osError
    recordFailure failure
    return r

/-- Record a failure if there is reason to and the direction has none. -/
def recordFirst (failuresBefore : ℕ) (reason : Bool) (failure : Op RequestFailure) : Op Unit := do
  let s ← get
  if reason ∧ s.progress.failures.length = failuresBefore then do
    let failure ← failure
    recordFailure failure
  else return ()

def runDownload (candidate : EndpointCandidate) (interface : Option String) :
    Op (Option DirectionMeasurement) := do
  let before ← get
  let failuresBefore := before.progress.failures.length
  let connected ← connectWebsocket o candidate.downloadUrl .download candidate interface
  match connected with
  | none => return none
  | some socket =>
    beginStage o .download
    reportPhase .download
    let started ← instantNow o
    let stream ← onWorld fun w => (o.downloads w.readings, { w with readings := w.readings + 1 })
    let received ← receive o candidate socket stream.2 stream.1 {}
    let finished ← instantNow o
    reportPhase .setup
    if received.bytes = 0 then
      recordFirst failuresBefore true (streamFailure o candidate .download socket.remoteIp
        socket.localIp "download ended without measurement bytes" none)
      return none
    else
      recordFirst failuresBefore (!received.completed) (streamFailure o candidate .download
        socket.remoteIp socket.localIp "download connection ended without a close frame" none)
      let s ← get
      return some {
        requestId := s.progress.active.requestId
        bytes := received.bytes
        elapsed := finished - started
        remoteIp := socket.remoteIp
        localIp := socket.localIp
        metrics := received.metrics }

/-! ### Uploads -/

def uploadErrorText : UploadError WebSocketError → String
  | .transport e => e.text
  | .missingClose => "upload connection ended without a close frame"
  | .closeTimeout => "upload close handshake timed out after 2s"

def uploadOsError : UploadError WebSocketError → Option ℤ
  | .transport e => e.osError
  | _ => none

def uploaded (socket : ConnectedSocket) (metrics : TcpMetrics) (requestId : RequestId)
    (measurement : UploadMeasurement) : DirectionMeasurement where
  requestId
  bytes := measurement.bytes
  elapsed := measurement.elapsed * 1000
  remoteIp := socket.remoteIp
  localIp := socket.localIp
  metrics

def enterStage (stage : RequestStage) : Op Unit := do
  let s ← get
  if s.progress.active.stage ≠ stage then beginStage o stage else return ()

/-- What the caller of an upload does with what it is told. -/
def observe (socket : ConnectedSocket) : Upload.Call → Op Unit
  | .observed measurement metrics stage => do
    enterStage o stage
    onProgress fun p => { p with
      upload := measurement.map (uploaded socket metrics p.active.requestId) }
  | _ => return ()

def observeAll (socket : ConnectedSocket) : List Upload.Call → Op Unit
  | [] => return ()
  | call :: calls => do
    observe o socket call
    observeAll socket calls

/-- Drive an upload by its polls. -/
def drive (socket : ConnectedSocket) :
    List (ℕ × Socket WebSocketError) → UploadTransfer WebSocketError →
      Op (UploadTransfer WebSocketError)
  | [], _ => do
    save
    fail ()
  | (now, answers) :: polls, transfer => do
    save
    let next := transfer.poll o.parseMeasurement now answers
    observeAll o socket (next.calls.drop transfer.calls.length)
    if next.result.isSome then return next else drive socket polls next

def recordUploadError (candidate : EndpointCandidate) (socket : ConnectedSocket) :
    Option (UploadError WebSocketError) → Op Unit
  | none => return ()
  | some error => do
    let s ← get
    let failure ← streamFailure o candidate s.progress.active.stage socket.remoteIp
      socket.localIp (uploadErrorText error) (uploadOsError error)
    recordFailure failure

/-- A clean close is no measurement. Its failure is dated back to the begin of the upload. -/
def recordUnmeasured (candidate : EndpointCandidate) (socket : ConnectedSocket)
    (failuresBefore : ℕ) (startedAtUtc : ℤ) (stageStartedMonotonic : ℕ) : Op Unit := do
  let s ← get
  if s.progress.failures.length = failuresBefore then do
    onProgress fun p => { p with
      active := { p.active with
        stage := .upload
        startedAtUtc }
      stageStartedMonotonic }
    let failure ← streamFailure o candidate .upload socket.remoteIp socket.localIp
      "upload ended without a valid server measurement" none
    recordFailure failure
  else return ()

def runUpload (candidate : EndpointCandidate) (interface : Option String) :
    Op (Option DirectionMeasurement) := do
  let before ← get
  let failuresBefore := before.progress.failures.length
  let connected ← connectWebsocket o candidate.uploadUrl .upload candidate interface
  match connected with
  | none => return none
  | some socket =>
    beginStage o .upload
    let begun ← get
    reportPhase .upload
    let started ← instantNow o
    let polls ← onWorld fun w => (o.uploads w.readings, { w with readings := w.readings + 1 })
    let transfer ← drive o socket polls { deadline := started + uploadDuration }
    reportPhase .setup
    recordUploadError o candidate socket transfer.result.join
    match transfer.measurement with
    | none =>
      recordUnmeasured o candidate socket failuresBefore begun.progress.active.startedAtUtc
        begun.progress.stageStartedMonotonic
      return none
    | some measurement =>
      let s ← get
      return some (uploaded socket transfer.metrics s.progress.active.requestId measurement)

/-! ### Candidates -/

def providerStopOutcome (failure : RequestFailure) : Option Outcome :=
  if failure.disposition = .providerWide then some failure.outcome else none

def runCandidates (interface : Option String) : List EndpointCandidate → Op Outcome
  | [] => return .noCapacity
  | candidate :: candidates => do
    onProgress fun p => { p with serverName := some candidate.logicalServer }
    reportPhase .setup
    let download ← runDownload o candidate interface
    onProgress fun p => { p with download }
    let s ← get
    match s.progress.failures.getLast?.bind providerStopOutcome with
    | some outcome => return outcome
    | none =>
      if s.progress.download.isNone ∧
          s.progress.failures.getLast?.any fun failure => failure.disposition = .tryNextTarget then
        runCandidates interface candidates
      else do
        reportPhase .setup
        let upload ← runUpload o candidate interface
        onProgress fun p => { p with upload }
        let s ← get
        return (s.progress.failures.getLast?.bind providerStopOutcome).getD
          (match s.progress.download.isSome, s.progress.upload.isSome with
          | true, true => .success
          | true, false | false, true => .partialResult
          | false, false => .error)

end Netband.Bandwidth
