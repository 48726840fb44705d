import Netband.Requests

/-!
The endpoints of a bandwidth test: one target of the configuration, or the targets that a Locate
service names.

Every target of a Locate response is either a secure candidate or a failure that names it, and a
response without a candidate ends the test.
-/

namespace Netband.Bandwidth

open Netband.Time Netband.Model Netband.Effects Netband.Sanitize Saving

/-! ### Configuration -/

structure DirectConfig where
  downloadUrl : Url
  uploadUrl : Url
  tlsServerName : Option String
  caCert : Option String
  allowInsecure : Bool

structure MlabConfig where
  locateUrl : Url
  policyAccepted : Bool

inductive ProviderConfig
  | mlab (mlab : MlabConfig)
  | direct (direct : DirectConfig)

structure BandwidthConfig where
  provider : ProviderConfig
  providerId : String
  wholeTestTimeout : ℕ

def BandwidthConfig.providerKind (config : BandwidthConfig) : ProviderKind :=
  match config.provider with
  | .mlab _ => .mlab
  | .direct _ => .direct

/-! ### Retry-After -/

def trim (value : List Char) : List Char :=
  (value.dropWhile isWhitespace).rdropWhile isWhitespace

/-- `str::parse` of digits. -/
def parseU64 (digits : List Char) : Option ℕ :=
  if Nat.ofDigitChars 10 digits 0 ≤ u64Max then some (Nat.ofDigitChars 10 digits 0) else none

def checkedAddSigned (t : ℤ) (d : ℕ) : Option ℤ :=
  if t + d ≤ maxUtc then some (t + d) else none

def parseRetryAfterValue (parseHttpDate : String → Option ℤ) (value : String) (receivedAt : ℤ) :
    Option RetryAfter :=
  let value := trim value.toList
  if !value.isEmpty && value.all Char.isDigit then do
    let seconds ← parseU64 value
    let delay := seconds * 1000000000
    -- A delay beyond the range of dates still limits the provider.
    let deadline := ((if delay ≤ timeDeltaMax then some delay else none).bind
      (checkedAddSigned receivedAt)).getD maxUtc
    return ⟨delay, deadline⟩
  else do
    let deadline ← parseHttpDate (String.ofList value)
    return ⟨(deadline - receivedAt).toNat, deadline⟩

/-! ### Resolution -/

structure EndpointResolution where
  candidates : List EndpointCandidate
  failures : List RequestFailure
  terminal : Option RequestFailure

def terminalResolution (failure : RequestFailure) : EndpointResolution := ⟨[], [], some failure⟩

def downloadKey : String := "wss:///ndt/v7/download"
def uploadKey : String := "wss:///ndt/v7/upload"
def userAgent : String := "netband/1.0.0"

def resolveDirect (config : BandwidthConfig) (direct : DirectConfig) : EndpointResolution where
  candidates := [{
    downloadUrl := direct.downloadUrl
    uploadUrl := direct.uploadUrl
    logicalServer := direct.tlsServerName.getD (direct.downloadUrl.hostStr.getD "unknown")
    providerId := config.providerId
    providerKind := .direct
    tlsServerName := direct.tlsServerName
    caCert := direct.caCert
    allowInsecure := direct.allowInsecure }]
  failures := []
  terminal := none

variable (o : Outside)

def missingUrlFailure (machine key : String) (requestId : RequestId) (locateUrl : Url) :
    Op RequestFailure := do
  let failure ← RequestFailure.simple o .locate .protocol ("Locate candidate is missing " ++ key)
    (some locateUrl.text) requestId
  return { failure with
    serverName := some machine
    disposition := .tryNextTarget }

/-- The body of the loop over the targets: a candidate, or a failure. -/
def locateTarget (requestId : RequestId) (providerId : String) (locateUrl : Url)
    (result : LocateResult) : Op (EndpointCandidate ⊕ RequestFailure) :=
  match result.urls downloadKey with
  | none => Sum.inr <$> missingUrlFailure o result.machine downloadKey requestId locateUrl
  | some download =>
    match result.urls uploadKey with
    | none => Sum.inr <$> missingUrlFailure o result.machine uploadKey requestId locateUrl
    | some upload =>
      match ((o.parseUrl download).bind fun d => (o.parseUrl upload).map fun u => (d, u)).filter
          fun (d, u) => d.scheme = "wss" ∧ u.scheme = "wss" with
      | none => do
        let failure ← RequestFailure.simple o .locate .protocol
          "Locate candidate has invalid or insecure NDT7 URLs" (some locateUrl.text) requestId
        return .inr { failure with serverName := some result.machine }
      | some (downloadUrl, uploadUrl) =>
        return .inl {
          downloadUrl
          uploadUrl
          logicalServer := result.machine
          providerId
          providerKind := .mlab
          tlsServerName := none
          caCert := none
          allowInsecure := false }

/-- The loop over the targets. -/
def locateTargets (requestId : RequestId) (providerId : String) (locateUrl : Url) :
    List LocateResult → Op (List EndpointCandidate × List RequestFailure)
  | [] => return ([], [])
  | result :: results => do
    let target ← locateTarget o requestId providerId locateUrl result
    let (candidates, failures) ← locateTargets requestId providerId locateUrl results
    return target.elim (fun candidate => (candidate :: candidates, failures))
      fun failure => (candidates, failure :: failures)

def parseLocateCandidates (body : List UInt8) (providerId : String) (locateUrl : Url) :
    Op EndpointResolution :=
  match o.parseLocate body with
  | .error error => do
    let failure ← RequestFailure.simple o .locate .protocol ("invalid Locate response: " ++ error)
      (some locateUrl.text) (← newRequestId)
    return terminalResolution failure
  | .ok results => do
    let requestId ← newRequestId
    let (candidates, failures) ← locateTargets o requestId providerId locateUrl results
    if candidates.isEmpty then do
      let failure ← RequestFailure.simple o .locate .protocol
        "Locate returned no usable secure NDT7 targets" (some locateUrl.text) requestId
      return ⟨candidates, failures, some failure⟩
    else return ⟨candidates, failures, none⟩

/-- The failure of a response that is not `200`. -/
def locateFailure (status : ℕ) (retryHeader : Option (Option String)) (locateUrl : Url)
    (receivedAt : ℤ) (receivedMonotonic : ℕ) (requestId : RequestId) : RequestFailure :=
  let retryAfter := retryHeader.join.bind (parseRetryAfterValue o.parseHttpDate · receivedAt)
  let (outcome, baseMessage) :=
    if status = 204 then (Outcome.noCapacity, "Locate returned no capacity")
    else if status = 429 then (.rateLimited, "Locate rate limit")
    else if status = 503 ∧ retryAfter.isSome then
      (.rateLimited, "Locate service requested a retry delay")
    else if status = 503 then (.error, "Locate service unavailable")
    else (.error, "Locate returned an unexpected status")
  let retryDetail := match retryHeader.isSome, retryAfter.isSome with
    | true, true => "Retry-After parsed"
    | true, false => "Retry-After malformed"
    | false, _ => "Retry-After missing"
  { elapsed := 0
    finishedMonotonic := receivedMonotonic
    startedAtUtc := receivedAt
    finishedAtUtc := receivedAt
    direction := none
    stage := .locate
    outcome
    errorKind := .httpStatus
    message := baseMessage ++ "; " ++ retryDetail
    serverName := none
    requestUrl := some locateUrl.text
    localIp := none
    remoteIp := none
    osErrorCode := none
    requestId
    httpStatus := some status
    retryAfter
    disposition := .providerWide }

def bindHttpInterface (interface : Option String) : Except String Unit :=
  match interface with
  | some interface =>
    if o.bindsHttp then .ok ()
    else .error ("binding Locate requests to interface " ++ interface ++ " is unsupported")
  | none => .ok ()

def resolveMlab (config : BandwidthConfig) (mlab : MlabConfig) (interface : Option String) :
    Op EndpointResolution :=
  let refused (errorKind : ErrorKind) (message : String) : Op EndpointResolution := do
    let failure ← RequestFailure.simple o .locate errorKind message (some mlab.locateUrl.text)
      (← newRequestId)
    return terminalResolution failure
  match bindHttpInterface o interface with
  | .error message => refused .connect message
  | .ok () =>
    match o.httpClient with
    | .error error => refused .connect ("cannot configure Locate client: " ++ error)
    | .ok () => do
      let answer ← await o.locate
      match answer with
      | .refused error isTimeout =>
        refused (if isTimeout then .connect else .io) ("Locate request failed: " ++ error)
      | .response status retryHeader =>
        let receivedAt ← utcNow o
        let receivedMonotonic ← instantNow o
        if status ≠ 200 then
          return terminalResolution (locateFailure o status retryHeader mlab.locateUrl receivedAt
            receivedMonotonic (← newRequestId))
        else
          let body ← await o.locateBody
          match body with
          | .error error => refused .protocol ("cannot read Locate response: " ++ error)
          | .ok body => parseLocateCandidates o body config.providerId mlab.locateUrl

def resolveProvider (config : BandwidthConfig) (interface : Option String) :
    Op EndpointResolution :=
  match config.provider with
  | .direct direct => return resolveDirect config direct
  | .mlab mlab =>
    if mlab.policyAccepted then resolveMlab o config mlab interface
    else do
      let failure ← RequestFailure.simple o .locate .permissionDenied
        "M-Lab bandwidth requires explicit policy acceptance" (some mlab.locateUrl.text)
        (← newRequestId)
      return terminalResolution failure

def resolveEndpoints (config : BandwidthConfig) (interface : Option String) :
    Op EndpointResolution := do
  let requestId ← newRequestId
  let startedAt ← utcNow o
  let startedMonotonic ← instantNow o
  let resolution ← resolveProvider o config interface
  let mark (failure : RequestFailure) : RequestFailure := { failure with
    requestId
    startedAtUtc := startedAt
    elapsed := failure.finishedMonotonic - startedMonotonic }
  return { resolution with
    failures := resolution.failures.map mark
    terminal := resolution.terminal.map mark }

/-! ### What is resolved -/

/-- The URLs of a target, if both are there, valid and secure. -/
def targetUrls (result : LocateResult) : Option (Url × Url) := do
  let download ← result.urls downloadKey
  let upload ← result.urls uploadKey
  let download ← o.parseUrl download
  let upload ← o.parseUrl upload
  if download.scheme = "wss" ∧ upload.scheme = "wss" then some (download, upload) else none

/-- The candidate of a target with its URLs. -/
def mlabCandidate (providerId : String) (result : LocateResult) (urls : Url × Url) :
    EndpointCandidate where
  downloadUrl := urls.1
  uploadUrl := urls.2
  logicalServer := result.machine
  providerId
  providerKind := .mlab
  tlsServerName := none
  caCert := none
  allowInsecure := false

/-- A target yields its candidate or a failure that names it. -/
def Sorted (providerId : String) (result : LocateResult) :
    EndpointCandidate ⊕ RequestFailure → Prop
  | .inl candidate => (targetUrls o result).map (mlabCandidate providerId result) = some candidate
  | .inr failure => targetUrls o result = none ∧ failure.serverName = some result.machine ∧
      failure.stage = .locate ∧ failure.disposition ≠ .providerWide

lemma within_missingUrlFailure {machine key : String} {requestId : RequestId} {locateUrl : Url} :
    Within State.Idle (fun f => f.serverName = some machine ∧ f.stage = .locate ∧
        f.disposition ≠ .providerWide)
      (missingUrlFailure o machine key requestId locateUrl) := by
  unfold missingUrlFailure
  apply within_bind within_simple
  rintro f ⟨hsimple, -⟩
  exact within_pure ⟨rfl, hsimple.stage, by simp⟩

lemma within_locateTarget {requestId : RequestId} {providerId : String} {locateUrl : Url}
    (result : LocateResult) : Within State.Idle (Sorted o providerId result)
      (locateTarget o requestId providerId locateUrl result) := by
  unfold locateTarget
  split
  · next hdownload =>
    apply within_bind (within_missingUrlFailure o)
    exact fun f hf => within_pure ⟨by simp [targetUrls, hdownload], hf⟩
  · next download hdownload =>
    split
    · next hupload =>
      apply within_bind (within_missingUrlFailure o)
      exact fun f hf => within_pure ⟨by simp [targetUrls, hupload], hf⟩
    · next upload hupload =>
      have hurls : targetUrls o result =
          ((o.parseUrl download).bind fun d => (o.parseUrl upload).map fun u => (d, u)).filter
            fun (d, u) => d.scheme = "wss" ∧ u.scheme = "wss" := by
        rcases hd : o.parseUrl download with _ | d
        · simp [targetUrls, hdownload, hupload, hd]
        · rcases hu : o.parseUrl upload with _ | u <;>
            simp [targetUrls, hdownload, hupload, hd, hu, Option.filter]
      split
      · next hnone =>
        apply within_bind within_simple
        rintro f ⟨hsimple, -⟩
        refine within_pure ⟨hurls.trans hnone, rfl, hsimple.stage, ?_⟩
        rw [hsimple.disposition]
        decide
      · next downloadUrl uploadUrl hsome =>
        refine within_pure ?_
        change Option.map _ _ = _
        rw [hurls, hsome]
        rfl

/-- Every target of a response, in order. -/
structure Sorts (providerId : String) (results : List LocateResult)
    (sorted : List EndpointCandidate × List RequestFailure) : Prop where
  candidates : sorted.1 =
    results.filterMap fun result => (targetUrls o result).map (mlabCandidate providerId result)
  failures : sorted.2.map RequestFailure.serverName =
    (results.filter fun result => (targetUrls o result).isNone).map fun result =>
      some result.machine
  stage : ∀ f ∈ sorted.2, f.stage = .locate
  disposition : ∀ f ∈ sorted.2, f.disposition ≠ .providerWide

lemma within_locateTargets {requestId : RequestId} {providerId : String} {locateUrl : Url}
    (results : List LocateResult) : Within State.Idle (Sorts o providerId results)
      (locateTargets o requestId providerId locateUrl results) := by
  induction results with
  | nil => exact within_pure ⟨rfl, rfl, by simp, by simp⟩
  | cons result results ih =>
    unfold locateTargets
    apply within_bind (within_locateTarget o result)
    intro target htarget
    apply within_bind ih
    rintro ⟨candidates, failures⟩ hrest
    refine within_pure ?_
    rcases target with candidate | failure
    · refine ⟨?_, ?_, hrest.stage, hrest.disposition⟩
      · have hcons := List.filterMap_cons_some (l := results) (f := fun result =>
          (targetUrls o result).map (mlabCandidate providerId result)) htarget
        rw [hcons, ← hrest.candidates]
        rfl
      · have husable : (targetUrls o result).isNone = false := by
          obtain ⟨urls, hurls, -⟩ := Option.map_eq_some_iff.mp htarget
          rw [hurls]
          rfl
        rw [List.filter_cons_of_neg (by simp [husable])]
        exact hrest.failures
    · obtain ⟨hnone, hname, hstage, hdisposition⟩ := htarget
      refine ⟨?_, ?_, ?_, ?_⟩
      · rw [List.filterMap_cons_none (by rw [hnone]; rfl)]
        exact hrest.candidates
      · rw [List.filter_cons_of_pos (by rw [hnone]; rfl)]
        simp only [Sum.elim_inr, List.map_cons, hname, ← hrest.failures]
      · exact List.forall_mem_cons.mpr ⟨hstage, hrest.stage⟩
      · exact List.forall_mem_cons.mpr ⟨hdisposition, hrest.disposition⟩

/-- A failure to ask the service, or to make out what it answered. -/
structure Says (mlab : MlabConfig) (errorKind : ErrorKind) (message : String)
    (failure : RequestFailure) : Prop where
  stage : failure.stage = .locate
  errorKind : failure.errorKind = errorKind
  message : failure.message = message
  outcome : failure.outcome = .error
  requestUrl : failure.requestUrl = some mlab.locateUrl.text
  httpStatus : failure.httpStatus = none
  disposition : failure.disposition = .terminal

/-- A response that is not `200`: it is about the whole provider and limits it where it says so. -/
structure Refuses (mlab : MlabConfig) (status : ℕ) (retryHeader : Option (Option String))
    (failure : RequestFailure) : Prop where
  stage : failure.stage = .locate
  errorKind : failure.errorKind = .httpStatus
  requestUrl : failure.requestUrl = some mlab.locateUrl.text
  httpStatus : failure.httpStatus = some status
  disposition : failure.disposition = .providerWide
  retryAfter : failure.retryAfter =
    retryHeader.join.bind (parseRetryAfterValue o.parseHttpDate · failure.finishedAtUtc)
  outcome : failure.outcome =
    if status = 204 then .noCapacity
    else if status = 429 ∨ (status = 503 ∧ failure.retryAfter.isSome) then .rateLimited
    else .error

/-- The service is asked: its policy is accepted, and there is a client for the interface. -/
structure Asked (config : BandwidthConfig) (interface : Option String) (mlab : MlabConfig) :
    Prop where
  provider : config.provider = .mlab mlab
  policyAccepted : mlab.policyAccepted = true
  bound : interface = none ∨ o.bindsHttp = true
  client : o.httpClient = .ok ()

/-- What a resolution is, by the configuration, the answer to the request and what is read of its
body. -/
inductive Resolved (config : BandwidthConfig) (interface : Option String)
    (answer : Option LocateAnswer) (body : Option (Except String (List UInt8))) :
    EndpointResolution → Prop
  /-- the target of the configuration -/
  | direct (direct : DirectConfig) (provider : config.provider = .direct direct) :
    Resolved config interface answer body {
      candidates := [{
        downloadUrl := direct.downloadUrl
        uploadUrl := direct.uploadUrl
        logicalServer := direct.tlsServerName.getD (direct.downloadUrl.hostStr.getD "unknown")
        providerId := config.providerId
        providerKind := .direct
        tlsServerName := direct.tlsServerName
        caCert := direct.caCert
        allowInsecure := direct.allowInsecure }]
      failures := []
      terminal := none }
  | unaccepted (mlab : MlabConfig) (provider : config.provider = .mlab mlab)
    (policyAccepted : mlab.policyAccepted = false) (failure : RequestFailure)
    (told : Says mlab .permissionDenied "M-Lab bandwidth requires explicit policy acceptance"
      failure) : Resolved config interface answer body ⟨[], [], some failure⟩
  | unbound (mlab : MlabConfig) (provider : config.provider = .mlab mlab)
    (policyAccepted : mlab.policyAccepted = true) (name : String) (named : interface = some name)
    (bound : o.bindsHttp = false) (failure : RequestFailure)
    (told : Says mlab .connect
      ("binding Locate requests to interface " ++ name ++ " is unsupported") failure) :
    Resolved config interface answer body ⟨[], [], some failure⟩
  | unconfigured (mlab : MlabConfig) (provider : config.provider = .mlab mlab)
    (policyAccepted : mlab.policyAccepted = true) (error : String)
    (client : o.httpClient = .error error) (failure : RequestFailure)
    (told : Says mlab .connect ("cannot configure Locate client: " ++ error) failure) :
    Resolved config interface answer body ⟨[], [], some failure⟩
  | unanswered (mlab : MlabConfig) (asked : Asked o config interface mlab) (error : String)
    (isTimeout : Bool) (answered : answer = some (.refused error isTimeout))
    (failure : RequestFailure)
    (told : Says mlab (if isTimeout then .connect else .io) ("Locate request failed: " ++ error)
      failure) : Resolved config interface answer body ⟨[], [], some failure⟩
  | refused (mlab : MlabConfig) (asked : Asked o config interface mlab) (status : ℕ)
    (retryHeader : Option (Option String)) (answered : answer = some (.response status retryHeader))
    (refused : status ≠ 200) (failure : RequestFailure)
    (refuses : Refuses o mlab status retryHeader failure) :
    Resolved config interface answer body ⟨[], [], some failure⟩
  | unread (mlab : MlabConfig) (asked : Asked o config interface mlab)
    (retryHeader : Option (Option String)) (answered : answer = some (.response 200 retryHeader))
    (error : String) (read : body = some (.error error)) (failure : RequestFailure)
    (told : Says mlab .protocol ("cannot read Locate response: " ++ error) failure) :
    Resolved config interface answer body ⟨[], [], some failure⟩
  | unparsed (mlab : MlabConfig) (asked : Asked o config interface mlab)
    (retryHeader : Option (Option String)) (answered : answer = some (.response 200 retryHeader))
    (bytes : List UInt8) (read : body = some (.ok bytes)) (error : String)
    (parsed : o.parseLocate bytes = .error error) (failure : RequestFailure)
    (told : Says mlab .protocol ("invalid Locate response: " ++ error) failure) :
    Resolved config interface answer body ⟨[], [], some failure⟩
  /-- a response, of which every target is accounted for -/
  | located (mlab : MlabConfig) (asked : Asked o config interface mlab)
    (retryHeader : Option (Option String)) (answered : answer = some (.response 200 retryHeader))
    (bytes : List UInt8) (read : body = some (.ok bytes)) (results : List LocateResult)
    (parsed : o.parseLocate bytes = .ok results) (r : EndpointResolution)
    (sorts : Sorts o config.providerId results (r.candidates, r.failures))
    (terminal : r.terminal.isSome ↔ r.candidates = [])
    (told : ∀ f ∈ r.terminal,
      Says mlab .protocol "Locate returned no usable secure NDT7 targets" f) :
    Resolved config interface answer body r

section resolved
variable {o} {config : BandwidthConfig} {interface : Option String} {mlab : MlabConfig}

lemma RequestFailure.Simple.told {errorKind : ErrorKind} {message : String}
    {failure : RequestFailure}
    (h : failure.Simple .locate errorKind message (some mlab.locateUrl.text)) :
    Says mlab errorKind message failure :=
  ⟨h.stage, h.errorKind, h.message, h.outcome, h.requestUrl, h.httpStatus, h.disposition⟩

lemma Says.mark {errorKind : ErrorKind} {message : String} {failure : RequestFailure}
    (h : Says mlab errorKind message failure) (requestId : RequestId) (startedAtUtc : ℤ)
    (elapsed : ℕ) : Says mlab errorKind message { failure with requestId, startedAtUtc, elapsed } :=
  ⟨h.stage, h.errorKind, h.message, h.outcome, h.requestUrl, h.httpStatus, h.disposition⟩

lemma Refuses.mark {status : ℕ} {retryHeader : Option (Option String)} {failure : RequestFailure}
    (h : Refuses o mlab status retryHeader failure) (requestId : RequestId) (startedAtUtc : ℤ)
    (elapsed : ℕ) :
    Refuses o mlab status retryHeader { failure with requestId, startedAtUtc, elapsed } :=
  ⟨h.stage, h.errorKind, h.requestUrl, h.httpStatus, h.disposition, h.retryAfter, h.outcome⟩

/-- A resolution keeps its case when its failures are marked as those of a request. -/
lemma Resolved.mark {answer : Option LocateAnswer} {body : Option (Except String (List UInt8))}
    {r : EndpointResolution} (h : Resolved o config interface answer body r)
    (requestId : RequestId) (startedAtUtc : ℤ) (elapsed : RequestFailure → ℕ) :
    Resolved o config interface answer body { r with
      failures := r.failures.map fun f => { f with requestId, startedAtUtc, elapsed := elapsed f }
      terminal := r.terminal.map fun f =>
        { f with requestId, startedAtUtc, elapsed := elapsed f } } := by
  cases h with
  | direct direct provider => exact .direct direct provider
  | unaccepted mlab provider policyAccepted f told =>
    exact .unaccepted mlab provider policyAccepted _ (told.mark _ _ _)
  | unbound mlab provider policyAccepted name named bound f told =>
    exact .unbound mlab provider policyAccepted name named bound _ (told.mark _ _ _)
  | unconfigured mlab provider policyAccepted error client f told =>
    exact .unconfigured mlab provider policyAccepted error client _ (told.mark _ _ _)
  | unanswered mlab asked error isTimeout answered f told =>
    exact .unanswered mlab asked error isTimeout answered _ (told.mark _ _ _)
  | refused mlab asked status retryHeader answered hstatus f refuses =>
    exact .refused mlab asked status retryHeader answered hstatus _ (refuses.mark _ _ _)
  | unread mlab asked retryHeader answered error read f told =>
    exact .unread mlab asked retryHeader answered error read _ (told.mark _ _ _)
  | unparsed mlab asked retryHeader answered bytes read error parsed f told =>
    exact .unparsed mlab asked retryHeader answered bytes read error parsed _ (told.mark _ _ _)
  | located mlab asked retryHeader answered bytes read results parsed r sorts terminal told =>
    refine .located mlab asked retryHeader answered bytes read results parsed _
      ⟨sorts.candidates, ?_, ?_, ?_⟩ ?_ ?_
    · rw [← sorts.failures, List.map_map]
      rfl
    · exact List.forall_mem_map.mpr sorts.stage
    · exact List.forall_mem_map.mpr sorts.disposition
    · rw [← terminal, Option.isSome_map]
    · intro f hf
      obtain ⟨g, hg, rfl⟩ := Option.map_eq_some_iff.mp hf
      exact (told g hg).mark _ _ _

lemma refuses_locateFailure (status : ℕ) (retryHeader : Option (Option String)) (receivedAt : ℤ)
    (receivedMonotonic : ℕ) (requestId : RequestId) :
    Refuses o mlab status retryHeader
      (locateFailure o status retryHeader mlab.locateUrl receivedAt receivedMonotonic
        requestId) where
  stage := rfl
  errorKind := rfl
  requestUrl := rfl
  httpStatus := rfl
  disposition := rfl
  retryAfter := rfl
  outcome := by
    unfold locateFailure
    dsimp only
    by_cases h204 : status = 204
    · simp [h204]
    · by_cases h429 : status = 429
      · simp [h429]
      · by_cases h503 : status = 503
        · cases retryHeader.join.bind (parseRetryAfterValue o.parseHttpDate · receivedAt) <;>
            simp [h503]
        · simp [h204, h429, h503]

/-- A failure before any answer, or about one. -/
lemma within_told {errorKind : ErrorKind} {message : String} :
    Within State.Idle (fun r => ∃ f, Says mlab errorKind message f ∧ r = ⟨[], [], some f⟩) (do
      let failure ← RequestFailure.simple o .locate errorKind message (some mlab.locateUrl.text)
        (← newRequestId)
      return terminalResolution failure) := by
  apply within_bind within_newRequestId
  intro requestId _
  apply within_bind within_simple
  exact fun f hf => within_pure ⟨f, hf.1.told, rfl⟩

lemma within_parseLocateCandidates (h : Asked o config interface mlab)
    {retryHeader : Option (Option String)} (bytes : List UInt8) :
    Within State.Idle
      (Resolved o config interface (some (.response 200 retryHeader)) (some (.ok bytes)))
      (parseLocateCandidates o bytes config.providerId mlab.locateUrl) := by
  unfold parseLocateCandidates
  split
  · next error hparsed =>
    refine within_told.mono (fun _ _ => id) ?_
    rintro r ⟨f, htold, rfl⟩
    exact .unparsed mlab h retryHeader rfl bytes rfl error hparsed f htold
  · next results hparsed =>
    apply within_bind within_newRequestId
    intro requestId _
    apply within_bind (within_locateTargets o results)
    rintro ⟨candidates, failures⟩ hsorts
    dsimp only
    split_ifs with hempty
    · apply within_bind within_simple
      rintro f ⟨hf, -⟩
      refine within_pure
        (.located mlab h retryHeader rfl bytes rfl results hparsed _ hsorts ?_ ?_)
      · simpa using hempty
      · rintro g ⟨⟩
        exact hf.told
    · refine within_pure
        (.located mlab h retryHeader rfl bytes rfl results hparsed _ hsorts ?_ ?_)
      · simpa using hempty
      · rintro g ⟨⟩

/-- What is left of a state by a reading of a clock. -/
lemma State.Idle.read {s s' : State} (h : s.Idle s') (k : ℕ) :
    s.Idle { s' with readings := k } :=
  ⟨⟨h.quiet.contacts, h.quiet.admission, h.quiet.phase, h.quiet.requestIds⟩, h.progress⟩

/-- The end of a computation that stays idle. -/
lemma saves_within {α : Type} {P P' : α → Prop} {c : Op α} {s s' : State}
    (h : Within State.Idle P c) (hs : s.Idle s') (hP : ∀ a, P a → P' a) :
    Saves s.Idle s' c (fun a x => s.Idle x ∧ P' a) fun _ => s.Idle :=
  saves_mono ((h s').weaken fun _ => trans_of State.Idle hs)
    (fun a _ ha => ⟨trans_of State.Idle hs ha.1, hP a ha.2⟩) fun _ _ => trans_of State.Idle hs

/-- The request is the next reading, and the body is read after the clocks. -/
lemma saves_resolveMlab (h : config.provider = .mlab mlab)
    (haccepted : mlab.policyAccepted = true) {s s' : State} (hs : s.Idle s') :
    Saves s.Idle s' (resolveMlab o config mlab interface)
      (fun r x => s.Idle x ∧ Resolved o config interface (o.locate s'.readings)
        (o.locateBody (s'.readings + 3)) r) fun _ => s.Idle := by
  unfold resolveMlab
  dsimp only
  split
  · next message hbind =>
    refine saves_within within_told hs ?_
    rintro r ⟨f, htold, rfl⟩
    unfold bindHttpInterface at hbind
    split at hbind
    · next name =>
      split_ifs at hbind with hbinds
      cases hbind
      exact .unbound mlab h haccepted name rfl (by simpa using hbinds) f htold
    · cases hbind
  next hbind =>
  have hbound : interface = none ∨ o.bindsHttp = true := by
    unfold bindHttpInterface at hbind
    split at hbind
    · split_ifs at hbind with hbinds
      exact .inr hbinds
    · exact .inl rfl
  split
  · next error hclient =>
    refine saves_within within_told hs ?_
    rintro r ⟨f, htold, rfl⟩
    exact .unconfigured mlab h haccepted error hclient f htold
  next hclient =>
  have hasked : Asked o config interface mlab := ⟨h, haccepted, hbound, hclient⟩
  apply saves_bind
  refine saves_await hs (fun _ => hs.read _) ?_
  rintro (⟨error, isTimeout⟩ | ⟨status, retryHeader⟩) hanswer
  · refine saves_within within_told (hs.read _) ?_
    rintro r ⟨f, htold, rfl⟩
    exact .unanswered mlab hasked error isTimeout hanswer f htold
  rw [hanswer]
  apply saves_bind
  apply saves_edit
  apply saves_bind
  apply saves_edit
  dsimp only
  split_ifs with hstatus
  · refine saves_within (within_bind within_newRequestId fun requestId _ => within_pure ?_)
      (hs.read _) fun _ => id
    exact .refused mlab hasked status retryHeader rfl hstatus _ (refuses_locateFailure ..)
  · obtain rfl := not_not.mp hstatus
    apply saves_bind
    refine saves_await (hs.read _) (fun _ => hs.read _) ?_
    rintro (error | bytes) hbody
    · refine saves_within within_told (hs.read _) ?_
      rintro r ⟨f, htold, rfl⟩
      exact .unread mlab hasked retryHeader rfl error hbody f htold
    · have hparse := @within_parseLocateCandidates o config interface mlab hasked retryHeader bytes
      rw [← hbody] at hparse
      exact saves_within hparse (hs.read _) fun _ => id

lemma saves_resolveProvider {s s' : State} (hs : s.Idle s') :
    Saves s.Idle s' (resolveProvider o config interface)
      (fun r x => s.Idle x ∧ Resolved o config interface (o.locate s'.readings)
        (o.locateBody (s'.readings + 3)) r) fun _ => s.Idle := by
  unfold resolveProvider
  split
  · next direct h => exact saves_pure ⟨hs, .direct direct h⟩
  · next mlab h =>
    split_ifs with haccepted
    · exact saves_resolveMlab h haccepted hs
    · refine saves_within within_told hs ?_
      rintro r ⟨f, htold, rfl⟩
      exact .unaccepted mlab h (by simpa using haccepted) f htold

lemma saves_resolveEndpoints (s : State) : Saves s.Idle s (resolveEndpoints o config interface)
    (fun r s' => s.Idle s' ∧ Resolved o config interface (o.locate (s.readings + 2))
        (o.locateBody (s.readings + 5)) r ∧
      ∀ f ∈ r.failures ++ r.terminal.toList, f.requestId = s.requestIds) fun _ => s.Idle := by
  unfold resolveEndpoints
  apply saves_bind
  apply saves_edit
  apply saves_bind
  apply saves_edit
  apply saves_bind
  apply saves_edit
  apply saves_bind
  refine saves_mono (saves_resolveProvider ?_) ?_ fun _ _ => id
  · exact ⟨⟨rfl, rfl, rfl, Nat.le_succ _⟩, rfl⟩
  · rintro r s' ⟨hs', hr⟩
    refine saves_pure ⟨hs', hr.mark _ _ _, fun f hf => ?_⟩
    rcases List.mem_append.mp hf with hf | hf
    · obtain ⟨g, -, rfl⟩ := List.mem_map.mp hf
      rfl
    · obtain ⟨g, -, rfl⟩ := Option.map_eq_some_iff.mp (Option.mem_toList.mp hf)
      rfl

lemma Resolved.failures {answer : Option LocateAnswer} {body : Option (Except String (List UInt8))}
    {r : EndpointResolution} (h : Resolved o config interface answer body r) :
    ∀ f ∈ r.failures, f.disposition ≠ .providerWide := by
  cases h with
  | located mlab asked retryHeader answered bytes read results parsed r sorts =>
    exact sorts.disposition
  | _ => simp

lemma completes_simple {stage : RequestStage} {errorKind : ErrorKind} {message : String}
    {requestUrl : Option String} {requestId : RequestId} :
    Completes (RequestFailure.simple o stage errorKind message requestUrl requestId) :=
  completes_edit

lemma completes_locateTarget {requestId : RequestId} {providerId : String} {locateUrl : Url}
    (result : LocateResult) :
    Completes (locateTarget o requestId providerId locateUrl result) := by
  have hmissing : ∀ key, Completes
      (Sum.inr <$> missingUrlFailure o result.machine key requestId locateUrl :
        Op (EndpointCandidate ⊕ RequestFailure)) := fun key =>
    completes_bind (completes_bind completes_simple fun _ => completes_pure) fun _ =>
      completes_pure
  unfold locateTarget
  split
  · exact hmissing _
  split
  · exact hmissing _
  split
  · exact completes_bind completes_simple fun _ => completes_pure
  · exact completes_pure

lemma completes_locateTargets {requestId : RequestId} {providerId : String} {locateUrl : Url}
    (results : List LocateResult) :
    Completes (locateTargets o requestId providerId locateUrl results) := by
  induction results with
  | nil => exact completes_pure
  | cons result results ih =>
    exact completes_bind (completes_locateTarget result) fun _ =>
      completes_bind ih fun _ => completes_pure

lemma completes_terminal {errorKind : ErrorKind} {message : String} : Completes (do
      let failure ← RequestFailure.simple o .locate errorKind message (some mlab.locateUrl.text)
        (← newRequestId)
      return terminalResolution failure) :=
  completes_bind completes_edit fun _ => completes_bind completes_simple fun _ => completes_pure

lemma completes_parseLocateCandidates {bytes : List UInt8} {providerId : String} :
    Completes (parseLocateCandidates o bytes providerId mlab.locateUrl) := by
  unfold parseLocateCandidates
  split
  · exact completes_terminal
  · refine completes_bind completes_edit fun requestId => ?_
    refine completes_bind (completes_locateTargets _) ?_
    rintro ⟨candidates, failures⟩
    dsimp only
    split_ifs
    · exact completes_bind completes_simple fun _ => completes_pure
    · exact completes_pure

lemma completes_resolveProvider (hlocate : ∀ n, (o.locate n).isSome)
    (hbody : ∀ n, (o.locateBody n).isSome) :
    Completes (resolveProvider o config interface) := by
  unfold resolveProvider
  split
  · exact completes_pure
  split_ifs
  swap
  · exact completes_terminal
  unfold resolveMlab
  dsimp only
  split
  · exact completes_terminal
  split
  · exact completes_terminal
  refine completes_bind (completes_await hlocate) ?_
  rintro (⟨error, isTimeout⟩ | ⟨status, retryHeader⟩)
  · exact completes_terminal
  refine completes_bind completes_edit fun _ => completes_bind completes_edit fun _ => ?_
  split_ifs
  · exact completes_bind completes_edit fun _ => completes_pure
  refine completes_bind (completes_await hbody) ?_
  rintro (error | bytes)
  · exact completes_terminal
  · exact completes_parseLocateCandidates

/-- The resolution of endpoints calls no measurement server and returns if the service answers. A
direct configuration gives its target; M-Lab gives one failure that says what was refused, or, for
a response with targets, every target in order as a secure candidate or as a failure that names it.
All failures go under one identifier. -/
theorem endpoints_accounted_for (o : Outside) (config : BandwidthConfig)
    (interface : Option String) :
    (∀ s, Saves s.Idle s (resolveEndpoints o config interface)
      (fun r s' => s.Idle s' ∧ Resolved o config interface (o.locate (s.readings + 2))
          (o.locateBody (s.readings + 5)) r ∧
        ∀ f ∈ r.failures ++ r.terminal.toList, f.requestId = s.requestIds) fun _ => s.Idle) ∧
    ((∀ n, (o.locate n).isSome) → (∀ n, (o.locateBody n).isSome) →
      Completes (resolveEndpoints o config interface)) := by
  refine ⟨saves_resolveEndpoints, fun hlocate hbody => ?_⟩
  refine completes_bind completes_edit fun _ => completes_bind completes_edit fun _ => ?_
  refine completes_bind completes_edit fun _ => ?_
  exact completes_bind (completes_resolveProvider hlocate hbody) fun _ => completes_pure

end resolved

end Netband.Bandwidth
