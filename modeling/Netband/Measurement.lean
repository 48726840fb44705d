import Netband.Failover

/-!
A bandwidth test from the resolution of its endpoints to its report.

No server of a test is called before its start is admitted, and a test that is dropped where it
waits reports what it has. The bandwidth event of a report stands last and names the server that
its measurements were made against.
-/

namespace Netband.Bandwidth

open Netband.Time Netband.Model Netband.Coordinator Netband.Effects Netband.Upload Saving

variable (o : Outside)

/-! ### The attempt -/

def setAdmission (admission : Except String AdmissionReservation) : Op Unit :=
  onWorld fun w => ((), { w with admission := some admission })

def addFailures (failures : List RequestFailure) : Op Unit :=
  onProgress fun p => { p with failures := p.failures ++ failures }

def proceed (interface : Option String) (candidates : List EndpointCandidate) :
    Except String AdmissionReservation → Op Outcome
  | .ok _ => runCandidates o interface candidates
  | .error message => do
    let requestId ← newRequestId
    let failure ← RequestFailure.simple o .connect .internal
      ("cannot persist bandwidth reservation: " ++ message) none requestId
    recordFailure { failure with outcome := .error }
    return .error

/-- The part of a test that can be dropped where it waits. -/
def attempt (config : BandwidthConfig) (interface : Option String) : Op Outcome := do
  let resolution ← resolveEndpoints o config interface
  let s ← get
  let mark (failure : RequestFailure) : RequestFailure :=
    { failure with requestId := s.progress.active.requestId }
  addFailures (resolution.failures.map mark)
  match resolution.terminal with
  | some terminal =>
    addFailures [mark terminal]
    return terminal.outcome
  | none =>
    beginStage o .connect
    let now ← utcNow o
    setAdmission (o.reserve now)
    proceed o interface resolution.candidates (o.reserve now)

/-! ### Reports -/

/-- An event with the columns of a report; those of a direction are kept as its measurement. -/
structure ReportEvent extends MeasurementEvent where
  startedAtUtc : Option ℤ := none
  elapsedNanos : Option ℕ := none
  serverName : Option String := none
  requestUrl : Option String := none
  requestLocalIp : Option IpAddr := none
  requestRemoteIp : Option IpAddr := none
  requestDirection : Option RequestDirection := none
  requestId : Option RequestId := none
  osErrorCode : Option ℤ := none
  download : Option DirectionMeasurement := none
  upload : Option DirectionMeasurement := none
  bandwidthStartReserved : Option Bool := none
  deriving DecidableEq

structure Report where
  events : List ReportEvent
  outcome : Outcome
  reserved : Bool := false
  reservationError : Option String := none

/-- The part of a report that is known before the test. -/
structure Subject where
  runId : RunId
  interface : Option String
  providerId : String
  providerKind : ProviderKind

def failureEvent (subject : Subject) (failure : RequestFailure) : ReportEvent where
  eventKind := .requestFailure
  runId := subject.runId
  outcome := failure.outcome
  finishedAtUtc := some failure.finishedAtUtc
  startedAtUtc := some failure.startedAtUtc
  elapsedNanos := some failure.elapsed
  interface := subject.interface
  providerId := some subject.providerId
  providerKind := some subject.providerKind
  serverName := failure.serverName
  requestUrl := failure.requestUrl
  requestLocalIp := failure.localIp
  requestRemoteIp := failure.remoteIp
  requestDirection := failure.direction
  requestStage := some failure.stage
  requestId := some failure.requestId
  requestHttpStatus := failure.httpStatus
  requestRetryAfterMs := failure.retryAfter.bind fun retry =>
    if retry.delay / 1000000 ≤ u64Max then some (retry.delay / 1000000) else none
  requestRetryAtUtc := failure.retryAfter.map (·.deadline)
  errorKind := some failure.errorKind
  osErrorCode := failure.osErrorCode
  message := some failure.message

def bandwidthEvent (subject : Subject) (p : AttemptProgress) (outcome : Outcome)
    (finishedAtUtc : ℤ) (elapsed : ℕ) : ReportEvent where
  eventKind := .bandwidth
  runId := subject.runId
  outcome
  finishedAtUtc := some finishedAtUtc
  startedAtUtc := some p.startedAtUtc
  elapsedNanos := some elapsed
  interface := subject.interface
  triggerReason := some .manual
  providerId := some subject.providerId
  providerKind := some subject.providerKind
  serverName := p.serverName
  download := p.download
  upload := p.upload
  downloadRemoteIp := p.download.map (·.remoteIp.text)
  uploadRemoteIp := p.upload.map (·.remoteIp.text)
  errorKind := if outcome = .success then none else p.failures.getLast?.map (·.errorKind)
  message := if outcome = .success then none else p.failures.getLast?.map (·.message)

def reportFromResult (subject : Subject) (p : AttemptProgress) (outcome : Outcome)
    (finishedAtUtc : ℤ) (elapsed : ℕ) : Report where
  events := p.failures.map (failureEvent subject) ++
    [bandwidthEvent subject p outcome finishedAtUtc elapsed]
  outcome

def admissionOf : Option (Except String AdmissionReservation) → AdmissionReservation
  | some (.ok admission) => admission
  | _ => .untracked

def reservationError : Option (Except String AdmissionReservation) → Option String
  | some (.error message) => some message
  | _ => none

def AdmissionReservation.apply (admission : AdmissionReservation) (event : ReportEvent) :
    ReportEvent :=
  if event.eventKind ≠ .bandwidth then event
  else match admission with
    | .untracked => { event with bandwidthStartReserved := some false }
    | .reserved accountingDate dailyBandwidthStarts => { event with
      bandwidthStartReserved := some true
      providerAccountingDate := some accountingDate
      providerDailyStarts := some dailyBandwidthStarts }

def applyAdmission (report : Report) (admission : AdmissionReservation) : Report := { report with
  reserved := admission ≠ .untracked
  events := report.events.map admission.apply }

/-! ### The test -/

inductive Interruption
  | cancelled
  | timeout
  deriving DecidableEq

def Interruption.outcome : Interruption → Outcome
  | .cancelled => .cancelled
  | .timeout => .timeout

def AttemptProgress.interrupt (interruption : Interruption) (timeoutText : String)
    (finishedAt : ℤ) (finishedMonotonic : ℕ) (p : AttemptProgress) : AttemptProgress :=
  { p with
    failures := p.failures ++ [{ p.active with
      finishedAtUtc := finishedAt
      finishedMonotonic
      elapsed := finishedMonotonic - p.stageStartedMonotonic
      outcome := interruption.outcome
      errorKind := match interruption with
        | .timeout => .timeout
        | .cancelled => .cancelled
      message := match interruption with
        | .timeout => "NDT7 test timed out after " ++ timeoutText
        | .cancelled => "NDT7 test was cancelled" }] }

def initialStage (config : BandwidthConfig) : RequestStage :=
  match config.providerKind with
  | .mlab => .locate
  | .direct => .dns

/-- The state in which a test begins, with its phase shown if there is anyone to see it. -/
def begun (config : BandwidthConfig) (observed : Bool) : State :=
  let w : World := { phase := if observed then some .setup else none }
  let (p, w) := AttemptProgress.new o (initialStage config) w
  { toWorld := w
    progress := { p with active := { p.active with
      requestUrl := match config.provider with
        | .mlab mlab => some mlab.locateUrl.text
        | .direct _ => none } } }

/-- The report of a test that has ended, or was dropped, in a state. -/
def finish (subject : Subject) (timeoutText : String) (interruption : Option Interruption)
    (outcome : Outcome) (s : State) : Report :=
  let finishedAt := o.utc s.readings
  let finishedMonotonic := o.monotonic (s.readings + 1)
  let p := interruption.elim s.progress fun i =>
    s.progress.interrupt i timeoutText finishedAt finishedMonotonic
  applyAdmission
    { reportFromResult subject p outcome finishedAt (finishedMonotonic - p.startedMonotonic) with
      reservationError := reservationError s.admission }
    (admissionOf s.admission)

/-- The states in which a test can be dropped: at its begin and where it waits. -/
def points (config : BandwidthConfig) (interface : Option String) (observed : Bool) : List State :=
  begun o config observed :: (attempt o config interface (begun o config observed)).1

/-- A retained measurement was made by a call of the server that the progress names. -/
def Measured (s : State) (direction : RequestDirection) (m : DirectionMeasurement) : Prop :=
  ∃ x ∈ s.contacts, x.direction = direction ∧ x.requestId = m.requestId ∧
    s.progress.serverName = some x.server.logicalServer ∧
    ∃ remote, x.call = .connect remote ∧ remote.ip = m.remoteIp

/-- No server was called, and nothing is retained. -/
structure Untouched (s : State) : Prop where
  contacts : s.contacts = []
  download : s.progress.download = none
  upload : s.progress.upload = none

section accounts
variable {o} {a s : State} {trials : List Trial} {t : Trial} {P : Unit → Prop} {β : Type}

lemma Untouched.stays {s' : State} (h : Untouched s) (hs : s.Stays s') : Untouched s' :=
  ⟨hs.contacts.trans h.contacts, hs.download.trans h.download, hs.upload.trans h.upload⟩

/-- What is retained is of the candidate that was tried last. -/
lemma Course.candidate {candidates : List EndpointCandidate} {u : Trial}
    (h : Course candidates trials) (ht : t ∈ trials) (hm : t.measurement ≠ none)
    (hu : u ∈ trials.getLast?) : u.candidate = t.candidate := by
  induction h with
  | begun => simp at ht
  | download candidates v hv =>
    have hlast : v = u := by simpa using hu
    rw [List.mem_singleton.mp ht, hlast]
  | upload candidates v w hv hcalm hover hskipped hcandidate hw =>
    have hlast : w = u := by simpa using hu
    rcases List.mem_pair.mp ht with rfl | rfl
    · rw [← hlast, hcandidate]
    · rw [hlast]
  | skip candidates v trials hcalm hskipped h ih =>
    rcases List.mem_cons.mp ht with rfl | ht
    · exact absurd hskipped.2.1 hm
    · apply ih ht
      rwa [List.getLast?_cons_of_ne_nil (List.ne_nil_of_mem ht)] at hu

lemma Tells.measured {candidates : List EndpointCandidate} {d : RequestDirection}
    {m : DirectionMeasurement} (h : Tells a trials s) (hcourse : Course candidates trials)
    (hnamed : Named trials s) (hm : retained d trials = some m) : Measured s d m := by
  obtain ⟨t, ht, hfound⟩ := List.exists_of_findSome?_eq_some hm
  split_ifs at hfound with hdirection
  obtain ⟨x, hx, hid, remote, hcall, hip⟩ := (h.sound t ht).measurement m hfound
  have hmem : x ∈ t.contacts := List.mem_of_getLast? hx
  have hcontacts : x ∈ s.contacts := by
    rw [h.contacts]
    exact List.mem_append_right _ (List.mem_flatMap.mpr ⟨t, ht, hmem⟩)
  have hsound := (h.sound t ht).contacts x hmem
  refine ⟨x, hcontacts, hsound.2.trans hdirection, hid, ?_, remote, hcall, hip⟩
  have hlast := List.getLast?_eq_some_getLast (List.ne_nil_of_mem ht)
  rw [hnamed _ hlast, hcourse.candidate ht (by simp [hfound]) hlast, hsound.1]

end accounts

end Netband.Bandwidth
